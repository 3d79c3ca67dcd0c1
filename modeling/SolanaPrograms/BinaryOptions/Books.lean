import SolanaPrograms.BinaryOptions.Consent

/-!
# The books of a pool

A pool keeps its collateral in an escrow account, and the tokens of its two sides are issued by two
mints, all three in the hands of an address derived from the mints. `Books` reads the three numbers
from the store. Without the authority they get no worse (`Safe`), and each call of the token program
changes them in one place only, so that a trade and a collection net to a change of the books that
does not depend on who traded (`settleTrade_books`, `collect_books`). `BinaryOption.Law` is what the
numbers should obey.
-/

namespace SolanaPrograms.BinaryOptions

open Outcome SolanaPrograms.Runtime UInt64 BinaryOption Nat
open Token (Mint Account TokenInstruction tokenProgramId accountAt mintAt)

/-! ## Books -/

/-- The addresses at which a pool keeps its books. -/
structure Keys where
  authority : Pubkey
  escrow : Pubkey
  escrowMint : Pubkey
  long : Pubkey
  short : Pubkey

/-- The collateral is not one of the two sides. -/
structure Keys.Apart (B : Keys) : Prop where
  sides : B.long ≠ B.short
  long : B.escrowMint ≠ B.long
  short : B.escrowMint ≠ B.short

def Issues (s : Bank) (k authority : Pubkey) (supply : UInt64) : Prop :=
  ∃ m, mintAt tokenProgramId s k = some m ∧ m.mintAuthority = some authority ∧ m.supply = supply

/-- An account that only `owner` has a say over, with the given balance. -/
def Holds (s : Bank) (k owner mint : Pubkey) (amount : UInt64) : Prop :=
  ∃ a, accountAt tokenProgramId s k = some a ∧ a.Guarded ∧ a.owner = owner ∧ a.mint = mint ∧
    a.amount = amount

/-- What the books say: the escrow holds `E`, and `L` and `S` are the supplies of the sides. -/
structure Books (s : Bank) (B : Keys) (E L S : UInt64) : Prop where
  escrow : Holds s B.escrow B.authority B.escrowMint E
  long : Issues s B.long B.authority L
  short : Issues s B.short B.authority S

section Views

variable {s s' s₁ : Bank} {k authority mint : Pubkey} {B : Keys} {E L S x : UInt64}

theorem Issues.of_eq (h : Issues s k authority x)
    (heq : mintAt tokenProgramId s' k = mintAt tokenProgramId s k) : Issues s' k authority x := by
  obtain ⟨m, hm, hrest⟩ := h
  exact ⟨m, heq.trans hm, hrest⟩

variable {owner : Pubkey} {accounts : List AccountMeta}

theorem Holds.of_eq (h : Holds s k owner mint x)
    (heq : accountAt tokenProgramId s' k = accountAt tokenProgramId s k) :
    Holds s' k owner mint x := by
  obtain ⟨a, ha, hrest⟩ := h
  exact ⟨a, heq.trans ha, hrest⟩

/-- The balance of an account that stays in the hands of its owner is rewritten. -/
theorem Holds.paid {a : Account} (hg : a.Guarded) (howner : a.owner = owner) (hmint : a.mint = mint)
    (h : accountAt tokenProgramId s k = some { a with amount := x }) : Holds s k owner mint x :=
  ⟨_, h, ⟨hg.notSystem, hg.delegate, hg.closeAuthority⟩, howner, hmint, rfl⟩

theorem Issues.live (h : Issues s k authority x) : mintAt tokenProgramId s k ≠ none := by
  obtain ⟨_, hm, -⟩ := h
  simp [hm]

theorem Holds.live (h : Holds s k owner mint x) : accountAt tokenProgramId s k ≠ none := by
  obtain ⟨_, ha, -⟩ := h
  simp [ha]

/-! ## Books that get no worse -/

/-- Without its authority, the books of a pool get no worse: the escrow loses nothing, and no side
grows. Nor does the authority become an account of the token program. -/
structure Safe (B : Keys) (s s' : Bank) : Prop where
  authority : (s B.authority).owner ≠ tokenProgramId → (s' B.authority).owner ≠ tokenProgramId
  books : (s B.authority).owner ≠ tokenProgramId → ∀ {E L S}, Books s B E L S →
    ∃ E' L' S', Books s' B E' L' S' ∧ E ≤ E' ∧ L' ≤ L ∧ S' ≤ S

theorem Books.noWorse (h : Books s B E L S) :
    ∃ E' L' S', Books s B E' L' S' ∧ E ≤ E' ∧ L' ≤ L ∧ S' ≤ S :=
  ⟨E, L, S, h, UInt64.le_refl _, UInt64.le_refl _, UInt64.le_refl _⟩

theorem Safe.refl (B : Keys) (s : Bank) : Safe B s s := ⟨id, fun _ _ _ _ h => h.noWorse⟩

theorem Safe.trans (h : Safe B s s₁) (h' : Safe B s₁ s') : Safe B s s' := by
  refine ⟨fun hno => h'.authority (h.authority hno), fun hno E L S hbooks => ?_⟩
  obtain ⟨_, _, _, hbooks₁, hE₁, hL₁, hS₁⟩ := h.books hno hbooks
  obtain ⟨E₂, L₂, S₂, hbooks₂, hE₂, hL₂, hS₂⟩ := h'.books (h.authority hno) hbooks₁
  exact ⟨E₂, L₂, S₂, hbooks₂, UInt64.le_trans hE₁ hE₂, UInt64.le_trans hL₂ hL₁,
    UInt64.le_trans hS₂ hS₁⟩

theorem Books.of_kept (h : Books s B E L S)
    (hkept : ∀ k, accountAt tokenProgramId s k ≠ none ∨ mintAt tokenProgramId s k ≠ none →
      Kept s s' k) : Books s' B E L S := by
  have hescrow := hkept _ (.inl h.escrow.live)
  have hlong := hkept _ (.inr h.long.live)
  have hshort := hkept _ (.inr h.short.live)
  exact ⟨h.escrow.of_eq (stateAt_congr hescrow.1 hescrow.2),
    h.long.of_eq (stateAt_congr hlong.1 hlong.2), h.short.of_eq (stateAt_congr hshort.1 hshort.2)⟩

theorem Safe.of_kept (h : ∀ k, Kept s s' k) : Safe B s s' :=
  ⟨fun hno => (h _).1 ▸ hno, fun _ _ _ _ hbooks => (hbooks.of_kept fun k _ => h k).noWorse⟩

/-- Only an address changes where the token program keeps nothing. -/
theorem Safe.of_vacant {x : Pubkey} (haccount : accountAt tokenProgramId s x = none)
    (hmint : mintAt tokenProgramId s x = none)
    (hauth : B.authority = x → (s' x).owner ≠ tokenProgramId)
    (hkept : ∀ k, k ≠ x → Kept s s' k) : Safe B s s' := by
  refine ⟨fun hno => ?_, fun _ E L S h => (h.of_kept fun k hlive => hkept k ?_).noWorse⟩
  · by_cases hx : B.authority = x
    · rw [hx]
      exact hauth hx
    · rw [(hkept _ hx).1]
      exact hno
  · rintro rfl
    simp [haccount, hmint] at hlive

theorem Issues.guard (h : Issues s k authority x)
    (hguard : Token.Guard tokenProgramId s s' accounts)
    (hno : ¬ Token.Authorized tokenProgramId s accounts authority) :
    ∃ x', Issues s' k authority x' ∧ x' ≤ x := by
  obtain ⟨m, hm, hauth, rfl⟩ := h
  obtain ⟨m', hm', hkeeps⟩ := hguard.mint k m authority hm hauth hno
  exact ⟨m'.supply, ⟨m', hm', hkeeps.mintAuthority.trans hauth, rfl⟩, hkeeps.supply⟩

theorem Holds.guard (h : Holds s k owner mint x) (hguard : Token.Guard tokenProgramId s s' accounts)
    (hno : ¬ Token.Authorized tokenProgramId s accounts owner) :
    ∃ x', Holds s' k owner mint x' ∧ x ≤ x' := by
  obtain ⟨a, ha, hg, rfl, rfl, rfl⟩ := h
  obtain ⟨a', ha', hkeeps⟩ := hguard.account k a ha hg hno
  exact ⟨a'.amount, ⟨a', ha', hg.of_keeps hkeeps, hkeeps.owner, hkeeps.mint, rfl⟩, hkeeps.amount⟩

theorem Safe.of_token {rent : Rent} {ix : TokenInstruction}
    (h : Token.program.execute rent ix accounts s = .ok s')
    (hunsigned : ¬ Signed accounts B.authority) : Safe B s s' := by
  have hguard := Token.execute_guard h
  refine ⟨fun hno howner => ?_, fun hno E L S hbooks => ?_⟩
  · exact hno (((Token.execute_effect h).keyChange _).owner_back howner)
  · have hauth : ¬ Token.Authorized tokenProgramId s accounts B.authority :=
      fun hauth => hunsigned (hauth.signed hno)
    obtain ⟨E', hE', hE⟩ := hbooks.escrow.guard hguard hauth
    obtain ⟨L', hL', hL⟩ := hbooks.long.guard hguard hauth
    obtain ⟨S', hS', hS⟩ := hbooks.short.guard hguard hauth
    exact ⟨E', L', S', ⟨hE', hL', hS'⟩, hE, hL, hS⟩

end Views

/-! ## Chains of calls -/

/-- Calls of the token program one after the other, in which the caller signs for no other derived
addresses than the given ones. -/
inductive Calls (c : Call) (derived : List Pubkey) : Bank → Bank → Prop
  | refl (s : Bank) : Calls c derived s s
  | call {s s₁ s₂ : Bank} {signed : List Pubkey} {ix : TokenInstruction}
      {metas : List AccountMeta} (hsub : signed ⊆ derived)
      (hcall : c.spl signed ix metas s = .ok s₁) (hrest : Calls c derived s₁ s₂) :
      Calls c derived s s₂

section Calls

variable {c : Call} {derived : List Pubkey} {s s' s₁ : Bank} {B : Keys}

theorem Chain.calls {sources : List Pubkey} (h : Chain c derived sources s s') :
    Calls c derived s s' := by
  induction h with
  | refl s => exact .refl s
  | call hsub hcall _ _ _ ih => exact .call hsub hcall ih

variable (h : Calls c derived s s') {k : Pubkey}
include h

/-- An authority that the caller neither derives nor has the signature of. -/
theorem Calls.safe (hderived : c.tokenProgram.key = tokenProgramId → B.authority ∉ derived)
    (hunsigned : ¬ Signed c.accounts B.authority) : Safe B s s' := by
  induction h with
  | refl s => exact .refl B s
  | call hsub hcall _ ih =>
    obtain ⟨htoken, hsigners, hexec⟩ := spl_ok hcall
    refine .trans (.of_token hexec ?_) ih
    rintro ⟨m, hm, hkey, hsigner⟩
    rcases hsigners m hm hsigner with hmem | hsigned
    · exact hderived htoken (hsub (hkey ▸ hmem))
    · exact hunsigned (hkey ▸ hsigned)

theorem Calls.steady : Steady s s' := by
  induction h with
  | refl s => exact .refl s
  | call _ hcall _ ih => exact (steady_of_token (spl_ok hcall).2.2).trans ih

theorem Calls.owner_back (hk : (s' k).owner = tokenProgramId) : (s k).owner = tokenProgramId := by
  induction h with
  | refl => exact hk
  | call _ hcall _ ih =>
    exact ((Token.execute_effect (spl_ok hcall).2.2).keyChange k).owner_back (ih hk)

theorem Calls.kept_pool (hlen : (s k).data.length = len) : Kept s s' k := by
  induction h with
  | refl => exact ⟨rfl, rfl⟩
  | call _ hcall _ ih =>
    have hkept := (Token.execute_effect (spl_ok hcall).2.2).kept_of_length (k := k)
      (by rw [hlen]; decide) (by rw [hlen]; decide) (by rw [hlen]; decide)
    exact hkept.trans (ih (hkept.2 ▸ hlen))

end Calls

/-! ## Single calls in the books -/

structure OnlyMint (mint : Pubkey) (s s' : Bank) : Prop where
  mints : ∀ k, k ≠ mint → mintAt tokenProgramId s k ≠ none →
    mintAt tokenProgramId s' k = mintAt tokenProgramId s k
  accounts : ∀ k a, accountAt tokenProgramId s k = some a → a.mint ≠ mint →
    accountAt tokenProgramId s' k = some a

section Single

variable {c : Call} {derived : List Pubkey} {s s' : Bank} {B : Keys} {E L S x : UInt64}
  {account mint authority source destination : AccountMeta} {R : UInt64 → Prop} {auth : Pubkey}

theorem OnlyMint.of_frame {k mint : Pubkey} {a : Account} {m : Mint}
    (ha : accountAt tokenProgramId s k = some a) (hm : mintAt tokenProgramId s mint = some m)
    (hmint : a.mint = mint) (hframe : SameExcept s s' [k, mint]) : OnlyMint mint s s' := by
  refine ⟨fun k₀ hne hlive => ?_, fun k₀ a₀ ha₀ hne => ?_⟩
  · have hk : k₀ ≠ k := by
      rintro rfl
      exact hlive (Token.mintAt_of_accountAt ha)
    exact Token.view_of_eq (hframe k₀ (by simp [hk, hne]))
  · have hk : k₀ ≠ k := by
      rintro rfl
      cases ha.symm.trans ha₀
      exact hne hmint
    have hk' : k₀ ≠ mint := by
      rintro rfl
      exact absurd (ha₀.symm.trans (Token.accountAt_of_mintAt hm)) (by simp)
    exact (Token.view_of_eq (hframe k₀ (by simp [hk, hk']))).trans ha₀

theorem OnlyMint.refl (mint : Pubkey) (s : Bank) : OnlyMint mint s s :=
  ⟨fun _ _ _ => rfl, fun _ _ h _ => h⟩

theorem splBurn_issues (h : c.splBurn derived account mint authority x s = .ok s')
    (hissues : Issues s mint.key auth L) :
    OnlyMint mint.key s s' ∧ ∃ L', Issues s' mint.key auth L' ∧ L'.toNat + x.toNat = L.toNat := by
  unfold Call.splBurn at h
  split at h
  · obtain ⟨hproc, hr⟩ := Token.execute_process (spl_ok h).2.2
    obtain ⟨_, _, _, _, _, _, _, _, z, hlist, hsrc, -, hmintKey, hm, -, -, hz, -, hm', -, -,
      hframe⟩ := Token.processBurn_ok hr hproc
    cases hlist
    obtain ⟨_, hm₀, hauth, rfl⟩ := hissues
    cases hm.symm.trans hm₀
    exact ⟨.of_frame hsrc hm hmintKey hframe, z, ⟨_, hm', hauth, rfl⟩, hz⟩
  next hzero =>
    cases h
    have hx : x = 0 := by simpa using hzero
    exact ⟨.refl _ _, L, hissues, by simp [hx]⟩

theorem splMintTo_issues (h : c.splMintTo derived account mint authority x s = .ok s')
    (hissues : Issues s mint.key auth L) :
    OnlyMint mint.key s s' ∧ ∃ L', Issues s' mint.key auth L' ∧ L'.toNat = L.toNat + x.toNat := by
  obtain ⟨hproc, hr⟩ := Token.execute_process (spl_ok h).2.2
  obtain ⟨_, _, _, _, _, _, _, _, z, hlist, hdst, -, hmintKey, hm, -, -, -, hz, -, hm', -, -,
    hframe⟩ := Token.processMintTo_ok hr hproc
  cases hlist
  obtain ⟨_, hm₀, hauth, rfl⟩ := hissues
  cases hm.symm.trans hm₀
  exact ⟨.of_frame hdst hm hmintKey hframe, z, ⟨_, hm', hauth, rfl⟩, hz⟩

theorem Books.onLong (h : Books s B E L S) (hB : B.Apart) (hmint : mint.key = B.long)
    (hside : Issues s mint.key B.authority L →
      OnlyMint mint.key s s' ∧ ∃ L', Issues s' mint.key B.authority L' ∧ R L') :
    ∃ L', Books s' B E L' S ∧ R L' := by
  rw [hmint] at hside
  obtain ⟨honly, L', hL', hR⟩ := hside h.long
  obtain ⟨a, ha, hg, howner, hmintKey, hE⟩ := h.escrow
  exact ⟨L', ⟨⟨a, honly.accounts _ a ha (hmintKey ▸ hB.long), hg, howner, hmintKey, hE⟩, hL',
    h.short.of_eq (honly.mints _ hB.sides.symm h.short.live)⟩, hR⟩

theorem Books.onShort (h : Books s B E L S) (hB : B.Apart) (hmint : mint.key = B.short)
    (hside : Issues s mint.key B.authority S →
      OnlyMint mint.key s s' ∧ ∃ S', Issues s' mint.key B.authority S' ∧ R S') :
    ∃ S', Books s' B E L S' ∧ R S' := by
  rw [hmint] at hside
  obtain ⟨honly, S', hS', hR⟩ := hside h.short
  obtain ⟨a, ha, hg, howner, hmintKey, hE⟩ := h.escrow
  exact ⟨S', ⟨⟨a, honly.accounts _ a ha (hmintKey ▸ hB.short), hg, howner, hmintKey, hE⟩,
    h.long.of_eq (honly.mints _ hB.sides h.long.live), hS'⟩, hR⟩

theorem add_eq_of_toNat {x y z : UInt64} (h : x.toNat + y.toNat = z.toNat) : x + y = z := by
  have hlt := z.toNat_lt
  apply UInt64.toNat_inj.mp
  rw [UInt64.toNat_add, h, mod_eq_of_lt hlt]

def Keys.share (B : Keys) (k : Pubkey) : UInt64 := if k = B.escrow then 1 else 0

/-- A transfer moves the escrow by the shares of its two ends, and both mints stay. -/
theorem Books.transfer (h : Books s B E L S)
    (hcall : c.splTokenTransfer derived source destination authority x s = .ok s') :
    ∃ E', Books s' B E' L S ∧ E' + B.share source.key * x = E + B.share destination.key * x ∧
      E.toNat ≤ E'.toNat + x.toNat := by
  unfold Call.splTokenTransfer at hcall
  split at hcall
  next hpos =>
    cases Token.execute_effect (spl_ok hcall).2.2 with
    | idle heq hdebit =>
      have hself : destination.key = source.key := Option.some.inj (hdebit _ rfl)
      exact ⟨E, heq ▸ h, by rw [hself], le_add_right _ _⟩
    | transferred _ _ a b _ _ _ y z hdebit _ hne hsrc hdst _ hauth hy hz hsrc' hdst' _ hframe =>
      cases hdebit
      have hmintFrame : ∀ {k auth v}, Issues s k auth v → Issues s' k auth v := by
        intro k auth v hissues
        refine hissues.of_eq (Token.view_of_eq (hframe k ?_))
        have hnot : ∀ {k' a}, accountAt tokenProgramId s k' = some a → k ≠ k' := by
          rintro k' a ha rfl
          exact hissues.live (Token.mintAt_of_accountAt ha)
        simp [hnot hsrc, hnot hdst]
      obtain ⟨e, he, hg, howner, hmintKey, rfl⟩ := h.escrow
      have hlong := hmintFrame h.long
      have hshort := hmintFrame h.short
      by_cases hs : source.key = B.escrow
      · have hd : destination.key ≠ B.escrow := fun hd => hne (hs.trans hd.symm)
        cases (hs ▸ hsrc).symm.trans he
        cases hauth with
        | delegate _ _ hsome => exact absurd (hg.delegate.symm.trans hsome) (by simp)
        | owner =>
          refine ⟨y, ⟨.paid hg howner hmintKey (hs ▸ hsrc'), hlong, hshort⟩, ?_, hy.ge⟩
          rw [Keys.share, Keys.share, if_pos hs, if_neg hd, one_mul, zero_mul,
            UInt64.add_zero]
          exact add_eq_of_toNat hy
      · by_cases hd : destination.key = B.escrow
        · cases (hd ▸ hdst).symm.trans he
          refine ⟨z, ⟨.paid hg howner hmintKey (hd ▸ hdst'), hlong, hshort⟩, ?_, by omega⟩
          rw [Keys.share, Keys.share, if_neg hs, if_pos hd, UInt64.one_mul, UInt64.zero_mul,
            UInt64.add_zero]
          exact (add_eq_of_toNat hz.symm).symm
        · refine ⟨e.amount, ⟨⟨e, ?_, hg, howner, hmintKey, rfl⟩, hlong, hshort⟩, ?_,
            le_add_right _ _⟩
          · exact (Token.view_of_eq (hframe _ (by simp [Ne.symm hs, Ne.symm hd]))).trans he
          · rw [Keys.share, Keys.share, if_neg hs, if_neg hd]
    | mintCreated _ _ _ hix | accountCreated _ _ hix | multisigCreated _ hix
    | accountUpdated _ _ _ hix | mintUpdated _ _ _ hix | minted _ _ _ _ _ _ _ hix
    | synced _ _ _ _ hix => cases hix.1
    | approved _ _ _ _ hdebit | burned _ _ _ _ _ _ _ _ _ hdebit => cases hdebit
    | closed _ _ _ hix => cases hix
  next hzero =>
    cases hcall
    have hx : x = 0 := by simpa using hzero
    exact ⟨E, h, by simp [hx], le_add_right _ _⟩

theorem Books.payOut (h : Books s B E L S) (hdestination : destination.key ≠ B.escrow)
    (hcall : c.splTokenTransfer derived source destination authority x s = .ok s') :
    ∃ E', Books s' B E' L S ∧ E' = E - B.share source.key * x := by
  obtain ⟨E', hbooks, hsum, -⟩ := h.transfer hcall
  rw [show B.share destination.key = 0 from if_neg hdestination] at hsum
  exact ⟨E', hbooks, by grind⟩

theorem Books.payIn (h : Books s B E L S) (hsource : source.key ≠ B.escrow)
    (hcall : c.splTokenTransfer derived source destination authority x s = .ok s') :
    ∃ E', Books s' B E' L S ∧ E' = E + B.share destination.key * x := by
  obtain ⟨E', hbooks, hsum, -⟩ := h.transfer hcall
  rw [show B.share source.key = 0 from if_neg hsource] at hsum
  exact ⟨E', hbooks, by grind⟩

end Single

/-! ## A trade in the books -/

/-- The accounts of a trade name the sides of the books, and its parties do not pay from or into the
escrow itself. -/
structure TradeAccounts.On (t : TradeAccounts) (B : Keys) : Prop where
  long : t.longTokenMint.key = B.long
  short : t.shortTokenMint.key = B.short
  buyer : t.buyerAccount.key ≠ B.escrow
  seller : t.sellerAccount.key ≠ B.escrow

/-- What a trade of `n` contracts nets to. `nB` and `nS` are the tokens of the other side that
buyer and seller bring, `P` is the price of a contract and `β` is one if the trade is paid from and
into the escrow of the books. -/
inductive Netted (b b' : BinaryOption) (n nB nS P β E E' L L' S S' : UInt64) : Prop
  | raised (d : UInt64) (hn : n.toNat = nB.toNat + nS.toNat + d.toNat)
      (hpool : b' = { b with circulation := b.circulation + d })
      (hescrow : E' = E + β * (d * P)) (hlong : L'.toNat = L.toNat + d.toNat)
      (hshort : S'.toNat = S.toNat + d.toNat)
  | lowered (d : UInt64) (hpool : b' = { b with circulation := b.circulation - d })
      (hescrow : E' = E - β * (d * P)) (hlong : L'.toNat + d.toNat = L.toNat)
      (hshort : S'.toNat + d.toNat = S.toNat)
  /-- Both parties get rid of more than they take, and the difference is subtracted with the wrong
  sign; only an enormous circulation passes the check. -/
  | mistaken (d : UInt64) (hn : n.toNat + d.toNat = nB.toNat + nS.toNat) (hd : d ≠ 0)
      (hB : nB < n) (hS : nS < n)
      (hpool : b' = { b with circulation := b.circulation + d })
      (hlarge : 2 ^ 64 ≤ b.circulation.toNat + d.toNat)

section Trade

variable {find : List Pubkey → Pubkey} {rent : Rent} {accounts : List AccountMeta}
  {t : TradeAccounts} {st : TradeState} {b b' : BinaryOption} {s s' : Bank} {B : Keys}
  {n buyPrice sellPrice P E L S : UInt64} {amounts : UInt64 × UInt64 × UInt64 × UInt64}

theorem toNat_sub_of_lt {x y : UInt64} (h : y < x) : (x - y).toNat + y.toNat = x.toNat := by
  have hlt := lt_iff_toNat_lt.mp h
  rw [UInt64.toNat_sub_of_le _ _ (UInt64.le_of_lt h)]
  omega

/-- The circulation after both parties opened positions. -/
def openedSupply (b : BinaryOption) (n nB nS : UInt64) : Except Fault BinaryOption :=
  if nB + nS < n then .ok (b.incrementSupply (n - nB - nS)) else b.decrementSupply (n - nB - nS)

/-- Both parties open: the difference of what is issued and what is burned has either sign. -/
theorem openedSupply_netted {nB nS β E' L' S' : UInt64} (hB : nB < n) (hS : nS < n)
    (h : openedSupply b n nB nS = .ok b') (hE : E' = E + β * ((n - nB - nS) * P))
    (hL : L'.toNat + nB.toNat + nS.toNat = L.toNat + n.toNat)
    (hS' : S'.toNat + nB.toNat + nS.toNat = S.toNat + n.toNat) :
    Netted b b' n nB nS P β E E' L L' S S' := by
  have hBlt := lt_iff_toNat_lt.mp hB
  have hSlt := lt_iff_toNat_lt.mp hS
  have hn := n.toNat_lt
  have hsum : (nB + nS).toNat = (nB.toNat + nS.toNat) % 2 ^ 64 := UInt64.toNat_add _ _
  unfold openedSupply at h
  by_cases hle : nB.toNat + nS.toNat ≤ n.toNat
  · -- the exact difference is not negative, and nothing wraps
    have hd : (n - nB - nS).toNat + nS.toNat + nB.toNat = n.toNat := by
      have h₁ := toNat_sub_of_lt hB
      have hle₂ : nS ≤ n - nB := le_iff_toNat_le.mpr (by omega)
      rw [UInt64.toNat_sub_of_le _ _ hle₂]
      have := le_iff_toNat_le.mp hle₂
      omega
    split at h
    · cases h
      exact .raised (n - nB - nS) (by omega) rfl hE (by omega) (by omega)
    next hnot =>
      have hzero : (n - nB - nS).toNat = 0 := by
        have := UInt64.le_iff_toNat_le.mp (UInt64.not_lt.mp hnot)
        rw [mod_eq_of_lt (by omega)] at hsum
        omega
      refine .lowered (n - nB - nS) (decrementSupply_eq h).2 ?_ (by omega) (by omega)
      rw [hE, show n - nB - nS = 0 from UInt64.toNat_inj.mp hzero]
      grind
  · -- more is burned than issued
    have hd : (nB + nS - n).toNat + n.toNat = nB.toNat + nS.toNat := by
      rw [show nB + nS - n = nS - (n - nB) by grind]
      have h₁ := toNat_sub_of_lt hB
      have hle₂ : n - nB ≤ nS := le_iff_toNat_le.mpr (by omega)
      rw [UInt64.toNat_sub_of_le _ _ hle₂]
      have := le_iff_toNat_le.mp hle₂
      omega
    split at h
    · -- the sum of the two wraps, and the difference wraps back
      cases h
      refine .lowered (nB + nS - n) ?_ (by grind) (by omega) (by omega)
      rw [incrementSupply]
      congr 1
      grind
    next hnot =>
      obtain ⟨hle', hb'⟩ := decrementSupply_eq h
      have hle' := le_iff_toNat_le.mp hle'
      have hneg : n - nB - nS = 0 - (nB + nS - n) := by grind
      have hpos : nB + nS - n ≠ 0 := by
        intro hzero
        rw [hzero] at hd
        change 0 + n.toNat = _ at hd
        omega
      refine .mistaken (nB + nS - n) (by omega) hpos hB hS ?_ ?_
      · rw [hb']
        congr 1
        grind
      · have hpos' := toNat_pos_of_ne_zero hpos
        have hlt := (nB + nS - n).toNat_lt
        rw [hneg, UInt64.toNat_sub] at hle'
        change (2 ^ 64 - (nB + nS - n).toNat + 0) % 2 ^ 64 ≤ _ at hle'
        rw [mod_eq_of_lt (by omega)] at hle'
        omega

/-- **One trade, in numbers.** Whatever of the four cases applies. -/
theorem settleTrade_books (hB : B.Apart) (ht : t.On B) (hprice : buyPrice + sellPrice = P)
    (hbooks : Books s B E L S)
    (h : settleTrade find binaryOptionId rent accounts t st b n buyPrice sellPrice s =
      .ok (s', amounts, b')) :
    ∃ E' L' S', Books s' B E' L' S' ∧
      Netted b b' n st.buyerShort.amount st.sellerLong.amount P (B.share t.escrowAccount.key)
        E E' L L' S S' := by
  unfold settleTrade at h
  dsimp only at h
  generalize st.buyerShort.amount = nB at h ⊢
  generalize st.sellerLong.amount = nS at h ⊢
  split at h
  next hnB hnS =>
    -- both close
    simp only [checks] at h
    obtain ⟨_, h₁, _, h₂, _, h₃, _, h₄, _, hb, rfl, -, rfl⟩ := h
    obtain ⟨S₁, k₁, e₁⟩ := hbooks.onShort hB ht.short (splBurn_issues h₁)
    obtain ⟨L₂, k₂, e₂⟩ := k₁.onLong hB ht.long (splBurn_issues h₂)
    obtain ⟨_, k₃, _⟩ := k₂.payOut ht.buyer h₃
    obtain ⟨E₄, k₄, _⟩ := k₃.payOut ht.seller h₄
    refine ⟨E₄, L₂, S₁, k₄, .lowered n (decrementSupply_eq hb).2 ?_ e₂ e₁⟩
    grind
  next hnB hnS =>
    -- both open
    simp only [bind_eq_ok] at h
    obtain ⟨_, h₁, _, h₂, _, h₃, _, h₄, _, h₅, _, h₆, _, h₇, s₈, h₈, hlast⟩ := h
    obtain ⟨_, k₁, _⟩ := hbooks.onShort hB ht.short (splBurn_issues h₁)
    obtain ⟨_, k₂, _⟩ := k₁.onLong hB ht.long (splBurn_issues h₂)
    obtain ⟨L₃, k₃, _⟩ := k₂.onLong hB ht.long (splMintTo_issues h₃)
    obtain ⟨S₄, k₄, _⟩ := k₃.onShort hB ht.short (splMintTo_issues h₄)
    obtain ⟨_, k₅, _⟩ := k₄.payIn ht.buyer h₅
    obtain ⟨_, k₆, _⟩ := k₅.payIn ht.seller h₆
    obtain ⟨_, k₇, _⟩ := k₆.payOut ht.buyer h₇
    obtain ⟨E₈, k₈, _⟩ := k₇.payOut ht.seller h₈
    have hB' : nB < n := UInt64.not_le.mp (by simpa using hnB)
    have hS' : nS < n := UInt64.not_le.mp (by simpa using hnS)
    have hdB := toNat_sub_of_lt hB'
    have hdS := toNat_sub_of_lt hS'
    obtain ⟨hstore, hpool⟩ : s₈ = s' ∧ openedSupply b n nB nS = .ok b' := by
      unfold openedSupply
      split at hlast
      next hlt =>
        cases hlast
        exact ⟨rfl, if_pos hlt⟩
      next hnot =>
        simp only [checks] at hlast
        obtain ⟨_, hb, rfl, -, rfl⟩ := hlast
        exact ⟨rfl, by rw [if_neg hnot, hb]⟩
    refine ⟨E₈, L₃, S₄, hstore ▸ k₈,
      openedSupply_netted hB' hS' hpool ?_ (by omega) (by omega)⟩
    grind
  next hnB hnS =>
    simp only [checks] at h
    obtain ⟨_, h₁, _, h₂, _, h₃, _, h₄, _, h₅, _, h₆, _, hb, rfl, -, rfl⟩ := h
    obtain ⟨_, k₁, _⟩ := hbooks.onShort hB ht.short (splBurn_issues h₁)
    obtain ⟨L₂, k₂, e₂⟩ := k₁.onLong hB ht.long (splBurn_issues h₂)
    obtain ⟨S₃, k₃, _⟩ := k₂.onShort hB ht.short (splMintTo_issues h₃)
    obtain ⟨_, k₄, _⟩ := k₃.payIn ht.seller h₄
    obtain ⟨_, k₅, _⟩ := k₄.payOut ht.seller h₅
    obtain ⟨E₆, k₆, _⟩ := k₅.payOut ht.buyer h₆
    have hdS := toNat_sub_of_lt (UInt64.not_le.mp (by simpa using hnS) : nS < n)
    refine ⟨E₆, L₂, S₃, k₆, .lowered nS (decrementSupply_eq hb).2 ?_ e₂ (by omega)⟩
    grind
  next hnB hnS =>
    simp only [checks] at h
    obtain ⟨_, h₁, _, h₂, _, h₃, _, h₄, _, h₅, _, h₆, _, hb, rfl, -, rfl⟩ := h
    obtain ⟨_, k₁, _⟩ := hbooks.onLong hB ht.long (splBurn_issues h₁)
    obtain ⟨S₂, k₂, e₂⟩ := k₁.onShort hB ht.short (splBurn_issues h₂)
    obtain ⟨L₃, k₃, _⟩ := k₂.onLong hB ht.long (splMintTo_issues h₃)
    obtain ⟨_, k₄, _⟩ := k₃.payIn ht.buyer h₄
    obtain ⟨_, k₅, _⟩ := k₄.payOut ht.buyer h₅
    obtain ⟨E₆, k₆, _⟩ := k₅.payOut ht.seller h₆
    have hdB := toNat_sub_of_lt (UInt64.not_le.mp (by simpa using hnB) : nB < n)
    refine ⟨E₆, L₃, S₂, k₆, .lowered nB (decrementSupply_eq hb).2 ?_ (by omega) e₂⟩
    grind

end Trade

/-! ## The law -/

/-- The law of a pool: the escrow pays every contract, and no side has more tokens than there are
contracts; after settlement this matters for the winning side only. -/
structure BinaryOption.Law (b : BinaryOption) (E L S : UInt64) : Prop where
  escrow : b.circulation.toNat * 10 ^ b.decimals.toNat ≤ E.toNat
  running : b.settled = false → L ≤ b.circulation ∧ S ≤ b.circulation
  decided : b.settled = true →
    b.winningSidePubkey = b.longMintAccountPubkey ∧ L ≤ b.circulation ∨
      b.winningSidePubkey = b.shortMintAccountPubkey ∧ S ≤ b.circulation

section Law

variable {b b' : BinaryOption} {n nB nS E E' L L' S S' : UInt64}

theorem BinaryOption.Law.mono (h : b.Law E L S) (hE : E ≤ E') (hL : L' ≤ L) (hS : S' ≤ S) :
    b.Law E' L' S' where
  escrow := h.escrow.trans (le_iff_toNat_le.mp hE)
  running hopen := ⟨UInt64.le_trans hL (h.running hopen).1, UInt64.le_trans hS (h.running hopen).2⟩
  decided hsettled := (h.decided hsettled).imp (fun hw => ⟨hw.1, UInt64.le_trans hL hw.2⟩)
    fun hw => ⟨hw.1, UInt64.le_trans hS hw.2⟩

theorem BinaryOption.Law.of_open (hopen : b.settled = false)
    (hE : b.circulation.toNat * 10 ^ b.decimals.toNat ≤ E.toNat)
    (hL : L.toNat ≤ b.circulation.toNat) (hS : S.toNat ≤ b.circulation.toNat) : b.Law E L S :=
  ⟨hE, fun _ => ⟨le_iff_toNat_le.mpr hL, le_iff_toNat_le.mpr hS⟩,
    fun h => absurd (hopen.symm.trans h) (by simp)⟩

theorem toNat_ten_pow (k : ℕ) : ((10 : UInt64) ^ k).toNat = 10 ^ k % 2 ^ 64 := by
  induction k with
  | zero => rfl
  | succ _ ih =>
    rw [UInt64.pow_succ, UInt64.toNat_mul, ih, pow_succ]
    exact mod_mul_mod _ _ _

theorem toNat_add_mul_pow (x d : UInt64) (k : ℕ) :
    (x + d * 10 ^ k).toNat = (x.toNat + d.toNat * 10 ^ k) % 2 ^ 64 := by
  rw [UInt64.toNat_add, UInt64.toNat_mul, toNat_ten_pow, mul_mod_mod, add_mod_mod]

theorem Netted.law {P : UInt64} (hlaw : b.Law E L S) (hopen : b.settled = false)
    (hP : P = 10 ^ b.decimals.toNat) (hnet : Netted b b' n nB nS P 1 E E' L L' S S')
    (hfits : E.toNat + (n.toNat - (nB.toNat + nS.toNat)) * 10 ^ b.decimals.toNat < 2 ^ 64)
    (hsmall : nB < n → nS < n →
      b.circulation.toNat + (nB.toNat + nS.toNat - n.toNat) < 2 ^ 64) : b'.Law E' L' S' := by
  have hescrow := hlaw.escrow
  obtain ⟨hL, hS⟩ := hlaw.running hopen
  rw [le_iff_toNat_le] at hL hS
  have hten : 0 < 10 ^ b.decimals.toNat := by positivity
  cases hnet with
  | raised d _ hpool hE' =>
    subst hpool
    rw [show n.toNat - (nB.toNat + nS.toNat) = d.toNat by omega] at hfits
    have hexact : E'.toNat = E.toNat + d.toNat * 10 ^ b.decimals.toNat := by
      rw [hE', hP, one_mul, toNat_add_mul_pow, mod_eq_of_lt hfits]
    have hbound : (b.circulation.toNat + d.toNat) * 10 ^ b.decimals.toNat ≤ E'.toNat := by
      rw [hexact, add_mul]
      omega
    have hfit : b.circulation.toNat + d.toNat < 2 ^ 64 :=
      ((Nat.le_mul_of_pos_right _ hten).trans hbound).trans_lt E'.toNat_lt
    have hcirc : (b.circulation + d).toNat = b.circulation.toNat + d.toNat := by
      rw [UInt64.toNat_add, mod_eq_of_lt hfit]
    exact .of_open hopen (hcirc ▸ hbound) (hcirc ▸ (by omega)) (hcirc ▸ (by omega))
  | lowered d hpool hE' =>
    subst hpool
    have hd : d ≤ b.circulation := le_iff_toNat_le.mpr (by omega)
    have hle := le_iff_toNat_le.mp hd
    have hpaid : d.toNat * 10 ^ b.decimals.toNat ≤ E.toNat :=
      (mul_le_mul_right _ hle).trans hescrow
    -- the payments are the exact ones, because the escrow could pay those
    have hexact : E'.toNat + d.toNat * 10 ^ b.decimals.toNat = E.toNat := by
      have hwrap := toNat_add_mul_pow E' d b.decimals.toNat
      rw [show E' + d * 10 ^ b.decimals.toNat = E by rw [hE', hP]; grind] at hwrap
      have := E'.toNat_lt
      have := E.toNat_lt
      omega
    have hcirc : (b.circulation - d).toNat + d.toNat = b.circulation.toNat := by
      rw [UInt64.toNat_sub_of_le _ _ hd]
      omega
    rw [← hcirc, add_mul] at hescrow
    exact .of_open hopen (by dsimp only; omega) (by dsimp only; omega) (by dsimp only; omega)
  | mistaken _ _ _ hB hSn =>
    have := hsmall hB hSn
    omega

theorem Netted.idle {P β : UInt64} (hnet : Netted b b n nB nS P β E E' L L' S S') :
    E' = E ∧ L' = L ∧ S' = S := by
  cases hnet with
  | raised d _ hpool _ hlong hshort | lowered d hpool _ hlong hshort =>
    have hcirc := congrArg circulation hpool
    have hd : d = 0 := by grind
    subst hd
    exact ⟨by grind, UInt64.toNat_inj.mp hlong, UInt64.toNat_inj.mp hshort⟩
  | mistaken d _ hd _ _ hpool =>
    have hcirc := congrArg circulation hpool
    exact absurd (by grind) hd

end Law

/-! ## A collection in the books -/

/-- What a collection nets to: both positions of the collector are burned, and the winning one is
paid for its share of the escrow. -/
structure Collected (b b' : BinaryOption) (st : CollectState) (reward : UInt64)
    (E E' L L' S S' : UInt64) : Prop where
  long : L'.toNat + st.collectorLong.amount.toNat = L.toNat
  short : S'.toNat + st.collectorShort.amount.toNat = S.toNat
  payment : reward = 0 ∧ b' = b ∧ E' = E ∨
    reward ≠ 0 ∧ b.circulation ≠ 0 ∧ reward ≤ b.circulation ∧
      b' = { b with circulation := b.circulation - reward } ∧
      E.toNat ≤ E'.toNat + (reward * st.escrowAccount.amount / b.circulation).toNat

section Collect

variable {find : List Pubkey → Pubkey} {rent : Rent} {accounts : List AccountMeta}
  {t : CollectAccounts} {st : CollectState} {b b' : BinaryOption} {s s' s₁ s₂ : Bank} {B : Keys}
  {derived : List Pubkey} {reward E E' L L' S S' : UInt64}

/-- **One collection, in numbers.** -/
theorem collect_books (hB : B.Apart) (hlong : t.longTokenMint.key = B.long)
    (hshort : t.shortTokenMint.key = B.short) (hbooks : Books s B E L S)
    (h₁ : (Call.mk rent accounts t.tokenProgram).splBurn derived t.collectorLong t.longTokenMint
      t.escrowAuthority st.collectorLong.amount s = .ok s₁)
    (h₂ : (Call.mk rent accounts t.tokenProgram).splBurn derived t.collectorShort t.shortTokenMint
      t.escrowAuthority st.collectorShort.amount s₁ = .ok s₂)
    (h₃ : payReward rent accounts t st b derived reward s₂ = .ok (s', b')) :
    ∃ E' L' S', Books s' B E' L' S' ∧ Collected b b' st reward E E' L L' S S' := by
  obtain ⟨L', hbooks₁, hL⟩ := hbooks.onLong hB hlong (splBurn_issues h₁)
  obtain ⟨S', hbooks₂, hS⟩ := hbooks₁.onShort hB hshort (splBurn_issues h₂)
  unfold payReward at h₃
  split at h₃
  next hpos =>
    simp only [checks] at h₃
    obtain ⟨hcirc, _, hcall, _, hb, rfl, rfl⟩ := h₃
    obtain ⟨E', hbooks', -, hpaid⟩ := hbooks₂.transfer hcall
    obtain ⟨hle, hb'⟩ := decrementSupply_eq hb
    exact ⟨E', L', S', hbooks', hL, hS,
      .inr ⟨UInt64.pos_iff_ne_zero.mp hpos, hcirc, hle, hb', hpaid⟩⟩
  next hzero =>
    cases h₃
    exact ⟨E, L', S', hbooks₂, hL, hS, .inl ⟨by simpa using hzero, rfl, rfl⟩⟩

/-- The share of the escrow that a reward is paid leaves enough for the other contracts. -/
theorem share_le {c r E paid k : ℕ} (hc : 0 < c) (hr : r ≤ c) (hpaid : c * paid ≤ r * E)
    (hlaw : c * k ≤ E) : (c - r) * k + paid ≤ E := by
  have hscaled : c * ((c - r) * k + paid) ≤ c * E := by
    calc c * ((c - r) * k + paid) = (c - r) * (c * k) + c * paid := by ring
      _ ≤ (c - r) * E + r * E := Nat.add_le_add (Nat.mul_le_mul_left _ hlaw) hpaid
      _ = c * E := by rw [← Nat.add_mul, Nat.sub_add_cancel hr]
  exact le_of_mul_le_mul_left hscaled hc

/-- A collection keeps the law, even where the product of reward and escrow wraps. -/
theorem Collected.law (hlaw : b.Law E L S) (hsettled : b.settled = true)
    (hsides : b.longMintAccountPubkey ≠ b.shortMintAccountPubkey)
    (hlong : st.collectorLong.mint = b.longMintAccountPubkey)
    (hshort : st.collectorShort.mint = b.shortMintAccountPubkey)
    (hreward : collectReward st b = .ok reward) (hamount : st.escrowAccount.amount = E)
    (h : Collected b b' st reward E E' L L' S S') : b'.Law E' L' S' := by
  have hL := h.long
  have hS := h.short
  -- the reward is the burned position of the winning side
  have hside : b.winningSidePubkey = b.longMintAccountPubkey ∧
        L'.toNat + reward.toNat ≤ b.circulation.toNat ∨
      b.winningSidePubkey = b.shortMintAccountPubkey ∧
        S'.toNat + reward.toNat ≤ b.circulation.toNat := by
    unfold collectReward at hreward
    rw [hlong, hshort] at hreward
    rcases hlaw.decided hsettled with ⟨hwin, hle⟩ | ⟨hwin, hle⟩ <;>
      rw [le_iff_toNat_le] at hle
    · rw [if_pos hwin.symm] at hreward
      cases hreward
      exact .inl ⟨hwin, by omega⟩
    · rw [hwin, if_neg hsides, if_pos rfl] at hreward
      cases hreward
      exact .inr ⟨hwin, by omega⟩
  have hopen : ∀ {q : Prop}, b.settled = false → q :=
    fun hopen => absurd (hopen.symm.trans hsettled) (by simp)
  have hlaw' : ∀ {c : UInt64}, c.toNat + reward.toNat = b.circulation.toNat →
      c.toNat * 10 ^ b.decimals.toNat ≤ E'.toNat →
      BinaryOption.Law { b with circulation := c } E' L' S' := by
    intro c hc hescrow
    refine ⟨hescrow, hopen, fun _ => hside.imp (fun hw => ⟨hw.1, ?_⟩) fun hw => ⟨hw.1, ?_⟩⟩ <;>
    · have := hw.2
      dsimp only
      rw [le_iff_toNat_le]
      omega
  rcases h.payment with ⟨rfl, rfl, rfl⟩ | ⟨-, hcirc, hle, rfl, hexact⟩
  · exact hlaw' rfl hlaw.escrow
  · rw [hamount, UInt64.toNat_div, UInt64.toNat_mul] at hexact
    have hbound : b.circulation.toNat *
        (reward.toNat * E.toNat % 2 ^ 64 / b.circulation.toNat) ≤ reward.toNat * E.toNat :=
      (mul_div_le _ _).trans (mod_le _ _)
    have hshare := share_le (toNat_pos_of_ne_zero hcirc) (le_iff_toNat_le.mp hle) hbound
      hlaw.escrow
    have hdiff := UInt64.toNat_sub_of_le _ _ hle
    rw [le_iff_toNat_le] at hle
    exact hlaw' (by omega) (by rw [hdiff]; omega)

theorem Collected.idle (h : Collected b b st reward E E' L L' S S') : E' = E ∧ L' ≤ L ∧ S' ≤ S := by
  have hL := h.long
  have hS := h.short
  refine ⟨?_, le_iff_toNat_le.mpr (by omega), le_iff_toNat_le.mpr (by omega)⟩
  rcases h.payment with ⟨-, -, hE⟩ | ⟨hne, -, -, hpool, -⟩
  · exact hE
  · have hcirc : b.circulation = b.circulation - reward := congrArg circulation hpool
    exact absurd (by grind) hne

end Collect

end SolanaPrograms.BinaryOptions
