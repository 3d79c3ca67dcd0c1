import SolanaPrograms.BinaryOptions.Books
import SolanaPrograms.Lib.Run

/-!
# Every contract is backed

A contract pays `10 ^ decimals` tokens of collateral to the holder of the winning side. The escrow
of a pool should hold that much for every contract in circulation, and no side should have more
tokens than there are contracts.

The program computes payments, prices and the circulation in `u64` and lets them wrap. All four
cases of a trade move the escrow by the change of the circulation times the price, modulo `2 ^ 64`
(`settleTrade_books`). When that is what happens to the exact numbers as well, which is a condition
on the size of the trade, the law is kept (`contracts_backed`); a trade of `2 ^ 63` contracts whose
payments all wrap to zero breaks it (`wrapped_payments_unbacked`).
-/

namespace SolanaPrograms.BinaryOptions

open Function Outcome SolanaPrograms.Runtime BinaryOption List Program Bank Except Prod Option
open Token (Mint Account TokenInstruction tokenProgramId accountAt mintAt balanceAt)

/-! ## Sound pools -/

section Sound

variable (findProgramAddress : List Pubkey → Pubkey)

/-- The authority of a pool with the given long and short mints. -/
def pairKey (p : Pubkey × Pubkey) : Pubkey :=
  authorityKey findProgramAddress binaryOptionId p.1 p.2 tokenProgramId

def BinaryOption.pair (b : BinaryOption) : Pubkey × Pubkey :=
  (b.longMintAccountPubkey, b.shortMintAccountPubkey)

/-- The addresses of a pool's books. -/
def BinaryOption.keys (b : BinaryOption) : Keys where
  authority := pairKey findProgramAddress b.pair
  escrow := b.escrowAccountPubkey
  escrowMint := b.escrowMintAccountPubkey
  long := b.longMintAccountPubkey
  short := b.shortMintAccountPubkey

/-- A pool whose books obey the law; `used` are the pairs of mints in use. -/
structure PoolSound (used : List (Pubkey × Pubkey)) (s : Bank) (b : BinaryOption) : Prop where
  used : b.pair ∈ used
  apart : (b.keys findProgramAddress).Apart
  books : ∃ E L S, Books s (b.keys findProgramAddress) E L S ∧ b.Law E L S

structure Sound (used : List (Pubkey × Pubkey)) (s : Bank) : Prop where
  registered : Registered s
  absent : ∀ p ∈ used, (s (pairKey findProgramAddress p)).owner ≠ tokenProgramId
  pools : ∀ k b, poolAt s k = some b → PoolSound findProgramAddress used s b

variable {find : List Pubkey → Pubkey} {used : List (Pubkey × Pubkey)} {s s' base : Bank}
  {k pool : Pubkey}
  {b b' : BinaryOption} {derived : List Pubkey}

theorem PoolSound.safe (h : PoolSound find used s b)
    (habsent : (s (pairKey find b.pair)).owner ≠ tokenProgramId)
    (hsafe : Safe (b.keys find) s s') : PoolSound find used s' b := by
  obtain ⟨_, _, _, hbooks, hlaw⟩ := h.books
  obtain ⟨E', L', S', hbooks', hE, hL, hS⟩ := hsafe.books habsent hbooks
  exact ⟨h.used, h.apart, E', L', S', hbooks', hlaw.mono hE hL hS⟩

/-- The final write of an instruction does not reach the books. -/
theorem Safe.write_back {B : Keys} {d : List UInt8}
    (hresp : Respects binaryOptionId (base pool) (base.setData pool d pool)) :
    Safe B base (base.setData pool d) := by
  rcases hresp.owned_or_same with howner | ⟨-, hsame⟩
  · have hne : (base pool).owner ≠ tokenProgramId := howner ▸ tokenProgramId_ne.symm
    refine .of_vacant (stateAt_of_owner_ne hne) (stateAt_of_owner_ne hne) (fun _ => ?_)
      fun k hk => .of_eq (setData_of_ne base hk d)
    rw [setData_owner]
    exact hne
  · rw [hsame]
    exact .refl B base

/-- The account a pool was read from belongs to the program, or the pool is written back as it was
read. -/
theorem same_of_foreign {c : Call}
    (hread : tryFromSlice (s pool).data = .ok b) (hcalls : Calls c derived s base)
    (hresp : Respects binaryOptionId (base pool) (base.setData pool b'.serialize pool)) :
    (s pool).owner = binaryOptionId ∨ b' = b ∧ base.setData pool b'.serialize = base := by
  have hkept := hcalls.kept_pool (length_eq hread)
  rcases hresp.owned_or_same with howner | ⟨hdata, hsame⟩
  · exact .inl (hkept.1 ▸ howner)
  · refine .inr ⟨?_, hsame⟩
    rw [← hkept.2, ← hdata, tryFromSlice_serialize] at hread
    exact ok.inj hread

/-- What an instruction on a pool does to books with the mints of that pool. -/
def Serves (findProgramAddress : List Pubkey → Pubkey) (accounts : List AccountMeta)
    (b b' : BinaryOption) (s base : Bank) : Prop :=
  ∀ {B : Keys} {E L S : UInt64}, B.Apart → B.long = b.longMintAccountPubkey →
    B.short = b.shortMintAccountPubkey → ¬ Signed accounts B.authority →
    (s B.authority).owner ≠ tokenProgramId → Books s B E L S →
    ∃ E' L' S', Books base B E' L' S' ∧ (b' = b → E ≤ E' ∧ L' ≤ L ∧ S' ≤ S) ∧
      (B = b.keys findProgramAddress → b.Law E L S → b'.Law E' L' S')

/-- **An instruction on one pool.** The pool may be a forged one. -/
theorem Sound.written {c : Call} (h : Sound find used s)
    (hreg : Registered (base.setData pool b'.serialize))
    (hread : tryFromSlice (s pool).data = .ok b) (hcalls : Calls c derived s base)
    (hunsigned : ∀ p ∈ used, ¬ Signed c.accounts (pairKey find p))
    (hderived : ∀ p ∈ used, p ≠ b.pair → c.tokenProgram.key = tokenProgramId →
      pairKey find p ∉ derived)
    (hresp : Respects binaryOptionId (base pool) (base.setData pool b'.serialize pool))
    (hkeys : b'.keys find = b.keys find) (hserves : Serves find c.accounts b b' s base) :
    Sound find used (base.setData pool b'.serialize) := by
  have habsent : ∀ p ∈ used, (base (pairKey find p)).owner ≠ tokenProgramId :=
    fun p hp howner => h.absent p hp (hcalls.owner_back howner)
  have hpair : b'.pair = b.pair := Prod.ext (congrArg Keys.long hkeys) (congrArg Keys.short hkeys)
  refine ⟨hreg, fun p hp => ?_, fun k b₁ hb₁ => ?_⟩
  · rw [setData_owner]
    exact habsent p hp
  -- the books of a pool that was there before and is not the one written
  have hother : poolAt s k = some b₁ → ((s pool).owner = binaryOptionId → k ≠ pool) →
      PoolSound find used (base.setData pool b'.serialize) b₁ := by
    intro hold hk
    have hsound := h.pools k b₁ hold
    have hwrite : Safe (b₁.keys find) base (base.setData pool b'.serialize) :=
      .write_back hresp
    by_cases hmatch : b₁.pair = b.pair
    · -- only a forged pool has the mints of another
      have hforged : (s pool).owner ≠ binaryOptionId := by
        intro howner
        have hopt := optionAt_eq_some.mpr ⟨howner, hread⟩
        have hlong : b.longMintAccountPubkey = b₁.longMintAccountPubkey :=
          (congrArg fst hmatch).symm
        have hpool := poolAt_eq_some.mpr ⟨hopt, hlong ▸ (poolAt_eq_some.mp hold).2⟩
        refine hk howner (h.registered.unique k b₁ pool b hold hpool b.longMintAccountPubkey ?_ ?_)
        · rw [hlong]
          exact mem_cons_self
        · exact mem_cons_self
      have hsame := ((same_of_foreign hread hcalls hresp).resolve_left hforged).1
      obtain ⟨_, _, _, hbooks, hlaw⟩ := hsound.books
      obtain ⟨E', L', S', hbooks', hle, -⟩ := hserves hsound.apart (congrArg fst hmatch)
        (congrArg snd hmatch) (hunsigned _ hsound.used) (h.absent _ hsound.used) hbooks
      obtain ⟨hE, hL, hS⟩ := hle hsame
      have hmoved : PoolSound find used base b₁ :=
        ⟨hsound.used, hsound.apart, E', L', S', hbooks', hlaw.mono hE hL hS⟩
      exact hmoved.safe (habsent _ hsound.used) hwrite
    · have hcallsSafe : Safe (b₁.keys find) s base :=
        hcalls.safe (hderived _ hsound.used hmatch) (hunsigned _ hsound.used)
      exact hsound.safe (h.absent _ hsound.used) (hcallsSafe.trans hwrite)
  by_cases howner : (s pool).owner = binaryOptionId
  · by_cases hk : k = pool
    · subst hk
      obtain ⟨hopt, hne⟩ := poolAt_eq_some.mp hb₁
      have hbase := (optionAt_eq_some.mp hopt).1
      rw [setData_owner] at hbase
      cases (optionAt_write hbase b').symm.trans hopt
      have hlong' : b'.longMintAccountPubkey = b.longMintAccountPubkey := congrArg Keys.long hkeys
      have hlong : b.longMintAccountPubkey ≠ systemProgramId := hlong' ▸ hne
      have hold := poolAt_eq_some.mpr ⟨optionAt_eq_some.mpr ⟨howner, hread⟩, hlong⟩
      have hsound := h.pools k b hold
      obtain ⟨_, _, _, hbooks, hlaw⟩ := hsound.books
      obtain ⟨E', L', S', hbooks', -, hkept⟩ := hserves hsound.apart rfl rfl
        (hunsigned _ hsound.used) (h.absent _ hsound.used) hbooks
      have hmoved : PoolSound find used base b' :=
        ⟨hpair ▸ hsound.used, hkeys ▸ hsound.apart, E', L', S', hkeys ▸ hbooks', hkept rfl hlaw⟩
      exact hmoved.safe (habsent _ hmoved.used) (.write_back hresp)
    · refine hother ?_ fun _ => hk
      rwa [poolAt, optionAt_congr (.of_eq (setData_of_ne base hk _)),
        hcalls.steady.options] at hb₁
  · have hsame := ((same_of_foreign hread hcalls hresp).resolve_left howner).2
    refine hother ?_ fun howned => absurd howned howner
    rwa [hsame, poolAt, hcalls.steady.options] at hb₁

end Sound

/-! ## The instructions on one pool -/

section Instructions

variable {find : List Pubkey → Pubkey} {rent : Rent} {accounts : List AccountMeta}
  {s s' base : Bank} {b b' : BinaryOption}

theorem Books.ne_escrow {B : Keys} {E L S : UInt64} {info : AccountMeta} {a : Account}
    {owner : Pubkey} (h : Books s B E L S) (hread : assertInitialized Account s info = .ok a)
    (howner : a.owner = owner) (hsigned : Signed accounts owner)
    (hunsigned : ¬ Signed accounts B.authority) : info.key ≠ B.escrow := by
  intro heq
  obtain ⟨_, he, -, hauth, -⟩ := h.escrow
  rw [← heq] at he
  rw [← eq_of_assertInitialized hread he, howner] at hauth
  exact hunsigned (hauth ▸ hsigned)

/-- The exact numbers of a trade fit: what the escrow holds and is to receive, and the circulation
and what is burned beyond the size of the trade. -/
def TradeNumbersFit (s : Bank) (t : TradeAccounts) (st : TradeState) (b : BinaryOption)
    (n : UInt64) : Prop :=
  balanceAt tokenProgramId s t.escrowAccount.key +
      (n.toNat - (st.buyerShort.amount.toNat + st.sellerLong.amount.toNat)) *
        10 ^ b.decimals.toNat < 2 ^ 64 ∧
    b.circulation.toNat + (st.buyerShort.amount.toNat + st.sellerLong.amount.toNat) <
      2 ^ 64 + n.toNat

instance (s : Bank) (t : TradeAccounts) (st : TradeState) (b : BinaryOption) (n : UInt64) :
    Decidable (TradeNumbersFit s t st b n) := by
  unfold TradeNumbersFit; infer_instance

/-- A trade, taken apart. -/
structure Traded (findProgramAddress : List Pubkey → Pubkey) (rent : Rent)
    (accounts : List AccountMeta) (n : UInt64) (s base : Bank) (t : TradeAccounts)
    (st : TradeState) (b b' : BinaryOption) : Prop where
  listed : tradeAccounts accounts = .ok t
  state : readTrade t s = .ok st
  read : tryFromSlice (s t.binaryOption.key).data = .ok b
  tokenProgram : t.tokenProgram.key = tokenProgramId
  long : t.longTokenMint.key = b.longMintAccountPubkey
  short : t.shortTokenMint.key = b.shortMintAccountPubkey
  escrow : t.escrowAccount.key = b.escrowAccountPubkey
  keys : b'.keys findProgramAddress = b.keys findProgramAddress
  calls : Calls ⟨rent, accounts, t.tokenProgram⟩ [pairKey findProgramAddress b.pair] s base
  serves : ∀ {B : Keys} {E L S : UInt64}, B.Apart → B.long = b.longMintAccountPubkey →
    B.short = b.shortMintAccountPubkey → ¬ Signed accounts B.authority →
    (s B.authority).owner ≠ tokenProgramId → Books s B E L S →
    ∃ E₁ L₁ S₁ E' L' S', Books base B E' L' S' ∧ E₁ ≤ E' ∧ L' ≤ L₁ ∧ S' ≤ S₁ ∧
      b.settled = false ∧
      Netted b b' n st.buyerShort.amount st.sellerLong.amount (10 ^ b.decimals.toNat)
        (B.share b.escrowAccountPubkey) E E₁ L L₁ S S₁

variable {t : TradeAccounts} {st : TradeState}

variable {size buyPrice sellPrice : UInt64}

theorem processTrade_traded
    (h : processTrade find binaryOptionId rent accounts size buyPrice sellPrice s = .ok (base, s')) :
    ∃ t st b b', Traded find rent accounts size s base t st b b' ∧
      s' = base.setData t.binaryOption.key b'.serialize := by
  simp only [processTrade, checks] at h
  obtain ⟨t, ht, _, hstate, b, hb, _, hvalid, s₁, _, _, _, _, _, hsettle, s₂, happrove, rfl,
    rfl⟩ := h
  obtain ⟨happroved, hbuyer, hseller⟩ := approveTrade_ok [] [] happrove
  obtain ⟨hchain, x, rfl⟩ := settleTrade_ok hsettle
  have hstate' := hstate
  simp only [readTrade, checks] at hstate'
  obtain ⟨_, -, _, -, _, -, _, -, _, -, _, -, _, hba, _, hsa, rfl⟩ := hstate'
  simp only [validateTrade, checks, assertKeysEqual_ok, not_not, ne_eq, Bool.not_eq_true] at hvalid
  obtain ⟨hprice, hopen, htoken, _, -, -, -, -, -, -, -, hbaOwner, hsaOwner, -, hlong, hshort,
    hescrow, -⟩ := hvalid
  have hcalls := (hchain.trans (approveTrade_ok _ _ happrove).1).calls
  rw [htoken, hlong, hshort] at hcalls
  refine ⟨t, _, b, { b with circulation := x }, ⟨ht, hstate, hb, htoken, hlong, hshort, hescrow,
    rfl, hcalls, ?_⟩, rfl⟩
  intro B E L S hB hBlong hBshort hunsigned habsent hbooks
  have hon : t.On B := ⟨hlong.trans hBlong.symm, hshort.trans hBshort.symm,
    hbooks.ne_escrow hba hbaOwner hbuyer hunsigned,
    hbooks.ne_escrow hsa hsaOwner hseller hunsigned⟩
  obtain ⟨E₁, L₁, S₁, hbooks₁, hnet⟩ := settleTrade_books hB hon hprice hbooks hsettle
  rw [hescrow] at hnet
  have hsafe : Safe B s₁ s₂ := happroved.calls.safe (fun _ => not_mem_nil) hunsigned
  obtain ⟨E', L', S', hbooks', hE, hL, hS⟩ :=
    hsafe.books (fun howner => habsent (hchain.calls.owner_back howner)) hbooks₁
  exact ⟨E₁, L₁, S₁, E', L', S', hbooks', hE, hL, hS, hopen, hnet⟩

theorem Traded.serve {n : UInt64} (h : Traded find rent accounts n s base t st b b')
    (hfits : (s t.binaryOption.key).owner = binaryOptionId → TradeNumbersFit s t st b n) :
    b' = b ∨ (s t.binaryOption.key).owner = binaryOptionId →
      Serves find accounts b b' s base := by
  intro hcase B E L S hB hlong hshort hunsigned habsent hbooks
  obtain ⟨_, _, _, E', L', S', hbooks', hE, hL, hS, hopen, hnet⟩ :=
    h.serves hB hlong hshort hunsigned habsent hbooks
  refine ⟨E', L', S', hbooks', fun hsame => ?_, fun hkeys hlaw => ?_⟩
  · subst hsame
    obtain ⟨rfl, rfl, rfl⟩ := hnet.idle
    exact ⟨hE, hL, hS⟩
  · refine .mono ?_ hE hL hS
    rcases hcase with rfl | howner
    · obtain ⟨rfl, rfl, rfl⟩ := hnet.idle
      exact hlaw
    · obtain ⟨hfit, _⟩ := hfits howner
      obtain ⟨e, _, -, -, -, rfl⟩ := hbooks.escrow
      have hkey : B.escrow = b.escrowAccountPubkey := congrArg Keys.escrow hkeys
      have hbalance : balanceAt tokenProgramId s t.escrowAccount.key = e.amount.toNat :=
        Token.balanceAt_some (by rwa [h.escrow, ← hkey])
      rw [hbalance] at hfit
      rw [Keys.share, if_pos hkey.symm] at hnet
      refine hnet.law hlaw hopen rfl hfit fun _ _ => ?_
      have := b.circulation.toNat_lt
      omega

theorem processCollect_serve
    (h : processCollect find binaryOptionId rent accounts s = .ok (base, s')) :
    ∃ t b b', collectAccounts accounts = .ok t ∧
      tryFromSlice (s t.binaryOption.key).data = .ok b ∧
      t.longTokenMint.key = b.longMintAccountPubkey ∧
      t.shortTokenMint.key = b.shortMintAccountPubkey ∧
      b'.keys find = b.keys find ∧
      Calls ⟨rent, accounts, t.tokenProgram⟩ [authorityKey find binaryOptionId
        b.longMintAccountPubkey b.shortMintAccountPubkey t.tokenProgram.key] s base ∧
      Serves find accounts b b' s base ∧
      s' = base.setData t.binaryOption.key b'.serialize := by
  simp only [processCollect, checks] at h
  obtain ⟨t, ht, _, hread, b, hb, _, hvalid, _, hreward, _, h₁, _, h₂, _, b', hpay, rfl, rfl⟩ := h
  simp only [readCollect, checks] at hread
  obtain ⟨_, -, _, -, _, -, es, hes, rfl⟩ := hread
  simp only [validateCollect, checks, assertKeysEqual_ok, Bool.not_eq_false] at hvalid
  obtain ⟨hsettled, _, -, _, -, -, -, -, -, hlong, hshort, hescrow, hclMint, hcsMint, -⟩ := hvalid
  obtain ⟨hchain, hpool⟩ := collect_chain h₁ h₂ hpay
  have hcalls := hchain.calls
  rw [hlong, hshort] at hcalls
  have hkeys : b'.keys find = b.keys find := by
    obtain ⟨_, rfl⟩ := hpool
    rfl
  refine ⟨t, b, b', ht, hb, hlong, hshort, hkeys, hcalls, ?_, rfl⟩
  intro B E L S hB hBlong hBshort _ _ hbooks
  obtain ⟨E', L', S', hbooks', hnet⟩ := collect_books hB (hlong.trans hBlong.symm)
    (hshort.trans hBshort.symm) hbooks h₁ h₂ hpay
  refine ⟨E', L', S', hbooks', ?_, ?_⟩
  · rintro rfl
    obtain ⟨rfl, hL, hS⟩ := hnet.idle
    exact ⟨UInt64.le_refl _, hL, hS⟩
  · rintro rfl hlaw
    obtain ⟨e, he, -, -, -, rfl⟩ := hbooks.escrow
    have hamount : es = e := eq_of_assertInitialized hes (hescrow ▸ he)
    exact hnet.law hlaw hsettled hB.sides hclMint hcsMint hreward (congrArg Account.amount hamount)

theorem processSettle_serve (find : List Pubkey → Pubkey)
    (h : processSettle accounts s = .ok (base, s')) :
    ∃ pool rest b b', accounts = pool :: rest ∧
      tryFromSlice (s pool.key).data = .ok b ∧
      b'.keys find = b.keys find ∧ base = s ∧
      Serves find accounts b b' s s ∧ s' = s.setData pool.key b'.serialize := by
  simp only [processSettle, checks, nextAccountInfo_eq_ok, assertKeysEqual_ok,
    Bool.not_eq_true] at h
  obtain ⟨pool, _, rfl, winner, _, rfl, _, _, rfl, b, hb, -, hopen, -, hwinner, rfl, rfl⟩ := h
  refine ⟨pool, _, b, { b with settled := true, winningSidePubkey := winner.key }, rfl, hb, rfl,
    rfl, ?_, rfl⟩
  intro B E L S _ _ _ _ _ hbooks
  refine ⟨E, L, S, hbooks, fun _ => ⟨UInt64.le_refl _, UInt64.le_refl _, UInt64.le_refl _⟩,
    fun _ hlaw => ⟨hlaw.escrow, nofun, fun _ => ?_⟩⟩
  obtain ⟨hL, hS⟩ := hlaw.running hopen
  by_cases hside : winner.key = b.longMintAccountPubkey
  · exact .inl ⟨hside, hL⟩
  · exact .inr ⟨not_not.mp fun hno => hwinner ⟨hside, hno⟩, hS⟩

end Instructions

/-! ## A new pool -/

section Initialize

variable {find : List Pubkey → Pubkey} {rent : Rent} {accounts : List AccountMeta}
  {s s' s₁ : Bank} {b : BinaryOption} {B : Keys}

variable {k : Pubkey} {c : Call} {mint : AccountMeta} {decimals : UInt8} {x : UInt64}

theorem Safe.of_created {space : Nat} (h : System.Created accounts [] s s' k tokenProgramId space)
    (hunsigned : ¬ Signed accounts B.authority) : Safe B s s' := by
  have hvacant : (s k).owner ≠ tokenProgramId := h.vacant ▸ system_ne_token
  refine .of_vacant (stateAt_of_owner_ne hvacant) (stateAt_of_owner_ne hvacant) (fun heq => ?_)
    h.kept
  exact absurd (heq ▸ signed_of_created h) hunsigned

theorem Safe.of_pool {pool : Pubkey} (hvacant : (s pool).owner = systemProgramId)
    (howner : (s' pool).owner = binaryOptionId) (hkept : ∀ k, k ≠ pool → Kept s s' k) :
    Safe B s s' := by
  have hne : (s pool).owner ≠ tokenProgramId := hvacant ▸ system_ne_token
  refine .of_vacant (stateAt_of_owner_ne hne) (stateAt_of_owner_ne hne) (fun _ => ?_) hkept
  rw [howner]
  exact tokenProgramId_ne.symm

theorem supply_of_zero {m : Mint}
    (h : Pack.unpackUnchecked Mint (.replicate (Pack.len Mint) 0) = .ok m) : m.supply = 0 := by
  have hread : (Pack.unpackUnchecked Mint (.replicate (Pack.len Mint) 0)).map Mint.supply =
      .ok 0 := by decide +kernel
  rw [h] at hread
  exact ok.inj hread

theorem issues_of_splMintInitialize {mintAuthority freezeAuthority rentInfo : AccountMeta}
    (h : c.splMintInitialize mint mintAuthority freezeAuthority rentInfo decimals s = .ok s')
    (hdata : (s mint.key).data = .replicate (Pack.len Mint) 0) :
    Issues s' mint.key mintAuthority.key 0 ∧ SameExcept s s' [mint.key] := by
  obtain ⟨_, m', hread, hm', hsupply, hauth, hframe⟩ := Token.initializeMint_mintAt (spl_ok h).2.2
  rw [hdata] at hread
  exact ⟨⟨m', hm', hauth, hsupply.trans (supply_of_zero hread)⟩, hframe⟩

theorem issues_of_splSetAuthority {owner : AccountMeta} {old new : Pubkey}
    (h : c.splSetAuthority mint new .mintTokens owner s = .ok s')
    (hissues : Issues s mint.key old x) :
    Issues s' mint.key new x ∧ SameExcept s s' [mint.key] := by
  obtain ⟨_, hm, -, rfl⟩ := hissues
  obtain ⟨hm', hframe⟩ := Token.setAuthority_mintAt (spl_ok h).2.2 hm
  exact ⟨⟨_, hm', rfl, rfl⟩, hframe⟩

theorem Issues.of_frame {k' authority : Pubkey} (h : Issues s k authority x)
    (hframe : SameExcept s s' [k']) (hne : k ≠ k') : Issues s' k authority x :=
  h.of_eq (Token.view_of_eq (hframe k (by simpa using hne)))

theorem Holds.of_frame {k' owner mint : Pubkey} (h : Holds s k owner mint x)
    (hframe : SameExcept s s' [k']) (hne : k ≠ k') : Holds s' k owner mint x :=
  h.of_eq (Token.view_of_eq (hframe k (by simpa using hne)))

theorem holds_of_opening {escrow update rentInfo : AccountMeta} {authority : Pubkey}
    (h : c.splInitialize escrow mint update rentInfo s = .ok s₁)
    (h' : c.splSetAuthority escrow authority .accountOwner update s₁ = .ok s')
    (hsystem : authority ≠ systemProgramId) (hincinerator : authority ≠ Token.incineratorId) :
    (∃ E, Holds s' escrow.key authority mint.key E) ∧ SameExcept s s₁ [escrow.key] ∧
      SameExcept s₁ s' [escrow.key] := by
  obtain ⟨_, ha, hmint, -, -, hclose, hframe⟩ := Token.initializeAccount_accountAt (spl_ok h).2.2
  obtain ⟨a', ha', hmint', howner', hdelegate', hclose', hframe'⟩ :=
    Token.setAuthority_accountAt (spl_ok h').2.2 ha
  refine ⟨⟨a'.amount, a', ha', ⟨?_, hdelegate', hclose' hclose⟩, howner', hmint'.trans hmint, rfl⟩,
    hframe, hframe'⟩
  simp [Account.isOwnedBySystemProgramOrIncinerator, howner', hsystem, hincinerator]

theorem Opening.safe (h : Opening find rent accounts decimals s s')
    (hunsigned : ¬ Signed accounts B.authority) : Safe B s s' := by
  obtain ⟨_, _, _, _, _, _, _, tokenProgram, _, _, _, _, _, _, s₃, _, _, _, _, _, s₉, s₁₀,
    -, -, hlong, hshort, hescrow, h₄, h₅, h₆, h₇, h₈, h₉, h₁₀, rfl⟩ := h
  have hnil := nil_subset ([] : List Pubkey)
  have hcalls : Calls ⟨rent, accounts, tokenProgram⟩ [] s₃ s₉ :=
    .call hnil h₄ (.call hnil h₅ (.call hnil h₆ (.call hnil h₇ (.call hnil h₈ (.call hnil h₉
      (.refl _))))))
  obtain ⟨hvacant, howner, hkept⟩ := createOrAllocateAccountRaw_ok h₁₀
  have hpool : Safe B s₉ s₁₀ := .of_pool hvacant howner hkept
  exact (Safe.of_created hlong hunsigned).trans ((Safe.of_created hshort hunsigned).trans
    ((Safe.of_created hescrow hunsigned).trans ((hcalls.safe (fun _ => not_mem_nil)
      hunsigned).trans (hpool.trans (.write_back (.inl howner))))))

/-- **InitializeBinaryOption.** The books of the new pool are those of an empty one. -/
theorem Opening.books {pool₀ : Pubkey} (h : Opening find rent accounts decimals s s')
    (hinit : Initialized accounts s s' pool₀ b) :
    (keys accounts)[1]? = some b.escrowMintAccountPubkey ∧ b.circulation = 0 ∧
      b.longMintAccountPubkey ≠ b.shortMintAccountPubkey ∧
      (pairKey find b.pair ≠ systemProgramId →
        pairKey find b.pair ≠ Token.incineratorId →
        ∃ E, Books s' (b.keys find) E 0 0) := by
  obtain ⟨pool, escrowMint, escrow, long, short, _, update, tokenProgram, _, _, _, winner, _, _,
    s₃, s₄, _, _, _, _, s₉, _, hlist, htoken, hlong, hshort, hescrow, h₄, h₅, h₆, h₇, h₈, h₉,
    h₁₀, hwrite⟩ := h
  -- the pool that was written is the one `Initialized` speaks of
  have hb : b = ⟨decimals, 0, false, escrowMint.key, escrow.key, long.key, short.key, update.key,
      winner⟩ := by
    have hname : pool₀ = pool.key := by
      have hnamed := hinit.names.1
      rw [hlist] at hnamed
      exact (some.inj hnamed).symm
    have hdata := hinit.data
    rw [hwrite, hname, setData_same] at hdata
    have hread := tryFromSlice_serialize b
    rw [← show _ = b.serialize from hdata, tryFromSlice_serialize] at hread
    exact (ok.inj hread).symm
  subst hb
  have hls : short.key ≠ long.key := key_ne_of_created hlong hshort
  have hse : escrow.key ≠ short.key := key_ne_of_created hshort hescrow
  have hle : escrow.key ≠ long.key := by
    intro heq
    have hvacant := hescrow.vacant
    rw [heq, (hshort.kept _ hls.symm).1, hlong.owner] at hvacant
    exact system_ne_token hvacant.symm
  refine ⟨by rw [hlist]; rfl, rfl, hls.symm, fun hsystem hincinerator => ?_⟩
  have hauth : authorityKey find binaryOptionId long.key short.key tokenProgram.key =
      pairKey find (long.key, short.key) := by
    rw [htoken]
    rfl
  rw [hauth] at h₇ h₈ h₉
  have hdata : (s₃ long.key).data = .replicate (Pack.len Mint) 0 := by
    rw [(hescrow.kept _ hle.symm).2, (hshort.kept _ hls.symm).2, hlong.data]
  obtain ⟨hlong₄, hframe₄⟩ := issues_of_splMintInitialize h₄ hdata
  have hdata' : (s₄ short.key).data = .replicate (Pack.len Mint) 0 := by
    rw [hframe₄ _ (by simpa using hls), (hescrow.kept _ hse.symm).2, hshort.data]
  obtain ⟨hshort₅, hframe₅⟩ := issues_of_splMintInitialize h₅ hdata'
  obtain ⟨⟨E, hescrow₇⟩, hframe₆, hframe₇⟩ := holds_of_opening h₆ h₇ hsystem hincinerator
  have hlong₇ := ((hlong₄.of_frame hframe₅ hls.symm).of_frame hframe₆ hle.symm).of_frame hframe₇
    hle.symm
  have hshort₇ := (hshort₅.of_frame hframe₆ hse.symm).of_frame hframe₇ hse.symm
  obtain ⟨hlong₈, hframe₈⟩ := issues_of_splSetAuthority h₈ hlong₇
  obtain ⟨hshort₉, hframe₉⟩ := issues_of_splSetAuthority h₉ (hshort₇.of_frame hframe₈ hls)
  have hbooks₉ : Books s₉ (keys find ⟨decimals, 0, false,
      escrowMint.key, escrow.key, long.key, short.key, update.key, winner⟩) E 0 0 :=
    ⟨(hescrow₇.of_frame hframe₈ hle).of_frame hframe₉ hse, hlong₈.of_frame hframe₉ hls.symm,
      hshort₉⟩
  obtain ⟨hvacant, _, hkept⟩ := createOrAllocateAccountRaw_ok h₁₀
  -- the pool account is none of the three
  refine ⟨E, hbooks₉.of_kept fun k hlive => ?_⟩
  have hne : k ≠ pool.key := by
    rintro rfl
    have hno : (s₉ pool.key).owner ≠ tokenProgramId := hvacant ▸ system_ne_token
    simp [stateAt_of_owner_ne hno] at hlive
  rw [hwrite]
  exact (hkept k hne).trans (.of_eq (setData_of_ne _ hne _))

end Initialize

/-! ## One happening -/

/-- The long and the short mint an instruction names; it derives the authority from them. -/
def pairOf (ix : BinaryOptionInstruction) (accounts : List AccountMeta) :
    Option (Pubkey × Pubkey) :=
  let pairAt (i j : Nat) : Option (Pubkey × Pubkey) := do
    let long ← (keys accounts)[i]?
    let short ← (keys accounts)[j]?
    return (long, short)
  match ix with
  | .initializeBinaryOption _ => pairAt 3 4
  | .trade _ _ _ => pairAt 2 3
  | .collect => pairAt 5 6
  | .settle => none

section Happenings

variable (findProgramAddress : List Pubkey → Pubkey) (used : List (Pubkey × Pubkey))

/-- Different pairs of mints have different authorities, and these are no special addresses. -/
structure Derivation : Prop where
  inj : ∀ p ∈ used, ∀ q ∈ used, pairKey findProgramAddress p = pairKey findProgramAddress q → p = q
  system : ∀ p ∈ used, pairKey findProgramAddress p ≠ systemProgramId
  incinerator : ∀ p ∈ used, pairKey findProgramAddress p ≠ Token.incineratorId

/-- Nobody signs for a derived address or creates an account there, and the pairs of mints named are
among `used`. -/
def Happening.KeepsOff : Happening → Prop
  | .option _ ix accounts => (∀ p ∈ pairOf ix accounts, p ∈ used) ∧
    ∀ p ∈ used, ¬ Signed accounts (pairKey findProgramAddress p)
  | .token _ _ accounts => ∀ p ∈ used, ¬ Signed accounts (pairKey findProgramAddress p)
  | .enter _ k _ => ∀ p ∈ used, pairKey findProgramAddress p ≠ k
  | .external _ _ | .deposit _ _ | .reclaim _ => True

instance : (e : Happening) → Decidable (e.KeepsOff findProgramAddress used)
  | .option _ ix accounts =>
    have : Decidable (∀ p ∈ pairOf ix accounts, p ∈ used) := decidableForallMem _
    have : Decidable (∀ p ∈ used, ¬ Signed accounts (pairKey findProgramAddress p)) :=
      decidableBAll _ used
    instDecidableAnd
  | .token _ _ accounts =>
    decidableBAll (fun p => ¬ Signed accounts (pairKey findProgramAddress p)) used
  | .enter _ k _ => decidableBAll (fun p => pairKey findProgramAddress p ≠ k) used
  | .external _ _ | .deposit _ _ | .reclaim _ => .isTrue trivial

/-- The trade the accounts name, in a pool of the program. -/
def tradeOf (s : Bank) (accounts : List AccountMeta) :
    Option (TradeAccounts × TradeState × BinaryOption) := do
  let t ← (tradeAccounts accounts).toOption
  let st ← (readTrade t s).toOption
  let b ← optionAt s t.binaryOption.key
  return (t, st, b)

/-- The collateral of a new pool is not one of its own sides, and the exact numbers of a trade
fit. -/
def Happening.Fits (s : Bank) : Happening → Prop
  | .option _ (.initializeBinaryOption _) accounts =>
    (keys accounts)[1]? ≠ (keys accounts)[3]? ∧ (keys accounts)[1]? ≠ (keys accounts)[4]?
  | .option _ (.trade size _ _) accounts =>
    ∀ x ∈ tradeOf s accounts, TradeNumbersFit s x.1 x.2.1 x.2.2 size
  | _ => True

instance (s : Bank) : (e : Happening) → Decidable (e.Fits s)
  | .option _ (.initializeBinaryOption _) accounts => inferInstanceAs (Decidable
    ((keys accounts)[1]? ≠ (keys accounts)[3]? ∧ (keys accounts)[1]? ≠ (keys accounts)[4]?))
  | .option _ (.trade _ _ _) accounts => decidableForallMem (tradeOf s accounts)
  | .option _ .settle _ | .option _ .collect _ | .token _ _ _ | .enter _ _ _ | .external _ _
  | .deposit _ _ | .reclaim _ => .isTrue trivial

variable {find : List Pubkey → Pubkey} {used} {s s' : Bank} {rent : Rent}
  {ix : BinaryOptionInstruction}
  {accounts : List AccountMeta}

theorem pairOf_trade {t : TradeAccounts} (h : tradeAccounts accounts = .ok t) :
    pairOf (.trade size buyPrice sellPrice) accounts =
      some (t.longTokenMint.key, t.shortTokenMint.key) := by
  unfold tradeAccounts at h
  split at h
  · cases h
    rfl
  · cases h

theorem pairOf_collect {t : CollectAccounts} (h : collectAccounts accounts = .ok t) :
    pairOf .collect accounts = some (t.longTokenMint.key, t.shortTokenMint.key) := by
  unfold collectAccounts at h
  split at h
  · cases h
    rfl
  · cases h

/-- What leaves all books no worse keeps the pools sound. -/
theorem Sound.of_safe (h : Sound find used s) (hreg : Registered s')
    (hpool : ∀ k b, poolAt s' k = some b → poolAt s k = some b)
    (hsafe : ∀ p ∈ used, ∀ B : Keys, B.authority = pairKey find p → Safe B s s') :
    Sound find used s' := by
  refine ⟨hreg, fun p hp => ?_, fun k b hb => ?_⟩
  · exact (hsafe p hp ⟨pairKey find p, p.1, p.1, p.1, p.2⟩ rfl).authority
      (h.absent p hp)
  · have hsound := h.pools k b (hpool k b hb)
    exact hsound.safe (h.absent _ hsound.used) (hsafe _ hsound.used _ rfl)

section Instructions

variable {base : Bank} (h : Sound find used s) (hderive : Derivation find used)
  (hreg : Registered s') (hunsigned : ∀ p ∈ used, ¬ Signed accounts (pairKey find p))

include h hderive hreg hunsigned

theorem Sound.trade (hpair : ∀ p ∈ pairOf (.trade size buyPrice sellPrice) accounts, p ∈ used)
    (hfits : ∀ x ∈ tradeOf s accounts, TradeNumbersFit s x.1 x.2.1 x.2.2 size)
    (hproc : processTrade find binaryOptionId rent accounts size buyPrice sellPrice
      s = .ok (base, s')) (hresp : AllRespect binaryOptionId accounts base s') :
    Sound find used s' := by
  obtain ⟨t, st, b, b', hT, rfl⟩ := processTrade_traded hproc
  have hrespects := hresp _ (tradeAccounts_ok hT.listed).1
  have hused : b.pair ∈ used := by
    refine hpair _ ?_
    rw [pairOf_trade hT.listed, hT.long, hT.short]
    rfl
  have hserves : Serves find accounts b b' s base := by
    refine hT.serve (fun howner => ?_) ?_
    · refine hfits (t, st, b) ?_
      simp [tradeOf, hT.listed, hT.state, optionAt_eq_some.mpr ⟨howner, hT.read⟩, Except.toOption]
    · exact (same_of_foreign hT.read hT.calls hrespects).symm.imp_left And.left
  refine h.written hreg hT.read hT.calls hunsigned (fun p hp hne _ hmem => hne ?_) hrespects
    hT.keys hserves
  exact hderive.inj p hp _ hused (mem_singleton.mp hmem)

theorem Sound.collect (hpair : ∀ p ∈ pairOf .collect accounts, p ∈ used)
    (hproc : processCollect find binaryOptionId rent accounts s = .ok (base, s'))
    (hresp : AllRespect binaryOptionId accounts base s') : Sound find used s' := by
  obtain ⟨t, b, _, ht, hread, hlong, hshort, hkeys, hcalls, hserves, rfl⟩ :=
    processCollect_serve hproc
  have hused : b.pair ∈ used := by
    refine hpair _ ?_
    rw [pairOf_collect ht, hlong, hshort]
    rfl
  refine h.written hreg hread hcalls hunsigned (fun p hp hne htoken hmem => hne ?_)
    (hresp _ (collectAccounts_ok ht).1) hkeys hserves
  refine hderive.inj p hp _ hused ((mem_singleton.mp hmem).trans ?_)
  rw [show t.tokenProgram.key = tokenProgramId from htoken]
  rfl

theorem Sound.initialized {decimals : UInt8}
    (hpair : ∀ p ∈ pairOf (.initializeBinaryOption decimals) accounts, p ∈ used)
    (hapart : (keys accounts)[1]? ≠ (keys accounts)[3]? ∧
      (keys accounts)[1]? ≠ (keys accounts)[4]?)
    (hproc : processInitializeBinaryOption find binaryOptionId rent accounts decimals
      s = .ok (base, s')) : Sound find used s' := by
  obtain ⟨pool, b, hinit⟩ := processInitializeBinaryOption_ok hproc
  have hopening := processInitializeBinaryOption_calls hproc
  obtain ⟨hescrowMint, hcirc, hsides, hbooks⟩ := hopening.books hinit
  obtain ⟨-, hlong, hshort, -⟩ := hinit.names
  have hused : b.pair ∈ used := by
    refine hpair _ ?_
    simp only [pairOf, hlong, hshort]
    rfl
  have hnew : PoolSound find used s' b := by
    obtain ⟨E, hbooks⟩ := hbooks (hderive.system _ hused) (hderive.incinerator _ hused)
    refine ⟨hused, ⟨hsides, fun heq => hapart.1 ?_, fun heq => hapart.2 ?_⟩, E, 0, 0, hbooks, ?_⟩
    · rw [hescrowMint, hlong]
      exact congrArg some heq
    · rw [hescrowMint, hshort]
      exact congrArg some heq
    · refine ⟨?_, fun _ => ⟨UInt64.zero_le, UInt64.zero_le⟩, fun hsettled => ?_⟩
      · rw [hcirc]
        simp
      · exact absurd (hinit.settled.symm.trans hsettled) (by simp)
  have hsafe : ∀ p ∈ used, ∀ B : Keys, B.authority = pairKey find p →
      Safe B s s' := fun p hp B hB => hopening.safe (hB ▸ hunsigned p hp)
  refine ⟨hreg, fun p hp => ?_, fun k b₁ hb₁ => ?_⟩
  · exact (hsafe p hp ⟨pairKey find p, p.1, p.1, p.1, p.2⟩ rfl).authority
      (h.absent p hp)
  · rcases hinit.pool_back hb₁ with ⟨-, rfl⟩ | hb₁
    · exact hnew
    · have hsound := h.pools k b₁ hb₁
      exact hsound.safe (h.absent _ hsound.used) (hsafe _ hsound.used _ rfl)

end Instructions

variable (h : Sound find used s)
include h

theorem Sound.accepted (hderive : Derivation find used)
    (haccepted : Accepted find s rent ix accounts s')
    (hoff : (Happening.option rent ix accounts).KeepsOff find used)
    (hfits : (Happening.option rent ix accounts).Fits s) : Sound find used s' := by
  have hreg : Registered s' := by
    rw [← haccepted.step_eq]
    exact h.registered.step _
  obtain ⟨hpair, hunsigned⟩ := hoff
  obtain ⟨base, hproc, hresp⟩ := execute_ok haccepted.2
  change process find binaryOptionId rent accounts ix s = .ok (base, s') at hproc
  cases ix with
  | initializeBinaryOption => exact h.initialized hderive hreg hunsigned hpair hfits hproc
  | trade => exact h.trade hderive hreg hunsigned hpair hfits hproc hresp
  | collect => exact h.collect hderive hreg hunsigned hpair hproc hresp
  | settle =>
    obtain ⟨pool, rest, _, _, rfl, hread, hkeys, rfl, hserves, rfl⟩ :=
      processSettle_serve find hproc
    have hcalls : Calls ⟨rent, pool :: rest, pool⟩ [] base base := .refl base
    exact h.written hreg hread hcalls hunsigned (fun _ _ _ _ => not_mem_nil)
      (hresp _ mem_cons_self) hkeys hserves

theorem Sound.replaced {x : Pubkey} {a : RuntimeAccount} (hreg : Registered (update s x a))
    (hnew : poolAt (update s x a) x = none) (haccount : accountAt tokenProgramId s x = none)
    (hmint : mintAt tokenProgramId s x = none)
    (hauth : ∀ p ∈ used, pairKey find p = x → a.owner ≠ tokenProgramId) :
    Sound find used (update s x a) := by
  have hkept : ∀ k, k ≠ x → Kept s (update s x a) k := fun k hk => .of_eq (update_of_ne hk _ _)
  refine h.of_safe hreg (fun k b hb => ?_) fun p hp B hB =>
    .of_vacant haccount hmint (fun heq => ?_) hkept
  · by_cases hk : k = x
    · rw [hk, hnew] at hb
      cases hb
    · rwa [poolAt, optionAt_congr (hkept k hk)] at hb
  · rw [update_self]
    exact hauth p hp (hB.symm.trans heq)

theorem Sound.step (hderive : Derivation find used) {e : Happening} (hoff : e.KeepsOff find used)
    (hfits : e.Fits s) : Sound find used (step find s e) := by
  have hreg : Registered (BinaryOptions.step find s e) := h.registered.step e
  cases e with
  | option rent ix accounts =>
    rcases step_option find s rent ix accounts with haccepted | hsame
    · exact h.accepted hderive haccepted hoff hfits
    · rwa [hsame]
  | token rent ix accounts =>
    rcases Program.step_instruction (P := Token.program) rent ix accounts s with hexec | hsame
    · refine h.of_safe hreg (fun k b hb => ?_) fun p hp B hB => .of_token hexec (hB ▸ hoff p hp)
      rwa [BinaryOptions.step, poolAt, (steady_of_token hexec).options] at hb
    · rwa [BinaryOptions.step, hsame]
  | enter =>
    simp only [BinaryOptions.step] at hreg ⊢
    split at hreg
    next hin =>
      rw [if_pos hin]
      exact h
    next hout =>
      rw [if_neg hout]
      obtain ⟨htoken, -⟩ := not_or.mp hout
      refine h.replaced hreg (poolAt_of_zero ?_) (stateAt_of_owner_ne htoken)
        (stateAt_of_owner_ne htoken) fun p hp heq => absurd heq (hoff p hp)
      rw [update_self]
      exact fun y hy => eq_of_mem_replicate hy
  | external =>
    simp only [BinaryOptions.step] at hreg ⊢
    split at hreg
    next hin =>
      rw [if_pos hin]
      exact h
    next hout =>
      rw [if_neg hout]
      obtain ⟨hpre, hpost⟩ := not_or.mp hout
      obtain ⟨htoken, -⟩ := not_or.mp hpre
      obtain ⟨_, _⟩ := not_or.mp hpost
      exact h.replaced hreg (poolAt_of_owner_ne (by rwa [update_self]))
        (stateAt_of_owner_ne htoken) (stateAt_of_owner_ne htoken) fun _ _ _ => ‹_›
  | deposit x lamports =>
    have hkept := kept_deposit find s x lamports
    refine h.of_safe hreg (fun k b hb => ?_) fun p hp B hB => .of_kept hkept
    rwa [poolAt, optionAt_congr (hkept k)] at hb
  | reclaim =>
    simp only [BinaryOptions.step, Program.step] at hreg ⊢
    split at hreg
    next hzero =>
      rw [if_pos hzero]
      refine h.replaced hreg (poolAt_of_owner_ne ?_)
        (stateAt_eq_none.mpr fun _ _ => Token.Account.unpack_zero hzero.2)
        (stateAt_eq_none.mpr fun _ _ => Token.Mint.unpack_zero hzero.2) fun _ _ _ => system_ne_token
      rw [update_self]
      exact system_ne_binaryOption
    next hnot =>
      rw [if_neg hnot]
      exact h

end Happenings

/-! ## Whole runs -/

def supplyAt (s : Bank) (k : Pubkey) : ℕ :=
  ((mintAt tokenProgramId s k).map fun m => m.supply.toNat).getD 0

theorem Issues.supplyAt_eq {s : Bank} {k authority : Pubkey} {x : UInt64}
    (h : Issues s k authority x) : supplyAt s k = x.toNat := by
  obtain ⟨_, hm, -, rfl⟩ := h
  rw [supplyAt, hm]
  rfl

/-- Every contract is backed, in exact integers. -/
structure Backed (s : Bank) (b : BinaryOption) : Prop where
  escrow : b.circulation.toNat * 10 ^ b.decimals.toNat ≤
    balanceAt tokenProgramId s b.escrowAccountPubkey
  running : b.settled = false →
    supplyAt s b.longMintAccountPubkey ≤ b.circulation.toNat ∧
      supplyAt s b.shortMintAccountPubkey ≤ b.circulation.toNat
  decided : b.settled = true → supplyAt s b.winningSidePubkey ≤ b.circulation.toNat

section Runs

variable {find findProgramAddress : List Pubkey → Pubkey} {used : List (Pubkey × Pubkey)}
  {s : Bank}
  {b : BinaryOption}

theorem PoolSound.backed (h : PoolSound find used s b) : Backed s b := by
  obtain ⟨_, L, S, hbooks, hlaw⟩ := h.books
  have hL : supplyAt s b.longMintAccountPubkey = L.toNat := hbooks.long.supplyAt_eq
  have hS : supplyAt s b.shortMintAccountPubkey = S.toNat := hbooks.short.supplyAt_eq
  refine ⟨?_, fun hopen => ?_, fun hsettled => ?_⟩
  · obtain ⟨a, ha, -, -, -, rfl⟩ := hbooks.escrow
    have hbalance : balanceAt tokenProgramId s b.escrowAccountPubkey = a.amount.toNat :=
      Token.balanceAt_some ha
    rw [hbalance]
    exact hlaw.escrow
  · rw [hL, hS]
    obtain ⟨hlong, hshort⟩ := hlaw.running hopen
    exact ⟨UInt64.le_iff_toNat_le.mp hlong, UInt64.le_iff_toNat_le.mp hshort⟩
  · rcases hlaw.decided hsettled with ⟨hwin, hle⟩ | ⟨hwin, hle⟩
    · rw [hwin, hL]
      exact UInt64.le_iff_toNat_le.mp hle
    · rw [hwin, hS]
      exact UInt64.le_iff_toNat_le.mp hle

theorem Fresh.sound (h : Fresh s)
    (habsent : ∀ p ∈ used, (s (pairKey find p)).owner ≠ tokenProgramId) : Sound find used s :=
  ⟨h.registered, habsent, fun k b hb => absurd (hb.symm.trans (h.poolAt_none k)) (by simp)⟩

/-- **Contracts are backed.** In every state of every run in which the collateral of a new pool is
not one of its own sides and the exact numbers of every trade fit. -/
theorem contracts_backed (hderive : Derivation findProgramAddress used) {s₀ : Bank}
    (hfresh : Fresh s₀)
    (habsent : ∀ p ∈ used, (s₀ (pairKey findProgramAddress p)).owner ≠ tokenProgramId)
    {events : List Happening} (hoff : ∀ e ∈ events, e.KeepsOff findProgramAddress used)
    (hfits : Along (step findProgramAddress) Happening.Fits s₀ events) {k : Pubkey}
    (hpool : poolAt (run findProgramAddress s₀ events) k = some b) :
    Backed (run findProgramAddress s₀ events) b := by
  have hsound : Sound findProgramAddress used (run findProgramAddress s₀ events) :=
    (hfits.and hoff).invariant (fun _ _ hstep h => h.step hderive hstep.2 hstep.1)
      (hfresh.sound habsent)
  exact (hsound.pools k b hpool).backed

end Runs

/-- The pair of mints of the runs with `onlyAddress`. -/
def onlyPair : List (Pubkey × Pubkey) := [(.replicate 4, .replicate 5)]

theorem derivation_onlyPair : Derivation onlyAddress onlyPair where
  inj p hp q hq _ := (mem_singleton.mp hp).trans (mem_singleton.mp hq).symm
  system p hp := by
    rw [mem_singleton.mp hp]
    decide
  incinerator p hp := by
    rw [mem_singleton.mp hp]
    decide

theorem absent_onlyPair : ∀ p ∈ onlyPair,
    (emptyBank (pairKey onlyAddress p)).owner ≠ tokenProgramId :=
  fun _ _ => system_ne_token

/-- Five contracts at a price of one are backed by the five tokens of the buyer. -/
theorem contracts_backed_traded :
    ∃ b, poolAt (run onlyAddress emptyBank tradedRun) (.replicate 1) = some b ∧
      b.circulation = 5 ∧ Backed (run onlyAddress emptyBank tradedRun) b := by
  have hpool : poolAt (run onlyAddress emptyBank tradedRun) (.replicate 1) =
      some ⟨0, 5, false, .replicate 2, .replicate 3, .replicate 4, .replicate 5, .replicate 6,
        systemProgramId⟩ := by decide +kernel
  exact ⟨_, hpool, rfl, contracts_backed derivation_onlyPair fresh_emptyBank absent_onlyPair
    (by decide +kernel) (by decide +kernel) hpool⟩

/-- `2 ^ 63` contracts at prices 4 and 6: both payments wrap to zero. -/
def wrappedTrade : Happening :=
  .option (flatRent 0) (.trade 0x8000000000000000 4 6)
    [⟨.replicate 1, false⟩, ⟨.replicate 3, false⟩, ⟨.replicate 4, false⟩, ⟨.replicate 5, false⟩,
      ⟨.replicate 10, true⟩, ⟨.replicate 11, true⟩, ⟨.replicate 12, false⟩, ⟨.replicate 13, false⟩,
      ⟨.replicate 14, false⟩, ⟨.replicate 15, false⟩, ⟨.replicate 16, false⟩,
      ⟨.replicate 17, false⟩, ⟨.replicate 77, false⟩, ⟨tokenProgramId, false⟩]

/-- A pool of one decimal in which nobody pays for `2 ^ 63` contracts. -/
def wrappedRun : List Happening :=
  beforeOpening ++ .option (flatRent 0) (.initializeBinaryOption 1) openAccounts ::
    (traders ++ [wrappedTrade])

/-- Without a bound on the trades contracts are not backed: in `wrappedRun` there are `2 ^ 63` of
them, and the escrow is empty. -/
theorem wrapped_payments_unbacked :
    ¬ ∀ (findProgramAddress : List Pubkey → Pubkey) (used : List (Pubkey × Pubkey)) (s₀ : Bank)
        (events : List Happening) (k : Pubkey) (b : BinaryOption),
      Derivation findProgramAddress used → Fresh s₀ →
      (∀ p ∈ used, (s₀ (pairKey findProgramAddress p)).owner ≠ tokenProgramId) →
      (∀ e ∈ events, e.KeepsOff findProgramAddress used) →
      poolAt (run findProgramAddress s₀ events) k = some b →
      Backed (run findProgramAddress s₀ events) b := by
  intro hclaim
  have hpool : poolAt (run onlyAddress emptyBank wrappedRun) (.replicate 1) =
      some ⟨1, 0x8000000000000000, false, .replicate 2, .replicate 3, .replicate 4, .replicate 5,
        .replicate 6, systemProgramId⟩ := by decide +kernel
  have hescrow : balanceAt tokenProgramId (run onlyAddress emptyBank wrappedRun)
      (.replicate 3) = 0 := by decide +kernel
  have hbacked := hclaim onlyAddress onlyPair emptyBank wrappedRun (.replicate 1) _
    derivation_onlyPair fresh_emptyBank absent_onlyPair (by decide +kernel) hpool
  have hle := hbacked.escrow
  rw [show _ = 0 from hescrow] at hle
  exact absurd hle (by decide)

end SolanaPrograms.BinaryOptions
