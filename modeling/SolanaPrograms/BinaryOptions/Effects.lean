import SolanaPrograms.BinaryOptions.Processor
import SolanaPrograms.Token.Calls

/-!
# What the instructions of the binary-option program do

One theorem for each instruction. `Undisturbed` is what a chain of calls of the token program
leaves: mints stay mints, pools stay as they are, and tokens leave only the accounts a call names as
its source. On top of it a trade and a collection rewrite the circulation of the pool they read, a
settlement marks it settled, and an initialisation adds a pool with two new mints.
-/

namespace SolanaPrograms.BinaryOptions

open Outcome SolanaPrograms.Runtime BinaryOption List Bank
open Token (Mint Account TokenInstruction tokenProgramId accountAt mintAt debitOf)

/-! ## Pools in the store -/

/-- The data of an account of the program, read as a pool. -/
def optionAt (s : Bank) (k : Pubkey) : Option BinaryOption :=
  if (s k).owner = binaryOptionId then (tryFromSlice (s k).data).toOption else none

def Debits (sources : List Pubkey) (s s' : Bank) : Prop :=
  ∀ x a, accountAt tokenProgramId s x = some a → ∃ a', accountAt tokenProgramId s' x = some a' ∧
    a'.mint = a.mint ∧ (x ∉ sources → a.amount ≤ a'.amount)

structure Steady (s s' : Bank) : Prop where
  mints : ∀ x m, mintAt tokenProgramId s x = some m → ∃ m', mintAt tokenProgramId s' x = some m'
  options : ∀ k, optionAt s' k = optionAt s k
  owned : ∀ k, (s' k).owner = binaryOptionId → (s k).owner = binaryOptionId

section Views

variable {s s' s₁ : Bank} {k : Pubkey} {b : BinaryOption} {sources : List Pubkey}

theorem optionAt_eq_some : optionAt s k = some b ↔
    (s k).owner = binaryOptionId ∧ tryFromSlice (s k).data = .ok b := by
  unfold optionAt
  by_cases howner : (s k).owner = binaryOptionId
  · cases hread : tryFromSlice (s k).data with
    | error | ok => simp [howner, Except.toOption]
  · simp [howner]

theorem optionAt_congr (h : Kept s s' k) : optionAt s' k = optionAt s k := by
  simp [optionAt, h.1, h.2]

theorem BinaryOption.length_eq {data : List UInt8} (h : tryFromSlice data = .ok b) :
    data.length = len := by
  simp only [tryFromSlice, bind_eq_ok, failIf_eq_ok, not_not, ne_eq] at h
  obtain ⟨_, hlen, -⟩ := h
  exact hlen

theorem length_of_optionAt (h : optionAt s k = some b) : (s k).data.length = len :=
  length_eq (optionAt_eq_some.mp h).2

theorem optionAt_write (howner : (s k).owner = binaryOptionId) (b : BinaryOption) :
    optionAt (s.setData k b.serialize) k = some b :=
  optionAt_eq_some.mpr ⟨by rwa [setData_owner], by
    rw [setData_same]
    exact b.tryFromSlice_serialize⟩

theorem optionAt_of_owner_ne (h : (s k).owner ≠ binaryOptionId) : optionAt s k = none :=
  if_neg h

theorem Steady.refl (s : Bank) : Steady s s :=
  ⟨fun _ m h => ⟨m, h⟩, fun _ => rfl, fun _ h => h⟩

theorem Steady.trans (h : Steady s s₁) (h' : Steady s₁ s') : Steady s s' where
  mints x m hm := by
    obtain ⟨m₁, hm₁⟩ := h.mints x m hm
    exact h'.mints x m₁ hm₁
  options k := (h'.options k).trans (h.options k)
  owned k hk := h.owned k (h'.owned k hk)

theorem Debits.refl (sources : List Pubkey) (s : Bank) : Debits sources s s :=
  fun _ a ha => ⟨a, ha, rfl, fun _ => UInt64.le_refl _⟩

theorem Debits.trans (h : Debits sources s s₁) (h' : Debits sources s₁ s') :
    Debits sources s s' := by
  intro x a ha
  obtain ⟨a₁, ha₁, hmint₁, hle₁⟩ := h x a ha
  obtain ⟨a₂, ha₂, hmint₂, hle₂⟩ := h' x a₁ ha₁
  exact ⟨a₂, ha₂, hmint₂.trans hmint₁, fun hx => UInt64.le_trans (hle₁ hx) (hle₂ hx)⟩

end Views

/-! ## Calls of the token program -/

section Calls

variable {s s' : Bank} {accounts : List AccountMeta} {ix : TokenInstruction} {k : Pubkey}
  {derived sources : List Pubkey}

theorem tokenProgramId_ne : tokenProgramId ≠ binaryOptionId := by decide

theorem optionAt_of_token (h : (s k).owner = tokenProgramId) : optionAt s k = none :=
  optionAt_of_owner_ne (h ▸ tokenProgramId_ne)

theorem optionAt_of_length (h : (s k).data.length = 355) : optionAt s k = none := by
  cases hb : optionAt s k with
  | none => rfl
  | some =>
    have hlen := length_of_optionAt hb
    rw [h] at hlen
    exact absurd hlen (by decide)

variable (h : Token.KeyChange tokenProgramId s s' accounts ix k) {rent : Rent}
include h

theorem optionAt_of_keyChange : optionAt s' k = optionAt s k := by
  cases h with
  | kept h => exact optionAt_congr h
  | account _ _ before after | mint _ _ before after =>
    rw [optionAt_of_token (stateAt_eq_some.mp after).1,
      optionAt_of_token (stateAt_eq_some.mp before).1]
  | opened _ _ howner hkind =>
    rcases hkind with hid | ⟨hlen, hlen'⟩
    · rw [optionAt_of_token (howner.trans hid), optionAt_of_token hid]
    · rw [optionAt_of_length hlen, optionAt_of_length hlen']
  | closed _ _ before howner =>
    rw [optionAt_of_token howner, optionAt_of_token (stateAt_eq_some.mp before).1]

theorem mintAt_of_keyChange {m : Mint} (hm : mintAt tokenProgramId s k = some m) :
    ∃ m', mintAt tokenProgramId s' k = some m' := by
  cases h with
  | kept h => exact ⟨m, (stateAt_congr h.1 h.2).trans hm⟩
  | account _ _ before | closed _ _ before =>
    rw [Token.accountAt_of_mintAt hm] at before
    cases before
  | mint _ m' _ after => exact ⟨m', after⟩
  | opened _ hmint =>
    rw [hm] at hmint
    cases hmint

theorem owned_of_keyChange (hk : (s' k).owner = binaryOptionId) : (s k).owner = binaryOptionId := by
  have hnot : (s' k).owner ≠ tokenProgramId := hk ▸ tokenProgramId_ne.symm
  cases h with
  | kept h => exact h.1 ▸ hk
  | account _ _ _ after | mint _ _ _ after => exact absurd (stateAt_eq_some.mp after).1 hnot
  | opened _ _ howner => exact howner ▸ hk
  | closed _ _ _ howner => exact absurd howner hnot

omit h

theorem steady_of_token (h : Token.program.execute rent ix accounts s = .ok s') :
    Steady s s' where
  mints x _ hm := mintAt_of_keyChange ((Token.execute_effect h).keyChange x) hm
  options k := optionAt_of_keyChange ((Token.execute_effect h).keyChange k)
  owned k hk := owned_of_keyChange ((Token.execute_effect h).keyChange k) hk

theorem debits_of_token (h : Token.program.execute rent ix accounts s = .ok s')
    (hclose : ix ≠ .closeAccount)
    (hsource : ∀ d, debitOf ix accounts = some d → d.source ∈ sources) : Debits sources s s' := by
  intro x a ha
  cases (Token.execute_effect h).keyChange x with
  | kept h => exact ⟨a, (stateAt_congr h.1 h.2).trans ha, rfl, fun _ => UInt64.le_refl _⟩
  | account _ a' before after hmint hamount =>
    rw [ha] at before
    cases before
    refine ⟨a', after, hmint, fun hx => ?_⟩
    rcases hamount with hle | ⟨d, hd, rfl⟩
    · exact hle
    · exact absurd (hsource d hd) hx
  | mint _ _ before =>
    rw [Token.accountAt_of_mintAt before] at ha
    cases ha
  | opened hnone =>
    rw [ha] at hnone
    cases hnone
  | closed hix => exact absurd hix hclose

/-- What a chain of calls of the token program leaves. -/
structure Undisturbed (sources : List Pubkey) (s s' : Bank) : Prop extends Steady s s' where
  debits : Debits sources s s'

theorem Undisturbed.refl (sources : List Pubkey) (s : Bank) : Undisturbed sources s s :=
  ⟨.refl s, .refl sources s⟩

theorem Undisturbed.trans {s₁ : Bank} (h : Undisturbed sources s s₁)
    (h' : Undisturbed sources s₁ s') : Undisturbed sources s s' :=
  ⟨h.toSteady.trans h'.toSteady, h.debits.trans h'.debits⟩

variable {c : Call} {metas : List AccountMeta}

theorem spl_ok (h : c.spl derived ix metas s = .ok s') :
    c.tokenProgram.key = tokenProgramId ∧
      (∀ m ∈ metas, m.isSigner = true → CanSign c.accounts derived m.key) ∧
      Token.program.execute c.rent ix metas s = .ok s' := by
  rw [Call.spl, failIf_bind_eq_ok] at h
  obtain ⟨hid, h⟩ := h
  exact ⟨not_not.mp hid, Program.invokeSigned_ok h⟩

theorem undisturbed_of_spl (h : c.spl derived ix metas s = .ok s') (hclose : ix ≠ .closeAccount)
    (hsource : ∀ d, debitOf ix metas = some d → d.source ∈ sources) : Undisturbed sources s s' :=
  ⟨steady_of_token (spl_ok h).2.2, debits_of_token (spl_ok h).2.2 hclose hsource⟩

theorem undisturbed_of_quiet (h : c.spl derived ix metas s = .ok s') (hclose : ix ≠ .closeAccount)
    (hdebit : debitOf ix metas = none) : Undisturbed sources s s' :=
  undisturbed_of_spl h hclose (by simp [hdebit])

/-- Calls of the token program one after the other that close nothing: the caller signs for no
other derived addresses than the given ones, and takes from the sources only. -/
inductive Chain (c : Call) (derived sources : List Pubkey) : Bank → Bank → Prop
  | refl (s : Bank) : Chain c derived sources s s
  | call {s s₁ s₂ : Bank} {signed : List Pubkey} {ix : TokenInstruction}
      {metas : List AccountMeta} (hsub : signed ⊆ derived)
      (hcall : c.spl signed ix metas s = .ok s₁) (hclose : ix ≠ .closeAccount)
      (hsource : ∀ d, debitOf ix metas = some d → d.source ∈ sources)
      (hrest : Chain c derived sources s₁ s₂) : Chain c derived sources s s₂

theorem Chain.undisturbed (h : Chain c derived sources s s') : Undisturbed sources s s' := by
  induction h with
  | refl s => exact .refl _ s
  | call _ hcall hclose hsource _ ih => exact (undisturbed_of_spl hcall hclose hsource).trans ih

variable {account mint authority source destination delegate owner : AccountMeta}
  {amount : UInt64} {decimals : UInt8} {signed : List Pubkey} {s₁ : Bank}

theorem Chain.trans (h : Chain c derived sources s s₁) (h' : Chain c derived sources s₁ s') :
    Chain c derived sources s s' := by
  induction h with
  | refl => exact h'
  | call hsub hcall hclose hsource _ ih => exact .call hsub hcall hclose hsource (ih h')

/-- A call that is left out for an amount of zero. -/
theorem Chain.unless {p : Prop} [Decidable p] (hsub : signed ⊆ derived)
    (hclose : ix ≠ .closeAccount)
    (hsource : ∀ d, debitOf ix metas = some d → d.source ∈ sources)
    (h : (if p then c.spl signed ix metas s else .ok s) = .ok s₁)
    (hrest : Chain c derived sources s₁ s') : Chain c derived sources s s' := by
  split at h
  · exact .call hsub h hclose hsource hrest
  · cases h
    exact hrest

variable (hsub : signed ⊆ derived)
include hsub

theorem Chain.burn (hmem : account.key ∈ sources)
    (h : c.splBurn signed account mint authority amount s = .ok s₁)
    (hrest : Chain c derived sources s₁ s') : Chain c derived sources s s' :=
  .unless hsub (by simp) (by rintro _ ⟨⟩; exact hmem) h hrest

theorem Chain.transfer (hmem : source.key ∈ sources)
    (h : c.splTokenTransfer signed source destination authority amount s = .ok s₁)
    (hrest : Chain c derived sources s₁ s') : Chain c derived sources s s' :=
  .unless hsub (by simp) (by rintro _ ⟨⟩; exact hmem) h hrest

theorem Chain.mintTo (h : c.splMintTo signed account mint authority amount s = .ok s₁)
    (hrest : Chain c derived sources s₁ s') : Chain c derived sources s s' :=
  .call hsub h (by simp) (fun _ hd => by cases hd) hrest

omit hsub

theorem Chain.approve (h : c.splApprove source mint delegate owner amount decimals s = .ok s₁)
    (hrest : Chain c derived sources s₁ s') : Chain c derived sources s s' :=
  .call (nil_subset _) h (by simp) (fun _ hd => by cases hd) hrest

theorem signed_of_splApprove
    (h : c.splApprove source mint delegate owner amount decimals s = .ok s') :
    ∃ m ∈ c.accounts, m.key = owner.key ∧ m.isSigner = true := by
  rcases (spl_ok h).2.1 ⟨owner.key, true⟩ (by simp) rfl with hmem | hsigned
  · cases hmem
  · exact hsigned

end Calls

/-! ## Trade -/

section Trade

variable {s s' base : Bank} {accounts : List AccountMeta} {rent : Rent}
  {find : List Pubkey → Pubkey} {b b' : BinaryOption} {amounts : UInt64 × UInt64 × UInt64 × UInt64}
  {info : AccountMeta} {t : TradeAccounts} {st : TradeState}

/-- The same bet, whatever happened to it. -/
def SameBet (b b' : BinaryOption) : Prop :=
  b'.longMintAccountPubkey = b.longMintAccountPubkey ∧
    b'.shortMintAccountPubkey = b.shortMintAccountPubkey ∧ b'.owner = b.owner

def TradeAccounts.sources (t : TradeAccounts) : List Pubkey :=
  [t.buyerShort.key, t.sellerLong.key, t.buyerAccount.key, t.sellerAccount.key,
    t.escrowAccount.key]

theorem decrementSupply_eq {d : UInt64} (h : b.decrementSupply d = .ok b') :
    d ≤ b.circulation ∧ b' = { b with circulation := b.circulation - d } := by
  simp only [decrementSupply, checks] at h
  exact ⟨UInt64.not_lt.mp h.1, h.2.symm⟩

/-- The calls of a trade; of the pool only the circulation changes. -/
theorem settleTrade_ok {n buyPrice sellPrice : UInt64}
    (h : settleTrade find binaryOptionId rent accounts t st b n buyPrice sellPrice s =
      .ok (s', amounts, b')) :
    Chain ⟨rent, accounts, t.tokenProgram⟩ [authorityKey find binaryOptionId
      t.longTokenMint.key t.shortTokenMint.key t.tokenProgram.key] t.sources s s' ∧
      ∃ x, b' = { b with circulation := x } := by
  obtain ⟨hbs, hsl, hba, hsa, hes⟩ : t.buyerShort.key ∈ t.sources ∧ t.sellerLong.key ∈ t.sources ∧
      t.buyerAccount.key ∈ t.sources ∧ t.sellerAccount.key ∈ t.sources ∧
      t.escrowAccount.key ∈ t.sources := by simp [TradeAccounts.sources]
  unfold settleTrade at h
  dsimp only at h
  generalize authorityKey find binaryOptionId t.longTokenMint.key t.shortTokenMint.key
    t.tokenProgram.key = authority at h ⊢
  have hnil := nil_subset [authority]
  have hself := List.Subset.refl [authority]
  split at h
  · -- both close: two burns, two payments
    simp only [checks] at h
    obtain ⟨_, h₁, _, h₂, _, h₃, _, h₄, _, hb, rfl, -, rfl⟩ := h
    exact ⟨.burn hnil hbs h₁ (.burn hnil hsl h₂ (.transfer hself hes h₃
      (.transfer hself hes h₄ (.refl _)))), _, (decrementSupply_eq hb).2⟩
  · -- both open
    simp only [bind_eq_ok] at h
    obtain ⟨_, h₁, _, h₂, _, h₃, _, h₄, _, h₅, _, h₆, _, h₇, s₈, h₈, hlast⟩ := h
    obtain ⟨rfl, hpool⟩ : s₈ = s' ∧ ∃ x, b' = { b with circulation := x } := by
      split at hlast
      · cases hlast
        exact ⟨rfl, _, rfl⟩
      · simp only [checks] at hlast
        obtain ⟨_, hb, rfl, -, rfl⟩ := hlast
        exact ⟨rfl, _, (decrementSupply_eq hb).2⟩
    exact ⟨.burn hnil hbs h₁ (.burn hnil hsl h₂ (.mintTo hself h₃ (.mintTo hself h₄
      (.transfer hnil hba h₅ (.transfer hnil hsa h₆ (.transfer hself hes h₇
        (.transfer hself hes h₈ (.refl _)))))))), hpool⟩
  · simp only [checks] at h
    obtain ⟨_, h₁, _, h₂, _, h₃, _, h₄, _, h₅, _, h₆, _, hb, rfl, -, rfl⟩ := h
    exact ⟨.burn hnil hbs h₁ (.burn hnil hsl h₂ (.mintTo hself h₃ (.transfer hnil hsa h₄
      (.transfer hself hes h₅ (.transfer hself hes h₆ (.refl _)))))), _, (decrementSupply_eq hb).2⟩
  · simp only [checks] at h
    obtain ⟨_, h₁, _, h₂, _, h₃, _, h₄, _, h₅, _, h₆, _, hb, rfl, -, rfl⟩ := h
    exact ⟨.burn hnil hsl h₁ (.burn hnil hbs h₂ (.mintTo hself h₃ (.transfer hnil hba h₄
      (.transfer hself hes h₅ (.transfer hself hes h₆ (.refl _)))))), _, (decrementSupply_eq hb).2⟩

def Signed (accounts : List AccountMeta) (k : Pubkey) : Prop :=
  ∃ m ∈ accounts, m.key = k ∧ m.isSigner = true

instance (accounts : List AccountMeta) (k : Pubkey) : Decidable (Signed accounts k) := by
  unfold Signed; infer_instance

theorem approveTrade_ok (derived sources : List Pubkey)
    (h : approveTrade rent accounts t st amounts s = .ok s') :
    Chain ⟨rent, accounts, t.tokenProgram⟩ derived sources s s' ∧ Signed accounts t.buyer.key ∧
      Signed accounts t.seller.key := by
  obtain ⟨_, _, _, _⟩ := amounts
  simp only [approveTrade, bind_eq_ok] at h
  obtain ⟨_, h₁, _, h₂, _, h₃, h₄⟩ := h
  exact ⟨.approve h₁ (.approve h₂ (.approve h₃ (.approve h₄ (.refl _)))), signed_of_splApprove h₁,
    signed_of_splApprove h₂⟩

theorem assertInitialized_ok {T : Type} [Pack T] {v : T}
    (h : assertInitialized T s info = .ok v) : Pack.unpack T (s info.key).data = .ok v := by
  simp only [assertInitialized, bind_eq_ok, failIf_eq_ok, pure_eq_ok] at h
  obtain ⟨_, hw, _, hinit, rfl⟩ := h
  exact Pack.unpack_eq_ok.mpr ⟨hw, by simpa using hinit⟩

theorem eq_of_assertInitialized {a v : Account} (h : assertInitialized Account s info = .ok v)
    (ha : accountAt tokenProgramId s info.key = some a) : v = a := by
  have hv := assertInitialized_ok h
  rw [(stateAt_eq_some.mp ha).2] at hv
  cases hv
  rfl

theorem assertKeysEqual_ok {key₁ key₂ : Pubkey} {u : Unit} :
    assertKeysEqual key₁ key₂ = .ok u ↔ key₁ = key₂ := by
  simp [assertKeysEqual]

/-- **Trade.** Tokens leave only the escrow and accounts whose owners signed, and the pool that was
read is written back with another circulation. -/
theorem processTrade_ok {size buyPrice sellPrice : UInt64}
    (h : processTrade find binaryOptionId rent accounts size buyPrice sellPrice s = .ok (base, s')) :
    ∃ t b b', tradeAccounts accounts = .ok t ∧
      tryFromSlice (s t.binaryOption.key).data = .ok b ∧
      Undisturbed t.sources s base ∧ SameBet b b' ∧ b'.settled = b.settled ∧
      s' = base.setData t.binaryOption.key b'.serialize ∧
      ∀ x ∈ t.sources, x ≠ t.escrowAccount.key → ∀ a, accountAt tokenProgramId s x = some a →
        Signed accounts a.owner := by
  simp only [processTrade, checks] at h
  obtain ⟨t, ht, _, hread, b, hb, _, hvalid, _, _, _, _, _, _, hsettle, _, happrove, rfl, rfl⟩ := h
  obtain ⟨hchain, x, rfl⟩ := settleTrade_ok hsettle
  obtain ⟨hchain', hbuyer, hseller⟩ := approveTrade_ok _ t.sources happrove
  refine ⟨t, b, { b with circulation := x }, ht, hb, (hchain.trans hchain').undisturbed,
    ⟨rfl, rfl, rfl⟩, rfl, rfl, fun x hx hescrow a ha => ?_⟩
  simp only [readTrade, checks] at hread
  obtain ⟨_, -, _, -, _, -, _, hbs, _, hsl, _, -, _, hba, _, hsa, rfl⟩ := hread
  simp only [validateTrade, checks, assertKeysEqual_ok] at hvalid
  obtain ⟨-, -, -, _, -, -, -, -, hbsOwner, hslOwner, -, hbaOwner, hsaOwner, -⟩ := hvalid
  simp only [TradeAccounts.sources, mem_cons, not_mem_nil, or_false] at hx
  rcases hx with rfl | rfl | rfl | rfl | rfl
  · rw [← eq_of_assertInitialized hbs ha, hbsOwner]
    exact hbuyer
  · rw [← eq_of_assertInitialized hsl ha, hslOwner]
    exact hseller
  · rw [← eq_of_assertInitialized hba ha, hbaOwner]
    exact hbuyer
  · rw [← eq_of_assertInitialized hsa ha, hsaOwner]
    exact hseller
  · exact absurd rfl hescrow

end Trade

/-! ## Collect and Settle -/

section Collect

variable {s s' base : Bank} {accounts : List AccountMeta} {rent : Rent}
  {find : List Pubkey → Pubkey} {b b' : BinaryOption}

/-- The accounts a collection takes tokens from. -/
def CollectAccounts.sources (t : CollectAccounts) : List Pubkey :=
  [t.collectorLong.key, t.collectorShort.key, t.escrowAccount.key]

variable {derived : List Pubkey} {t : CollectAccounts} {st : CollectState} {reward : UInt64}

theorem payReward_ok (h : payReward rent accounts t st b derived reward s = .ok (s', b')) :
    Chain ⟨rent, accounts, t.tokenProgram⟩ derived t.sources s s' ∧
      ∃ x, b' = { b with circulation := x } := by
  unfold payReward at h
  split at h
  · simp only [checks] at h
    obtain ⟨-, _, h₁, _, hb, rfl, rfl⟩ := h
    exact ⟨.transfer (List.Subset.refl _) (by simp [CollectAccounts.sources]) h₁ (.refl _), _,
      (decrementSupply_eq hb).2⟩
  · cases h
    exact ⟨.refl _, _, rfl⟩

/-- The calls of a collection, and what it does to the pool. -/
theorem collect_chain {s₁ s₂ : Bank}
    (h₁ : (Call.mk rent accounts t.tokenProgram).splBurn derived t.collectorLong t.longTokenMint
      t.escrowAuthority st.collectorLong.amount s = .ok s₁)
    (h₂ : (Call.mk rent accounts t.tokenProgram).splBurn derived t.collectorShort t.shortTokenMint
      t.escrowAuthority st.collectorShort.amount s₁ = .ok s₂)
    (h₃ : payReward rent accounts t st b derived reward s₂ = .ok (s', b')) :
    Chain ⟨rent, accounts, t.tokenProgram⟩ derived t.sources s s' ∧
      ∃ x, b' = { b with circulation := x } := by
  obtain ⟨hchain, hpool⟩ := payReward_ok h₃
  exact ⟨.burn (List.Subset.refl _) (by simp [CollectAccounts.sources]) h₁
    (.burn (List.Subset.refl _) (by simp [CollectAccounts.sources]) h₂ hchain), hpool⟩

/-- **Collect.** The pool that was read is settled; tokens leave the escrow and the two accounts of
the collector, which are of the mints of that pool. -/
theorem processCollect_ok
    (h : processCollect find binaryOptionId rent accounts s = .ok (base, s')) :
    ∃ t b b', collectAccounts accounts = .ok t ∧
      tryFromSlice (s t.binaryOption.key).data = .ok b ∧ b.settled = true ∧
      Undisturbed t.sources s base ∧ SameBet b b' ∧ b'.settled = b.settled ∧
      s' = base.setData t.binaryOption.key b'.serialize ∧
      ∀ x ∈ t.sources, x ≠ t.escrowAccount.key → ∀ a, accountAt tokenProgramId s x = some a →
        a.mint = b.longMintAccountPubkey ∨ a.mint = b.shortMintAccountPubkey := by
  simp only [processCollect, checks] at h
  obtain ⟨t, ht, _, hread, b, hb, _, hvalid, _, -, _, h₁, _, h₂, _, _, hpay, rfl, rfl⟩ := h
  obtain ⟨hchain, x, rfl⟩ := collect_chain h₁ h₂ hpay
  simp only [readCollect, checks] at hread
  obtain ⟨_, hcl, _, hcs, _, -, _, -, rfl⟩ := hread
  simp only [validateCollect, checks, assertKeysEqual_ok, Bool.not_eq_false] at hvalid
  obtain ⟨hset, _, -, _, -, -, -, -, -, -, -, -, hclMint, hcsMint, -⟩ := hvalid
  refine ⟨t, b, { b with circulation := x }, ht, hb, hset, hchain.undisturbed, ⟨rfl, rfl, rfl⟩,
    rfl, rfl, fun x hx hescrow a ha => ?_⟩
  simp only [CollectAccounts.sources, mem_cons, not_mem_nil, or_false] at hx
  rcases hx with rfl | rfl | rfl
  · rw [← eq_of_assertInitialized hcl ha]
    exact .inl hclMint
  · rw [← eq_of_assertInitialized hcs ha]
    exact .inr hcsMint
  · exact absurd rfl hescrow

/-- **Settle.** The pool that was read is marked settled, on the signature of its owner. -/
theorem processSettle_ok (h : processSettle accounts s = .ok (base, s')) :
    ∃ pool winner owner rest b b', accounts = pool :: winner :: owner :: rest ∧
      tryFromSlice (s pool.key).data = .ok b ∧ owner.isSigner = true ∧
      owner.key = b.owner ∧ SameBet b b' ∧ base = s ∧ s' = s.setData pool.key b'.serialize := by
  simp only [processSettle, checks, nextAccountInfo_eq_ok, assertKeysEqual_ok,
    Bool.not_eq_false] at h
  obtain ⟨pool, _, rfl, winner, _, rfl, owner, rest, rfl, b, hb, hsigner, -, howner, -, rfl, rfl⟩ := h
  refine ⟨pool, winner, owner, rest, b, { b with settled := true, winningSidePubkey := winner.key },
    rfl, hb, hsigner, howner, ⟨rfl, rfl, rfl⟩, rfl, rfl⟩

end Collect

/-! ## InitializeBinaryOption -/

section Initialize

variable {s s' base : Bank} {accounts : List AccountMeta} {rent : Rent}
  {find : List Pubkey → Pubkey} {sources : List Pubkey}

variable {k owner : Pubkey} {space : Nat} {rentInfo : AccountMeta} {decimals : UInt8}

theorem system_ne_token : systemProgramId ≠ tokenProgramId := by decide

theorem system_ne_binaryOption : systemProgramId ≠ binaryOptionId := by decide

theorem undisturbed_of_created
    (h : System.Created accounts derived s s' k owner space) (howner : owner = tokenProgramId) :
    Undisturbed sources s s' := by
  have hvacant : (s k).owner ≠ tokenProgramId := h.vacant ▸ system_ne_token
  have hcases : ∀ x, x = k ∨ Kept s s' x := fun x => or_iff_not_imp_left.mpr (h.kept x)
  refine ⟨⟨fun x m hm => ?_, fun x => ?_, fun x howned => ?_⟩, fun x a ha => ?_⟩ <;>
    rcases hcases x with rfl | hkept
  · cases hm.symm.trans (stateAt_of_owner_ne hvacant)
  · exact ⟨m, (stateAt_congr hkept.1 hkept.2).trans hm⟩
  · rw [optionAt_of_token (h.owner.trans howner),
      optionAt_of_owner_ne (h.vacant ▸ system_ne_binaryOption)]
  · exact optionAt_congr hkept
  · rw [h.owner, howner] at howned
    exact absurd howned tokenProgramId_ne
  · exact hkept.1 ▸ howned
  · cases ha.symm.trans (stateAt_of_owner_ne hvacant)
  · exact ⟨a, (stateAt_congr hkept.1 hkept.2).trans ha, rfl, fun _ => UInt64.le_refl _⟩

theorem createNewAccount_ok {source newAccount owner : AccountMeta}
    (h : createNewAccount rent accounts source newAccount space owner rentInfo s = .ok s') :
    System.Created accounts [] s s' newAccount.key owner.key space := by
  rw [createNewAccount, failIf_bind_eq_ok] at h
  exact System.createAccount_ok h.2

theorem createOrAllocateAccountRaw_ok {programId : Pubkey} {newAccount payer : AccountMeta}
    {size : Nat}
    (h : createOrAllocateAccountRaw rent accounts programId newAccount rentInfo payer size s =
      .ok s') :
    (s newAccount.key).owner = systemProgramId ∧ (s' newAccount.key).owner = programId ∧
      ∀ k, k ≠ newAccount.key → Kept s s' k := by
  simp only [createOrAllocateAccountRaw, bind_eq_ok] at h
  obtain ⟨s₁, htopup, _, hallocate, hassign⟩ := h
  have hkept : ∀ k, Kept s s₁ k := by
    rw [topup, failIf_bind_eq_ok] at htopup
    obtain ⟨-, htopup⟩ := htopup
    dsimp only at htopup
    split at htopup
    · exact System.transfer_kept htopup
    · cases htopup
      exact fun _ => ⟨rfl, rfl⟩
  obtain ⟨-, -, howner, rfl⟩ := System.allocate_ok hallocate
  cases System.assign_ok hassign
  refine ⟨(hkept _).1 ▸ howner, by simp, fun k hk => (hkept k).trans (.of_eq ?_)⟩
  rw [Function.update_of_ne hk, setData_of_ne s₁ hk]

theorem mintAt_of_splMintInitialize {c : Call} {mint mintAuthority freezeAuthority : AccountMeta}
    (h : c.splMintInitialize mint mintAuthority freezeAuthority rentInfo decimals s = .ok s') :
    ∃ m, mintAt tokenProgramId s' mint.key = some m := by
  obtain ⟨-, m, -, hm, -⟩ := Token.initializeMint_mintAt (spl_ok h).2.2
  exact ⟨m, hm⟩

/-- The account list of an initialisation: the pool, its two mints and its owner. -/
def InitializeNames (accounts : List AccountMeta) (pool long short owner : Pubkey) : Prop :=
  (keys accounts)[0]? = some pool ∧ (keys accounts)[3]? = some long ∧
    (keys accounts)[4]? = some short ∧ (keys accounts)[6]? = some owner

/-- **InitializeBinaryOption.** Two addresses that belonged to nobody become the mints of the new
pool; nothing else is disturbed. -/
structure Initialized (accounts : List AccountMeta) (s s' : Bank) (pool : Pubkey)
    (b : BinaryOption) : Prop where
  names : InitializeNames accounts pool b.longMintAccountPubkey b.shortMintAccountPubkey b.owner
  long_signed : Signed accounts b.longMintAccountPubkey
  short_signed : Signed accounts b.shortMintAccountPubkey
  long_vacant : (s b.longMintAccountPubkey).owner = systemProgramId
  short_vacant : (s b.shortMintAccountPubkey).owner = systemProgramId
  mints : ∃ s₁, Undisturbed [] s s₁ ∧
    (∃ m, mintAt tokenProgramId s₁ b.longMintAccountPubkey = some m) ∧
    (∃ m, mintAt tokenProgramId s₁ b.shortMintAccountPubkey = some m) ∧
    (s₁ pool).owner = systemProgramId ∧ ∀ k, k ≠ pool → Kept s₁ s' k
  owner : (s' pool).owner = binaryOptionId
  data : (s' pool).data = b.serialize
  settled : b.settled = false

/-- The calls of an initialisation, one after the other, and the pool it writes. -/
inductive Opening (findProgramAddress : List Pubkey → Pubkey) (rent : Rent)
    (accounts : List AccountMeta) (decimals : UInt8) (s s' : Bank) : Prop
  | intro (pool escrowMint escrow long short mintAuthority update tokenProgram system rentInfo :
        AccountMeta) (rest : List AccountMeta) (winner : Pubkey)
      (s₁ s₂ s₃ s₄ s₅ s₆ s₇ s₈ s₉ s₁₀ : Bank)
      (hlist : accounts = pool :: escrowMint :: escrow :: long :: short :: mintAuthority ::
        update :: tokenProgram :: system :: rentInfo :: rest)
      (htoken : tokenProgram.key = tokenProgramId)
      (hlong : System.Created accounts [] s s₁ long.key tokenProgramId (Pack.len Mint))
      (hshort : System.Created accounts [] s₁ s₂ short.key tokenProgramId (Pack.len Mint))
      (hescrow : System.Created accounts [] s₂ s₃ escrow.key tokenProgramId (Pack.len Account))
      (hmint : (Call.mk rent accounts tokenProgram).splMintInitialize long mintAuthority
        mintAuthority rentInfo 0 s₃ = .ok s₄)
      (hmint' : (Call.mk rent accounts tokenProgram).splMintInitialize short mintAuthority
        mintAuthority rentInfo 0 s₄ = .ok s₅)
      (haccount : (Call.mk rent accounts tokenProgram).splInitialize escrow escrowMint update
        rentInfo s₅ = .ok s₆)
      (hgive : (Call.mk rent accounts tokenProgram).splSetAuthority escrow
        (authorityKey findProgramAddress binaryOptionId long.key short.key tokenProgram.key)
        .accountOwner update s₆ = .ok s₇)
      (hgiveLong : (Call.mk rent accounts tokenProgram).splSetAuthority long
        (authorityKey findProgramAddress binaryOptionId long.key short.key tokenProgram.key)
        .mintTokens update s₇ = .ok s₈)
      (hgiveShort : (Call.mk rent accounts tokenProgram).splSetAuthority short
        (authorityKey findProgramAddress binaryOptionId long.key short.key tokenProgram.key)
        .mintTokens update s₈ = .ok s₉)
      (hpool : createOrAllocateAccountRaw rent accounts binaryOptionId pool rentInfo update
        len s₉ = .ok s₁₀)
      (hwrite : s' = s₁₀.setData pool.key (⟨decimals, 0, false, escrowMint.key, escrow.key,
        long.key, short.key, update.key, winner⟩ : BinaryOption).serialize)

theorem processInitializeBinaryOption_calls
    (h : processInitializeBinaryOption find binaryOptionId rent accounts decimals s =
      .ok (base, s')) : Opening find rent accounts decimals s s' := by
  simp only [processInitializeBinaryOption, checks, nextAccountInfo_eq_ok, assertKeysEqual_ok] at h
  obtain ⟨pool, _, rfl, escrowMint, _, rfl, escrow, _, rfl, long, _, rfl, short, _, rfl,
    mintAuthority, _, rfl, update, _, rfl, tokenProgram, _, rfl, system, _, rfl, rentInfo, rest,
    rfl, s₁, h₁, s₂, h₂, s₃, h₃, s₄, h₄, s₅, h₅, s₆, h₆, htoken, s₇, h₇, s₈, h₈, s₉, h₉, s₁₀, h₁₀,
    b₀, -, -, rfl⟩ := h
  have hlong := createNewAccount_ok h₁
  have hshort := createNewAccount_ok h₂
  have hescrow := createNewAccount_ok h₃
  rw [htoken] at hlong hshort hescrow
  exact ⟨pool, escrowMint, escrow, long, short, mintAuthority, update, tokenProgram, system,
    rentInfo, rest, b₀.winningSidePubkey, s₁, s₂, s₃, s₄, s₅, s₆, s₇, s₈, s₉, s₁₀, rfl, htoken,
    hlong, hshort, hescrow, h₄, h₅, h₆, h₇, h₈, h₉, h₁₀, rfl⟩

theorem key_ne_of_created {s₁ s₂ : Bank} {k' : Pubkey} {space' : Nat}
    (h : System.Created accounts derived s s₁ k tokenProgramId space)
    (h' : System.Created accounts derived s₁ s₂ k' owner space') : k' ≠ k := by
  rintro rfl
  have hvacant := h'.vacant
  rw [h.owner] at hvacant
  exact system_ne_token hvacant.symm

theorem signed_of_created (h : System.Created accounts [] s s' k owner space) :
    Signed accounts k := by
  rcases h.signed with hmem | hsigned
  · cases hmem
  · exact hsigned

theorem processInitializeBinaryOption_ok
    (h : processInitializeBinaryOption find binaryOptionId rent accounts decimals s =
      .ok (base, s')) : ∃ pool b, Initialized accounts s s' pool b := by
  obtain ⟨pool, escrowMint, escrow, long, short, _, update, _, _, _, _, winner, _, _, _, s₄,
    s₅, _, _, _, s₉, _, hlist, _, hlong, hshort, hescrow, h₄, h₅, h₆, h₇, h₈, h₉, h₁₀,
    rfl⟩ := processInitializeBinaryOption_calls h
  have hnames : InitializeNames accounts pool.key long.key short.key update.key := by
    rw [hlist]
    exact ⟨rfl, rfl, rfl, rfl⟩
  have hls : short.key ≠ long.key := key_ne_of_created hlong hshort
  obtain ⟨_, hm⟩ := mintAt_of_splMintInitialize h₄
  obtain ⟨_, hm'⟩ := mintAt_of_splMintInitialize h₅
  have hafter₅ : Undisturbed [] s₅ s₉ := (undisturbed_of_quiet h₆ nofun rfl).trans
    ((undisturbed_of_quiet h₇ nofun rfl).trans ((undisturbed_of_quiet h₈ nofun rfl).trans
      (undisturbed_of_quiet h₉ nofun rfl)))
  have hafter₃ : Undisturbed [] s s₄ := (undisturbed_of_created hlong rfl).trans
    ((undisturbed_of_created hshort rfl).trans ((undisturbed_of_created hescrow rfl).trans
      (undisturbed_of_quiet h₄ nofun rfl)))
  have hafter₄ : Undisturbed [] s₄ s₅ := undisturbed_of_quiet h₅ nofun rfl
  obtain ⟨_, hm₅⟩ := hafter₄.mints _ _ hm
  obtain ⟨hpool, hpool', hkept⟩ := createOrAllocateAccountRaw_ok h₁₀
  refine ⟨pool.key, ⟨decimals, 0, false, escrowMint.key, escrow.key, long.key, short.key,
    update.key, winner⟩, ⟨hnames, signed_of_created hlong, signed_of_created hshort, hlong.vacant,
    ?_, ⟨s₉, hafter₃.trans (hafter₄.trans hafter₅), hafter₅.mints _ _ hm₅, hafter₅.mints _ _ hm',
      hpool, fun k hk => (hkept k hk).trans (.of_eq (setData_of_ne _ hk _))⟩, ?_, ?_, rfl⟩⟩
  · exact (hlong.kept _ hls).1 ▸ hshort.vacant
  · rw [setData_owner]
    exact hpool'
  · rw [setData_same]

end Initialize

end SolanaPrograms.BinaryOptions
