import SolanaPrograms.Runtime.Invoke
import SolanaPrograms.Token.Invariants

/-!
# The token program seen by its callers

What a caller of the token program can rely on without looking at the handlers: `KeyChange` says
what one accepted instruction can do to the account at one address, and `initializeMint` leaves an
initialised mint.
-/

namespace SolanaPrograms.Token

open Outcome SolanaPrograms.Runtime List

variable {id : Pubkey} {s s' : Bank} {accounts : List AccountMeta} {ix : TokenInstruction}

inductive KeyChange (id : Pubkey) (s s' : Bank) (accounts : List AccountMeta)
    (ix : TokenInstruction) (k : Pubkey) : Prop
  | kept (h : Kept s s' k)
  /-- A token account stays one of its mint, and loses tokens only as the source of a debit. -/
  | account (a a' : Account) (before : accountAt id s k = some a)
      (after : accountAt id s' k = some a') (hmint : a'.mint = a.mint)
      (hamount : a.amount ≤ a'.amount ∨ ∃ d, debitOf ix accounts = some d ∧ d.source = k)
  | mint (m m' : Mint) (before : mintAt id s k = some m) (after : mintAt id s' k = some m')
  | opened (haccount : accountAt id s k = none) (hmint : mintAt id s k = none)
      (howner : (s' k).owner = (s k).owner)
      (hkind : (s k).owner = id ∨ (s k).data.length = 355 ∧ (s' k).data.length = 355)
  | closed (hix : ix = .closeAccount) (a : Account) (before : accountAt id s k = some a)
      (howner : (s' k).owner = id)

variable {k new : Pubkey} {a : Account} {rent : Rent} {rest : List AccountMeta} {owner : AccountMeta}

/-- **What one accepted instruction does to one account.** -/
theorem Effect.keyChange (he : Effect id s s' accounts ix) (k : Pubkey) :
    KeyChange id s s' accounts ix k := by
  cases he.touched k with
  | kept howner hdata => exact .kept ⟨howner, hdata⟩
  | opened _ haccount hmint howner hkind => exact .opened haccount hmint howner hkind
  | account a a' _ _ before after hmint hamount =>
    exact .account a a' before after hmint (.inl hamount)
  | approved a _ _ _ before after => exact .account a _ before after rfl (.inl (UInt64.le_refl _))
  | debited d a _ _ hdebit hsource _ _ before hauth _ after =>
    refine .account a _ before after ?_ (.inr ⟨d, hdebit, hsource⟩)
    split at hauth
    · rw [hauth]
    · exact hauth.same.1
  | mint m m' _ _ before after => exact .mint m m' before after
  | closed a hix before _ _ howner => exact .closed hix a before howner

/-- The program writes to accounts of its three lengths only. -/
theorem Effect.kept_of_length (he : Effect id s s' accounts ix) (hmint : (s k).data.length ≠ 82)
    (haccount : (s k).data.length ≠ 165) (hmultisig : (s k).data.length ≠ 355) : Kept s s' k := by
  cases he.touched k with
  | kept howner hdata => exact ⟨howner, hdata⟩
  | opened _ _ _ _ _ hlen => simp [hmint, haccount, hmultisig] at hlen
  | account _ _ _ _ before | approved _ _ _ _ before | debited _ _ _ _ _ _ _ _ before
  | closed _ _ before => exact absurd (accountAt_length before) haccount
  | mint _ _ _ _ before => exact absurd (mintAt_length before) hmint

/-- An account does not become the program's by an instruction of the program. -/
theorem KeyChange.owner_back (h : KeyChange id s s' accounts ix k) (hk : (s' k).owner = id) :
    (s k).owner = id := by
  cases h with
  | kept h => exact h.1 ▸ hk
  | account _ _ before | mint _ _ before | closed _ _ before => exact (stateAt_eq_some.mp before).1
  | opened _ _ howner => exact howner ▸ hk

/-! ## Single instructions -/

/-- `InitializeMint` leaves an initialised mint at the address it names; the supply is what stood
there before. -/
theorem initializeMint_mintAt {decimals : UInt8} {mintAuthority : Pubkey}
    {freezeAuthority : Option Pubkey} {mint : Pubkey} {signer : Bool}
    (h : program.execute rent (.initializeMint decimals mintAuthority freezeAuthority)
      (⟨mint, signer⟩ :: rest) s = .ok s') :
    ∃ m m', Pack.unpackUnchecked Mint (s mint).data = .ok m ∧
      mintAt tokenProgramId s' mint = some m' ∧ m'.supply = m.supply ∧
      m'.mintAuthority = some mintAuthority ∧ SameExcept s s' [mint] := by
  obtain ⟨hproc, hr⟩ := execute_process h
  simp only [process, processInitializeMint, initializeMintWith, checks, nextAccountInfo_eq_ok,
    Bool.not_eq_true] at hproc
  obtain ⟨_, _, hlist, _, _, -, m, hread, huninit, -, hwrite⟩ := hproc
  cases hlist
  obtain ⟨-, -, hafter, -, hframe⟩ := first_write hread huninit rfl hwrite (hr _ mem_cons_self)
  exact ⟨m, _, hread, hafter, rfl, rfl, hframe⟩

theorem initializeAccount_accountAt {new mint : AccountMeta}
    (h : program.execute rent .initializeAccount (new :: mint :: owner :: rest) s = .ok s') :
    ∃ a, accountAt tokenProgramId s' new.key = some a ∧ a.mint = mint.key ∧ a.owner = owner.key ∧
      a.delegate = none ∧ a.closeAuthority = none ∧ SameExcept s s' [new.key] := by
  obtain ⟨hproc, hr⟩ := execute_process h
  simp only [process, processInitializeAccount, initializeAccountWith, checks,
    nextAccountInfo_eq_ok, Bool.not_eq_true, nextOwner] at hproc
  obtain ⟨_, _, hlist, _, _, hlist', _, _, ⟨_, _, hlist'', rfl, rfl⟩, _, _, -, _, ha, huninit, -, _,
    -, h⟩ := hproc
  cases hlist
  cases hlist'
  cases hlist''
  split at h
  · simp only [bind_eq_ok] at h
    obtain ⟨_, -, hw⟩ := h
    obtain ⟨-, -, hafter, -, hframe⟩ := first_write ha huninit rfl hw (hr _ mem_cons_self)
    exact ⟨_, hafter, rfl, rfl, rfl, rfl, hframe⟩
  · obtain ⟨-, -, hafter, -, hframe⟩ := first_write ha huninit rfl h (hr _ mem_cons_self)
    exact ⟨_, hafter, rfl, rfl, rfl, rfl, hframe⟩

theorem setAuthority_accountAt {k : AccountMeta}
    (h : program.execute rent (.setAuthority .accountOwner (some new)) (k :: owner :: rest) s =
      .ok s') (ha : accountAt tokenProgramId s k.key = some a) :
    ∃ a', accountAt tokenProgramId s' k.key = some a' ∧ a'.mint = a.mint ∧ a'.owner = new ∧
      a'.delegate = none ∧ (a.closeAuthority = none → a'.closeAuthority = none) ∧
      SameExcept s s' [k.key] := by
  obtain ⟨hproc, hr⟩ := execute_process h
  simp only [process, processSetAuthority, bind_eq_ok, Prod.exists, nextAccountInfo_eq_ok] at hproc
  obtain ⟨_, _, hlist, _, _, hlist', hproc⟩ := hproc
  cases hlist
  cases hlist'
  have hread := (stateAt_eq_some.mp ha).2
  rw [if_pos (Pack.unpack_length hread)] at hproc
  simp only [bind_eq_ok] at hproc
  obtain ⟨_, ha₀, _, hset, hw⟩ := hproc
  cases hread.symm.trans ha₀
  obtain ⟨-, -, hstate, -⟩ := setAccountAuthority_ok (suffix_refl _) hset
  simp only [setAccountAuthority, bind_eq_ok, failIf_eq_ok, okOr_eq_ok, pure_eq_ok] at hset
  obtain ⟨_, -, _, -, _, hnew, rfl⟩ := hset
  cases hnew
  rcases single_write hread hw (isInitialized_of_state_eq _ hread hstate)
    (hr _ mem_cons_self) with ⟨-, hnone⟩ | ⟨-, hafter, -, hframe⟩
  · exact absurd (ha.symm.trans hnone) (by simp)
  · refine ⟨_, hafter, rfl, rfl, rfl, fun hclose => ?_, hframe⟩
    simp [hclose]

theorem setAuthority_mintAt {k : AccountMeta} {m : Mint}
    (h : program.execute rent (.setAuthority .mintTokens (some new)) (k :: owner :: rest) s =
      .ok s') (hm : mintAt tokenProgramId s k.key = some m) :
    mintAt tokenProgramId s' k.key = some { m with mintAuthority := some new } ∧
      SameExcept s s' [k.key] := by
  obtain ⟨hproc, hr⟩ := execute_process h
  simp only [process, processSetAuthority, checks, nextAccountInfo_eq_ok] at hproc
  obtain ⟨_, _, hlist, _, _, hlist', hproc⟩ := hproc
  cases hlist
  cases hlist'
  have hread := (stateAt_eq_some.mp hm).2
  have hlen : (s k.key).data.length = Pack.len Mint := Pack.unpack_length hread
  have haccount : (s k.key).data.length ≠ Pack.len Account := by
    rw [hlen]
    decide
  rw [if_neg haccount, if_pos hlen] at hproc
  simp only [checks, setMintAuthority] at hproc
  obtain ⟨_, hm₀, _, ⟨_, -, _, -, rfl⟩, hw⟩ := hproc
  cases hread.symm.trans hm₀
  have hinit : Pack.isInitialized { m with mintAuthority := some new } = true :=
    (Pack.unpack_isInitialized hread : m.isInitialized = true)
  rcases single_write hread hw hinit (hr _ mem_cons_self) with
    ⟨-, hnone⟩ | ⟨-, hafter, -, hframe⟩
  · exact absurd (hm.symm.trans hnone) (by simp)
  · exact ⟨hafter, hframe⟩

end SolanaPrograms.Token
