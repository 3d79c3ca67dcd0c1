import SolanaPrograms.Token.Book

/-!
# What a successful token instruction does

Each of the 25 instructions, when it succeeds and the runtime accepts it, has one of the
twelve effects of `Effect` on the accounts the program owns. The handlers check the owner of
an account only in some places; the effects nevertheless speak of owned accounts only,
because a write to a foreign account either changes its data, and is rejected, or leaves
everything as it was.

The invariants of the program are proved from `Effect` alone, so a change to one handler is
a change to one lemma here.
-/

namespace SolanaPrograms.Token

open Outcome SolanaPrograms.Runtime
open Function (update)

/-! ## What an instruction asks for -/

/-- A debit as the account list of a transfer or a burn names it. -/
structure Debit where
  source : Pubkey
  destination : Option Pubkey
  authority : Pubkey
  amount : UInt64

/-- The debit the accounts of a transfer name; the checked form lists the mint as well. -/
def transferDebit (amount : UInt64) : Option UInt8 → List AccountMeta → Option Debit
  | none, source :: destination :: authority :: _ =>
    some ⟨source.key, some destination.key, authority.key, amount⟩
  | some _, source :: _ :: destination :: authority :: _ =>
    some ⟨source.key, some destination.key, authority.key, amount⟩
  | _, _ => none

def burnDebit (amount : UInt64) : List AccountMeta → Option Debit
  | source :: _ :: authority :: _ => some ⟨source.key, none, authority.key, amount⟩
  | _ => none

variable (ix : TokenInstruction) (accounts : List AccountMeta) {a : Account} {m : Mint}

def debitOf : Option Debit :=
  match ix with
  | .transfer amount => transferDebit amount none accounts
  | .transferChecked amount decimals => transferDebit amount (some decimals) accounts
  | .burn amount => burnDebit amount accounts
  | .burnChecked amount _ => burnDebit amount accounts
  | _ => none

def approvalOf : Option (Pubkey × UInt64) :=
  match ix with
  | .approve amount | .approveChecked amount _ => accounts.head?.map fun a => (a.key, amount)
  | _ => none

/-- The instruction is neither a debit nor an approval. -/
def Plain : Prop :=
  debitOf ix accounts = none ∧ approvalOf ix accounts = none

inductive DebitAuthority (id : Pubkey) (s : Bank) (accounts : List AccountMeta)
    (account : Account) (authority : Pubkey) (amount : UInt64) : Account → Prop
  | delegate (delegate : Option Pubkey) (left : UInt64)
      (hdelegate : account.delegate = some authority)
      (hauth : Authorized id s accounts authority)
      (hleft : left.toNat + amount.toNat = account.delegatedAmount.toNat)
      (hrest : delegate = if left = 0 then none else account.delegate) :
      DebitAuthority id s accounts account authority amount
        { account with delegate := delegate, delegatedAmount := left }
  | owner (hdelegate : account.delegate ≠ some authority)
      (hauth : Authorized id s accounts account.owner) (howner : account.owner = authority) :
      DebitAuthority id s accounts account authority amount account

/-! ## Effects -/

section Effect

variable (id : Pubkey) (s s' : Bank) (accounts : List AccountMeta) (ix : TokenInstruction)

/-- One account goes from `a` to `a'`, nothing else changes. -/
structure AccountUpdate (k : Pubkey) (a a' : Account) : Prop where
  before : accountAt id s k = some a
  after : accountAt id s' k = some a'
  funds : SameFunds s s' k
  frame : SameExcept s s' [k]

/-- An account comes into being at `k`, wrapped SOL or empty, nothing else changes. -/
structure AccountCreated (k : Pubkey) (a' : Account) : Prop where
  length : (s k).data.length = 165
  before : accountAt id s k = none
  after : accountAt id s' k = some a'
  kind : (a'.mint = nativeMintId ∧ ∃ reserve, a'.isNative = some reserve ∧
      reserve.toNat + a'.amount.toNat = (s k).lamports.toNat) ∨
    (a'.mint ≠ nativeMintId ∧ a'.isNative = none ∧ a'.amount = 0)
  funds : SameFunds s s' k
  frame : SameExcept s s' [k]
  own : a'.delegate = none ∧ a'.delegatedAmount = 0 ∧ a'.closeAuthority = none ∧
    a'.state = .initialized
  minted : a'.isNative = none → mintAt id s a'.mint ≠ none

structure MintUpdate (k : Pubkey) (m m' : Mint) : Prop where
  before : mintAt id s k = some m
  after : mintAt id s' k = some m'
  funds : SameFunds s s' k
  frame : SameExcept s s' [k]

/-- The lamports that move with a transfer: `x` of them when the tokens are wrapped SOL. -/
def LamportsMoved (src dst : Pubkey) (x : UInt64) (native : Bool) : Prop :=
  if native then
    (s' src).lamports.toNat + x.toNat = (s src).lamports.toNat ∧
      (s' dst).lamports.toNat = (s dst).lamports.toNat + x.toNat
  else (s' src).lamports = (s src).lamports ∧ (s' dst).lamports = (s dst).lamports

inductive Effect : Prop
  | idle (heq : s' = s) (hdebit : ∀ d, debitOf ix accounts = some d → d.destination = some d.source)
      (happroval : ∀ k x, approvalOf ix accounts = some (k, x) → accountAt id s k = none)
  | mintCreated (k : Pubkey) (m m' : Mint) (hix : Plain ix accounts)
      (howner : (s k).owner = id) (hread : Pack.unpackUnchecked Mint (s k).data = .ok m)
      (huninit : m.isInitialized = false) (hafter : mintAt id s' k = some m')
      (hsupply : m'.supply = m.supply) (hfunds : SameFunds s s' k) (hframe : SameExcept s s' [k])
      (authority : Pubkey) (hnew : m'.mintAuthority = some authority)
  | accountCreated (k : Pubkey) (a' : Account) (hix : Plain ix accounts)
      (hnew : AccountCreated id s s' k a')
  | multisigCreated (k : Pubkey) (hix : Plain ix accounts)
      (hlen : (s k).data.length = 355) (hlen' : (s' k).data.length = 355)
      (hfunds : SameFunds s s' k) (hframe : SameExcept s s' [k])
  | accountUpdated (k : Pubkey) (a a' : Account) (hix : Plain ix accounts)
      (hupd : AccountUpdate id s s' k a a') (hmint : a'.mint = a.mint)
      (hamount : a'.amount = a.amount) (hnative : a'.isNative = a.isNative)
      (hdelegated : a'.delegatedAmount ≤ a.delegatedAmount) (hposted : Posted id s s' accounts)
  | approved (k : Pubkey) (a : Account) (delegate : Pubkey) (amount : UInt64)
      (hdebit : debitOf ix accounts = none) (happroval : approvalOf ix accounts = some (k, amount))
      (hauth : Authorized id s accounts a.owner)
      (hupd : AccountUpdate id s s' k a
        { a with delegate := some delegate, delegatedAmount := amount })
      (hfrozen : a.isFrozen = false)
  | mintUpdated (k : Pubkey) (m m' : Mint) (hix : Plain ix accounts)
      (hupd : MintUpdate id s s' k m m') (hsupply : m'.supply = m.supply)
      (hposted : Posted id s s' accounts)
  | transferred (src dst : Pubkey) (a b a' : Account) (authority : Pubkey) (x y z : UInt64)
      (hdebit : debitOf ix accounts = some ⟨src, some dst, authority, x⟩)
      (happroval : approvalOf ix accounts = none) (hne : src ≠ dst)
      (hsrc : accountAt id s src = some a) (hdst : accountAt id s dst = some b)
      (hmint : a.mint = b.mint) (hauth : DebitAuthority id s accounts a authority x a')
      (hy : y.toNat + x.toNat = a.amount.toNat) (hz : z.toNat = b.amount.toNat + x.toNat)
      (hsrc' : accountAt id s' src = some { a' with amount := y })
      (hdst' : accountAt id s' dst = some { b with amount := z })
      (hlamports : LamportsMoved s s' src dst x a.isNative.isSome)
      (hframe : SameExcept s s' [src, dst]) (hfrozen : a.isFrozen = false)
      (hfrozen' : b.isFrozen = false)
  | minted (k mintKey : Pubkey) (a : Account) (m : Mint) (x y z : UInt64)
      (hix : Plain ix accounts) (hsrc : accountAt id s k = some a)
      (hnative : a.isNative = none) (hmintKey : a.mint = mintKey)
      (hmint : mintAt id s mintKey = some m)
      (hy : y.toNat = a.amount.toNat + x.toNat) (hz : z.toNat = m.supply.toNat + x.toNat)
      (hsrc' : accountAt id s' k = some { a with amount := y })
      (hmint' : mintAt id s' mintKey = some { m with supply := z })
      (hfunds : SameFunds s s' k) (hfunds' : SameFunds s s' mintKey)
      (hframe : SameExcept s s' [k, mintKey]) (authority : Pubkey)
      (hauthority : m.mintAuthority = some authority) (hauth : Authorized id s accounts authority)
      (hfrozen : a.isFrozen = false)
  | burned (k mintKey : Pubkey) (a a' : Account) (m : Mint) (authority : Pubkey) (x y z : UInt64)
      (hdebit : debitOf ix accounts = some ⟨k, none, authority, x⟩)
      (happroval : approvalOf ix accounts = none)
      (hsrc : accountAt id s k = some a) (hnative : a.isNative = none)
      (hmintKey : a.mint = mintKey) (hmint : mintAt id s mintKey = some m)
      (hauth : if a.isOwnedBySystemProgramOrIncinerator then a' = a
        else DebitAuthority id s accounts a authority x a')
      (hy : y.toNat + x.toNat = a.amount.toNat) (hz : z.toNat + x.toNat = m.supply.toNat)
      (hsrc' : accountAt id s' k = some { a' with amount := y })
      (hmint' : mintAt id s' mintKey = some { m with supply := z })
      (hfunds : SameFunds s s' k) (hfunds' : SameFunds s s' mintKey)
      (hframe : SameExcept s s' [k, mintKey]) (hfrozen : a.isFrozen = false)
  | closed (k dst : Pubkey) (a : Account) (hix : ix = .closeAccount) (hne : k ≠ dst)
      (hbefore : accountAt id s k = some a)
      (hbalance : a.isNative = none → a.amount = 0)
      (hauth : a.isOwnedBySystemProgramOrIncinerator = false →
        Authorized id s accounts (a.closeAuthority.getD a.owner))
      (howner' : (s' k).owner = id) (hdata' : (s' k).data = .replicate 165 0)
      (hdst : (s' dst).owner = (s dst).owner ∧ (s' dst).data = (s dst).data ∧
        (s dst).lamports ≤ (s' dst).lamports)
      (hframe : SameExcept s s' [k, dst])
      (hsink : a.isOwnedBySystemProgramOrIncinerator = true → dst = incineratorId)
  | synced (k : Pubkey) (a : Account) (reserve x : UInt64) (hix : Plain ix accounts)
      (hnative : a.isNative = some reserve) (hx : reserve.toNat + x.toNat = (s k).lamports.toNat)
      (hle : a.amount ≤ x) (hupd : AccountUpdate id s s' k a { a with amount := x })

end Effect

/-! ## Effects in the book -/

section Posting

variable {id : Pubkey} {s s' : Bank} {accounts : List AccountMeta} {ix : TokenInstruction}
  {k dst authority : Pubkey} {a a' : Account} {m' : Mint} {x y : UInt64}

theorem AccountUpdate.book (h : AccountUpdate id s s' k a a') :
    book id s' = update (book id s) k (.account a'.token) := by
  rw [book_update h.frame, book_account h.after]

/-- What leaves an account, by the authority of its owner or delegate. -/
theorem DebitAuthority.spend (h : DebitAuthority id s accounts a authority x a')
    (hfrozen : a.isFrozen = false)
    (hy : y.toNat + x.toNat = a.amount.toNat) :
    a.token.spend false (signs id s accounts) authority x.toNat =
      some { a' with amount := y }.token := by
  have hamount : x.toNat ≤ a.amount.toNat ∧ a.amount.toNat - x.toNat = y.toNat := by omega
  have hstate : ∀ {b : Account}, b.state = a.state → b.isFrozen = false := fun hb => by
    rwa [Account.isFrozen, hb]
  cases h with
  | delegate _ left hdelegate hauth hleft hrest =>
    have hallowed : x.toNat ≤ a.delegatedAmount.toNat ∧
        a.delegatedAmount.toNat - x.toNat = left.toNat := by omega
    have hzero : left.toNat = 0 ↔ left = 0 := UInt64.toNat_inj (b := 0)
    simp [Tokens.TokenAccount.spend, Account.token, hfrozen, hamount, hallowed, hauth.signs,
      hdelegate, hrest, hzero, hstate]
  | owner hdelegate hauth howner =>
    subst howner
    simp [Tokens.TokenAccount.spend, Account.token, hfrozen, hamount, hauth.signs, hdelegate,
      hstate]

theorem spend_burned (hauth : if a.isOwnedBySystemProgramOrIncinerator then a' = a
      else DebitAuthority id s accounts a authority x a') (hfrozen : a.isFrozen = false)
    (hy : y.toNat + x.toNat = a.amount.toNat) :
    a.token.spend (Tokens.Special.ownerless a.token.owner) (signs id s accounts) authority x.toNat =
      some { a' with amount := y }.token := by
  change a.token.spend a.isOwnedBySystemProgramOrIncinerator _ _ _ = _
  split at hauth
  next hsystem =>
    have hle : x.toNat ≤ a.token.amount := by
      change x.toNat ≤ a.amount.toNat
      omega
    subst hauth
    rw [hsystem, Tokens.TokenAccount.spend, if_pos ⟨hfrozen, hle⟩, if_pos rfl]
    simp [Account.token, ← hy, Account.isFrozen]
  next hsystem =>
    rw [Bool.eq_false_of_not_eq_true hsystem]
    exact hauth.spend hfrozen hy

theorem receive_token (hfrozen : a.isFrozen = false) (hy : y.toNat = a.amount.toNat + x.toNat) :
    a.token.receive x.toNat = some { a with amount := y }.token :=
  Tokens.TokenAccount.receive_some.mpr
    ⟨hfrozen, hy ▸ y.toNat_lt, by simp [Account.token, hy, Account.isFrozen]⟩

theorem closes_token (hauth : a.isOwnedBySystemProgramOrIncinerator = false →
      Authorized id s accounts (a.closeAuthority.getD a.owner))
    (hsink : a.isOwnedBySystemProgramOrIncinerator = true → dst = incineratorId) :
    a.token.Closes (signs id s accounts) dst (a.closeAuthority.getD a.owner) := by
  change if a.isOwnedBySystemProgramOrIncinerator = true then _ else _
  split
  next hsystem => simp [Tokens.Special.incinerator, hsink hsystem]
  next hsystem => exact ⟨rfl, (hauth (Bool.eq_false_of_not_eq_true hsystem)).signs⟩

theorem posted_mintCreated {m : Mint} (howner : (s k).owner = id)
    (hread : Pack.unpackUnchecked Mint (s k).data = .ok m) (huninit : m.isInitialized = false)
    (hafter : mintAt id s' k = some m') (hsupply : m'.supply = m.supply)
    (hframe : SameExcept s s' [k]) (hnew : m'.mintAuthority = some authority) :
    Posted id s s' accounts := by
  have hlen : (s k).data.length = 82 := (Pack.unpackUnchecked_eq_ok.mp hread).1
  have hfree : book id s k = .free :=
    book_free (accountAt_of_length (by omega)) (stateAt_of_uninitialized hread huninit)
  have hbook : book id s' = _ := book_update hframe
  rw [book_mint hafter] at hbook
  by_cases hzero : m'.supply = 0
  · refine .call (.initializeMint k authority m'.freezeAuthority) ?_
    rw [hbook, Tokens.exec, if_pos ⟨hfree, decide_eq_true howner⟩, Mint.token, hnew, hzero]
    rfl
  · exact .leftover k m' (fun h => hzero (hsupply.trans (h k m howner hread huninit))) hfree hbook

theorem AccountCreated.posted (h : AccountCreated id s s' k a') : Posted id s s' accounts := by
  have hlen := h.length
  have hfree : book id s k = .free := book_free h.before (mintAt_of_length (by omega))
  have howner : handedOver id s k = true :=
    decide_eq_true (h.funds.1 ▸ (stateAt_eq_some.mp h.after).1)
  have hbook : book id s' = _ := book_update h.frame
  rw [book_account h.after] at hbook
  rcases h.kind with ⟨hmint, _, hnative, -⟩ | ⟨hmint, hnative, hamount⟩
  · refine .call (.initializeNative k a'.mint a'.owner a'.amount.toNat) ?_
    rw [hbook, Tokens.exec, if_pos ⟨hfree, howner, decide_eq_true hmint⟩]
    simp [Account.token, Account.isFrozen, h.own, hnative]
  · obtain ⟨m, hm⟩ := Option.ne_none_iff_exists'.mp (h.minted hnative)
    refine .call (.initializeAccount k a'.mint a'.owner) ?_
    simp [Tokens.exec, hbook, Tokens.Book.mint?_eq_some.mpr (book_mint hm), hfree, howner,
      Tokens.Special.native, hmint, Account.token, Account.isFrozen, h.own, hnative, hamount]

theorem Effect.posted (he : Effect id s s' accounts ix) : Posted id s s' accounts := by
  cases he with
  | idle heq => exact .same (by rw [heq])
  | mintCreated _ _ _ _ howner hread huninit hafter hsupply _ hframe _ hnew =>
    exact posted_mintCreated howner hread huninit hafter hsupply hframe hnew
  | accountCreated _ _ _ hnew => exact hnew.posted
  | multisigCreated k _ hlen hlen' _ hframe =>
    refine .same ?_
    rw [book_update hframe, Function.update_eq_self_iff,
      book_free (accountAt_of_length (by omega)) (mintAt_of_length (by omega)),
      book_free (accountAt_of_length (by omega)) (mintAt_of_length (by omega))]
  | accountUpdated _ _ _ _ _ _ _ _ _ hposted | mintUpdated _ _ _ _ _ _ hposted => exact hposted
  | approved k a delegate amount _ _ hauth hupd hfrozen =>
    exact .call (.approve k delegate a.owner amount.toNat) (Tokens.byOwner_some.mpr
      ⟨_, book_account hupd.before, ⟨hfrozen, rfl, hauth.signs⟩, hupd.book.symm⟩)
  | transferred src dst a b _ authority x _ _ _ _ hne hsrc hdst hmint hauth hy hz hsrc' hdst' _
      hframe hfrozen hfrozen' =>
    refine .call (.transfer src dst authority x.toNat) ?_
    rw [book_update_update hframe, book_account hsrc', book_account hdst']
    simp [Tokens.exec, Tokens.transfer, Tokens.Book.account?_eq_some.mpr (book_account hsrc),
      Tokens.Book.account?_eq_some.mpr (book_account hdst), hauth.spend hfrozen hy,
      receive_token hfrozen' hz, hne, show a.token.mint = b.token.mint from hmint]
  | minted k mintKey a m x _ z _ hdst hnative hmintKey hmint hy hz hdst' hmint' _ _ hframe
      authority hauthority hauth hfrozen =>
    refine .call (.mintTo mintKey k authority x.toNat) ?_
    have hsupply : Checked.add 64 m.supply.toNat x.toNat = some z.toNat :=
      Checked.add_eq_some.mpr ⟨hz ▸ z.toNat_lt, hz.symm⟩
    rw [book_update_update hframe, book_account hdst', book_mint hmint']
    simp [Tokens.exec, Tokens.mintTo, Tokens.Book.account?_eq_some.mpr (book_account hdst),
      Tokens.Book.mint?_eq_some.mpr (book_mint hmint), receive_token hfrozen hy, hsupply,
      hauth.signs, show a.token.mint = mintKey from hmintKey, Mint.token, hauthority,
      show a.token.native = false by simp [Account.token, hnative]]
  | burned k mintKey a _ m authority x _ z _ _ hsrc hnative hmintKey hmint hauth hy hz hsrc' hmint'
      _ _ hframe hfrozen =>
    refine .call (.burn k mintKey authority x.toNat) ?_
    have hsupply : Checked.sub m.supply.toNat x.toNat = some z.toNat :=
      Checked.sub_eq_some.mpr (by omega)
    rw [book_update_update hframe, book_account hsrc', book_mint hmint']
    simp [Tokens.exec, Tokens.burn, Tokens.Book.account?_eq_some.mpr (book_account hsrc),
      Tokens.Book.mint?_eq_some.mpr (book_mint hmint), spend_burned hauth hfrozen hy, Mint.token,
      hsupply, show a.token.mint = mintKey from hmintKey,
      show a.token.native = false by simp [Account.token, hnative]]
  | closed k dst a _ hne hbefore hbalance hauth _ hdata hdst hframe hsink =>
    refine .call (.closeAccount k dst (a.closeAuthority.getD a.owner)) ?_
    have hempty : a.token.native = true ∨ a.token.amount = 0 := by
      cases hnative : a.isNative with
      | none => exact .inr (by simp [Account.token, hbalance hnative])
      | some => exact .inl (by simp [Account.token, hnative])
    rw [book_update_update hframe, book_free (accountAt_zero hdata)
      (mintAt_of_length (by rw [hdata, List.length_replicate]; decide)),
      book_congr (stateAt_congr hdst.1 hdst.2.1) (stateAt_congr hdst.1 hdst.2.1)]
    simp [Tokens.exec, Tokens.Book.account?_eq_some.mpr (book_account hbefore), hne, hne.symm,
      hempty, closes_token hauth hsink]
  | synced k a _ x _ hnative _ hle hupd =>
    refine .call (.syncNative k x.toNat) ?_
    simp [Tokens.exec, Tokens.Book.account?_eq_some.mpr (book_account hupd.before), hupd.book,
      Account.token, hnative, UInt64.le_iff_toNat_le.mp hle, Account.isFrozen]

end Posting

end SolanaPrograms.Token
