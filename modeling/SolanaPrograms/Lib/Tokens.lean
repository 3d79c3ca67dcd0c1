import SolanaPrograms.Lib.Checked

/-!
# A token program

Mints and token accounts over an arbitrary type of addresses, with the instructions of a token
program. An instruction names its authority; `signed` says which addresses signed, alone or as a
multisignature, and `fresh` at which addresses a new mint or account can be made. Every refusal is
`none`. The lamports behind wrapped native tokens are not in the book: an instruction that reads
them gives their number.

Three facts about all instructions are what users of a token program rely on: `exec_step` (a
supply moves by what was minted and burned), `Change.mint_kept` (a mint does not grow without its
authority) and `Change.locked` (an account is neither emptied nor handed over without the
signature of its owner).
-/

namespace SolanaPrograms.Tokens

open Checked Option Nat
open Function (update update_of_ne update_self)

/-- The addresses a token program treats specially. -/
class Special (K : Type) where
  /-- Nobody signs for it: everybody can burn its tokens and close its accounts. -/
  ownerless : K → Bool
  /-- Where the lamports of accounts that nobody signs for go. -/
  incinerator : K → Bool
  /-- The mint of wrapped native tokens. -/
  native : K → Bool

variable {K : Type} {owner : K}

structure Mint (K : Type) where
  mintAuthority : Option K
  supply : ℕ
  freezeAuthority : Option K
deriving DecidableEq, Repr

structure TokenAccount (K : Type) where
  mint : K
  owner : K
  amount : ℕ
  delegate : Option K
  delegatedAmount : ℕ
  closeAuthority : Option K
  frozen : Bool
  native : Bool
deriving DecidableEq, Repr

/-- What the token program keeps at an address. -/
inductive Entry (K : Type)
  | free
  | mint (m : Mint K)
  | account (a : TokenAccount K)
deriving DecidableEq, Repr

/-- All mints and token accounts. -/
abbrev Book (K : Type) := K → Entry K

namespace Book

variable (b : Book K) (k : K)

def mint? : Option (Mint K) :=
  match b k with
  | .mint m => some m
  | _ => none

def account? : Option (TokenAccount K) :=
  match b k with
  | .account a => some a
  | _ => none

def supply : ℕ :=
  match b k with
  | .mint m => m.supply
  | _ => 0

def balance : ℕ :=
  match b k with
  | .account a => a.amount
  | _ => 0

variable {b : Book K} {k : K}

variable {m : Mint K} {a : TokenAccount K}

@[simp] theorem mint?_eq_some : b.mint? k = some m ↔ b k = .mint m := by
  unfold mint?
  split <;> simp_all

@[simp] theorem account?_eq_some : b.account? k = some a ↔ b k = .account a := by
  unfold account?
  split <;> simp_all

/-- What the steps of an operation that succeeded established, as one set of rewrite rules. -/
theorem steps :
    (∀ {K : Type} {b : Book K} {k m}, b.mint? k = some m ↔ b k = .mint m) ∧
    (∀ {K : Type} {b : Book K} {k a}, b.account? k = some a ↔ b k = .account a) ∧
    (∀ {α β : Type} {x : Option α} {f : α → Option β} {y : β},
      (x >>= f) = some y ↔ ∃ a, x = some a ∧ f a = some y) ∧
    ∀ {α : Type} {c : Prop} [Decidable c] {x y : α},
      (if c then some x else none) = some y ↔ c ∧ x = y :=
  ⟨mint?_eq_some, account?_eq_some, bind_eq_some_iff,
    ite_none_right_eq_some.trans (and_congr_right' (.of_eq (some.injEq ..)))⟩

theorem supply_of_mint (h : b k = .mint m) : b.supply k = m.supply := by
  simp [supply, h]

theorem balance_of_account (h : b k = .account a) : b.balance k = a.amount := by
  simp [balance, h]

end Book

/-! ## Operations -/

section Operations

variable [DecidableEq K]

/-- The account after its owner or its delegate took `amount` out of it, or anybody if the account
is `free` for all. -/
def TokenAccount.spend (a : TokenAccount K) (free : Bool) (signed : K → Bool) (authority : K)
    (amount : ℕ) : Option (TokenAccount K) :=
  if a.frozen = false ∧ amount ≤ a.amount then
    if free = true then some { a with amount := a.amount - amount }
    else if signed authority = true then
      if a.delegate = some authority then
        if amount ≤ a.delegatedAmount then
          some { a with
            amount := a.amount - amount
            delegatedAmount := a.delegatedAmount - amount
            delegate := if a.delegatedAmount - amount = 0 then none else a.delegate }
        else none
      else if a.owner = authority then some { a with amount := a.amount - amount }
      else none
    else none
  else none

def TokenAccount.receive (a : TokenAccount K) (amount : ℕ) : Option (TokenAccount K) :=
  if a.frozen = false then (add 64 a.amount amount).map fun x => { a with amount := x } else none

variable (signed fresh : K → Bool)

def transfer (source destination authority : K) (amount : ℕ) (b : Book K) : Option (Book K) := do
  let sourceAccount ← b.account? source
  let destinationAccount ← b.account? destination
  let spent ← sourceAccount.spend false signed authority amount
  if sourceAccount.mint = destinationAccount.mint then
    if source = destination then some b
    else do
      let received ← destinationAccount.receive amount
      some (update (update b source (.account spent)) destination
        (.account received))
  else none

def mintTo (mint destination authority : K) (amount : ℕ) (b : Book K) : Option (Book K) := do
  let m ← b.mint? mint
  let destinationAccount ← b.account? destination
  if destinationAccount.mint = mint ∧ destinationAccount.native = false ∧
      m.mintAuthority = some authority ∧ signed authority = true then do
    let received ← destinationAccount.receive amount
    let supply ← add 64 m.supply amount
    some (update (update b destination (.account received)) mint
      (.mint { m with supply }))
  else none

variable [Special K]

def burn (source mint authority : K) (amount : ℕ) (b : Book K) : Option (Book K) := do
  let sourceAccount ← b.account? source
  let m ← b.mint? mint
  let spent ← sourceAccount.spend (Special.ownerless sourceAccount.owner) signed authority amount
  if sourceAccount.mint = mint ∧ sourceAccount.native = false then do
    let supply ← sub m.supply amount
    some (update (update b source (.account spent)) mint
      (.mint { m with supply }))
  else none

/-- What `SetAuthority` can replace. -/
inductive AuthorityType
  | mintTokens
  | freezeAccount
  | accountOwner
  | closeAccount
deriving DecidableEq, Repr

inductive Instruction (K : Type)
  | initializeMint (mint mintAuthority : K) (freezeAuthority : Option K)
  | initializeAccount (account mint owner : K)
  | initializeNative (account mint owner : K) (amount : ℕ)
  | transfer (source destination authority : K) (amount : ℕ)
  | mintTo (mint destination authority : K) (amount : ℕ)
  | burn (source mint authority : K) (amount : ℕ)
  | approve (source delegate owner : K) (amount : ℕ)
  | revoke (source owner : K)
  | setAuthority (account authority : K) (authorityType : AuthorityType) (new : Option K)
  | closeAccount (account destination authority : K)
  | setFrozen (account authority : K) (frozen : Bool)
  | syncNative (account : K) (amount : ℕ)
deriving DecidableEq, Repr

/-- The address whose signature an instruction needs. New mints and accounts are created with their
own; wrapped tokens are counted for anybody. -/
def Instruction.signer : Instruction K → K
  | initializeMint k _ _ | initializeAccount k _ _ | initializeNative k _ _ _ | syncNative k _ => k
  | transfer _ _ k _ | mintTo _ _ k _ | burn _ _ k _ | approve _ _ k _ | revoke _ k
  | setAuthority _ k _ _ | closeAccount _ _ k | setFrozen _ k _ => k

def byOwner (account owner : K) (b : Book K) (f : TokenAccount K → Entry K) : Option (Book K) := do
  let a ← b.account? account
  if a.frozen = false ∧ a.owner = owner ∧ signed owner = true then
    some (update b account (f a))
  else none

def setAuthority (account authority : K) (authorityType : AuthorityType) (new : Option K)
    (b : Book K) : Option (Book K) :=
  match authorityType with
  | .mintTokens => do
    let m ← b.mint? account
    if m.mintAuthority = some authority ∧ signed authority = true then
      some (update b account (.mint { m with mintAuthority := new }))
    else none
  | .freezeAccount => do
    let m ← b.mint? account
    if m.freezeAuthority = some authority ∧ signed authority = true then
      some (update b account (.mint { m with freezeAuthority := new }))
    else none
  | .accountOwner =>
    match new with
    | none => none
    | some owner => byOwner signed account authority b fun a =>
      .account { a with
        owner
        delegate := none
        delegatedAmount := 0
        closeAuthority := if a.native then none else a.closeAuthority }
  | .closeAccount => do
    let a ← b.account? account
    if a.frozen = false ∧ a.closeAuthority.getD a.owner = authority ∧
        signed authority = true then
      some (update b account (.account { a with closeAuthority := new }))
    else none

/-- Who can close an account, and where its lamports can go. -/
def TokenAccount.Closes (a : TokenAccount K) (destination authority : K) : Prop :=
  if Special.ownerless a.owner = true then Special.incinerator destination = true
  else a.closeAuthority.getD a.owner = authority ∧ signed authority = true

instance (a : TokenAccount K) (destination authority : K) :
    Decidable (a.Closes signed destination authority) := by
  unfold TokenAccount.Closes
  infer_instance

def exec (b : Book K) : Instruction K → Option (Book K)
  | .initializeMint mint mintAuthority freezeAuthority =>
    if b mint = .free ∧ fresh mint = true then
      some (update b mint (.mint ⟨some mintAuthority, 0, freezeAuthority⟩))
    else none
  | .initializeAccount account mint owner => do
    let _ ← b.mint? mint
    if b account = .free ∧ fresh account = true ∧ Special.native mint = false then
      some (update b account (.account ⟨mint, owner, 0, none, 0, none, false, false⟩))
    else none
  | .initializeNative account mint owner amount =>
    if b account = .free ∧ fresh account = true ∧ Special.native mint = true then
      some (update b account (.account ⟨mint, owner, amount, none, 0, none, false, true⟩))
    else none
  | .transfer source destination authority amount =>
    transfer signed source destination authority amount b
  | .mintTo mint destination authority amount => mintTo signed mint destination authority amount b
  | .burn source mint authority amount => burn signed source mint authority amount b
  | .approve source delegate owner amount => byOwner signed source owner b fun a =>
    .account { a with delegate := some delegate, delegatedAmount := amount }
  | .revoke source owner => byOwner signed source owner b fun a =>
    .account { a with delegate := none, delegatedAmount := 0 }
  | .setAuthority account authority authorityType new =>
    setAuthority signed account authority authorityType new b
  | .closeAccount account destination authority => do
    let a ← b.account? account
    if account ≠ destination ∧ (a.native = true ∨ a.amount = 0) ∧
        a.Closes signed destination authority then
      some (update b account .free)
    else none
  | .setFrozen account authority frozen => do
    let a ← b.account? account
    let m ← b.mint? a.mint
    if a.frozen ≠ frozen ∧ a.native = false ∧ m.freezeAuthority = some authority ∧
        signed authority = true then
      some (update b account (.account { a with frozen }))
    else none
  | .syncNative account amount => do
    let a ← b.account? account
    if a.native = true ∧ a.amount ≤ amount then
      some (update b account (.account { a with amount }))
    else none

/-! ## What the operations do -/

variable {signed fresh : K → Bool} {b b' : Book K} {source destination authority mint k : K}
  {amount : ℕ} {a a' : TokenAccount K} {free : Bool}

omit [Special K] in
theorem TokenAccount.spend_some (h : a.spend free signed authority amount = some a') :
    (free = false → signed authority = true ∧
      (a.owner = authority ∨ a.delegate = some authority)) ∧
      a'.amount + amount = a.amount ∧ a'.mint = a.mint ∧ a'.owner = a.owner ∧
      a'.closeAuthority = a.closeAuthority ∧ (a.delegate = none → a'.delegate = none) := by
  unfold spend at h
  split at h
  next hguard =>
    have hamount : a.amount - amount + amount = a.amount := Nat.sub_add_cancel hguard.2
    split at h
    next hfree =>
      cases h
      exact ⟨by simp [hfree], hamount, rfl, rfl, rfl, id⟩
    next =>
      split at h
      next hsigned =>
        split at h
        next hdelegate =>
          obtain ⟨-, h⟩ := ite_none_right_eq_some.mp h
          cases h
          exact ⟨fun _ => ⟨hsigned, .inr hdelegate⟩, hamount, rfl, rfl, rfl,
            fun hnone => by simp [hnone] at hdelegate⟩
        next =>
          obtain ⟨howner, h⟩ := ite_none_right_eq_some.mp h
          cases h
          exact ⟨fun _ => ⟨hsigned, .inl howner⟩, hamount, rfl, rfl, rfl, id⟩
      next => cases h
  next => cases h

omit [DecidableEq K] [Special K] in
theorem TokenAccount.receive_some : a.receive amount = some a' ↔
    a.frozen = false ∧ a.amount + amount < 2 ^ 64 ∧
      a' = { a with amount := a.amount + amount } := by
  unfold receive
  split_ifs with hfrozen
  · simp only [map_eq_some_iff, add_eq_some, hfrozen, true_and]
    constructor
    · rintro ⟨_, ⟨hlt, rfl⟩, rfl⟩
      exact ⟨hlt, rfl⟩
    · rintro ⟨hlt, rfl⟩
      exact ⟨_, ⟨hlt, rfl⟩, rfl⟩
  · simp [hfrozen]

omit [Special K] in
theorem transfer_some (h : transfer signed source destination authority amount b = some b') :
    ∃ sa da spent, b source = .account sa ∧ b destination = .account da ∧ sa.mint = da.mint ∧
      sa.spend false signed authority amount = some spent ∧
      ((source = destination ∧ b' = b) ∨ (source ≠ destination ∧
        b' = update (update b source (.account spent)) destination
          (.account { da with amount := da.amount + amount }))) := by
  simp only [transfer, Book.steps] at h
  obtain ⟨sa, hsa, da, hda, spent, hspent, h⟩ := h
  split_ifs at h with hmint hself
  · cases h
    exact ⟨sa, da, spent, hsa, hda, hmint, hspent, .inl ⟨hself, rfl⟩⟩
  · simp only [Book.steps, TokenAccount.receive_some, some.injEq] at h
    obtain ⟨_, ⟨-, -, rfl⟩, rfl⟩ := h
    exact ⟨sa, da, spent, hsa, hda, hmint, hspent, .inr ⟨hself, rfl⟩⟩

omit [Special K] in
theorem mintTo_some (h : mintTo signed mint destination authority amount b = some b') :
    ∃ m da, b mint = .mint m ∧ b destination = .account da ∧ da.mint = mint ∧
      m.mintAuthority = some authority ∧ signed authority = true ∧
      m.supply + amount < 2 ^ 64 ∧
      b' = update (update b destination
        (.account { da with amount := da.amount + amount })) mint
        (.mint { m with supply := m.supply + amount }) := by
  simp only [mintTo, Book.steps] at h
  obtain ⟨m, hm, da, hda, h⟩ := h
  split_ifs at h with hguard
  simp only [Book.steps, TokenAccount.receive_some, add_eq_some, some.injEq] at h
  obtain ⟨_, ⟨-, -, rfl⟩, _, ⟨hlt, rfl⟩, rfl⟩ := h
  exact ⟨m, da, hm, hda, hguard.1, hguard.2.2.1, hguard.2.2.2, hlt, rfl⟩

theorem burn_some (h : burn signed source mint authority amount b = some b') :
    ∃ m sa spent, b mint = .mint m ∧ b source = .account sa ∧ sa.mint = mint ∧
      sa.spend (Special.ownerless sa.owner) signed authority amount = some spent ∧
      amount ≤ m.supply ∧
      b' = update (update b source (.account spent)) mint
        (.mint { m with supply := m.supply - amount }) := by
  simp only [burn, Book.steps] at h
  obtain ⟨sa, hsa, m, hm, spent, hspent, h⟩ := h
  split_ifs at h with hguard
  simp only [Book.steps, sub_eq_some, some.injEq] at h
  obtain ⟨_, ⟨hle, rfl⟩, rfl⟩ := h
  exact ⟨m, sa, spent, hm, hsa, hguard.1, hspent, hle, rfl⟩

omit [Special K] in
theorem byOwner_some {f : TokenAccount K → Entry K} :
    byOwner signed source owner b f = some b' ↔
    ∃ a, b source = .account a ∧ (a.frozen = false ∧ a.owner = owner ∧ signed owner = true) ∧
      update b source (f a) = b' := by
  simp only [byOwner, Book.steps]

/-! ## What an instruction can do at one address -/

/-- What an instruction can do to what is kept at one address. -/
inductive Change (signed : K → Bool) : Entry K → Entry K → Prop
  | same (e : Entry K) : Change signed e e
  | opened (e : Entry K) : Change signed .free e
  | supply (m : Mint K) (x : ℕ)
      (h : m.supply < x → ∃ authority, m.mintAuthority = some authority ∧ signed authority = true) :
      Change signed (.mint m) (.mint { m with supply := x })
  | mintAuthority (m : Mint K) (authority : K) (h : m.mintAuthority = some authority)
      (hsigned : signed authority = true) (new : Option K) :
      Change signed (.mint m) (.mint { m with mintAuthority := new })
  | freezeAuthority (m : Mint K) (authority : K) (h : m.freezeAuthority = some authority)
      (hsigned : signed authority = true) (new : Option K) :
      Change signed (.mint m) (.mint { m with freezeAuthority := new })
  | receive (a : TokenAccount K) (x : ℕ) (hle : a.amount ≤ x) :
      Change signed (.account a) (.account { a with amount := x })
  | frozen (a : TokenAccount K) (x : Bool) :
      Change signed (.account a) (.account { a with frozen := x })
  | edit (a a' : TokenAccount K) (h : Special.ownerless a.owner = false → ∃ authority,
        signed authority = true ∧ (a.owner = authority ∨ a.delegate = some authority))
      (hmint : a'.mint = a.mint) : Change signed (.account a) (.account a')
  | closeAuthority (a : TokenAccount K) (hsigned : signed (a.closeAuthority.getD a.owner) = true)
      (new : Option K) : Change signed (.account a) (.account { a with closeAuthority := new })
  | close (a : TokenAccount K) (h : Special.ownerless a.owner = false →
        signed (a.closeAuthority.getD a.owner) = true) : Change signed (.account a) .free

variable {e : Entry K} {i : Instruction K}

omit [DecidableEq K] in
theorem Change.of_owner (hsigned : signed a.owner = true) (hmint : a'.mint = a.mint) :
    Change signed (.account a) (.account a') :=
  .edit a a' (fun _ => ⟨_, hsigned, .inl rfl⟩) hmint

theorem change_of_update (h : Change signed (b source) e) (k : K) :
    Change signed (b k) (update b source e k) := by
  by_cases hk : k = source
  · subst hk
    rwa [update_self]
  · rw [update_of_ne hk]
    exact .same _

theorem change_of_update_update {e' : Entry K} (hne : destination ≠ source)
    (h : Change signed (b source) e) (h' : Change signed (b destination) e')
    (k : K) : Change signed (b k) (update (update b source e) destination e' k) := by
  by_cases hk : k = destination
  · subst hk
    rwa [update_self]
  · rw [update_of_ne hk]
    exact change_of_update h k

theorem transfer_change (h : transfer signed source destination authority amount b = some b')
    (k : K) : Change signed (b k) (b' k) := by
  obtain ⟨sa, da, spent, hsa, hda, -, hspent, ⟨-, rfl⟩ | ⟨hne, rfl⟩⟩ := transfer_some h
  · exact .same _
  · obtain ⟨hwho, -, hmint, -⟩ := TokenAccount.spend_some hspent
    refine change_of_update_update hne.symm ?_ ?_ k
    · rw [hsa]
      exact .edit sa spent (fun _ => ⟨authority, hwho rfl⟩) hmint
    · rw [hda]
      exact .receive da _ (le_add_right _ _)

theorem mintTo_change (h : mintTo signed mint destination authority amount b = some b') (k : K) :
    Change signed (b k) (b' k) := by
  obtain ⟨m, da, hm, hda, -, hauthority, hsigned, -, rfl⟩ := mintTo_some h
  refine change_of_update_update (fun he => ?_) ?_ ?_ k
  · rw [he, hda] at hm
    cases hm
  · rw [hda]
    exact .receive da _ (le_add_right _ _)
  · rw [hm]
    exact .supply m _ fun _ => ⟨authority, hauthority, hsigned⟩

theorem burn_change (h : burn signed source mint authority amount b = some b') (k : K) :
    Change signed (b k) (b' k) := by
  obtain ⟨m, sa, spent, hm, hsa, -, hspent, _, rfl⟩ := burn_some h
  obtain ⟨hwho, -, hmint, -⟩ := TokenAccount.spend_some hspent
  refine change_of_update_update (fun he => ?_) ?_ ?_ k
  · rw [he, hsa] at hm
    cases hm
  · rw [hsa]
    exact .edit sa spent (fun hfree => ⟨authority, hwho hfree⟩) hmint
  · rw [hm]
    exact .supply m _ fun hlt => by omega

/-! ## Mints -/

omit [DecidableEq K] in
/-- Without the signature of its authority a mint keeps the authority and its supply does not
grow. -/
theorem Change.mint_kept (h : Change signed (.mint m) e)
    (hauthority : ∀ x, m.mintAuthority = some x → signed x = false) :
    ∃ m', e = .mint m' ∧ m'.mintAuthority = m.mintAuthority ∧ m'.supply ≤ m.supply ∧
      (m.freezeAuthority = none → m'.freezeAuthority = none) := by
  cases h with
  | same => exact ⟨m, rfl, rfl, le_refl _, id⟩
  | supply _ _ hx =>
    refine ⟨_, rfl, rfl, ?_, id⟩
    by_contra hlt
    obtain ⟨authority, hm, hsigned⟩ := hx (Nat.lt_of_not_le hlt)
    rw [hauthority authority hm] at hsigned
    cases hsigned
  | mintAuthority _ authority hm hsigned =>
    rw [hauthority authority hm] at hsigned
    cases hsigned
  | freezeAuthority _ _ hm =>
    exact ⟨_, rfl, rfl, le_refl _, fun hnone => by simp [hnone] at hm⟩

def Entry.supply : Entry K → ℕ
  | .mint m => m.supply
  | _ => 0

omit [DecidableEq K] [Special K] in
theorem Book.supply_eq (b : Book K) (k : K) : b.supply k = (b k).supply := by
  unfold Book.supply Entry.supply
  cases b k <;> rfl

def Instruction.minted (i : Instruction K) (k : K) : ℕ :=
  match i with
  | .mintTo mint _ _ amount => if mint = k then amount else 0
  | _ => 0

def Instruction.burned (i : Instruction K) (k : K) : ℕ :=
  match i with
  | .burn _ mint _ amount => if mint = k then amount else 0
  | _ => 0

omit [Special K] in
theorem supply_update (h : e.supply = (b source).supply) (k : K) :
    Book.supply (update b source e) k = b.supply k := by
  rw [Book.supply_eq, Book.supply_eq]
  by_cases hk : k = source
  · subst hk
    rw [update_self, h]
  · rw [update_of_ne hk]

omit [Special K] in
theorem transfer_supply (h : transfer signed source destination authority amount b = some b')
    (k : K) : b'.supply k = b.supply k := by
  obtain ⟨_, _, _, hsa, hda, -, -, ⟨-, rfl⟩ | ⟨hne, rfl⟩⟩ := transfer_some h
  · rfl
  · rw [supply_update, supply_update]
    · rw [hsa]
      rfl
    · rw [update_of_ne hne.symm, hda]
      rfl

omit [Special K] in
theorem supply_update_update {a a' : TokenAccount K} (ha : b source = .account a) (hk : mint ≠ k) :
    Book.supply (update (update b source (.account a')) mint e) k = b.supply k := by
  rw [Book.supply_eq, update_of_ne (.symm hk), ← Book.supply_eq]
  apply supply_update
  rw [ha]
  rfl

omit [Special K] in
theorem mintTo_supply (h : mintTo signed mint destination authority amount b = some b') (k : K) :
    b'.supply k = b.supply k + if mint = k then amount else 0 := by
  obtain ⟨_, da, hm, hda, -, -, -, -, rfl⟩ := mintTo_some h
  by_cases hk : mint = k
  · subst hk
    simp [Book.supply, hm]
  · rw [if_neg hk, add_zero, supply_update_update hda hk]

theorem burn_supply (h : burn signed source mint authority amount b = some b') (k : K) :
    b'.supply k + (if mint = k then amount else 0) = b.supply k := by
  obtain ⟨_, _, spent, hm, hsa, -, -, hle, rfl⟩ := burn_some h
  by_cases hk : mint = k
  · subst hk
    simp [Book.supply, hm, Nat.sub_add_cancel hle]
  · rw [if_neg hk, add_zero, supply_update_update hsa hk]

theorem write_step {e₀ : Entry K} (h₀ : b source = e₀) (h : Change signed e₀ e)
    (hsupply : e.supply = e₀.supply) (k : K) : Change signed (b k) (update b source e k) ∧
      Book.supply (update b source e) k = b.supply k := by
  subst h₀
  exact ⟨change_of_update h k, supply_update hsupply k⟩

theorem setAuthority_step {account : K} {authorityType : AuthorityType} {new : Option K}
    (h : setAuthority signed account authority authorityType new b = some b') (k : K) :
    Change signed (b k) (b' k) ∧ b'.supply k = b.supply k := by
  cases authorityType with
  | mintTokens =>
    simp only [setAuthority, Book.steps] at h
    obtain ⟨m, hm, hguard, rfl⟩ := h
    exact write_step hm (.mintAuthority m authority hguard.1 hguard.2 new) rfl k
  | freezeAccount =>
    simp only [setAuthority, Book.steps] at h
    obtain ⟨m, hm, hguard, rfl⟩ := h
    exact write_step hm (.freezeAuthority m authority hguard.1 hguard.2 new) rfl k
  | accountOwner =>
    cases new with
    | none => cases h
    | some owner =>
      obtain ⟨a, ha, ⟨-, rfl, hsigned⟩, rfl⟩ := byOwner_some.mp h
      exact write_step ha (.of_owner hsigned (by rfl)) (by rfl) k
  | closeAccount =>
    simp only [setAuthority, Book.steps] at h
    obtain ⟨a, ha, hguard, rfl⟩ := h
    exact write_step ha (.closeAuthority a (hguard.2.1 ▸ hguard.2.2) new) rfl k

/-- **Step.** What an instruction does at each address; supplies move by what is minted and
burned. -/
theorem exec_step (h : exec signed fresh b i = some b') (k : K) :
    Change signed (b k) (b' k) ∧ b'.supply k + i.burned k = b.supply k + i.minted k := by
  cases i with
  | initializeMint | initializeNative =>
    simp only [exec, Book.steps] at h
    obtain ⟨hguard, rfl⟩ := h
    exact write_step hguard.1 (.opened _) (by rfl) k
  | initializeAccount =>
    simp only [exec, Book.steps] at h
    obtain ⟨-, -, hguard, rfl⟩ := h
    exact write_step hguard.1 (.opened _) (by rfl) k
  | transfer => exact ⟨transfer_change h k, transfer_supply h k⟩
  | mintTo => exact ⟨mintTo_change h k, mintTo_supply h k⟩
  | burn => exact ⟨burn_change h k, burn_supply h k⟩
  | approve _ _ owner | revoke _ owner =>
    obtain ⟨a, ha, ⟨-, rfl, hsigned⟩, rfl⟩ := byOwner_some.mp h
    exact write_step ha (.of_owner hsigned (by rfl)) (by rfl) k
  | setAuthority => exact setAuthority_step h k
  | closeAccount account =>
    simp only [exec, Book.steps] at h
    obtain ⟨a, ha, ⟨-, -, hcloses⟩, rfl⟩ := h
    refine write_step ha (.close a fun hfree => ?_) rfl k
    rw [TokenAccount.Closes, hfree, if_neg (by simp)] at hcloses
    exact hcloses.1 ▸ hcloses.2
  | setFrozen account _ frozen =>
    simp only [exec, Book.steps] at h
    obtain ⟨a, ha, _, -, -, rfl⟩ := h
    exact write_step ha (.frozen a frozen) rfl k
  | syncNative account =>
    simp only [exec, Book.steps] at h
    obtain ⟨a, ha, hguard, rfl⟩ := h
    exact write_step ha (.receive a _ hguard.2) rfl k

/-! ## Mints with an authority -/

def Book.HasMint (b : Book K) (k authority : K) (supply : ℕ) : Prop :=
  ∃ m, b k = .mint m ∧ m.mintAuthority = some authority ∧ m.supply = supply

section HasMint

variable {x y : K} {n s : ℕ}

omit [DecidableEq K] [Special K] in
theorem Book.HasMint.unique (h : b.HasMint k x s) (h' : b.HasMint k y n) : x = y ∧ s = n := by
  obtain ⟨m, hm, hx, rfl⟩ := h
  obtain ⟨m', hm', hy, rfl⟩ := h'
  obtain rfl : m = m' := Entry.mint.inj (hm.symm.trans hm')
  exact ⟨some.inj (hx.symm.trans hy), rfl⟩

omit [DecidableEq K] [Special K] in
theorem Book.HasMint.of_supply (hm : b k = .mint m)
    (hx : m.mintAuthority = some x) : b.HasMint k x (b.supply k) :=
  ⟨m, hm, hx, (Book.supply_of_mint hm).symm⟩

variable (h : b.HasMint k x s)
include h

omit [Special K] in
theorem Book.HasMint.transfer (ht : transfer signed source destination authority amount b = some b')
    : b'.HasMint k x s := by
  obtain ⟨m, hm, hx, rfl⟩ := h
  have hsupply := transfer_supply ht k
  rw [Book.supply_of_mint hm] at hsupply
  obtain ⟨_, _, _, hsa, hda, -, -, ⟨-, rfl⟩ | ⟨-, rfl⟩⟩ := transfer_some ht
  · exact ⟨m, hm, hx, rfl⟩
  · rw [← hsupply]
    refine .of_supply (m := m) ?_ hx
    rw [update_of_ne, update_of_ne, hm]
    · rintro rfl
      simp [hm] at hsa
    · rintro rfl
      simp [hm] at hda

omit [Special K] in
theorem Book.HasMint.mintTo (ht : mintTo signed mint destination authority amount b = some b') :
    b'.HasMint k x (s + if mint = k then amount else 0) := by
  obtain ⟨m, hm, hx, rfl⟩ := h
  have hsupply := mintTo_supply ht k
  rw [Book.supply_of_mint hm] at hsupply
  rw [← hsupply]
  obtain ⟨m₀, _, hm₀, hda, -, -, -, -, rfl⟩ := mintTo_some ht
  by_cases hk : k = mint
  · subst hk
    obtain rfl : m = m₀ := Entry.mint.inj (hm.symm.trans hm₀)
    exact .of_supply (update_self ..) hx
  · refine .of_supply (m := m) ?_ hx
    rw [update_of_ne hk, update_of_ne, hm]
    rintro rfl
    simp [hm] at hda

theorem Book.HasMint.burn (ht : burn signed source mint authority amount b = some b') :
    ∃ n, b'.HasMint k x n ∧ n + (if mint = k then amount else 0) = s := by
  obtain ⟨m, hm, hx, rfl⟩ := h
  have hsupply := burn_supply ht k
  rw [Book.supply_of_mint hm] at hsupply
  refine ⟨_, ?_, hsupply⟩
  obtain ⟨m₀, _, _, hm₀, hsa, -, -, -, rfl⟩ := burn_some ht
  by_cases hk : k = mint
  · subst hk
    obtain rfl : m = m₀ := Entry.mint.inj (hm.symm.trans hm₀)
    exact .of_supply (update_self ..) hx
  · refine .of_supply (m := m) ?_ hx
    rw [update_of_ne hk, update_of_ne, hm]
    rintro rfl
    simp [hm] at hsa

/-- Without the signature of the authority the supply can only be burned. -/
theorem Book.HasMint.exec (hx : signed x = false)
    (hi : exec signed fresh b i = some b') : ∃ n, b'.HasMint k x n ∧ n + i.burned k = s := by
  obtain ⟨m, hm, hauthority, rfl⟩ := h
  obtain ⟨hchange, hsupply⟩ := exec_step hi k
  rw [hm] at hchange
  obtain ⟨_, hm', hsame, -⟩ := hchange.mint_kept fun y hy => by
    rw [hauthority] at hy
    rwa [← some.inj hy]
  have hminted : i.minted k = 0 := by
    cases i with
    | mintTo mint =>
      obtain ⟨m₀, -, hm₀, -, -, hwho, hsigned, -, -⟩ := mintTo_some hi
      by_cases hk : mint = k
      · subst hk
        obtain rfl : m = m₀ := Entry.mint.inj (hm.symm.trans hm₀)
        rw [hauthority] at hwho
        rw [← some.inj hwho, hx] at hsigned
        cases hsigned
      · simp [Instruction.minted, hk]
    | _ => rfl
  rw [hminted, add_zero, Book.supply_of_mint hm] at hsupply
  exact ⟨_, .of_supply hm' (hsame.trans hauthority), hsupply⟩

end HasMint

/-! ## Token accounts -/

/-- A token account that only its owner can empty or hand over. -/
structure TokenAccount.Locked (a : TokenAccount K) (mint owner : K) : Prop where
  mint : a.mint = mint
  owned : Special.ownerless owner = false
  owner : a.owner = owner
  delegate : a.delegate = none
  closeAuthority : a.closeAuthority = none

omit [DecidableEq K] in
/-- Who has a say over an account depends neither on its balance nor on the frozen flag. -/
theorem TokenAccount.Locked.with_balance (h : a.Locked mint owner) (amount : ℕ) (frozen : Bool) :
    TokenAccount.Locked { a with amount, frozen } mint owner :=
  ⟨h.mint, h.owned, h.owner, h.delegate, h.closeAuthority⟩

omit [DecidableEq K] in
/-- Without the signature of its owner an account stays locked, and its balance does not fall. -/
theorem Change.locked (h : Change signed (.account a) e) (ha : a.Locked mint owner)
    (hsigned : signed owner = false) :
    ∃ a', e = .account a' ∧ a'.Locked mint owner ∧ a.amount ≤ a'.amount := by
  have hfree : Special.ownerless a.owner = false := ha.owner ▸ ha.owned
  cases h with
  | same => exact ⟨a, rfl, ha, le_refl _⟩
  | receive _ _ hle => exact ⟨_, rfl, ha.with_balance _ _, hle⟩
  | frozen => exact ⟨_, rfl, ha.with_balance _ _, le_refl _⟩
  | edit _ _ hedit =>
    obtain ⟨_, hs, hwho⟩ := hedit hfree
    rw [ha.owner, ha.delegate] at hwho
    rw [← hwho.resolve_right nofun, hsigned] at hs
    cases hs
  | closeAuthority _ hs =>
    rw [ha.closeAuthority, getD_none, ha.owner, hsigned] at hs
    cases hs
  | close _ hclose =>
    have hs := hclose hfree
    rw [ha.closeAuthority, getD_none, ha.owner, hsigned] at hs
    cases hs

def Book.HasLocked (b : Book K) (k mint owner : K) (n : ℕ) : Prop :=
  ∃ a, b k = .account a ∧ a.Locked mint owner ∧ a.amount = n

section HasLocked

variable {m owner : K} {n : ℕ}

theorem TokenAccount.Locked.spend_some {a a' : TokenAccount K} (ha : a.Locked m owner)
    (h : a.spend false signed authority amount = some a') :
    signed owner = true ∧ a'.Locked m owner ∧ a'.amount + amount = a.amount := by
  obtain ⟨hwho, hamount, hmint, howner, hclose, hdelegate⟩ := TokenAccount.spend_some h
  obtain ⟨hsigned, hwho⟩ := hwho rfl
  rw [ha.owner, ha.delegate] at hwho
  have hauthority : owner = authority := hwho.resolve_right nofun
  exact ⟨hauthority ▸ hsigned, ⟨hmint.trans ha.mint, ha.owned, howner.trans ha.owner,
    hdelegate ha.delegate, hclose.trans ha.closeAuthority⟩, hamount⟩

theorem burn_other {a : TokenAccount K} (ha : b k = .account a) (hne : a.mint ≠ mint)
    (ht : burn signed source mint authority amount b = some b') : b' k = b k := by
  obtain ⟨_, sa, _, hm₀, hsa, hmint, -, -, rfl⟩ := burn_some ht
  rw [update_of_ne, update_of_ne]
  · rintro rfl
    obtain rfl : a = sa := Entry.account.inj (ha.symm.trans hsa)
    exact hne hmint
  · rintro rfl
    rw [ha] at hm₀
    cases hm₀

variable (h : b.HasLocked k m owner n)
include h

theorem Book.HasLocked.exec (howner : signed owner = false)
    (hi : exec signed fresh b i = some b') : ∃ n', b'.HasLocked k m owner n' ∧ n ≤ n' := by
  obtain ⟨_, ha, hlocked, rfl⟩ := h
  obtain ⟨hchange, -⟩ := exec_step hi k
  rw [ha] at hchange
  obtain ⟨a', ha', hlocked', hle⟩ := hchange.locked hlocked howner
  exact ⟨_, ⟨a', ha', hlocked', rfl⟩, hle⟩

/-- A transfer takes at most its amount from a locked account. Without the signature of the owner it
takes nothing, and it brings its amount if it goes there. -/
theorem Book.HasLocked.transfer
    (ht : transfer signed source destination authority amount b = some b') :
    ∃ n', b'.HasLocked k m owner n' ∧ n ≤ n' + amount ∧
      (signed owner = false → n ≤ n' ∧ (destination = k → n' = n + amount)) := by
  obtain ⟨a, ha, hlocked, rfl⟩ := h
  obtain ⟨sa, da, spent, hsa, hda, -, hspent, ⟨hsame, rfl⟩ | ⟨_, rfl⟩⟩ := transfer_some ht
  · refine ⟨_, ⟨a, ha, hlocked, rfl⟩, le_add_right _ _, fun hno => ⟨le_rfl, ?_⟩⟩
    rintro rfl
    subst hsame
    obtain rfl : a = sa := Entry.account.inj (ha.symm.trans hsa)
    rw [(hlocked.spend_some hspent).1] at hno
    cases hno
  · by_cases hdst : k = destination
    · subst hdst
      obtain rfl : a = da := Entry.account.inj (ha.symm.trans hda)
      refine ⟨_, ⟨_, update_self .., hlocked.with_balance _ _, rfl⟩, ?_, fun _ =>
        ⟨le_add_right _ _, fun _ => rfl⟩⟩
      exact (le_add_right _ amount).trans (le_add_right _ amount)
    · by_cases hsrc : k = source
      · subst hsrc
        obtain rfl : a = sa := Entry.account.inj (ha.symm.trans hsa)
        obtain ⟨hsigned, hlocked', hamount⟩ := hlocked.spend_some hspent
        refine ⟨_, ⟨spent, ?_, hlocked', rfl⟩, hamount.ge, fun hno => ?_⟩
        · rw [update_of_ne hdst, update_self]
        · rw [hsigned] at hno
          cases hno
      · refine ⟨_, ⟨a, ?_, hlocked, rfl⟩, le_add_right _ _, fun _ =>
          ⟨le_rfl, fun heq => absurd heq.symm hdst⟩⟩
        rw [update_of_ne hdst, update_of_ne hsrc, ha]

theorem Book.HasLocked.mintTo (ht : mintTo signed mint destination authority amount b = some b') :
    ∃ n', b'.HasLocked k m owner n' ∧ n ≤ n' := by
  obtain ⟨a, ha, hlocked, rfl⟩ := h
  obtain ⟨_, da, hm₀, hda, -, -, -, -, rfl⟩ := mintTo_some ht
  have hmint : k ≠ mint := by
    rintro rfl
    rw [ha] at hm₀
    cases hm₀
  by_cases hdst : k = destination
  · subst hdst
    obtain rfl : a = da := Entry.account.inj (ha.symm.trans hda)
    refine ⟨a.amount + amount, ⟨{ a with amount := a.amount + amount }, ?_,
      hlocked.with_balance _ _, rfl⟩, le_add_right _ _⟩
    rw [update_of_ne hmint, update_self]
  · refine ⟨_, ⟨a, ?_, hlocked, rfl⟩, le_rfl⟩
    rw [update_of_ne hmint, update_of_ne hdst, ha]

theorem Book.HasLocked.burn (hm : mint ≠ m)
    (ht : burn signed source mint authority amount b = some b') : b'.HasLocked k m owner n := by
  obtain ⟨a, ha, hlocked, rfl⟩ := h
  exact ⟨a, (burn_other ha (hlocked.mint ▸ hm.symm) ht).trans ha, hlocked, rfl⟩

end HasLocked

end Operations

end SolanaPrograms.Tokens
