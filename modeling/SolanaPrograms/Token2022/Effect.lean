import SolanaPrograms.Token2022.Book

/-!
# What token-2022 does to its book

The abstract machine of the program. Three places hold tokens of a mint: the amount of an account,
the fee withheld on an account, and the fees withheld on the mint itself. `Effect` lists how one
instruction moves them and what else it may change; an instruction that works through a list of
accounts is a sequence of effects.

`Refines` says that a store update is such a sequence and keeps the data sound. The handlers are
shown to refine the machine in `Handlers`.
-/

namespace SolanaPrograms.Token2022

open Outcome SolanaPrograms.Runtime StateWithExtensionsMut
open Token (Mint Account)
open Function (update update_eq_self)

/-! ## Tokens in a record -/

def Record.withheld (r : Record Account) : ℕ :=
  match r.get TransferFeeAmount with
  | some extension => extension.withheldAmount.toNat
  | none => 0

def Record.holds (r : Record Account) : ℕ := r.base.amount.toNat + r.withheld

def Record.withheldFees (r : Record Mint) : ℕ :=
  match r.get TransferFeeConfig with
  | some config => config.withheldAmount.toNat
  | none => 0

structure SameAccount (r r' : Record Account) : Prop where
  mint : r'.base.mint = r.base.mint
  native : r'.base.isNative = r.base.isNative
  fee : (r'.get TransferFeeAmount).isSome = (r.get TransferFeeAmount).isSome

def TransferFeeConfig.fees (c : TransferFeeConfig) : TransferFee × TransferFee :=
  (c.olderTransferFee, c.newerTransferFee)

/-- A mint charges the fees it charged before. -/
def SameMint (r r' : Record Mint) : Prop :=
  (r'.get TransferFeeConfig).map (·.fees) = (r.get TransferFeeConfig).map (·.fees)

theorem SameMint.isSome {r r' : Record Mint} (h : SameMint r r') :
    (r'.get TransferFeeConfig).isSome = (r.get TransferFeeConfig).isSome := by
  simpa using congrArg Option.isSome h

theorem SameAccount.refl (r : Record Account) : SameAccount r r := ⟨rfl, rfl, rfl⟩

theorem SameAccount.trans {r r' r'' : Record Account} (h : SameAccount r r')
    (h' : SameAccount r' r'') : SameAccount r r'' :=
  ⟨h'.mint.trans h.mint, h'.native.trans h.native, h'.fee.trans h.fee⟩

/-! ## Effects -/

/-- What an instruction asks for, as far as its effects depend on it. -/
inductive Request
  | other
  | close (k : Pubkey)
  /-- The fees of a mint are set, also before it is initialised. -/
  | fees (k : Pubkey)

def requestOf : TokenInstruction → List AccountMeta → Request
  | .closeAccount, source :: _ => .close source.key
  | .transferFeeExtension (.initializeTransferFeeConfig ..), mint :: _ => .fees mint.key
  | .transferFeeExtension (.setTransferFee ..), mint :: _ => .fees mint.key
  | _, _ => .other

inductive Effect (request : Request) : Book → Book → Prop
  /-- A new account of an existing mint. It is empty, or holds wrapped SOL. -/
  | openAccount {B : Book} (k : Pubkey) (r : Record Account) (m : Record Mint)
      (hrequest : request = .other) (hk : B k = .vacant) (hm : B r.base.mint = .mint m)
      (hfee : (m.get TransferFeeConfig).isSome → (r.get TransferFeeAmount).isSome)
      (hwithheld : r.withheld = 0)
      (hkind : r.base.mint = nativeMintId ∧ r.base.isNative.isSome = true ∨
        r.base.mint ≠ nativeMintId ∧ r.base.isNative = none ∧ r.base.amount = 0) :
      Effect request B (update B k (.account r))
  /-- The fees of a mint that is not initialised. -/
  | configure {B : Book} (k : Pubkey) (c : Option TransferFeeConfig) (config : TransferFeeConfig)
      (hk : B k = .ofConfig c) (hrequest : request = .fees k) :
      Effect request B (update B k (.draft config))
  /-- A new mint without supply. -/
  | openMint {B : Book} (k : Pubkey) (r : Record Mint)
      (hk : B k = .ofConfig (r.get TransferFeeConfig)) (hsupply : r.base.supply = 0)
      (hwithheld : r.withheldFees = 0) :
      Effect request B (update B k (.mint r))
  /-- Delegates, authorities, freezing, other extensions; a withheld fee may become amount. -/
  | editAccount {B : Book} (k : Pubkey) (r r' : Record Account) (hk : B k = .account r)
      (hsame : SameAccount r r') (hholds : r'.holds = r.holds) :
      Effect request B (update B k (.account r'))
  /-- Authorities, other extensions. -/
  | editMint {B : Book} (k : Pubkey) (r r' : Record Mint) (hk : B k = .mint r)
      (hsame : SameMint r r') (hsupply : r'.base.supply = r.base.supply)
      (hwithheld : r'.withheldFees = r.withheldFees) :
      Effect request B (update B k (.mint r'))
  | setFees {B : Book} (k : Pubkey) (r r' : Record Mint) (hk : B k = .mint r)
      (hrequest : request = .fees k)
      (hsame : (r'.get TransferFeeConfig).isSome = (r.get TransferFeeConfig).isSome)
      (hsupply : r'.base.supply = r.base.supply) (hwithheld : r'.withheldFees = r.withheldFees) :
      Effect request B (update B k (.mint r'))
  | closeAccount {B : Book} (k : Pubkey) (r : Record Account) (hk : B k = .account r)
      (hamount : r.base.isNative = none → r.base.amount = 0) (hwithheld : r.withheld = 0) :
      Effect request B (update B k .vacant)
  | closeMint {B : Book} (k : Pubkey) (r : Record Mint) (hk : B k = .mint r)
      (hrequest : request = .close k) (hsupply : r.base.supply = 0) :
      Effect request B (update B k .vacant)
  /-- Tokens move between two accounts of one mint, wherever in the accounts they are held. -/
  | pay {B : Book} (src dst : Pubkey) (a a' b b' : Record Account) (x : ℕ) (hne : src ≠ dst)
      (hsrc : B src = .account a) (hdst : B dst = .account b)
      (hmint : a.base.mint = b.base.mint) (ha : SameAccount a a') (hb : SameAccount b b')
      (hx : a'.holds + x = a.holds) (hx' : b'.holds = b.holds + x) :
      Effect request B (update (update B src (.account a')) dst (.account b'))
  /-- A withheld fee moves from an account to its mint. -/
  | harvest {B : Book} (k : Pubkey) (a a' : Record Account) (m m' : Record Mint) (x : ℕ)
      (hk : B k = .account a) (hm : B a.base.mint = .mint m)
      (ha : SameAccount a a') (hmint : SameMint m m') (hsupply : m'.base.supply = m.base.supply)
      (hx : a'.holds + x = a.holds) (hx' : m'.withheldFees = m.withheldFees + x) :
      Effect request B
        (update (update B k (.account a')) a.base.mint (.mint m'))
  /-- Withheld fees move from the mint to an account. -/
  | withdraw {B : Book} (k : Pubkey) (a a' : Record Account) (m m' : Record Mint) (x : ℕ)
      (hk : B k = .account a) (hm : B a.base.mint = .mint m)
      (ha : SameAccount a a') (hmint : SameMint m m') (hsupply : m'.base.supply = m.base.supply)
      (hx : a'.holds = a.holds + x) (hx' : m'.withheldFees + x = m.withheldFees) :
      Effect request B
        (update (update B a.base.mint (.mint m')) k (.account a'))
  | mintTo {B : Book} (k : Pubkey) (a a' : Record Account) (m m' : Record Mint) (x : ℕ)
      (hk : B k = .account a) (hm : B a.base.mint = .mint m)
      (ha : SameAccount a a') (hmint : SameMint m m')
      (hwithheld : m'.withheldFees = m.withheldFees)
      (hx : a'.holds = a.holds + x) (hx' : m'.base.supply.toNat = m.base.supply.toNat + x) :
      Effect request B
        (update (update B a.base.mint (.mint m')) k (.account a'))
  | burn {B : Book} (k : Pubkey) (a a' : Record Account) (m m' : Record Mint) (x : ℕ)
      (hk : B k = .account a) (hm : B a.base.mint = .mint m)
      (ha : SameAccount a a') (hmint : SameMint m m')
      (hwithheld : m'.withheldFees = m.withheldFees)
      (hx : a'.holds + x = a.holds) (hx' : m'.base.supply.toNat + x = m.base.supply.toNat) :
      Effect request B
        (update (update B k (.account a')) a.base.mint (.mint m'))
  /-- Wrapped SOL follows the lamports of its account. -/
  | syncNative {B : Book} (k : Pubkey) (r r' : Record Account) (hk : B k = .account r)
      (hnative : r.base.isNative.isSome = true) (hsame : SameAccount r r') :
      Effect request B (update B k (.account r'))

abbrev Effects (request : Request) : Book → Book → Prop :=
  Relation.ReflTransGen (Effect request)

/-! ## Refinement -/

/-- The update of the store from `s` to `s'` is a sequence of effects on the book, and leaves the
data sound. -/
structure Refines (id : Pubkey) (request : Request) (s s' : Bank) : Prop where
  effects : Effects request (book id s) (book id s')
  sound : AllSound id s'

section Refines

variable {id k : Pubkey} {request : Request} {s s' : Bank}

theorem Refines.refl (hs : AllSound id s) : Refines id request s s := ⟨.refl, hs⟩

variable {d : List UInt8}

/-- A write that the runtime accepts: to an account of the program, or without effect. -/
theorem Refines.of_write (hs : AllSound id s) (hr : Respects id (s k) (s.setData k d k))
    (howned : (s k).owner = id → Refines id request s (s.setData k d)) :
    Refines id request s (s.setData k d) := by
  rcases hr.owned_or_same with howner | ⟨-, hsame⟩
  · exact howned howner
  · rw [hsame]
    exact .refl hs

theorem Refines.of_owned (hs : AllSound id s) (howner : (s k).owner = id) (hd : Sound d)
    (heff : Effects request (book id s) (update (book id s) k (entryOf d))) :
    Refines id request s (s.setData k d) :=
  ⟨by rwa [book_setData howner], hs.setData hd⟩

theorem Refines.trans {s₁ : Bank} (h : Refines id request s s₁) (h' : Refines id request s₁ s') :
    Refines id request s s' :=
  ⟨h.effects.trans h'.effects, h'.sound⟩

theorem Refines.of_kept (hs : AllSound id s)
    (h : ∀ k, (s' k).owner = (s k).owner ∧ (s' k).data = (s k).data) : Refines id request s s' :=
  ⟨by rw [book_congr h], hs.congr h⟩

theorem Refines.of_two {k₁ k₂ : Pubkey} {d₁ d₂ : List UInt8} (hs : AllSound id s)
    (h₁ : (s k₁).owner = id) (h₂ : (s k₂).owner = id) (hd₁ : Sound d₁) (hd₂ : Sound d₂)
    (heff : Effects request (book id s)
      (update (update (book id s) k₁ (entryOf d₁)) k₂ (entryOf d₂))) :
    Refines id request s ((s.setData k₁ d₁).setData k₂ d₂) := by
  refine ⟨?_, (hs.setData hd₁).setData hd₂⟩
  rwa [book_setData (by simpa using h₂), book_setData h₁]

theorem Refines.of_same (hs : AllSound id s) (howner : (s k).owner = id) (hd : Sound d)
    (hsame : entryOf d = entryOf (s k).data) : Refines id request s (s.setData k d) := by
  refine .of_owned hs howner hd ?_
  rw [hsame, ← book_of_owner howner, update_eq_self]

end Refines

/-! ## Initialised views of owned data -/

/-- An initialised view with a list of extensions. -/
structure StateWithExtensionsMut.Proper {S : Type} [BaseState S] (st : StateWithExtensionsMut S) :
    Prop extends Valid st where
  area : st.HasArea

namespace StateWithExtensionsMut.Proper

variable {S V : Type} [BaseState S] {st : StateWithExtensionsMut S} [Extension V]
  {i : Nat}

theorem withBase (h : st.Proper) {base : S} (hinit : Pack.isInitialized base = true) :
    (packBase { st with base }).Proper :=
  ⟨h.toValid.withBase hinit, h.area.congr rfl⟩

theorem put (h : st.Proper) (hat : st.DataAt (Extension.type V) i) (v : V) : (st.put i v).Proper :=
  ⟨h.toValid.withTlv (hat.put v).2.2, (hat.put v).1.hasArea⟩

theorem create (h : st.Proper) {st₁ : StateWithExtensionsMut S} {t : ExtensionType}
    (hc : Created st st₁ t i) : st₁.Proper := by
  obtain ⟨_, rfl, hlen⟩ := hc.frame
  exact ⟨h.toValid.withTlv hlen, hc.dataAt.hasArea⟩

end StateWithExtensionsMut.Proper

section Owned

variable {id k : Pubkey} {s : Bank}

variable {st : StateWithExtensionsMut Account}

theorem AllSound.account (hs : AllSound id s) (howner : (s k).owner = id)
    (h : unpack Account (s k).data = .ok st) : st.Proper ∧ book id s k = .account st.record := by
  obtain ⟨hbytes, hv⟩ := unpack_eq_ok.mp h
  exact ⟨⟨hv, (hs k howner).account h⟩, by rw [book_of_owner howner, hbytes, entryOf_account hv]⟩

theorem AllSound.mint (hs : AllSound id s) (howner : (s k).owner = id)
    {st : StateWithExtensionsMut Mint} (h : unpack Mint (s k).data = .ok st) :
    st.Proper ∧ book id s k = .mint st.record := by
  obtain ⟨hbytes, hv⟩ := unpack_eq_ok.mp h
  exact ⟨⟨hv, (hs k howner).mint h⟩, by rw [book_of_owner howner, hbytes, entryOf_mint hv]⟩

theorem Sound.of_proper_account (h : st.Proper) :
    Sound st.bytes := .of_account h.toShape h.type_eq h.area

theorem holds_packBase {base : Account} :
    (packBase { st with base }).record.holds = base.amount.toNat + st.record.withheld := by
  rfl

theorem Sound.of_proper_mint {st : StateWithExtensionsMut Mint} (h : st.Proper) :
    Sound st.bytes := .of_mint h.toValid h.area

end Owned

/-! ## Reading the store -/

def stateAt (S : Type) [BaseState S] (id : Pubkey) (s : Bank) (k : Pubkey) :
    Option (StateWithExtensions S) :=
  if (s k).owner = id then (StateWithExtensions.unpack S (s k).data).toOption else none

variable (id : Pubkey) (s : Bank) (k : Pubkey)

abbrev accountAt : Option (StateWithExtensions Account) :=
  stateAt Account id s k

abbrev mintAt : Option (StateWithExtensions Mint) :=
  stateAt Mint id s k

structure StateWithExtensions.Shows {S : Type} [BaseState S] (a : StateWithExtensions S)
    (r : Record S) : Prop where
  base : a.base = r.base
  read : ∀ (V : Type) [Extension V],
    a.read V = okOr (r.get V) (.err .invalidAccountData)

section Reading

variable {id k : Pubkey} {s : Bank}

theorem stateAt_eq_some {S : Type} [BaseState S] {a : StateWithExtensions S} :
    stateAt S id s k = some a ↔
      (s k).owner = id ∧ ∃ st, unpack S (s k).data = .ok st ∧ a = st.view := by
  unfold stateAt StateWithExtensions.unpack
  by_cases howner : (s k).owner = id
  · rw [if_pos howner]
    cases unpack S (s k).data with
    | error => simp [Except.toOption]
    | ok => simp [Except.toOption, howner, view, eq_comm]
  · simp [howner]

theorem StateWithExtensionsMut.Proper.shows {S : Type} [BaseState S] {st : StateWithExtensionsMut S}
    (h : st.Proper) : st.view.Shows st.record :=
  ⟨rfl, fun _ _ => view_read h.area⟩

theorem AllSound.book_account (hs : AllSound id s) {a : StateWithExtensions Account}
    (h : accountAt id s k = some a) : ∃ r, book id s k = .account r ∧ a.Shows r := by
  obtain ⟨howner, st, hst, rfl⟩ := stateAt_eq_some.mp h
  obtain ⟨hp, hbook⟩ := hs.account howner hst
  exact ⟨st.record, hbook, hp.shows⟩

theorem AllSound.book_mint (hs : AllSound id s) {m : StateWithExtensions Mint}
    (h : mintAt id s k = some m) : ∃ r, book id s k = .mint r ∧ m.Shows r := by
  obtain ⟨howner, st, hst, rfl⟩ := stateAt_eq_some.mp h
  obtain ⟨hp, hbook⟩ := hs.mint howner hst
  exact ⟨st.record, hbook, hp.shows⟩

theorem accountAt_of_book {r : Record Account} (h : book id s k = .account r) :
    ∃ a, accountAt id s k = some a := by
  by_cases howner : (s k).owner = id
  · rw [book_of_owner howner] at h
    obtain ⟨st, hbytes, hv, -⟩ := entryOf_eq_account h
    exact ⟨st.view, stateAt_eq_some.mpr ⟨howner, st, unpack_eq_ok.mpr ⟨hbytes, hv⟩, rfl⟩⟩
  · rw [book_of_owner_ne howner] at h
    cases h

theorem mintAt_of_book {r : Record Mint} (h : book id s k = .mint r) :
    ∃ m, mintAt id s k = some m := by
  by_cases howner : (s k).owner = id
  · rw [book_of_owner howner] at h
    obtain ⟨st, hbytes, hv, -⟩ := entryOf_eq_mint h
    exact ⟨st.view, stateAt_eq_some.mpr ⟨howner, st, unpack_eq_ok.mpr ⟨hbytes, hv⟩, rfl⟩⟩
  · rw [book_of_owner_ne howner] at h
    cases h

end Reading

end SolanaPrograms.Token2022
