import Mathlib

/-!
# Abstract token ledgers

A ledger records, for every asset, its supply and what each holder has of it. Assets and
holders are arbitrary types; the holders are finite in number, so that totals exist.

The three moves are `transfer`, `mint` and `burn`. A ledger is *conserved* when the supply
of every asset is the total of its holdings (`Conserved`); each move keeps a conserved
ledger conserved, and so does every finite sequence of moves (`Moves.conserved`). An
implementation that simulates these moves inherits the law from here.
-/

namespace SolanaPrograms

open Finset Function

/-- Supply of every asset, and the holding of every holder in every asset. -/
@[ext] structure Ledger (M A : Type) where
  supply : M → ℕ
  holding : A → M → ℕ

namespace Ledger

variable {M A : Type} [DecidableEq M] [DecidableEq A]

variable (L : Ledger M A)

def setHolding (a : A) (m : M) (x : ℕ) : Ledger M A :=
  { L with holding := update L.holding a (update (L.holding a) m x) }

def setSupply (m : M) (x : ℕ) : Ledger M A :=
  { L with supply := update L.supply m x }

def transfer (m : M) (a b : A) (x : ℕ) : Ledger M A :=
  let L' := L.setHolding a m (L.holding a m - x)
  L'.setHolding b m (L'.holding b m + x)

def mint (m : M) (a : A) (x : ℕ) : Ledger M A :=
  (L.setHolding a m (L.holding a m + x)).setSupply m (L.supply m + x)

def burn (m : M) (a : A) (x : ℕ) : Ledger M A :=
  (L.setHolding a m (L.holding a m - x)).setSupply m (L.supply m - x)

@[simp] theorem setHolding_supply (a : A) (m : M) (x : ℕ) :
    (L.setHolding a m x).supply = L.supply := rfl

omit [DecidableEq A] in
@[simp] theorem setSupply_holding (m : M) (x : ℕ) : (L.setSupply m x).holding = L.holding := rfl

theorem setHolding_holding (a : A) (m : M) (x : ℕ) (a' : A) (m' : M) :
    (L.setHolding a m x).holding a' m' = if a' = a ∧ m' = m then x else L.holding a' m' := by
  unfold setHolding
  by_cases ha : a' = a
  · subst ha
    by_cases hm : m' = m
    · subst hm; simp
    · simp [hm]
  · simp [ha]

omit [DecidableEq A] in
theorem setSupply_supply (m : M) (x : ℕ) (m' : M) :
    (L.setSupply m x).supply m' = if m' = m then x else L.supply m' := by
  unfold setSupply
  by_cases hm : m' = m
  · subst hm; simp
  · simp [hm]

/-! ## Recognising a move -/

variable {L L' : Ledger M A} {a : A} {m : M} {x : ℕ}

theorem eq_transfer {b : A} (hne : a ≠ b) (hsupply : L'.supply = L.supply)
    (ha : L'.holding a m + x = L.holding a m) (hb : L'.holding b m = L.holding b m + x)
    (hother : ∀ k m', k ≠ a ∧ k ≠ b ∨ m' ≠ m → L'.holding k m' = L.holding k m') :
    L' = L.transfer m a b x := by
  apply Ledger.ext
  · exact hsupply
  · funext k m'
    simp only [transfer, setHolding_holding]
    by_cases hm : m' = m
    · subst hm
      by_cases hk : k = b
      · subst hk
        simp only [and_self, if_true, hne.symm, false_and, if_false]
        exact hb
      · by_cases hk' : k = a
        · subst hk'
          simp only [and_true, hk, if_false, if_true]
          omega
        · simp only [hk, hk', false_and, if_false]
          exact hother k m' (.inl ⟨hk', hk⟩)
    · simp only [hm, and_false, if_false]
      exact hother k m' (.inr hm)

theorem eq_set {y z : ℕ} (hsupply : L'.supply m = z) (hholding : L'.holding a m = y)
    (hsupplies : ∀ m', m' ≠ m → L'.supply m' = L.supply m')
    (hother : ∀ k m', k ≠ a ∨ m' ≠ m → L'.holding k m' = L.holding k m') :
    L' = (L.setHolding a m y).setSupply m z := by
  apply Ledger.ext
  · funext m'
    rw [setSupply_supply]
    split_ifs with hm
    · rw [hm, hsupply]
    · exact hsupplies m' hm
  · funext k m'
    rw [setSupply_holding, setHolding_holding]
    split_ifs with h
    · rw [h.1, h.2, hholding]
    · exact hother k m' (by rwa [← not_and_or])

/-! ## Totals -/

section Totals

variable [Fintype A]

variable (L : Ledger M A)

def total (m : M) : ℕ := ∑ a, L.holding a m

def Conserved : Prop := ∀ m, L.supply m = L.total m

omit [DecidableEq M] [DecidableEq A] in
theorem holding_le_total (a : A) (m : M) : L.holding a m ≤ L.total m :=
  single_le_sum (f := fun b => L.holding b m) (fun _ _ => Nat.zero_le _)
    (mem_univ a)

theorem total_setHolding (a : A) (m : M) (x : ℕ) :
    (L.setHolding a m x).total m + L.holding a m = L.total m + x := by
  have hupd : (fun a' => (L.setHolding a m x).holding a' m) =
      update (fun a' => L.holding a' m) a x := by
    funext a'
    rw [setHolding_holding]
    by_cases ha : a' = a
    · subst ha; simp
    · simp [ha]
  have hnew : (L.setHolding a m x).total m = x + ∑ b ∈ .univ \ {a}, L.holding b m := by
    rw [total, hupd, sum_update_of_mem (mem_univ a)]
  have hold : L.total m = L.holding a m + ∑ b ∈ .univ \ {a}, L.holding b m := by
    rw [total, ← sum_update_of_mem (mem_univ a)
      (fun b => L.holding b m) (L.holding a m)]
    simp
  omega

theorem total_setHolding_of_ne (a : A) {m m' : M} (x : ℕ) (h : m' ≠ m) :
    (L.setHolding a m x).total m' = L.total m' := by
  simp [total, setHolding_holding, h]

omit [DecidableEq A] in
@[simp] theorem total_setSupply (m : M) (x : ℕ) (m' : M) :
    (L.setSupply m x).total m' = L.total m' := rfl

/-! ## Moves -/

/-- One move of a ledger; `idle` covers steps that do not concern it. -/
inductive Move : Ledger M A → Ledger M A → Prop
  | idle (L : Ledger M A) : Move L L
  | transfer (L : Ledger M A) (m : M) (a b : A) (x : ℕ) (h : x ≤ L.holding a m) :
      Move L (L.transfer m a b x)
  | mint (L : Ledger M A) (m : M) (a : A) (x : ℕ) : Move L (L.mint m a x)
  | burn (L : Ledger M A) (m : M) (a : A) (x : ℕ) (h : x ≤ L.holding a m) :
      Move L (L.burn m a x)

variable {L L' : Ledger M A}

omit [Fintype A] in
theorem Move.of_eq (h : L' = L) : Move L L' := h ▸ .idle L

abbrev Moves : Ledger M A → Ledger M A → Prop := Relation.ReflTransGen Move

theorem total_transfer (L : Ledger M A) (m : M) (a b : A) {x : ℕ} (h : x ≤ L.holding a m)
    (m' : M) : (L.transfer m a b x).total m' = L.total m' := by
  unfold transfer
  by_cases hm : m' = m
  · subst hm
    have h₁ := total_setHolding L a m' (L.holding a m' - x)
    have h₂ := total_setHolding (L.setHolding a m' (L.holding a m' - x)) b m'
      ((L.setHolding a m' (L.holding a m' - x)).holding b m' + x)
    dsimp only
    omega
  · dsimp only
    rw [total_setHolding_of_ne _ _ _ hm, total_setHolding_of_ne _ _ _ hm]

theorem Move.conserved (hstep : Move L L') (h : L.Conserved) : L'.Conserved := by
  intro m'
  have hm' := h m'
  cases hstep with
  | idle => exact hm'
  | transfer m a b _ hx =>
    rw [total_transfer L m a b hx]
    exact hm'
  | mint m a x =>
    unfold Ledger.mint
    rw [total_setSupply, setSupply_supply]
    by_cases hm : m' = m
    · subst hm
      have := total_setHolding L a m' (L.holding a m' + x)
      rw [if_pos rfl]
      omega
    · rw [if_neg hm, total_setHolding_of_ne _ _ _ hm]
      exact hm'
  | burn m a x =>
    unfold Ledger.burn
    rw [total_setSupply, setSupply_supply]
    by_cases hm : m' = m
    · subst hm
      have h₁ := total_setHolding L a m' (L.holding a m' - x)
      rw [if_pos rfl]
      omega
    · rw [if_neg hm, total_setHolding_of_ne _ _ _ hm]
      exact hm'

theorem Moves.conserved (hrun : Moves L L') (h : L.Conserved) : L'.Conserved := by
  induction hrun with
  | refl => exact h
  | tail _ hstep ih => exact hstep.conserved ih

end Totals

/-! ## Assets that are holders

Where the same keys name the assets and the holders, a step is described key by key. One asset may
be left out of the books. -/

section Keys

def without (L : Ledger M A) (n : M) : Ledger M A where
  supply m := if m = n then 0 else L.supply m
  holding a m := if m = n then 0 else L.holding a m

variable {K : Type} {L L' : Ledger K K} {a b k m n : K} {x : ℕ}

/-- Nothing changes at the key `k`. -/
structure SameAt (L L' : Ledger K K) (k : K) : Prop where
  supply : L'.supply k = L.supply k
  holding : ∀ m, L'.holding k m = L.holding k m

/-- Nothing changes at the key `k` but its holding in the asset `m`. -/
structure HoldingAt (L L' : Ledger K K) (k m : K) : Prop where
  supply : L'.supply k = L.supply k
  other : ∀ n, n ≠ m → L'.holding k n = L.holding k n

theorem SameAt.holdingAt (h : SameAt L L' k) (m : K) : HoldingAt L L' k m :=
  ⟨h.supply, fun n _ => h.holding n⟩

variable [DecidableEq K]

theorem without_congr (h : ∀ k, HoldingAt L L' k n) : L'.without n = L.without n := by
  ext k m
  · simp only [without, (h k).supply]
  · by_cases hm : m = n
    · simp only [without, hm, if_true]
    · simp only [without, hm, if_false, (h k).other m hm]

/-- What changes at one key, in the asset that is left out. -/
theorem Move.of_single (hrest : ∀ j, j ≠ k → SameAt L L' j) (hk : HoldingAt L L' k n) :
    Move (L.without n) (L'.without n) := by
  refine .of_eq (without_congr fun j => ?_)
  by_cases hj : j = k
  · exact hj ▸ hk
  · exact (hrest j hj).holdingAt n

theorem Move.of_transfer (hne : a ≠ b) (hrest : ∀ k, k ≠ a → k ≠ b → SameAt L L' k)
    (ha : HoldingAt L L' a m) (hb : HoldingAt L L' b m) (hx : L'.holding a m + x = L.holding a m)
    (hx' : L'.holding b m = L.holding b m + x) : Move (L.without n) (L'.without n) := by
  have hall : ∀ k, HoldingAt L L' k m := by
    intro k
    by_cases h₁ : k = a
    · exact h₁ ▸ ha
    · by_cases h₂ : k = b
      · exact h₂ ▸ hb
      · exact (hrest k h₁ h₂).holdingAt m
  have hother : ∀ k m', k ≠ a ∧ k ≠ b ∨ m' ≠ m →
      (L'.without n).holding k m' = (L.without n).holding k m' := by
    rintro k m' (hk | hm')
    · simp only [without, (hrest k hk.1 hk.2).holding]
    · simp only [without, (hall k).other m' hm']
  -- of the asset that is left out nothing is moved
  rw [eq_transfer (x := if m = n then 0 else x) hne
    (funext fun k => by simp only [without, (hall k).supply])
    (by simp only [without, ite_add_ite, hx]) (by simp only [without, ite_add_ite, hx']) hother]
  exact .transfer _ _ _ _ _ (by simp only [without]; split_ifs <;> omega)

variable (hrest : ∀ j, j ≠ k → j ≠ m → SameAt L L' j) (hk : HoldingAt L L' k m)
  (hm : ∀ n, L'.holding m n = L.holding m n)
include hrest hk hm

/-- What changes at one holder and at the asset it holds. -/
theorem other_of_issue :
    (∀ m', m' ≠ m → (L'.without n).supply m' = (L.without n).supply m') ∧
      ∀ j m', j ≠ k ∨ m' ≠ m → (L'.without n).holding j m' = (L.without n).holding j m' := by
  constructor
  · intro m' hm'
    by_cases h : m' = k
    · subst h
      simp only [without, hk.supply]
    · simp only [without, (hrest m' h hm').supply]
  · intro j m' hjm
    by_cases h : j = k
    · subst h
      simp only [without, hk.other m' (hjm.resolve_left fun h => h rfl)]
    · by_cases h' : j = m
      · subst h'
        simp only [without, hm]
      · simp only [without, (hrest j h h').holding]

theorem Move.of_mint (hx : L'.holding k m = L.holding k m + x)
    (hsupply : L'.supply m = L.supply m + x) : Move (L.without n) (L'.without n) := by
  obtain ⟨hsupplies, hother⟩ := other_of_issue (n := n) hrest hk hm
  have hmint : L'.without n = (L.without n).mint m k (if m = n then 0 else x) :=
    eq_set (by simp only [without, ite_add_ite, hsupply])
      (by simp only [without, ite_add_ite, hx]) hsupplies hother
  exact hmint ▸ .mint _ _ _ _

theorem Move.of_burn (hx : L'.holding k m + x = L.holding k m)
    (hsupply : L'.supply m + x = L.supply m) : Move (L.without n) (L'.without n) := by
  obtain ⟨hsupplies, hother⟩ := other_of_issue (n := n) hrest hk hm
  have hburn : L'.without n = (L.without n).burn m k (if m = n then 0 else x) :=
    eq_set (Nat.eq_sub_of_add_eq (by simp only [without, ite_add_ite, hsupply]))
      (Nat.eq_sub_of_add_eq (by simp only [without, ite_add_ite, hx])) hsupplies hother
  exact hburn ▸ .burn _ _ _ _ (by simp only [without]; split_ifs <;> omega)

end Keys

end Ledger

end SolanaPrograms
