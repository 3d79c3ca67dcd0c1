import Mathlib

/-!
# Totals over a sparse store

A store maps every key to a value, and all but finitely many keys to the empty value (`Sparse`). A
`Weight` gives a number to each entry, and nothing to empty ones, so that it has a `total` over the
store. Writing one entry changes a total by the difference of the two weights (`total_update`); two
totals are compared entry by entry, possibly along an injection of the keys
(`total_le_of_injective`).
-/

namespace SolanaPrograms

open Function Finset Nat

variable {K V : Type} {e : V} {s : K → V}

/-- All but finitely many entries are empty. -/
def Sparse (e : V) (s : K → V) : Prop := {k | s k ≠ e}.Finite

/-- The keys that are not empty. -/
noncomputable def Sparse.filled {s : K → V} (hs : Sparse e s) : Finset K := Set.Finite.toFinset hs

@[simp] theorem Sparse.mem_filled (hs : Sparse e s) {k : K} :
    k ∈ hs.filled ↔ s k ≠ e := Set.Finite.mem_toFinset hs

/-- A number for each entry of a store, zero for empty ones. -/
structure Weight (K V : Type) (e : V) where
  of : K → V → ℕ
  of_empty : ∀ k, of k e = 0

namespace Weight

variable (f : Weight K V e)

/-- What the entries of a store weigh together. -/
noncomputable def total (s : K → V) : ℕ := ∑ᶠ k, f.of k (s k)

theorem support_subset (s : K → V) : support (fun k => f.of k (s k)) ⊆ {k | s k ≠ e} := by
  intro k hk hempty
  exact hk (by simp only [hempty, f.of_empty])

variable {s : K → V}

theorem finite_support (hs : Sparse e s) :
    (support fun k => f.of k (s k)).Finite := hs.subset (f.support_subset s)

/-- A total is a sum over any finite set that has all filled keys. -/
theorem total_eq_sum {S : Finset K} (hS : {k | s k ≠ e} ⊆ ↑S) : f.total s = ∑ k ∈ S, f.of k (s k) :=
  finsum_eq_sum_of_support_subset _ ((f.support_subset s).trans hS)

theorem le_total (hs : Sparse e s) (k : K) : f.of k (s k) ≤ f.total s := by
  by_cases hk : s k = e
  · rw [hk, f.of_empty]
    exact zero_le _
  · have hS : {k | s k ≠ e} ⊆ ↑hs.filled := fun x hx => hs.mem_filled.mpr hx
    rw [f.total_eq_sum hS]
    exact single_le_sum (f := fun k => f.of k (s k)) (fun _ _ => zero_le _)
      (hs.mem_filled.mpr hk)

theorem total_congr (f g : Weight K V e) {s' : K → V} (h : ∀ k, f.of k (s k) = g.of k (s' k)) :
    f.total s = g.total s' :=
  finsum_congr h

theorem total_eq_zero (f : Weight K V e) (h : ∀ k, f.of k (s k) = 0) : f.total s = 0 := by
  rw [total, finsum_congr h, finsum_zero]

/-! ### Entries of one kind -/

/-- A weight of the entries of one kind, given by a partial view. -/
def view {α : Type} (view : V → Option α) (hview : view e = none) (f : K → α → ℕ) : Weight K V e :=
  ⟨fun k v => (view v).elim 0 (f k), fun k => by rw [hview]; rfl⟩

section View

variable {α : Type} {kind : V → Option α} {hkind : kind e = none} {f : K → α → ℕ} {k : K} {v : V}

theorem view_none (h : kind v = none) : (view kind hkind f).of k v = 0 := by
  simp only [view, h, Option.elim_none]

theorem total_view_congr {s s' : K → V} (h : ∀ k, kind (s' k) = kind (s k)) :
    (view kind hkind f).total s' = (view kind hkind f).total s :=
  total_congr _ _ fun k => by simp only [view, h k]

end View

section Update

variable [DecidableEq K]

variable (f : Weight K V e) {s : K → V}

theorem total_update (hs : Sparse e s) (k : K) (v : V) :
    f.total (update s k v) + f.of k (s k) = f.total s + f.of k v := by
  classical
  set S : Finset K := insert k hs.filled with hSdef
  have hold : {k | s k ≠ e} ⊆ ↑S := by
    intro x hx
    exact mem_insert_of_mem (hs.mem_filled.mpr hx)
  have hnew : {x | update s k v x ≠ e} ⊆ ↑S := by
    intro x hx
    by_cases hxk : x = k
    · simp [hSdef, hxk]
    · exact hold (by simpa [hxk] using hx)
  have hk : k ∈ S := by simp [hSdef]
  have hrest : ∑ x ∈ S.erase k, f.of x (update s k v x) =
      ∑ x ∈ S.erase k, f.of x (s x) :=
    sum_congr rfl fun x hx => by rw [update_of_ne (ne_of_mem_erase hx)]
  rw [f.total_eq_sum hnew, f.total_eq_sum hold, ← add_sum_erase S _ hk,
    ← add_sum_erase S (fun x => f.of x (s x)) hk, hrest, update_self]
  omega

theorem total_update_of_eq {k : K} {v : V} (h : f.of k v = f.of k (s k)) :
    f.total (update s k v) = f.total s := by
  refine finsum_congr fun x => ?_
  by_cases hx : x = k
  · subst hx
    rw [update_self, h]
  · rw [update_of_ne hx]

end Update

/-- Totals are compared along an injection from the keys that count on the left. -/
theorem total_le_of_injective {J W : Type} {d : W} (f : Weight K V e) (g : Weight J W d) {t : J → W}
    (ht : Sparse d t) (i : J → K) (hi : Injective i)
    (h : ∀ k, f.of k (s k) ≠ 0 → ∃ j, i j = k ∧ f.of k (s k) ≤ g.of j (t j)) :
    f.total s ≤ g.total t := by
  classical
  have hsub : support (fun k => f.of k (s k)) ⊆ Set.range i := by
    intro k hk
    obtain ⟨j, hj, -⟩ := h k hk
    exact ⟨j, hj⟩
  have hle : ∀ j, f.of (i j) (s (i j)) ≤ g.of j (t j) := by
    intro j
    by_cases hj : f.of (i j) (s (i j)) = 0
    · rw [hj]
      exact zero_le _
    · obtain ⟨_, hj', hle⟩ := h (i j) hj
      rwa [hi hj'] at hle
  have hfin : (support fun j => f.of (i j) (s (i j))).Finite := by
    refine (g.finite_support ht).subset fun j hj hzero => hj ?_
    exact le_zero.mp (hzero ▸ hle j)
  calc f.total s = ∑ᶠ k ∈ Set.range i, f.of k (s k) := by
        rw [total, finsum_mem_def]
        refine finsum_congr fun k => ?_
        by_cases hk : k ∈ Set.range i
        · rw [Set.indicator_of_mem hk]
        · rw [Set.indicator_of_notMem hk]
          by_contra hne
          exact hk (hsub hne)
    _ = ∑ᶠ j, f.of (i j) (s (i j)) := finsum_mem_range hi
    _ ≤ g.total t := finsum_le_finsum' hfin (g.finite_support ht) hle

def add (f g : Weight K V e) : Weight K V e :=
  ⟨fun k v => f.of k v + g.of k v, fun k => by rw [f.of_empty, g.of_empty]⟩

theorem total_add (f g : Weight K V e) (hs : Sparse e s) :
    (f.add g).total s = f.total s + g.total s :=
  finsum_add_distrib (f.finite_support hs) (g.finite_support hs)

end Weight

section Sparse

variable [DecidableEq K]

theorem Sparse.update (hs : Sparse e s) (k : K) (v : V) : Sparse e (update s k v) := by
  refine (hs.insert k).subset fun x hx => ?_
  by_cases hxk : x = k
  · exact .inl hxk
  · exact .inr (by simpa [hxk] using hx)

end Sparse

theorem sparse_const : Sparse e fun _ : K => e := by simp [Sparse]

end SolanaPrograms
