import Mathlib.Tactic.Common

/-!
# Sorting

`sort.Slice` orders a slice by a `less`; where that is a strict weak order, no element is less than
one before it. The sort is not stable: the order of the others is its own.

* `SortSlice` — any such sort; `mergeSortSlice` — one that is stable, for runs of the model.
-/

namespace Go

structure StrictWeak {α : Type} (less : α → α → Bool) : Prop where
  irrefl : ∀ a, less a a = false
  trans : ∀ a b c, less a b = true → less b c = true → less a c = true
  incomparable : ∀ a b c, less a b = false → less b c = false → less a c = false

theorem StrictWeak.asymm {α : Type} {less : α → α → Bool} (h : StrictWeak less) (a b : α) :
    less a b = false ∨ less b a = false := by
  by_contra hboth
  simp only [not_or, Bool.not_eq_false] at hboth
  have hself := h.trans a b a hboth.1 hboth.2
  rw [h.irrefl a] at hself
  cases hself

structure SortSlice where
  sort : {α : Type} → (α → α → Bool) → List α → List α
  perm : ∀ {α : Type} (less : α → α → Bool) (xs : List α), (sort less xs).Perm xs
  sorted : ∀ {α : Type} {less : α → α → Bool}, StrictWeak less → ∀ xs : List α,
    (sort less xs).Pairwise fun a b => less b a = false

def mergeSortSlice : SortSlice where
  sort less xs := xs.mergeSort fun a b => !less b a
  perm _ _ := List.mergeSort_perm ..
  sorted {_ less} h xs := by
    have htrans (a b c : _) (hab : (!less b a) = true) (hbc : (!less c b) = true) :
        (!less c a) = true := by
      simp only [Bool.not_eq_true'] at hab hbc ⊢
      exact h.incomparable c b a hbc hab
    have htotal (a b : _) : (!less b a || !less a b) = true := by
      simpa using h.asymm b a
    have hsorted := List.pairwise_mergeSort htrans htotal xs
    exact hsorted.imp fun hab => by simpa using hab

end Go
