import Mathlib.Data.List.Basic
import Mathlib.Tactic.Common

/-!
# Reading item by item

A text is printed as one piece per item, and a reader makes of each piece one value or none.

* `filterMap_splitOn`, `splitOn_ended`, `filterMap_ended` — pieces with separators between them, or
  after each of them, are read piece by piece;
* `filterMap_eq_iff` — a reader that misses no item is right on the whole exactly if it is right on
  every item: what it adds is never made up for by what it leaves out;
* `filterMap_eq_iff_of_absent` — the same for a reader that misses items, when the values it misses
  are none that it ever returns.
-/

namespace Decode

variable {α β ι : Type*}

theorem filterMap_splitOn [BEq α] [LawfulBEq α] {sep : α} {read : List α → Option β}
    (hnil : read [] = none) {pieces : List (List α)} (h : ∀ piece ∈ pieces, sep ∉ piece) :
    (([sep].intercalate pieces).splitOn sep).filterMap read = pieces.filterMap read := by
  by_cases hne : pieces = []
  · subst hne
    simp [hnil]
  · rw [List.splitOn_intercalate sep h hne]

/-- Pieces that are all ended by a separator are split into them and an empty rest. -/
theorem splitOn_ended [BEq α] [LawfulBEq α] {sep : α} {pieces : List (List α)}
    (h : ∀ piece ∈ pieces, sep ∉ piece) :
    ([sep].intercalate (pieces ++ [[]])).splitOn sep = pieces ++ [[]] := by
  refine List.splitOn_intercalate sep (fun piece hpiece => ?_) (by simp)
  rcases List.mem_append.1 hpiece with hpiece | hpiece
  · exact h piece hpiece
  · rw [List.mem_singleton.1 hpiece]
    exact List.not_mem_nil

theorem filterMap_ended [BEq α] [LawfulBEq α] {sep : α} {read : List α → Option β}
    (hnil : read [] = none) {pieces : List (List α)} (h : ∀ piece ∈ pieces, sep ∉ piece) :
    (([sep].intercalate (pieces ++ [[]])).splitOn sep).filterMap read =
      pieces.filterMap read := by
  rw [splitOn_ended h, List.filterMap_append, List.filterMap_cons_none hnil, List.filterMap_nil,
    List.append_nil]

section Exact

variable {got want : ι → Option β} {items : List ι}

theorem length_filterMap_le (h : ∀ i ∈ items, (want i).isSome → (got i).isSome) :
    (items.filterMap want).length ≤ (items.filterMap got).length := by
  induction items with
  | nil => exact Nat.le_refl _
  | cons i items ih =>
    have hrest := ih fun j hj => h j (List.mem_cons_of_mem _ hj)
    have hi := h i List.mem_cons_self
    cases hwant : want i with
    | none =>
      rw [List.filterMap_cons_none hwant]
      cases hgot : got i with
      | none => rwa [List.filterMap_cons_none hgot]
      | some b =>
        rw [List.filterMap_cons_some hgot]
        exact Nat.le_succ_of_le hrest
    | some b =>
      obtain ⟨b', hgot⟩ := Option.isSome_iff_exists.1 (hi (by rw [hwant]; rfl))
      rw [List.filterMap_cons_some hwant, List.filterMap_cons_some hgot]
      exact Nat.succ_le_succ hrest

/-- **Right on the whole exactly if right on every item.** -/
theorem filterMap_eq_iff (h : ∀ i ∈ items, (want i).isSome → (got i).isSome) :
    items.filterMap got = items.filterMap want ↔ ∀ i ∈ items, got i = want i := by
  refine ⟨fun heq => ?_, fun hall => List.filterMap_congr hall⟩
  induction items with
  | nil => exact fun i hi => nomatch hi
  | cons i items ih =>
    have hmem : ∀ j ∈ items, (want j).isSome → (got j).isSome :=
      fun j hj => h j (List.mem_cons_of_mem _ hj)
    have hi := h i List.mem_cons_self
    have hlen := length_filterMap_le hmem
    -- The item is read as it should be, as the values after it would not be enough.
    obtain ⟨hhead, htail⟩ : got i = want i ∧ items.filterMap got = items.filterMap want := by
      cases hwant : want i with
      | none =>
        rw [List.filterMap_cons_none hwant] at heq
        cases hgot : got i with
        | none => exact ⟨rfl, by rwa [List.filterMap_cons_none hgot] at heq⟩
        | some b =>
          rw [List.filterMap_cons_some hgot] at heq
          have := congrArg List.length heq
          rw [List.length_cons] at this
          omega
      | some b =>
        obtain ⟨b', hgot⟩ := Option.isSome_iff_exists.1 (hi (by rw [hwant]; rfl))
        rw [List.filterMap_cons_some hwant, List.filterMap_cons_some hgot] at heq
        obtain ⟨rfl, htail⟩ := List.cons.inj heq
        exact ⟨hgot, htail⟩
    intro j hj
    rcases List.mem_cons.1 hj with rfl | hj
    · exact hhead
    · exact ih hmem htail j hj

/-- Values with `P` are never read, and all the others are. -/
theorem filterMap_eq_iff_of_absent {P : β → Prop}
    (hread : ∀ i ∈ items, ∀ b, got i = some b → ¬ P b)
    (h : ∀ i ∈ items, ∀ b, want i = some b → ¬ P b → (got i).isSome) :
    items.filterMap got = items.filterMap want ↔ ∀ i ∈ items, got i = want i := by
  refine ⟨fun heq => ?_, fun hall => List.filterMap_congr hall⟩
  refine (filterMap_eq_iff fun i hi hsome => ?_).1 heq
  obtain ⟨b, hb⟩ := Option.isSome_iff_exists.1 hsome
  refine h i hi b hb fun hP => ?_
  have hmem : b ∈ items.filterMap got := heq ▸ List.mem_filterMap.2 ⟨i, hi, hb⟩
  obtain ⟨j, hj, hgot⟩ := List.mem_filterMap.1 hmem
  exact hread j hj b hgot hP

end Exact

end Decode
