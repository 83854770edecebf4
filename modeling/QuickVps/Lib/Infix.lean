import Mathlib.Data.List.Basic
import Mathlib.Data.List.Infix
import Mathlib.Tactic.Common

/-!
# Searching a text

Whether a text contains another one, when it is made of pieces with separators between them.

* `infix_append_cons_iff_of_not_mem`, `infix_intercalate_iff` — a text without the separator is in
  one of the pieces;
* `infix_append_cons_iff`, `infix_intercalate_pair_iff` — a text with one separator may also lie
  across a separator, between two pieces.
-/

namespace List

variable {α : Type*} {sep : α} {p q l r : List α}

theorem prefix_append_cons_iff (hq : sep ∉ q) : q <+: l ++ sep :: r ↔ q <+: l := by
  refine ⟨fun h => ?_, fun h => h.trans (prefix_append _ _)⟩
  rcases prefix_or_prefix_of_prefix h (prefix_append l (sep :: r)) with hle | ⟨t, rfl⟩
  · exact hle
  · rw [prefix_append_right_inj] at h
    cases t with
    | nil => rw [append_nil]
    | cons a t =>
      obtain ⟨rfl, -⟩ := cons_prefix_cons.1 h
      exact absurd (mem_append_right l mem_cons_self) hq

theorem suffix_append_cons_iff (hp : sep ∉ p) : p <:+ l ++ sep :: r ↔ p <:+ r := by
  rw [← reverse_prefix, reverse_append, reverse_cons, append_assoc, singleton_append,
    prefix_append_cons_iff (by rwa [mem_reverse]), reverse_prefix]

/-- A text with one separator is on one side of a separator, or the two are the same. -/
theorem infix_append_cons_iff (hp : sep ∉ p) (hq : sep ∉ q) :
    p ++ sep :: q <:+: l ++ sep :: r ↔
      p ++ sep :: q <:+: l ∨ p ++ sep :: q <:+: r ∨ p <:+ l ∧ q <+: r := by
  constructor
  · rintro ⟨s, t, h⟩
    have heq : (s ++ p) ++ (sep :: (q ++ t)) = l ++ sep :: r := by simpa using h
    rcases append_eq_append_iff.1 heq with ⟨a, rfl, ha⟩ | ⟨a, hsp, ha⟩
    · cases a with
      | nil =>
        obtain ⟨-, rfl⟩ := cons.inj ha
        exact .inr (.inr ⟨by simp, prefix_append _ _⟩)
      | cons b a =>
        obtain ⟨rfl, htail⟩ := cons.inj ha
        have hprefix : q <+: a ++ sep :: r := by
          rw [← append_eq, ← htail]
          exact prefix_append q t
        obtain ⟨u, rfl⟩ := (prefix_append_cons_iff hq).1 hprefix
        exact .inl ⟨s, u, by simp⟩
    · cases a with
      | nil =>
        rw [append_nil] at hsp
        obtain ⟨-, rfl⟩ := cons.inj ha
        exact .inr (.inr ⟨⟨s, hsp⟩, prefix_append _ _⟩)
      | cons b a =>
        obtain ⟨rfl, rfl⟩ := cons.inj ha
        have hsuffix : p <:+ l ++ sep :: a := hsp ▸ suffix_append s p
        obtain ⟨u, rfl⟩ := (suffix_append_cons_iff hp).1 hsuffix
        exact .inr (.inl ⟨u, t, by simp⟩)
  · rintro (h | h | ⟨⟨s, rfl⟩, ⟨t, rfl⟩⟩)
    · exact h.trans (prefix_append _ _).isInfix
    · exact h.trans ((suffix_cons sep r).trans (suffix_append l _)).isInfix
    · exact ⟨s, t, by simp⟩

theorem infix_append_cons_iff_of_not_mem {s : List α} (hne : s ≠ []) (hs : sep ∉ s) :
    s <:+: l ++ sep :: r ↔ s <:+: l ∨ s <:+: r := by
  constructor
  · rintro ⟨front, back, h⟩
    have heq : front ++ (s ++ back) = l ++ sep :: r := by simpa using h
    rcases append_eq_append_iff.1 heq with ⟨a, rfl, ha⟩ | ⟨a, rfl, ha⟩
    · have hprefix : s <+: a ++ sep :: r := ha ▸ prefix_append s back
      obtain ⟨u, rfl⟩ := (prefix_append_cons_iff hs).1 hprefix
      exact .inl ⟨front, u, by simp⟩
    · cases a with
      | nil =>
        obtain ⟨b, s, rfl⟩ := exists_cons_of_ne_nil hne
        obtain ⟨rfl, -⟩ := cons.inj ha
        exact absurd mem_cons_self hs
      | cons b a =>
        obtain ⟨-, rfl⟩ := cons.inj ha
        exact .inr ⟨a, back, by simp⟩
  · rintro (h | h)
    · exact h.trans (prefix_append _ _).isInfix
    · exact h.trans ((suffix_cons sep r).trans (suffix_append l _)).isInfix

theorem prefix_intercalate (sep piece : List α) (pieces : List (List α)) :
    piece <+: sep.intercalate (piece :: pieces) := by
  cases pieces <;> simp [intercalate]

/-- **A text without the separator is in one of the pieces.** -/
theorem infix_intercalate_iff {s : List α} (hne : s ≠ []) (hs : sep ∉ s)
    (pieces : List (List α)) :
    s <:+: [sep].intercalate pieces ↔ ∃ piece ∈ pieces, s <:+: piece := by
  induction pieces with
  | nil => simp [intercalate, hne]
  | cons piece pieces ih =>
    cases pieces with
    | nil => simp [intercalate]
    | cons next pieces =>
      have hfront : [sep].intercalate (piece :: next :: pieces) =
          piece ++ sep :: [sep].intercalate (next :: pieces) := by simp [intercalate]
      rw [hfront, infix_append_cons_iff_of_not_mem hne hs, ih]
      simp only [mem_cons, exists_eq_or_imp]

/-- **A text with one separator lies across two pieces**, if none of these has a separator. -/
theorem infix_intercalate_pair_iff (hp : sep ∉ p) (hq : sep ∉ q) {pieces : List (List α)}
    (hpieces : ∀ piece ∈ pieces, sep ∉ piece) :
    p ++ sep :: q <:+: [sep].intercalate pieces ↔
      ∃ a b, [a, b] <:+: pieces ∧ p <:+ a ∧ q <+: b := by
  induction pieces with
  | nil => simp [intercalate]
  | cons piece pieces ih =>
    have hpiece : ¬ p ++ sep :: q <:+: piece := fun h =>
      hpieces piece mem_cons_self (h.subset (mem_append_right _ mem_cons_self))
    cases pieces with
    | nil => simp [intercalate, hpiece, infix_cons_iff]
    | cons next pieces =>
      have hfront : [sep].intercalate (piece :: next :: pieces) =
          piece ++ sep :: [sep].intercalate (next :: pieces) := by simp [intercalate]
      have hnext : q <+: [sep].intercalate (next :: pieces) ↔ q <+: next := by
        cases pieces with
        | nil => simp [intercalate]
        | cons other pieces =>
          rw [← prefix_append_cons_iff (l := next) (r := [sep].intercalate (other :: pieces)) hq]
          simp [intercalate]
      rw [hfront, infix_append_cons_iff hp hq, hnext,
        ih fun x hx => hpieces x (mem_cons_of_mem _ hx)]
      constructor
      · rintro (h | ⟨a, b, hab, h⟩ | h)
        · exact absurd h hpiece
        · exact ⟨a, b, infix_cons hab, h⟩
        · exact ⟨piece, next, (prefix_append [piece, next] pieces).isInfix, h⟩
      · rintro ⟨a, b, hab, h⟩
        rcases infix_cons_iff.1 hab with hfirst | hlater
        · obtain ⟨rfl, hsecond⟩ := cons_prefix_cons.1 hfirst
          obtain ⟨rfl, -⟩ := cons_prefix_cons.1 hsecond
          exact .inr (.inr h)
        · exact .inr (.inl ⟨a, b, hlater, h⟩)

end List
