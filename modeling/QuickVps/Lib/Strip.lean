import Mathlib.Data.List.DropRight
import Mathlib.Tactic.Common

/-!
# Stripped lists

A list without the elements at both ends that have a property, as a text is trimmed of what counts
as space.

* `strip_eq_self_iff` — a list is stripped when neither end has the property;
* `strip_strip` — a stripped list is.
-/

namespace List

variable {α : Type*} (p : α → Bool)

/-- Without the elements with `p` at both ends. -/
def strip (s : List α) : List α := (s.dropWhile p).rdropWhile p

theorem strip_infix (s : List α) : s.strip p <:+: s := by
  have hleft : s.strip p <+: s.dropWhile p := rdropWhile_prefix p _
  exact hleft.isInfix.trans (dropWhile_suffix p).isInfix

theorem strip_cons_of_pos {a : α} (h : p a = true) (s : List α) :
    (a :: s).strip p = s.strip p := by
  rw [strip, dropWhile_cons_of_pos h, strip]

theorem dropWhile_eq_self_of_head {s : List α} (h : ∀ hs : s ≠ [], p (s.head hs) = false) :
    s.dropWhile p = s := by
  cases s with
  | nil => rfl
  | cons a s => exact dropWhile_cons_of_neg (by simpa using h (cons_ne_nil a s))

theorem strip_eq_self_iff {s : List α} :
    s.strip p = s ↔
      (∀ hs : s ≠ [], p (s.head hs) = false) ∧ ∀ hs : s ≠ [], p (s.getLast hs) = false := by
  constructor
  · intro h
    have hle : s.length ≤ (s.dropWhile p).length := by
      conv_lhs => rw [← h]
      exact IsPrefix.length_le <| rdropWhile_prefix p _
    have hdrop : s.dropWhile p = s := (dropWhile_suffix p).eq_of_length_le hle
    rw [strip, hdrop, rdropWhile_eq_self_iff] at h
    refine ⟨fun hs => ?_, fun hs => by simpa using h hs⟩
    have hhead := head_dropWhile_not p (l := s) (by rwa [hdrop])
    simpa only [hdrop] using hhead
  · rintro ⟨hfirst, hlast⟩
    rw [strip, dropWhile_eq_self_of_head p hfirst, rdropWhile_eq_self_iff]
    exact fun hs => by simpa using hlast hs

theorem strip_eq_of_forall {s : List α} (h : ∀ a ∈ s, p a = false) : s.strip p = s :=
  (strip_eq_self_iff p).2 ⟨fun hs => h _ (head_mem hs), fun hs => h _ (getLast_mem hs)⟩

theorem strip_strip (s : List α) : (s.strip p).strip p = s.strip p := by
  have hdrop : (s.strip p).dropWhile p = s.strip p := by
    refine dropWhile_eq_self_of_head p fun hs => ?_
    -- The first element is the first that `dropWhile` has left.
    have hleft : s.strip p <+: s.dropWhile p := rdropWhile_prefix p _
    have hne : s.dropWhile p ≠ [] := fun hnil => hs (prefix_nil.1 (hnil ▸ hleft))
    rw [hleft.head hs]
    exact head_dropWhile_not p hne
  rw [strip, hdrop, strip, rdropWhile_idempotent]

end List
