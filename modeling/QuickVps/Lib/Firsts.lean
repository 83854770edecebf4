import Mathlib.Data.List.Induction
import Mathlib.Tactic.Common

/-!
# First occurrences

`List.eraseDupsBy` keeps the first of the elements that a relation takes for the same. Here the
relation is equality of a key.

* `eraseDupsBy_concat` — a last element stays exactly if its key is new;
* `eraseDupsBy_sublist`, `any_eraseDupsBy`, `pairwise_eraseDupsBy` — nothing is added, no key is
  lost, and none is there twice;
* `mem_eraseDupsBy_iff` — an element stays if it is somewhere the first one of its key;
* `eraseDupsBy_congr` — keys that tell the same elements apart keep the same ones.
-/

namespace Firsts

variable {α κ : Type*} [DecidableEq κ] (key : α → κ)

/-- The elements have one key. -/
def same (x y : α) : Bool := key x = key y

theorem eraseDupsBy_concat (xs : List α) (x : α) :
    (xs ++ [x]).eraseDupsBy (same key) =
      xs.eraseDupsBy (same key) ++ if xs.any (same key x) then [] else [x] := by
  induction hn : xs.length using Nat.strongRecOn generalizing xs with
  | _ n ih =>
    cases xs with
    | nil => rfl
    | cons a as =>
      have hlen : (as.filter fun b => same key b a = false).length < n := by
        rw [← hn, List.length_cons]
        exact Nat.lt_succ_of_le (List.length_filter_le _ _)
      rw [List.cons_append, List.eraseDupsBy_cons, List.eraseDupsBy_cons, List.filter_append,
        List.any_cons, List.cons_append]
      by_cases hx : key x = key a
      · have hsame : same key x a = true := decide_eq_true hx
        simp [hsame]
      · have hsame : same key x a = false := decide_eq_false hx
        -- What has the key of `x` has not that of `a`.
        have hany : (as.filter fun b => same key b a = false).any (same key x) =
            as.any (same key x) := by
          rw [List.any_filter]
          refine congrArg (List.any as) (funext fun b => ?_)
          by_cases hb : key x = key b
          · have hba : same key b a = false := decide_eq_false (hb ▸ hx)
            simp [hba]
          · simp [same, hb]
        have hrest := ih _ hlen _ rfl
        rw [hany] at hrest
        simpa [hsame] using hrest

theorem eraseDupsBy_sublist (xs : List α) : (xs.eraseDupsBy (same key)).Sublist xs := by
  induction xs using List.reverseRecOn with
  | nil => exact List.Sublist.slnil
  | append_singleton xs x ih =>
    rw [eraseDupsBy_concat]
    split
    next =>
      rw [List.append_nil]
      exact ih.trans (List.sublist_append_left xs [x])
    next => exact ih.append (List.Sublist.refl [x])

/-- No key is lost. -/
theorem any_eraseDupsBy (xs : List α) (x : α) :
    (xs.eraseDupsBy (same key)).any (same key x) = xs.any (same key x) := by
  induction xs using List.reverseRecOn with
  | nil => rfl
  | append_singleton xs y ih =>
    rw [eraseDupsBy_concat, List.any_append, List.any_append, ih]
    split
    next hany =>
      obtain ⟨z, hz, hyz⟩ := List.any_eq_true.1 hany
      have hkey : key y = key z := of_decide_eq_true hyz
      by_cases hxy : key x = key y
      · have hold : xs.any (same key x) = true :=
          List.any_eq_true.2 ⟨z, hz, decide_eq_true (hxy.trans hkey)⟩
        simp [hold]
      · simp [same, hxy]
    next => rfl

/-- No key is there twice. -/
theorem pairwise_eraseDupsBy (xs : List α) :
    (xs.eraseDupsBy (same key)).Pairwise fun x y => key x ≠ key y := by
  induction xs using List.reverseRecOn with
  | nil => exact List.Pairwise.nil
  | append_singleton xs y ih =>
    rw [eraseDupsBy_concat]
    split
    next => rwa [List.append_nil]
    next hnew =>
      refine List.pairwise_append.2 ⟨ih, List.pairwise_singleton _ _, fun x hx z hz => ?_⟩
      rw [List.mem_singleton.1 hz]
      intro hkey
      refine hnew ?_
      rw [← any_eraseDupsBy]
      exact List.any_eq_true.2 ⟨x, hx, decide_eq_true hkey.symm⟩

theorem mem_eraseDupsBy_iff {xs : List α} {x : α} :
    x ∈ xs.eraseDupsBy (same key) ↔
      ∃ before after, xs = before ++ x :: after ∧ key x ∉ before.map key := by
  induction xs using List.reverseRecOn with
  | nil => simp [List.eraseDupsBy, List.eraseDupsBy.loop]
  | append_singleton xs y ih =>
    have hany : xs.any (same key y) = true ↔ key y ∈ xs.map key := by
      simp only [List.any_eq_true, List.mem_map, same, decide_eq_true_eq]
      exact exists_congr fun z => and_congr_right fun _ => eq_comm
    rw [eraseDupsBy_concat, List.mem_append, ih]
    constructor
    · intro h
      rcases h with ⟨before, after, rfl, hnew⟩ | hlast
      · exact ⟨before, after ++ [y], by simp, hnew⟩
      · by_cases hy : xs.any (same key y) = true
        · rw [if_pos hy] at hlast
          cases hlast
        · rw [if_neg hy, List.mem_singleton] at hlast
          subst hlast
          exact ⟨xs, [], rfl, fun hmem => hy (hany.2 hmem)⟩
    · intro h
      obtain ⟨before, after, heq, hnew⟩ := h
      rcases List.eq_nil_or_concat after with rfl | ⟨after, z, rfl⟩
      · obtain ⟨rfl, hlast⟩ := List.append_inj' heq rfl
        obtain rfl : y = x := (List.cons.inj hlast).1
        refine Or.inr ?_
        rw [if_neg fun hy => hnew (hany.1 hy)]
        exact List.mem_singleton_self y
      · have hsplit : xs ++ [y] = (before ++ x :: after) ++ [z] := by simpa using heq
        exact Or.inl ⟨before, after, (List.append_inj' hsplit rfl).1, hnew⟩

theorem eraseDupsBy_congr {μ : Type*} [DecidableEq μ] {key : α → κ} {key' : α → μ} {xs : List α}
    (h : ∀ x ∈ xs, ∀ y ∈ xs, key x = key y ↔ key' x = key' y) :
    xs.eraseDupsBy (same key) = xs.eraseDupsBy (same key') := by
  induction xs using List.reverseRecOn with
  | nil => rfl
  | append_singleton xs x ih =>
    have hold : ∀ y ∈ xs, y ∈ xs ++ [x] := fun y hy => List.mem_append_left _ hy
    have hany : xs.any (same key x) = xs.any (same key' x) := by
      rw [Bool.eq_iff_iff, List.any_eq_true, List.any_eq_true]
      refine exists_congr fun y => and_congr_right fun hy => ?_
      simpa [same] using h x (List.mem_append_right _ List.mem_cons_self) y (hold y hy)
    rw [eraseDupsBy_concat, eraseDupsBy_concat, hany,
      ih fun y hy z hz => h y (hold y hy) z (hold z hz)]

end Firsts
