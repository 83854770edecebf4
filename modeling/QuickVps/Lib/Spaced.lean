import Mathlib.Algebra.Order.Group.Unbundled.Abs
import Mathlib.Data.Finset.Card
import Mathlib.Data.Int.Interval
import Mathlib.Order.Interval.Finset.Nat
import Mathlib.Tactic.Linarith

/-!
# Times that keep a distance

`Spaced d times` — any two of the times are at least `d` apart, in whatever order they come. Few of
them fit into a window (`Spaced.length_le`).
-/

/-- Any two of the times are at least `d` apart. -/
def Spaced (d : Int) (times : List Int) : Prop := times.Pairwise fun t t' => d ≤ |t - t'|

namespace Spaced

variable {d a b : Int} {times : List Int}

theorem filter (h : Spaced d times) (p : Int → Bool) : Spaced d (times.filter p) :=
  List.Pairwise.filter p h

/-- Two of the times lie in different slots of length `d`. -/
theorem nodup_slots (hd : 0 < d) (h : Spaced d times) : (times.map fun t => (t - a) / d).Nodup := by
  rw [List.Nodup, List.pairwise_map]
  refine h.imp fun {t t'} hfar hslot => ?_
  have ht := Int.mul_ediv_add_emod (t - a) d
  have ht' := Int.mul_ediv_add_emod (t' - a) d
  have hpos := Int.emod_nonneg (t - a) hd.ne'
  have hpos' := Int.emod_nonneg (t' - a) hd.ne'
  have hlt := Int.emod_lt_of_pos (t - a) hd
  have hlt' := Int.emod_lt_of_pos (t' - a) hd
  rw [hslot] at ht
  rcases le_abs.1 hfar with hle | hle <;> linarith

/-- **At most one time in each slot of a window.** -/
theorem length_le (hd : 0 < d) (hab : a ≤ b) (h : Spaced d times)
    (hin : ∀ t ∈ times, a ≤ t ∧ t ≤ b) : (times.length : Int) ≤ (b - a) / d + 1 := by
  have hslots : (times.map fun t => (t - a) / d).toFinset ⊆ Finset.Icc 0 ((b - a) / d) := by
    intro n hn
    rw [List.mem_toFinset, List.mem_map] at hn
    obtain ⟨t, ht, rfl⟩ := hn
    obtain ⟨hlo, hhi⟩ := hin t ht
    rw [Finset.mem_Icc]
    exact ⟨Int.ediv_nonneg (by omega) hd.le, Int.ediv_le_ediv hd (by omega)⟩
  have hcard := Finset.card_le_card hslots
  rw [List.toFinset_card_of_nodup (nodup_slots hd h), List.length_map, Int.card_Icc] at hcard
  have hnonneg : 0 ≤ (b - a) / d := Int.ediv_nonneg (by omega) hd.le
  omega

end Spaced
