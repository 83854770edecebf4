import Mathlib.Data.Rat.Defs
import Mathlib.Algebra.Order.Ring.Unbundled.Rat

/-!
# Comparing a `float64` with a number

A `float64` is a number, an infinity or NaN. Besides its value only comparisons with a finite number
are needed: a comparison with NaN is false.
-/

namespace Go

inductive Float64 where
  | nan
  | negInf
  | num (q : ℚ)
  | posInf
  deriving DecidableEq

namespace Float64

/-- The number, 0 where there is none. -/
def value : Float64 → ℚ
  | num x => x
  | _ => 0

/-- `x >= q`. -/
def ge : Float64 → ℚ → Bool
  | nan, _ => false
  | negInf, _ => false
  | num x, q => q ≤ x
  | posInf, _ => true

/-- `x < q`. -/
def lt : Float64 → ℚ → Bool
  | nan, _ => false
  | negInf, _ => true
  | num x, q => x < q
  | posInf, _ => false

theorem ge_mono {x : Float64} {p q : ℚ} (hpq : p ≤ q) (h : x.ge q = true) : x.ge p = true := by
  cases x with
  | num x =>
    simp only [ge, decide_eq_true_eq] at h ⊢
    exact hpq.trans h
  | posInf => rfl
  | nan => cases h
  | negInf => cases h

theorem ge_eq_false_of_lt {x : Float64} {q : ℚ} (h : x.lt q = true) : x.ge q = false := by
  cases x with
  | num x => simpa [ge, lt] using h
  | negInf => rfl
  | nan => cases h
  | posInf => cases h

theorem lt_eq_false_of_ge {x : Float64} {p q : ℚ} (hpq : p ≤ q) (h : x.ge q = true) :
    x.lt p = false := by
  by_contra hne
  have hlt : x.lt p = true := by simpa using hne
  exact absurd (ge_mono hpq h) (by rw [ge_eq_false_of_lt hlt]; simp)

theorem ge_eq_false_mono {x : Float64} {p q : ℚ} (hpq : p ≤ q) (h : x.ge p = false) :
    x.ge q = false := by
  by_contra hne
  rw [ge_mono hpq (by simpa using hne)] at h
  cases h

/-- At or above one number and not another: the first comparison rules out NaN. -/
theorem lt_of_ge_of_not_ge {x : Float64} {p q : ℚ} (hp : x.ge p = true) (hq : x.ge q = false) :
    x.lt q = true := by
  cases x with
  | num x => simpa [ge, lt] using hq
  | nan => cases hp
  | negInf => cases hp
  | posInf => cases hq

end Float64

end Go
