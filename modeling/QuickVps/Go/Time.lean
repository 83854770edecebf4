import Mathlib.Tactic.Common
import Mathlib.Tactic.NormNum

/-!
# Instants and durations

A `time.Time` is a count of nanoseconds and a `time.Duration` an `int64` of them; both are `Int`
here. Products of durations wrap; the difference of two instants saturates at the ends of the
`int64` range.
-/

namespace Go

def minInt64 : Int := -9223372036854775808
def maxInt64 : Int := 9223372036854775807

/-- The value an `int64` holds after an operation whose exact result is `x`. -/
def wrap64 (x : Int) : Int := Int.bmod x 18446744073709551616

/-- The most whole seconds that a `time.Duration` holds, some 292 years. -/
def maxSeconds : Int := 9223372036

/-- `t.Sub(u)`: the difference, saturated. -/
def timeSub (t u : Int) : Int := max minInt64 (min maxInt64 (t - u))

/-- `time.Duration(n) * time.Second`. -/
def seconds (n : Int) : Int := wrap64 (n * 1000000000)

theorem wrap64_eq {x : Int} (hlo : minInt64 ≤ x) (hhi : x ≤ maxInt64) : wrap64 x = x := by
  simp only [minInt64, maxInt64] at hlo hhi
  exact Int.bmod_eq_of_le (by omega) (by omega)

theorem seconds_eq {n : Int} (hlo : 0 ≤ n) (hhi : n * 1000000000 ≤ maxInt64) :
    seconds n = n * 1000000000 :=
  wrap64_eq (by simp only [minInt64]; omega) hhi

theorem wrap64_le (x : Int) : wrap64 x ≤ maxInt64 := by
  have h : wrap64 x < (18446744073709551616 + 1) / 2 := Int.bmod_lt (by decide)
  simp only [maxInt64]
  omega

theorem le_maxSeconds_iff {n : Int} : n ≤ maxSeconds ↔ n * 1000000000 ≤ maxInt64 := by
  simp only [maxSeconds, maxInt64]
  omega

/-- Above that, a count of seconds does not survive the product. -/
theorem seconds_lt {n : Int} (h : maxSeconds < n) : seconds n < n * 1000000000 := by
  have hle := wrap64_le (n * 1000000000)
  have hlt : maxInt64 < n * 1000000000 := not_le.1 (mt le_maxSeconds_iff.2 (not_le.2 h))
  exact hle.trans_lt hlt

/-- Saturation does not change a comparison with a duration in range. -/
theorem le_timeSub_iff {t u d : Int} (hlo : 0 ≤ d) (hhi : d ≤ maxInt64) :
    d ≤ timeSub t u ↔ d ≤ t - u := by
  simp only [timeSub, minInt64, maxInt64] at *
  omega

/-- **The comparison of an elapsed time with a count of seconds is exact for the counts that a
duration holds, and for no others.** -/
theorem seconds_exact_iff {n : Int} (hn : 0 ≤ n) :
    (∀ t u : Int, u ≤ t → (seconds n ≤ timeSub t u ↔ n * 1000000000 ≤ t - u)) ↔
      n ≤ maxSeconds := by
  refine ⟨fun h => ?_, fun h t u _ => ?_⟩
  · by_contra hlarge
    rw [not_le] at hlarge
    have hlt := seconds_lt hlarge
    -- the instants as far apart as the wrapped duration says
    have hexact := h (max 0 (seconds n)) 0 (le_max_left _ _)
    have hsub : seconds n ≤ timeSub (max 0 (seconds n)) 0 := by
      have hle : seconds n ≤ maxInt64 := wrap64_le _
      simp only [timeSub, minInt64, maxInt64] at hle ⊢
      omega
    have := hexact.1 hsub
    simp only [maxSeconds] at hlarge
    omega
  · rw [le_maxSeconds_iff] at h
    rw [seconds_eq hn h]
    exact le_timeSub_iff (by omega) h

end Go
