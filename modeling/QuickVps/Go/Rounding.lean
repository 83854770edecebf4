import Mathlib.Algebra.Order.Field.Power
import Mathlib.Data.Rat.Floor
import Mathlib.Tactic.Linarith
import Mathlib.Tactic.Positivity
import Mathlib.Tactic.Ring
import Mathlib.Tactic.FieldSimp
import QuickVps.Go.Format

/-!
# Rounding to `float64`

What is used of the nearest `float64` besides its definition.

* `roundHalfEven_error` — the nearest natural number is at most one half away;
* `roundFloat64_eq` — a positive number is scaled to 53 binary digits, rounded, and scaled back;
* `roundFloat64_mul_pow`, `roundFloat64_natCast` — what has at most 53 binary digits is exact;
* `roundFloat64_mono`, `roundFloat64_error` — the order is kept, and the relative error is at most
  2^-53;
* `roundDouble`, `nearestFloat64` — the same with the range of the exponent: numbers too small keep
  an absolute error of 2^-1075, and from `overflow` on they round to infinity.
-/

namespace Go

/-! ## The nearest natural number -/

theorem roundHalfEven_error {q : ℚ} (hq : 0 ≤ q) : |(roundHalfEven q : ℚ) - q| ≤ 1 / 2 := by
  have hfloor : ((q.floor.toNat : ℕ) : ℚ) = (q.floor : ℤ) := by
    have hnonneg : 0 ≤ q.floor := Rat.le_floor_iff.2 (by simpa using hq)
    exact_mod_cast Int.toNat_of_nonneg hnonneg
  have hle : (q.floor : ℚ) ≤ q := Rat.floor_le q
  have hlt : q < q.floor + 1 := by exact_mod_cast Rat.lt_floor_add_one q
  rw [abs_le]
  unfold roundHalfEven
  simp only [hfloor]
  split_ifs <;> push_cast [hfloor] <;> constructor <;> linarith

/-- The nearest multiple of a distance. -/
theorem roundHalfEven_scaled_error {q scale : ℚ} (hq : 0 ≤ q) (hscale : 0 < scale) :
    |roundHalfEven (q / scale) * scale - q| ≤ scale / 2 := by
  have herror := roundHalfEven_error (div_nonneg hq hscale.le)
  have hfactor : roundHalfEven (q / scale) * scale - q =
      (roundHalfEven (q / scale) - q / scale) * scale := by
    rw [sub_mul, div_mul_cancel₀ _ hscale.ne']
  calc |roundHalfEven (q / scale) * scale - q|
      = |(roundHalfEven (q / scale) : ℚ) - q / scale| * scale := by
        rw [hfactor, abs_mul, abs_of_pos hscale]
    _ ≤ 1 / 2 * scale := by gcongr
    _ = scale / 2 := by ring

theorem roundHalfEven_natCast (n : ℕ) : roundHalfEven (n : ℚ) = n := by
  have herror := abs_le.1 (roundHalfEven_error (Nat.cast_nonneg n))
  have hlt : (roundHalfEven (n : ℚ) : ℚ) < n + 1 := by linarith
  have hgt : (n : ℚ) < roundHalfEven (n : ℚ) + 1 := by linarith
  norm_cast at hlt hgt
  omega

theorem roundHalfEven_mono {q q' : ℚ} (hq : 0 ≤ q) (h : q ≤ q') :
    roundHalfEven q ≤ roundHalfEven q' := by
  rcases h.eq_or_lt with rfl | hlt
  · exact le_rfl
  · by_contra hgt
    have herror := abs_le.1 (roundHalfEven_error hq)
    have herror' := abs_le.1 (roundHalfEven_error (hq.trans h))
    have hstep : (roundHalfEven q' : ℚ) + 1 ≤ roundHalfEven q := by
      exact_mod_cast not_le.1 hgt
    linarith

/-! ## Scaling -/

/-- The binary logarithms of numerator and denominator give that of a quotient, up to one. -/
theorem log2_bounds {q : ℚ} (hq : 0 < q) :
    let e : ℤ := Nat.log2 q.num.natAbs - Nat.log2 q.den
    (2 : ℚ) ^ (e - 1) < q ∧ q < 2 ^ (e + 1) := by
  intro e
  have hden : (0 : ℚ) < q.den := by exact_mod_cast q.den_pos
  have hnum : q * q.den = (q.num.natAbs : ℚ) := by
    rw [Rat.mul_den_eq_num, ← Int.cast_natCast, Int.natAbs_of_nonneg (Rat.num_nonneg.2 hq.le)]
  have hne : q.num.natAbs ≠ 0 := Int.natAbs_ne_zero.2 (Rat.num_ne_zero.2 hq.ne')
  have hnum_lo : (2 : ℚ) ^ (Nat.log2 q.num.natAbs : ℤ) ≤ q.num.natAbs := by
    exact_mod_cast Nat.log2_self_le hne
  have hnum_hi : (q.num.natAbs : ℚ) < 2 ^ ((Nat.log2 q.num.natAbs : ℤ) + 1) := by
    exact_mod_cast Nat.lt_log2_self (n := q.num.natAbs)
  have hden_lo : (2 : ℚ) ^ (Nat.log2 q.den : ℤ) ≤ q.den := by
    exact_mod_cast Nat.log2_self_le q.den_nz
  have hden_hi : (q.den : ℚ) < 2 ^ ((Nat.log2 q.den : ℤ) + 1) := by
    exact_mod_cast Nat.lt_log2_self (n := q.den)
  constructor
  · refine lt_of_mul_lt_mul_right ?_ hden.le
    calc (2 : ℚ) ^ (e - 1) * q.den
        < 2 ^ (e - 1) * 2 ^ ((Nat.log2 q.den : ℤ) + 1) := by gcongr
      _ = 2 ^ (Nat.log2 q.num.natAbs : ℤ) := by
        rw [← zpow_add₀ two_ne_zero]
        congr 1
        omega
      _ ≤ q * q.den := hnum_lo.trans_eq hnum.symm
  · refine lt_of_mul_lt_mul_right ?_ hden.le
    calc q * q.den
        < 2 ^ ((Nat.log2 q.num.natAbs : ℤ) + 1) := hnum.trans_lt hnum_hi
      _ = 2 ^ (e + 1) * 2 ^ (Nat.log2 q.den : ℤ) := by
        rw [← zpow_add₀ two_ne_zero]
        congr 1
        omega
      _ ≤ 2 ^ (e + 1) * q.den := by gcongr

/-- A positive number lies between two powers of two, and is rounded at the distance of `float64`s
there. -/
theorem roundFloat64_eq {q : ℚ} (hq : 0 < q) :
    ∃ e : ℤ, (2 : ℚ) ^ e ≤ q ∧ q < 2 ^ (e + 1) ∧
      roundFloat64 q = roundHalfEven (q / 2 ^ (e - 52)) * 2 ^ (e - 52) := by
  obtain ⟨hlo, hhi⟩ := log2_bounds hq
  unfold roundFloat64
  simp only [if_neg hq.ne']
  split_ifs with hle
  · exact ⟨_, hle, hhi, rfl⟩
  · refine ⟨_, hlo.le, ?_, rfl⟩
    rw [sub_add_cancel]
    exact not_le.1 hle

/-- A power of two in the scale of another. -/
theorem pow_mul_scale {n : ℕ} {e e' : ℤ} (h : e' = e - 52 + n) :
    ((2 ^ n : ℕ) : ℚ) * 2 ^ (e - 52) = 2 ^ e' := by
  rw [Nat.cast_pow, Nat.cast_ofNat, ← zpow_natCast, ← zpow_add₀ two_ne_zero, h, add_comm]

theorem roundFloat64_zero : roundFloat64 0 = 0 := by simp [roundFloat64]

/-- **What has at most 53 binary digits is exact.** -/
theorem roundFloat64_mul_pow {n : ℕ} (h : n < 2 ^ 53) (e : ℤ) :
    roundFloat64 (n * 2 ^ e) = n * 2 ^ e := by
  rcases n.eq_zero_or_pos with rfl | hpos
  · rw [Nat.cast_zero, zero_mul, roundFloat64_zero]
  · have hscale : (0 : ℚ) < 2 ^ e := by positivity
    have hq : (0 : ℚ) < n * 2 ^ e := by positivity
    obtain ⟨e', hlo, hhi, heq⟩ := roundFloat64_eq hq
    have he : e' < 53 + e := by
      refine (zpow_lt_zpow_iff_right₀ one_lt_two).1 (hlo.trans_lt ?_)
      rw [zpow_add₀ two_ne_zero]
      exact mul_lt_mul_of_pos_right (by exact_mod_cast h) hscale
    -- a multiple of the distance
    obtain ⟨k, hk⟩ := Int.eq_ofNat_of_zero_le (show 0 ≤ e - (e' - 52) by omega)
    have hpow : (2 : ℚ) ^ e = ((2 ^ k : ℕ) : ℚ) * 2 ^ (e' - 52) := by
      rw [Nat.cast_pow, Nat.cast_ofNat, ← zpow_natCast, ← zpow_add₀ two_ne_zero]
      congr 1
      omega
    have hne : (2 : ℚ) ^ (e' - 52) ≠ 0 := by positivity
    have hmultiple : (n * 2 ^ e : ℚ) / 2 ^ (e' - 52) = ((n * 2 ^ k : ℕ) : ℚ) := by
      rw [hpow, ← mul_assoc, mul_div_cancel_right₀ _ hne, Nat.cast_mul]
    rw [heq, hmultiple, roundHalfEven_natCast, Nat.cast_mul, mul_assoc, ← hpow]

/-- **Small integers are exact.** -/
theorem roundFloat64_natCast {n : ℕ} (h : n < 2 ^ 53) : roundFloat64 (n : ℚ) = n := by
  simpa using roundFloat64_mul_pow h 0

theorem roundFloat64_nonneg {q : ℚ} (hq : 0 ≤ q) : 0 ≤ roundFloat64 q := by
  rcases hq.eq_or_lt with rfl | hpos
  · exact roundFloat64_zero.ge
  · obtain ⟨e, -, -, heq⟩ := roundFloat64_eq hpos
    rw [heq]
    positivity

/-- **The order is kept.** -/
theorem roundFloat64_mono {q q' : ℚ} (hq : 0 ≤ q) (h : q ≤ q') :
    roundFloat64 q ≤ roundFloat64 q' := by
  rcases hq.eq_or_lt with rfl | hpos
  · exact roundFloat64_zero.trans_le (roundFloat64_nonneg h)
  obtain ⟨e, hlo, hhi, heq⟩ := roundFloat64_eq hpos
  obtain ⟨e', hlo', hhi', heq'⟩ := roundFloat64_eq (hpos.trans_le h)
  have hscale : ∀ e : ℤ, (0 : ℚ) < 2 ^ (e - 52) := fun e => by positivity
  have hle : e < e' + 1 := (zpow_lt_zpow_iff_right₀ one_lt_two).1 (hlo.trans_lt (h.trans_lt hhi'))
  rw [heq, heq']
  rcases (Int.lt_add_one_iff.1 hle).eq_or_lt with rfl | hlt
  · -- at the same distance
    gcongr
    exact roundHalfEven_mono (by positivity) (by gcongr)
  · -- the power of two between them is a `float64`
    have hfull : roundHalfEven (q / 2 ^ (e - 52)) ≤ 2 ^ 53 := by
      have hq53 : q / 2 ^ (e - 52) ≤ ((2 ^ 53 : ℕ) : ℚ) := by
        rw [div_le_iff₀ (hscale e), pow_mul_scale (show e + 1 = e - 52 + (53 : ℕ) by omega)]
        exact hhi.le
      exact (roundHalfEven_mono (by positivity) hq53).trans_eq (roundHalfEven_natCast _)
    have hstart : 2 ^ 52 ≤ roundHalfEven (q' / 2 ^ (e' - 52)) := by
      have hq52 : ((2 ^ 52 : ℕ) : ℚ) ≤ q' / 2 ^ (e' - 52) := by
        rw [le_div_iff₀ (hscale e'), pow_mul_scale (show e' = e' - 52 + (52 : ℕ) by omega)]
        exact hlo'
      exact (roundHalfEven_natCast _).symm.trans_le (roundHalfEven_mono (by positivity) hq52)
    calc (roundHalfEven (q / 2 ^ (e - 52)) : ℚ) * 2 ^ (e - 52)
        ≤ ((2 ^ 53 : ℕ) : ℚ) * 2 ^ (e - 52) := by gcongr
      _ = 2 ^ (e + 1) := pow_mul_scale (by omega)
      _ ≤ 2 ^ e' := zpow_le_zpow_right₀ one_le_two (by omega)
      _ = ((2 ^ 52 : ℕ) : ℚ) * 2 ^ (e' - 52) := (pow_mul_scale (by omega)).symm
      _ ≤ roundHalfEven (q' / 2 ^ (e' - 52)) * 2 ^ (e' - 52) := by gcongr

/-- **The relative error.** -/
theorem roundFloat64_error {q : ℚ} (hq : 0 ≤ q) : |roundFloat64 q - q| ≤ q / 2 ^ 53 := by
  rcases hq.eq_or_lt with rfl | hpos
  · simp [roundFloat64_zero]
  obtain ⟨e, hlo, -, heq⟩ := roundFloat64_eq hpos
  have hscale : (0 : ℚ) < 2 ^ (e - 52) := by positivity
  calc |roundFloat64 q - q|
      ≤ 2 ^ (e - 52) / 2 := by
        rw [heq]
        exact roundHalfEven_scaled_error hq hscale
    _ = 2 ^ e / 2 ^ 53 := by
      rw [zpow_sub₀ two_ne_zero]
      norm_num
      ring
    _ ≤ q / 2 ^ 53 := by gcongr

/-! ## The range -/

/-- The nearest finite number to one that is not negative, of two the even one. Below `2 ^ -1022`
the numbers have the distance `2 ^ -1074`, and from `2 ^ 1024` on there are none. -/
def roundDouble (x : ℚ) : Option ℚ :=
  let y : ℚ :=
    if x < 2 ^ (-1022 : Int) then roundHalfEven (x / 2 ^ (-1074 : Int)) * 2 ^ (-1074 : Int)
    else roundFloat64 x
  if y < 2 ^ (1024 : Int) then some y else none

/-- The nearest `float64` to a number that is not negative. -/
def nearestFloat64 (x : ℚ) : Float64 := (roundDouble x).elim .posInf .num

/-- Half way from the largest `float64` to the next power of two. -/
def overflow : ℚ := 2 ^ (1024 : Int) - 2 ^ (970 : Int)

/-- Half way is rounded up, as the largest `float64` is odd. -/
theorem roundFloat64_overflow : roundFloat64 overflow = 2 ^ (1024 : Int) := by decide +kernel

/-- **From `overflow` on, and not before**, a number rounds past the range. -/
theorem roundFloat64_lt_iff {q : ℚ} (hq : 0 ≤ q) :
    roundFloat64 q < 2 ^ (1024 : Int) ↔ q < overflow := by
  constructor
  · intro h
    by_contra hle
    have hmono := roundFloat64_mono (q := overflow) (by decide +kernel) (not_lt.1 hle)
    rw [roundFloat64_overflow] at hmono
    exact absurd h (not_lt.2 hmono)
  · intro h
    rcases hq.eq_or_lt with rfl | hpos
    · rw [roundFloat64_zero]
      positivity
    obtain ⟨e, hlo, -, heq⟩ := roundFloat64_eq hpos
    have hscale : (0 : ℚ) < 2 ^ (e - 52) := by positivity
    have he : e < 1024 := by
      refine (zpow_lt_zpow_iff_right₀ one_lt_two).1 (hlo.trans_lt (h.trans ?_))
      exact sub_lt_self _ (by positivity)
    have herror := abs_le.1 (roundHalfEven_scaled_error hq hscale)
    have hhalf : (2 : ℚ) ^ (e - 52) / 2 = 2 ^ (e - 53) := by
      rw [show e - 52 = e - 53 + 1 by ring, zpow_add_one₀ two_ne_zero]
      ring
    calc roundFloat64 q
        ≤ q + 2 ^ (e - 53) := by
          rw [heq, ← hhalf]
          linarith
      _ ≤ q + 2 ^ (970 : Int) := by
        gcongr
        · exact one_le_two
        · omega
      _ < overflow + 2 ^ (970 : Int) := by gcongr
      _ = 2 ^ (1024 : Int) := sub_add_cancel _ _

theorem nearestFloat64_of_le {q : ℚ} (h : overflow ≤ q) : nearestFloat64 q = .posInf := by
  have hpos : 0 ≤ overflow := by decide +kernel
  have hnormal : ¬ q < 2 ^ (-1022 : Int) := by
    have hsmall : (2 : ℚ) ^ (-1022 : Int) ≤ overflow := by decide +kernel
    exact not_lt.2 (hsmall.trans h)
  have hround : ¬ roundFloat64 q < 2 ^ (1024 : Int) := by
    rw [roundFloat64_lt_iff (hpos.trans h)]
    exact not_lt.2 h
  unfold nearestFloat64 roundDouble
  simp only [if_neg hnormal, if_neg hround, Option.elim_none]

/-- **Up to there the error is small**: relative to a number in the normal range, absolute below. -/
theorem nearestFloat64_of_lt {q : ℚ} (hq : 0 ≤ q) (h : q < overflow) :
    ∃ r, nearestFloat64 q = .num r ∧ 0 ≤ r ∧
      |r - q| ≤ if q < 2 ^ (-1022 : Int) then 2 ^ (-1075 : Int) else q / 2 ^ 53 := by
  by_cases hsmall : q < 2 ^ (-1022 : Int)
  · have hunit : (0 : ℚ) < 2 ^ (-1074 : Int) := zpow_pos two_pos _
    have hdist : |roundHalfEven (q / 2 ^ (-1074 : Int)) * 2 ^ (-1074 : Int) - q| ≤
        2 ^ (-1075 : Int) :=
      (roundHalfEven_scaled_error hq hunit).trans_eq (by decide +kernel)
    have hlt : (roundHalfEven (q / 2 ^ (-1074 : Int)) : ℚ) * 2 ^ (-1074 : Int) <
        2 ^ (1024 : Int) := by
      have hroom : (2 : ℚ) ^ (-1022 : Int) + 2 ^ (-1075 : Int) < 2 ^ (1024 : Int) := by
        decide +kernel
      have hle := sub_le_iff_le_add'.1 (abs_le.1 hdist).2
      exact hle.trans_lt ((add_lt_add_left hsmall _).trans hroom)
    refine ⟨roundHalfEven (q / 2 ^ (-1074 : Int)) * 2 ^ (-1074 : Int), ?_,
      mul_nonneg (Nat.cast_nonneg _) hunit.le, ?_⟩
    · unfold nearestFloat64 roundDouble
      simp only [if_pos hsmall, if_pos hlt, Option.elim_some]
    · rw [if_pos hsmall]
      exact hdist
  · refine ⟨roundFloat64 q, ?_, roundFloat64_nonneg hq, ?_⟩
    · unfold nearestFloat64 roundDouble
      simp only [if_neg hsmall, if_pos ((roundFloat64_lt_iff hq).2 h), Option.elim_some]
    · rw [if_neg hsmall]
      exact roundFloat64_error hq

end Go
