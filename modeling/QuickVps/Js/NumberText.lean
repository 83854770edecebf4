import QuickVps.Go.Rounding
import QuickVps.Js.Numbers
import Mathlib.Data.Nat.Prime.Basic

/-!
# Texts as numbers

`Number(s)` of a text: the empty text is 0, `0x`, `0o` and `0b` begin whole numbers in other bases,
and everything else is a decimal literal with a sign, a fraction and an exponent, or no number. The
value is rounded to the nearest number there is.

* `roundDouble_of_isDouble` — rounding keeps the numbers there are;
* `toNumber` — `Number(s)`, nothing where it is not finite;
* `decimalString`, `decimalNumbers` — exact decimal texts, which are read back.
-/

namespace Js

open Go

/-! ## Rounding -/

/-- A finite number that is not negative has a significand that is not. -/
theorem exists_natCast_mul_pow {x : ℚ} (hdouble : IsDouble x) (hx : 0 ≤ x) :
    ∃ (n : ℕ) (e : Int), n < 2 ^ 53 ∧ -1074 ≤ e ∧ e ≤ 971 ∧ x = n * 2 ^ e := by
  obtain ⟨m, e, hm, hlo, hhi, rfl⟩ := hdouble
  have hscale : (0 : ℚ) < 2 ^ e := by positivity
  have hnonneg : 0 ≤ m := by
    have := nonneg_of_mul_nonneg_left hx hscale
    exact_mod_cast this
  obtain ⟨n, rfl⟩ := Int.eq_ofNat_of_zero_le hnonneg
  exact ⟨n, e, by simpa using hm, hlo, hhi, by simp⟩

theorem roundDouble_of_isDouble {x : ℚ} (hdouble : IsDouble x) (hx : 0 ≤ x) :
    roundDouble x = some x := by
  obtain ⟨n, e, hn, hlo, hhi, rfl⟩ := exists_natCast_mul_pow hdouble hx
  have hlt : (n * 2 ^ e : ℚ) < 2 ^ (1024 : Int) := by
    have hscale : (0 : ℚ) < 2 ^ e := by positivity
    calc (n * 2 ^ e : ℚ) < 2 ^ (53 : Int) * 2 ^ e :=
          mul_lt_mul_of_pos_right (by exact_mod_cast hn) hscale
      _ ≤ 2 ^ (53 : Int) * 2 ^ (971 : Int) := by
          gcongr
          · exact one_le_two
      _ = 2 ^ (1024 : Int) := by
          rw [← zpow_add₀ two_ne_zero]
          rfl
  have hvalue : (if (n * 2 ^ e : ℚ) < 2 ^ (-1022 : Int)
      then (roundHalfEven (n * 2 ^ e / 2 ^ (-1074 : Int)) : ℚ) * 2 ^ (-1074 : Int)
      else roundFloat64 (n * 2 ^ e)) = n * 2 ^ e := by
    split
    next =>
      obtain ⟨k, hk⟩ := Int.eq_ofNat_of_zero_le (show 0 ≤ e + 1074 by omega)
      have hpow : (2 : ℚ) ^ e = ((2 ^ k : ℕ) : ℚ) * 2 ^ (-1074 : Int) := by
        rw [Nat.cast_pow, Nat.cast_ofNat, ← zpow_natCast, ← zpow_add₀ two_ne_zero]
        congr 1
        omega
      have hne : (2 : ℚ) ^ (-1074 : Int) ≠ 0 := by positivity
      have hmultiple : (n * 2 ^ e : ℚ) / 2 ^ (-1074 : Int) = ((n * 2 ^ k : ℕ) : ℚ) := by
        rw [hpow, ← mul_assoc, mul_div_cancel_right₀ _ hne, Nat.cast_mul]
      rw [hmultiple, roundHalfEven_natCast, Nat.cast_mul, mul_assoc, ← hpow]
    next => exact roundFloat64_mul_pow hn e
  unfold roundDouble
  simp only [hvalue, if_pos hlt]

/-! ## Literals -/

/-- The value of a digit, if it is one in the base. -/
def digitValue (base : Nat) (c : Char) : Option Nat :=
  let d := if c.isDigit then c.toNat - '0'.toNat
    else if 'a' ≤ c ∧ c ≤ 'f' then c.toNat - 'a'.toNat + 10
    else if 'A' ≤ c ∧ c ≤ 'F' then c.toNat - 'A'.toNat + 10
    else base
  if d < base then some d else none

/-- The base that follows a leading zero. -/
def radix (c : Char) : Option Nat :=
  if c = 'x' ∨ c = 'X' then some 16
  else if c = 'o' ∨ c = 'O' then some 8
  else if c = 'b' ∨ c = 'B' then some 2
  else none

/-- A whole number in a base, with at least one digit. -/
def radixValue (base : Nat) (digits : List Char) : Option ℚ :=
  if digits = [] then none
  else (digits.mapM (digitValue base)).map fun ds => (ds.foldl (fun n d => base * n + d) 0 : Nat)

/-- Digits with at most one point among them, or at one end. -/
def mantissaValue (s : List Char) : Option ℚ :=
  let whole := s.takeWhile fun c => c ≠ '.'
  let fraction := (s.dropWhile fun c => c ≠ '.').drop 1
  (natLiteral (whole ++ fraction)).map fun n : Nat => (n : ℚ) / 10 ^ fraction.length

/-- The exponent, from its letter on. -/
def exponentValue : List Char → Option Int
  | [] => some 0
  | _ :: '-' :: digits => (natLiteral digits).map fun n => -(n : Int)
  | _ :: '+' :: digits => (natLiteral digits).map Int.ofNat
  | _ :: digits => (natLiteral digits).map Int.ofNat

def isExponentLetter (c : Char) : Bool := c = 'e' || c = 'E'

/-- A decimal literal without a sign. `Infinity` is none, as it is not finite. -/
def decimalValue (s : List Char) : Option ℚ := do
  let m ← mantissaValue (s.takeWhile fun c => !isExponentLetter c)
  let e ← exponentValue (s.dropWhile fun c => !isExponentLetter c)
  return m * 10 ^ e

/-- A decimal literal with or without a sign, rounded. -/
def signedNumber : List Char → Option ℚ
  | '-' :: s => ((decimalValue s).bind roundDouble).map fun x => -x
  | '+' :: s => (decimalValue s).bind roundDouble
  | s => (decimalValue s).bind roundDouble

def stringToNumber : List Char → Option ℚ
  | [] => some 0
  | '0' :: c :: digits =>
    match radix c with
    | some base => (radixValue base digits).bind roundDouble
    | none => signedNumber ('0' :: c :: digits)
  | s => signedNumber s

/-- `Number(s)`. -/
def toNumber (s : String) : Option ℚ := stringToNumber (trimSpace s.toList)

theorem toNumber_empty : toNumber "" = some 0 := rfl

/-! ## Decimal texts -/

/-- A text without a letter of a base is read as a decimal literal. -/
theorem stringToNumber_eq {s : List Char} (hne : s ≠ []) (h : ∀ c ∈ s, radix c = none) :
    stringToNumber s = signedNumber s := by
  unfold stringToNumber
  split
  next => exact absurd rfl hne
  next c digits =>
    have hc : radix c = none := h c (List.mem_cons_of_mem _ List.mem_cons_self)
    rw [hc]
  next => rfl

theorem decimalValue_toDigits (n : Nat) {tail : List Char} {e : Int}
    (htail : tail = [] ∨ ∃ rest, tail = 'e' :: rest) (he : exponentValue tail = some e) :
    decimalValue (Nat.toDigits 10 n ++ tail) = some ((n : ℚ) * 10 ^ e) := by
  have hdigits : ∀ c ∈ Nat.toDigits 10 n, (!isExponentLetter c) = true := by
    intro c hc
    have hdigit := isDigit_of_mem_toDigits hc
    have hlower : c ≠ 'e' := fun heq => by simp [heq] at hdigit
    have hupper : c ≠ 'E' := fun heq => by simp [heq] at hdigit
    simp [isExponentLetter, hlower, hupper]
  have hfront : ((Nat.toDigits 10 n ++ tail).takeWhile fun c => !isExponentLetter c) =
      Nat.toDigits 10 n := by
    rw [List.takeWhile_append_of_pos hdigits]
    rcases htail with rfl | ⟨rest, rfl⟩
    · exact List.append_nil _
    · rw [List.takeWhile_cons_of_neg (by decide), List.append_nil]
  have hback : ((Nat.toDigits 10 n ++ tail).dropWhile fun c => !isExponentLetter c) = tail := by
    rw [List.dropWhile_append_of_pos hdigits]
    rcases htail with rfl | ⟨rest, rfl⟩
    · rfl
    · exact List.dropWhile_cons_of_neg (by decide)
  have hpoint : ∀ c ∈ Nat.toDigits 10 n, decide (c ≠ '.') = true := by
    intro c hc
    have hdigit := isDigit_of_mem_toDigits hc
    exact decide_eq_true fun heq => by simp [heq] at hdigit
  have hwhole : ((Nat.toDigits 10 n).takeWhile fun c => c ≠ '.') = Nat.toDigits 10 n :=
    List.takeWhile_eq_self_iff.2 hpoint
  have hfraction : ((Nat.toDigits 10 n).dropWhile fun c => c ≠ '.') = [] :=
    List.dropWhile_eq_nil_iff.2 hpoint
  have hmantissa : mantissaValue (Nat.toDigits 10 n) = some (n : ℚ) := by
    unfold mantissaValue
    simp only [hwhole, hfraction, List.drop_nil, List.append_nil, natLiteral_toDigits,
      Option.map_some, List.length_nil, pow_zero, div_one]
  unfold decimalValue
  rw [hfront, hback, hmantissa, he]
  rfl

theorem isDouble_neg {x : ℚ} (h : IsDouble x) : IsDouble (-x) := by
  obtain ⟨m, e, hm, hlo, hhi, rfl⟩ := h
  exact ⟨-m, e, by simpa using hm, hlo, hhi, by simp⟩

/-- The digits of an integer with an exponent. -/
theorem signedNumber_itoa {n e : Int} {tail : List Char} {x : ℚ} (hdouble : IsDouble x)
    (htail : tail = [] ∨ ∃ rest, tail = 'e' :: rest) (he : exponentValue tail = some e)
    (hx : x = n * 10 ^ e) : signedNumber (itoa n ++ tail) = some x := by
  have hpow : (0 : ℚ) < 10 ^ e := by positivity
  by_cases hn : n < 0
  · have hvalue : (n.natAbs : ℚ) * 10 ^ e = -x := by
      have hcast : (n.natAbs : ℚ) = -(n : ℚ) := by
        have habs : (n.natAbs : Int) = -n := by omega
        rw [← Int.cast_natCast, habs, Int.cast_neg]
      rw [hcast, hx, neg_mul]
    have hnonneg : 0 ≤ -x := by
      rw [← hvalue]
      positivity
    rw [itoa, if_pos hn, List.cons_append, signedNumber, decimalValue_toDigits _ htail he, hvalue,
      Option.bind_some, roundDouble_of_isDouble (isDouble_neg hdouble) hnonneg, Option.map_some,
      neg_neg]
  · obtain ⟨m, rfl⟩ := Int.eq_ofNat_of_zero_le (not_lt.1 hn)
    have hnonneg : 0 ≤ x := by
      rw [hx]
      positivity
    have hread : (decimalValue (Nat.toDigits 10 m ++ tail)).bind roundDouble = some x := by
      have hvalue : (m : ℚ) * 10 ^ e = x := by simpa using hx.symm
      rw [decimalValue_toDigits _ htail he, hvalue]
      exact roundDouble_of_isDouble hdouble hnonneg
    -- The first digit is no sign.
    have hne : Nat.toDigits 10 m ≠ [] := Nat.toDigits_ne_nil
    obtain ⟨d, digits, hdigits⟩ := List.exists_cons_of_ne_nil hne
    have hd : d.isDigit = true := isDigit_of_mem_toDigits (hdigits ▸ List.mem_cons_self)
    rw [itoa_natCast]
    rw [hdigits, List.cons_append] at hread ⊢
    unfold signedNumber
    split
    next heq => exact absurd hd (by rw [(List.cons.inj heq).1]; decide)
    next heq => exact absurd hd (by rw [(List.cons.inj heq).1]; decide)
    next => exact hread

/-- An integer with its digits, and a fraction with a power of ten for its denominator. -/
def decimalString (x : ℚ) : String :=
  if x.den = 1 then String.ofList (itoa x.num)
  else
    String.ofList (itoa (x.num * 5 ^ Nat.log2 x.den) ++
      'e' :: '-' :: Nat.toDigits 10 (Nat.log2 x.den))

/-- A finite number is a fraction with a power of two below it. -/
theorem exists_den_eq_two_pow {x : ℚ} (h : IsDouble x) : ∃ k, x.den = 2 ^ k := by
  obtain ⟨m, e, -, -, -, rfl⟩ := h
  obtain ⟨k, hk⟩ : ∃ k : ℕ, ∃ n : Int, (m * 2 ^ e : ℚ) = Rat.divInt n (2 ^ k : ℕ) := by
    rcases e with e | e
    · exact ⟨0, m * 2 ^ e, by simp⟩
    · refine ⟨e + 1, m, ?_⟩
      rw [zpow_negSucc, Rat.divInt_eq_div]
      push_cast
      rw [div_eq_mul_inv]
  obtain ⟨n, hn⟩ := hk
  have hdvd : ((m * 2 ^ e : ℚ).den : Int) ∣ (2 ^ k : ℕ) := by
    rw [hn]
    exact Rat.den_dvd n _
  obtain ⟨j, -, hj⟩ := (Nat.dvd_prime_pow Nat.prime_two).1 (Int.natCast_dvd_natCast.1 hdvd)
  exact ⟨j, hj⟩

theorem mem_decimalString {x : ℚ} {c : Char} (h : c ∈ (decimalString x).toList) :
    c = '-' ∨ c = 'e' ∨ c.isDigit = true := by
  unfold decimalString at h
  split_ifs at h
  · rw [String.toList_ofList] at h
    exact (mem_itoa h).imp id .inr
  · rw [String.toList_ofList, List.mem_append, List.mem_cons, List.mem_cons] at h
    rcases h with h | h | h | h
    · exact (mem_itoa h).imp id .inr
    · exact .inr (.inl h)
    · exact .inl h
    · exact .inr (.inr (isDigit_of_mem_toDigits h))

/-- What a decimal text is made of: no comma, no space, no letter of a base. -/
theorem plain_of_literal {c : Char} (h : c = '-' ∨ c = 'e' ∨ c.isDigit = true) :
    c ≠ ',' ∧ isSpace c = false ∧ radix c = none := by
  rcases h with rfl | rfl | hdigit
  · decide
  · decide
  · have hrange : 48 ≤ c.toNat ∧ c.toNat ≤ 57 := by
      simpa [Char.isDigit, UInt32.le_iff_toNat_le] using hdigit
    have hne : ∀ d : Char, d.isDigit = false → c ≠ d := fun d hd heq => by
      rw [heq, hd] at hdigit
      cases hdigit
    refine ⟨hne ',' rfl, ?_, ?_⟩
    · unfold isSpace
      simp only [Bool.or_eq_false_iff, Bool.and_eq_false_iff, decide_eq_false_iff_not]
      omega
    · simp [radix, hne 'x' rfl, hne 'X' rfl, hne 'o' rfl, hne 'O' rfl, hne 'b' rfl, hne 'B' rfl]

/-- **Exact texts are read back.** -/
theorem toNumber_decimalString {x : ℚ} (hdouble : IsDouble x) :
    toNumber (decimalString x) = some x := by
  have hplain := fun c hc => plain_of_literal (mem_decimalString (x := x) (c := c) hc)
  have htrim : trimSpace (decimalString x).toList = (decimalString x).toList :=
    List.strip_eq_of_forall isSpace fun c hc => (hplain c hc).2.1
  have hitoa : ∀ n : Int, itoa n ≠ [] := by
    intro n
    unfold itoa
    split
    · exact List.cons_ne_nil _ _
    · exact Nat.toDigits_ne_nil
  have hne : (decimalString x).toList ≠ [] := by
    unfold decimalString
    split <;> simp [hitoa]
  rw [toNumber, htrim, stringToNumber_eq hne fun c hc => (hplain c hc).2.2]
  by_cases hden : x.den = 1
  · have hx : x = (x.num : ℚ) * 10 ^ (0 : Int) := by
      rw [zpow_zero, mul_one, Rat.coe_int_num_of_den_eq_one hden]
    rw [decimalString, if_pos hden, String.toList_ofList, ← List.append_nil (itoa x.num)]
    exact signedNumber_itoa hdouble (.inl rfl) rfl hx
  · obtain ⟨k, hk⟩ := exists_den_eq_two_pow hdouble
    have hlog : Nat.log2 x.den = k := by rw [hk, Nat.log2_two_pow]
    have hx : x = ((x.num * 5 ^ k : Int) : ℚ) * 10 ^ (-(k : Int)) := by
      have hten : (10 : ℚ) ^ k = 5 ^ k * 2 ^ k := by
        rw [← mul_pow]
        norm_num
      have hfive : (5 : ℚ) ^ k ≠ 0 := by positivity
      conv_lhs => rw [← Rat.num_div_den x, hk]
      rw [zpow_neg, zpow_natCast, hten]
      push_cast
      field_simp
    have hexponent : exponentValue ('e' :: '-' :: Nat.toDigits 10 k) = some (-(k : Int)) := by
      rw [exponentValue, natLiteral_toDigits]
      rfl
    rw [decimalString, if_neg hden, String.toList_ofList, hlog]
    exact signedNumber_itoa hdouble (.inr ⟨_, rfl⟩) hexponent hx

/-- Exact texts, with `Number` as JavaScript has it. -/
def decimalNumbers : Numbers where
  string := decimalString
  number := toNumber
  number_string x hx := toNumber_decimalString hx
  string_int n _ := by simp [decimalString]
  intLiteral_string x _ _ := by
    constructor
    · intro hsome
      by_contra hden
      have hmem : 'e' ∈ (decimalString x).toList := by simp [decimalString, hden]
      rw [intLiteral_eq_none hmem (by decide) (by decide)] at hsome
      cases hsome
    · intro hden
      have hstring : decimalString x = String.ofList (itoa x.num) := if_pos hden
      rw [hstring, String.toList_ofList, intLiteral_itoa]
      rfl
  plain x _ c hc :=
    ⟨(plain_of_literal (mem_decimalString hc)).1, (plain_of_literal (mem_decimalString hc)).2.1⟩

end Js
