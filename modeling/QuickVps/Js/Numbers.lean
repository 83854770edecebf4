import QuickVps.Go.Json
import QuickVps.Js.Strings
import Mathlib.Algebra.Order.Floor.Ring
import Mathlib.Data.Rat.Floor

/-!
# JavaScript numbers

The finite numbers of JavaScript are the rationals `m * 2 ^ e` with `m` of at most 53 bits. The text
of a number has the fewest digits that are read back as it, so an integer above `2 ^ 53` need not be
written with its own.

* `IsDouble` — a finite number;
* `Numbers` — `String(x)` and `Number(s)`, with what is relied on;
* `Numbers.json` — the JSON value that the text of a number is read as;
* `exactNumbers` — texts that are exact for every rational, for runs of the model.
-/

namespace Js

open Go

/-- A finite number. -/
def IsDouble (x : ℚ) : Prop :=
  ∃ m e : Int, m.natAbs < 2 ^ 53 ∧ -1074 ≤ e ∧ e ≤ 971 ∧ x = m * 2 ^ e

theorem isDouble_int {n : Int} (h : n.natAbs < 2 ^ 53) : IsDouble n :=
  ⟨n, 0, h, by decide, by decide, by simp⟩

/-- `Math.round`. -/
def round (x : ℚ) : Int := ⌊x + 1 / 2⌋

theorem round_int (n : Int) : round n = n := by
  rw [round, Int.floor_eq_iff]
  constructor <;> norm_num

/-! ## Integers -/

def natLiteral (s : List Char) : Option Nat :=
  if s ≠ [] ∧ s.all Char.isDigit then some (Nat.ofDigitChars 10 s 0) else none

/-- The integer that a text of digits is, with a sign if it is negative. -/
def intLiteral : List Char → Option Int
  | '-' :: s => (natLiteral s).map fun n => -(n : Int)
  | s => (natLiteral s).map Int.ofNat

theorem natLiteral_toDigits (n : Nat) : natLiteral (Nat.toDigits 10 n) = some n := by
  have hall : (Nat.toDigits 10 n).all Char.isDigit = true :=
    List.all_eq_true.2 fun c hc => isDigit_of_mem_toDigits hc
  rw [natLiteral, if_pos ⟨Nat.toDigits_ne_nil, hall⟩, Nat.ofDigitChars_ten_toDigits]

theorem intLiteral_itoa (n : Int) : intLiteral (itoa n) = some n := by
  rcases n with n | n
  · have hdigits := natLiteral_toDigits n
    rw [Int.ofNat_eq_natCast, itoa_natCast]
    unfold intLiteral
    split
    next s heq =>
      -- A digit is no sign.
      have hminus : '-' ∈ Nat.toDigits 10 n := heq ▸ List.mem_cons_self
      exact absurd (isDigit_of_mem_toDigits hminus) (by decide)
    next =>
      rw [hdigits]
      rfl
  · rw [itoa, if_pos (Int.negSucc_lt_zero n), Int.natAbs_negSucc, intLiteral,
      natLiteral_toDigits]
    rfl

theorem intLiteral_eq_none {s : List Char} {c : Char} (hc : c ∈ s) (hdigit : c.isDigit = false)
    (hminus : c ≠ '-') : intLiteral s = none := by
  have hnone (t : List Char) (hct : c ∈ t) : natLiteral t = none := by
    refine if_neg fun h => ?_
    rw [List.all_eq_true.1 h.2 c hct] at hdigit
    cases hdigit
  unfold intLiteral
  split
  next t =>
    rw [hnone t (List.mem_of_ne_of_mem hminus hc)]
    rfl
  next =>
    rw [hnone s hc]
    rfl

/-! ## Texts of numbers -/

/-- `String(x)` of a finite number, and `Number(s)`, which is nothing where it is not finite. The
text of a number is read back, an integer of at most 53 bits is written with its digits, and below
`10 ^ 21` the integers are those that are written without fraction and exponent. -/
structure Numbers where
  string : ℚ → String
  number : String → Option ℚ
  number_string : ∀ x, IsDouble x → number (string x) = some x
  string_int : ∀ n : Int, n.natAbs ≤ 2 ^ 53 → string n = String.ofList (itoa n)
  intLiteral_string : ∀ x, IsDouble x → |x| < 10 ^ 21 →
    ((intLiteral (string x).toList).isSome ↔ x.den = 1)
  plain : ∀ x, IsDouble x → ∀ c ∈ (string x).toList, c ≠ ',' ∧ isSpace c = false

namespace Numbers

variable (js : Numbers)

/-- The value that `encoding/json` reads the text of a number as. -/
def json (x : ℚ) : Json :=
  match intLiteral (js.string x).toList with
  | some n => .int n
  | none => .float (.num x)

/-- `JSON.stringify` writes null for a number that is not finite. -/
def jsonNumber : Option ℚ → Json
  | some x => js.json x
  | none => .null

/-- The integer is written with its own digits. -/
def Exact (n : Int) : Prop := intLiteral (js.string n).toList = some n

theorem exact_of_natAbs_le {n : Int} (h : n.natAbs ≤ 2 ^ 53) : js.Exact n := by
  rw [Exact, js.string_int n h, String.toList_ofList, intLiteral_itoa]

/-- The integer that the text of an integer is. -/
def reread (n : Int) : Int := (intLiteral (js.string n).toList).getD 0

/-- An integer is read as an integer, which is the same if it is written with its own digits. -/
theorem json_int {n : Int} (hdouble : IsDouble n) (hlt : |(n : ℚ)| < 10 ^ 21) :
    js.json n = .int (js.reread n) ∧ (js.reread n = n ↔ js.Exact n) := by
  have hsome := (js.intLiteral_string n hdouble hlt).2 (Rat.den_intCast n)
  obtain ⟨m, hm⟩ := Option.isSome_iff_exists.1 hsome
  have hreread : js.reread n = m := by rw [reread, hm, Option.getD_some]
  exact ⟨by rw [json, hm, hreread], by rw [Exact, hm, hreread, Option.some.injEq]⟩

/-- A percentage is read as itself. -/
theorem readFloat64_json {x : ℚ} (hdouble : IsDouble x) (habs : |x| ≤ 100) :
    Json.readFloat64 (js.json x) = some x := by
  by_cases hden : x.den = 1
  · obtain ⟨n, rfl⟩ : ∃ n : Int, x = n := ⟨x.num, (Rat.coe_int_num_of_den_eq_one hden).symm⟩
    have hle : n.natAbs ≤ 2 ^ 53 := by
      have hint : |n| ≤ 100 := by exact_mod_cast habs
      rw [Int.abs_eq_natAbs] at hint
      omega
    have hexact : intLiteral (js.string n).toList = some n := js.exact_of_natAbs_le hle
    rw [json, hexact]
    rfl
  · have hlt : |x| < 10 ^ 21 := habs.trans_lt (by norm_num)
    have hnone : intLiteral (js.string x).toList = none := by
      by_contra hsome
      exact hden ((js.intLiteral_string x hdouble hlt).1 (Option.isSome_iff_ne_none.2 hsome))
    rw [json, hnone]
    rfl

theorem trim_string {x : ℚ} (hdouble : IsDouble x) : trim (js.string x) = js.string x := by
  apply String.toList_injective
  rw [toList_trim]
  exact List.strip_eq_of_forall isSpace fun c hc => (js.plain x hdouble c hc).2

end Numbers

/-! ## Exact texts -/

/-- An integer with its digits, and a fraction with those of numerator and denominator. -/
def exactString (x : ℚ) : String :=
  String.ofList (itoa x.num ++ if x.den = 1 then [] else 'e' :: Nat.toDigits 10 x.den)

def exactNumber (s : String) : Option ℚ :=
  match s.toList.splitOn 'e' with
  | [num] => (intLiteral num).map fun n => (n : ℚ)
  | [num, den] => (intLiteral num).bind fun n => (natLiteral den).map fun d => (n / d : ℚ)
  | _ => none

theorem mem_itoa {n : Int} {c : Char} (h : c ∈ itoa n) : c = '-' ∨ c.isDigit = true := by
  unfold itoa at h
  split_ifs at h
  · exact (List.mem_cons.1 h).imp id isDigit_of_mem_toDigits
  · exact .inr (isDigit_of_mem_toDigits h)

theorem mem_exactString {x : ℚ} {c : Char} (h : c ∈ (exactString x).toList) :
    c = '-' ∨ c = 'e' ∨ c.isDigit = true := by
  rw [exactString, String.toList_ofList, List.mem_append] at h
  rcases h with h | h
  · exact (mem_itoa h).imp id .inr
  · split_ifs at h
    · cases h
    · exact .inr ((List.mem_cons.1 h).imp id isDigit_of_mem_toDigits)

theorem exactNumber_exactString (x : ℚ) : exactNumber (exactString x) = some x := by
  have hnum : 'e' ∉ itoa x.num := fun h => by rcases mem_itoa h with h | h <;> simp at h
  rw [exactNumber, exactString, String.toList_ofList]
  by_cases hden : x.den = 1
  · rw [if_pos hden, List.append_nil, List.splitOn_eq_singleton hnum]
    simp [intLiteral_itoa, Rat.coe_int_num_of_den_eq_one hden]
  · have hdigits : 'e' ∉ Nat.toDigits 10 x.den := fun h => by
      simpa using isDigit_of_mem_toDigits h
    rw [if_neg hden, List.splitOn_append_cons_self_of_not_mem hnum,
      List.splitOn_eq_singleton hdigits]
    simp [intLiteral_itoa, natLiteral_toDigits, Rat.num_div_den]

theorem exactString_int (n : Int) : exactString n = String.ofList (itoa n) := by
  simp [exactString]

/-- Texts with which every rational is read back, for runs of the model. -/
def exactNumbers : Numbers where
  string := exactString
  number := exactNumber
  number_string x _ := exactNumber_exactString x
  string_int n _ := exactString_int n
  intLiteral_string x _ _ := by
    constructor
    · intro hsome
      by_contra hden
      have hmem : 'e' ∈ (exactString x).toList := by simp [exactString, hden]
      rw [intLiteral_eq_none hmem (by decide) (by decide)] at hsome
      cases hsome
    · intro hden
      rw [← Rat.coe_int_num_of_den_eq_one hden, exactString_int, String.toList_ofList,
        intLiteral_itoa]
      rfl
  plain x _ c hc := by
    rcases mem_exactString hc with rfl | rfl | hdigit
    · decide
    · decide
    · refine ⟨fun h => by simp [h] at hdigit, ?_⟩
      have hrange : 48 ≤ c.toNat ∧ c.toNat ≤ 57 := by
        simpa [Char.isDigit, UInt32.le_iff_toNat_le] using hdigit
      unfold isSpace
      simp only [Bool.or_eq_false_iff, Bool.and_eq_false_iff, decide_eq_false_iff_not]
      omega

end Js
