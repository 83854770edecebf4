import QuickVps.Go.Time
import QuickVps.Lib.Strip
import Mathlib.Data.List.Basic

/-!
# Go strings

The functions of `strings`, `strconv` and `fmt` that the repository parses and prints with, on
lists of characters. An index of a byte is an index of a character here: the code only compares
it with the ends of the text and cuts there.
-/

namespace Go

/-- `unicode.IsSpace`. -/
def isSpace (c : Char) : Bool :=
  let n := c.toNat
  (9 ≤ n && n ≤ 13) || n = 0x20 || n = 0x85 || n = 0xA0 || n = 0x1680 ||
    (0x2000 ≤ n && n ≤ 0x200A) || n = 0x2028 || n = 0x2029 || n = 0x202F || n = 0x205F ||
    n = 0x3000

def trimSpace (s : List Char) : List Char := (s.dropWhile isSpace).rdropWhile isSpace

def trimSuffix (s suffix : List Char) : List Char :=
  if suffix.isSuffixOf s then s.take (s.length - suffix.length) else s

/-- `strings.LastIndex` for a text of one character. -/
def lastIndex (c : Char) : List Char → Option Nat
  | [] => none
  | x :: s =>
    match lastIndex c s with
    | some i => some (i + 1)
    | none => if x = c then some 0 else none

/-- The digits of a `strconv.Atoi` argument, in the range of `int64`. -/
def parseDigits (negative : Bool) (digits : List Char) : Option Int :=
  if digits = [] ∨ ¬ digits.all Char.isDigit then none
  else
    let n : Int := Nat.ofDigitChars 10 digits 0
    let value := if negative then -n else n
    if minInt64 ≤ value ∧ value ≤ maxInt64 then some value else none

/-- `strconv.Atoi`: an optional sign and decimal digits. -/
def atoi (s : List Char) : Option Int :=
  match s with
  | '-' :: digits => parseDigits true digits
  | '+' :: digits => parseDigits false digits
  | digits => parseDigits false digits

/-- `strings.TrimSpace` on a `String`. -/
def trim (s : String) : String := String.ofList (trimSpace s.toList)

/-- `unicode.ToLower`, as far as its results are ASCII: outside ASCII only the Kelvin sign and the
dotted capital I have an ASCII lower case. -/
def toLowerChar (c : Char) : Char :=
  if c.toNat = 0x130 then 'i' else if c.toNat = 0x212A then 'k' else c.toLower

/-- `strings.ToLower`, for comparisons with ASCII texts. -/
def toLower (s : String) : String := String.ofList (s.toList.map toLowerChar)

/-- `strings.Contains`. -/
def contains (s sub : String) : Bool := s.toList.tails.any fun rest => sub.toList.isPrefixOf rest

/-- An integer under the verb `%d`. -/
def itoa (n : Int) : List Char :=
  if n < 0 then '-' :: Nat.toDigits 10 n.natAbs else Nat.toDigits 10 n.natAbs

theorem isSpace_of_isDigit {c : Char} (h : c.isDigit = true) : isSpace c = false := by
  simp only [Char.isDigit, Bool.and_eq_true, decide_eq_true_eq] at h
  have h₁ : 48 ≤ c.toNat := h.1
  have h₂ : c.toNat ≤ 57 := h.2
  simp only [isSpace, Bool.or_eq_false_iff, Bool.and_eq_false_iff, decide_eq_false_iff_not]
  omega

theorem isDigit_of_mem_toDigits {n : Nat} {c : Char} (h : c ∈ Nat.toDigits 10 n) :
    c.isDigit = true := Nat.isDigit_of_mem_toDigits (by decide) (by decide) h

theorem not_mem_toDigits {n : Nat} {c : Char} (h : c.isDigit = false) :
    c ∉ Nat.toDigits 10 n := fun hc => by
  rw [isDigit_of_mem_toDigits hc] at h
  cases h

theorem not_mem_itoa {n : Int} {c : Char} (hn : 0 ≤ n) (h : c.isDigit = false) : c ∉ itoa n := by
  rw [itoa, if_neg (not_lt.2 hn)]
  exact not_mem_toDigits h

theorem itoa_natCast (n : Nat) : itoa n = Nat.toDigits 10 n := by
  rw [itoa, if_neg (by omega), Int.natAbs_natCast]

theorem atoi_toDigits {n : Nat} (h : (n : Int) ≤ maxInt64) :
    atoi (Nat.toDigits 10 n) = some n := by
  have hall : (Nat.toDigits 10 n).all Char.isDigit = true :=
    List.all_eq_true.2 fun c hc => isDigit_of_mem_toDigits hc
  have hmin : minInt64 ≤ (n : Int) := by
    unfold minInt64
    omega
  have hparse : parseDigits false (Nat.toDigits 10 n) = some n := by
    simp [parseDigits, hall, Nat.toDigits_ne_nil, Nat.ofDigitChars_ten_toDigits, hmin, h]
  -- Digits begin with no sign.
  cases hs : Nat.toDigits 10 n with
  | nil => exact absurd hs Nat.toDigits_ne_nil
  | cons c rest =>
    have hc : c.isDigit = true := isDigit_of_mem_toDigits (hs ▸ List.mem_cons_self)
    rw [hs] at hparse
    have hminus : c ≠ '-' := fun h => absurd hc (by rw [h]; decide)
    have hplus : c ≠ '+' := fun h => absurd hc (by rw [h]; decide)
    unfold atoi
    split
    next heq => exact absurd (List.cons.inj heq).1 hminus
    next heq => exact absurd (List.cons.inj heq).1 hplus
    next => exact hparse

theorem itoa_inj {m n : Int} (hm : 0 ≤ m) (hn : 0 ≤ n) (h : itoa m = itoa n) : m = n := by
  obtain ⟨a, rfl⟩ := Int.eq_ofNat_of_zero_le hm
  obtain ⟨b, rfl⟩ := Int.eq_ofNat_of_zero_le hn
  rw [itoa_natCast, itoa_natCast] at h
  have := congrArg (fun s => Nat.ofDigitChars 10 s 0) h
  simpa only [Nat.ofDigitChars_ten_toDigits, Nat.cast_inj] using this

theorem lastIndex_eq_none {c : Char} {s : List Char} (h : c ∉ s) : lastIndex c s = none := by
  induction s with
  | nil => rfl
  | cons x s ih =>
    obtain ⟨hx, hs⟩ := not_or.1 (mt List.mem_cons.2 h)
    simp [lastIndex, ih hs, Ne.symm hx]

theorem lastIndex_append_cons {c : Char} (a : List Char) {b : List Char} (h : c ∉ b) :
    lastIndex c (a ++ c :: b) = some a.length := by
  induction a with
  | nil => simp [lastIndex, lastIndex_eq_none h]
  | cons x a ih => simp [lastIndex, ih]

/-- A text is cut at its last `c` in one way only. -/
theorem append_cons_inj {a a' b b' : List Char} {c : Char} (hb : c ∉ b) (hb' : c ∉ b')
    (h : a ++ c :: b = a' ++ c :: b') : a = a' ∧ b = b' := by
  have hlen : a.length = a'.length := by
    have hcut := congrArg (lastIndex c) h
    rwa [lastIndex_append_cons a hb, lastIndex_append_cons a' hb', Option.some.injEq] at hcut
  obtain ⟨rfl, htail⟩ := List.append_inj h hlen
  exact ⟨rfl, (List.cons.inj htail).2⟩

/-- A text is cut at its first `c` in one way only. -/
theorem append_cons_inj_left {a a' b b' : List Char} {c : Char} (ha : c ∉ a) (ha' : c ∉ a')
    (h : a ++ c :: b = a' ++ c :: b') : a = a' ∧ b = b' := by
  have hrev : b.reverse ++ c :: a.reverse = b'.reverse ++ c :: a'.reverse := by
    simpa using congrArg List.reverse h
  obtain ⟨hb, ha⟩ := append_cons_inj (mt List.mem_reverse.1 ha) (mt List.mem_reverse.1 ha') hrev
  exact ⟨List.reverse_injective ha, List.reverse_injective hb⟩

theorem trimSpace_eq {s : List Char} (hfirst : ∀ hs : s ≠ [], isSpace (s.head hs) = false)
    (hlast : ∀ hs : s ≠ [], isSpace (s.getLast hs) = false) : trimSpace s = s :=
  (List.strip_eq_self_iff isSpace).2 ⟨hfirst, hlast⟩

theorem toList_trim (s : String) : (trim s).toList = s.toList.strip isSpace :=
  String.toList_ofList

theorem trim_trim (s : String) : trim (trim s) = trim s := by
  apply String.toList_injective
  rw [toList_trim, toList_trim, List.strip_strip]

theorem trimSuffix_append (s suffix : List Char) : trimSuffix (s ++ suffix) suffix = s := by
  simp [trimSuffix]

theorem trimSuffix_eq {s suffix : List Char} (h : ¬ suffix <:+ s) : trimSuffix s suffix = s := by
  rw [trimSuffix, if_neg (by simpa using h)]

end Go
