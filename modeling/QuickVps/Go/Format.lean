import QuickVps.Go.Float64
import QuickVps.Go.Strings

/-!
# Printing numbers and instants

What the alert messages and the responses print besides plain texts: a `float64` with two decimals,
an instant in RFC 3339 form, and a duration.
-/

namespace Go

def digit (n : Nat) : Char := Char.ofNat (48 + n % 10)

def pad2 (n : Nat) : List Char := [digit (n / 10), digit n]

def pad4 (n : Nat) : List Char := [digit (n / 1000), digit (n / 100), digit (n / 10), digit n]

/-- The nearest natural number, the even one of two. -/
def roundHalfEven (q : ℚ) : Nat :=
  let n := q.floor.toNat
  let rest := q - n
  if rest < 1 / 2 then n else if 1 / 2 < rest then n + 1 else if n % 2 = 0 then n else n + 1

/-- The verb `%.2f`. -/
def formatFixed2 : Float64 → List Char
  | .nan => "NaN".toList
  | .negInf => "-Inf".toList
  | .posInf => "+Inf".toList
  | .num q =>
    let n := roundHalfEven (|q| * 100)
    (if q < 0 then ['-'] else []) ++ itoa (n / 100 : Nat) ++ '.' :: pad2 (n % 100)

/-- Year, month and day of a count of days since the first of January 1970. -/
def civil (days : Int) : Int × Nat × Nat :=
  let z := days + 719468
  let era := z / 146097
  let doe := (z % 146097).toNat
  let yoe := (doe - doe / 1460 + doe / 36524 - doe / 146096) / 365
  let doy := doe - (365 * yoe + yoe / 4 - yoe / 100)
  let mp := (5 * doy + 2) / 153
  let day := doy - (153 * mp + 2) / 5 + 1
  let month := if mp < 10 then mp + 3 else mp - 9
  (yoe + era * 400 + (if month ≤ 2 then 1 else 0), month, day)

/-- `t.UTC().Format(time.RFC3339)`, for the years of four digits. -/
def formatRFC3339 (t : Int) : List Char :=
  let secs := t / 1000000000
  let (year, month, day) := civil (secs / 86400)
  let s := (secs % 86400).toNat
  pad4 year.toNat ++ '-' :: pad2 month ++ '-' :: pad2 day ++ 'T' :: pad2 (s / 3600) ++
    ':' :: pad2 (s / 60 % 60) ++ ':' :: pad2 (s % 60) ++ ['Z']

example : formatRFC3339 951827696000000000 = "2000-02-29T12:34:56Z".toList := by decide

/-- The fraction of a number by its last `prec` digits, without the zeros at its end. -/
def formatFraction (prec n : Nat) : List Char :=
  let digits := (Nat.toDigits 10 (n % 10 ^ prec)).leftpad prec '0'
  let digits := digits.rdropWhile (· = '0')
  if digits = [] then [] else '.' :: digits

/-- The digits of `Duration.String`: under a second in the largest unit that leaves a whole number,
else in hours, minutes and seconds. -/
def formatUnsigned (u : Nat) : List Char :=
  if u = 0 then "0s".toList
  else if u < 1000 then itoa u ++ "ns".toList
  else if u < 1000000 then itoa (u / 1000 : Nat) ++ formatFraction 3 u ++ "µs".toList
  else if u < 1000000000 then itoa (u / 1000000 : Nat) ++ formatFraction 6 u ++ "ms".toList
  else
    let secs := u / 1000000000
    let tail := itoa (secs % 60 : Nat) ++ formatFraction 9 u ++ ['s']
    let mins := secs / 60
    if mins = 0 then tail
    else if mins / 60 = 0 then itoa mins ++ 'm' :: tail
    else itoa (mins / 60 : Nat) ++ 'h' :: (itoa (mins % 60 : Nat) ++ 'm' :: tail)

/-- `Duration.String`. -/
def formatDuration (d : Int) : String :=
  String.ofList ((if d < 0 then ['-'] else []) ++ formatUnsigned d.natAbs)

/-- The nearest `float64` to a nonnegative number in the range of normal ones. -/
def roundFloat64 (q : ℚ) : ℚ :=
  let e : Int := (Nat.log2 q.num.natAbs : Int) - Nat.log2 q.den
  let e := if (2 : ℚ) ^ e ≤ q then e else e - 1
  if q = 0 then 0 else roundHalfEven (q / 2 ^ (e - 52)) * 2 ^ (e - 52)

/-- `int64(d.Seconds())` of a duration that is not negative. -/
def wholeSeconds (d : Int) : Int :=
  let secs := roundFloat64 (d / 1000000000 : Int)
  let rest := roundFloat64 (((d % 1000000000 : Int) : ℚ) / 1000000000)
  (roundFloat64 (secs + rest)).floor

/-- The bytes of a text. -/
def bytes (s : String) : List UInt8 := s.toUTF8.data.toList

/-- `time.Time{}`. -/
def zeroTime : Int := -62135596800000000000

end Go
