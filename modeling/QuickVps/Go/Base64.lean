import QuickVps.Go.Strings

/-!
# Base64

`base64.StdEncoding`: three bytes are four characters of six bits each, and the last quantum is
padded with `=`.

* `encodeToString`, `decodeString` — both directions, with the offset at which a text is refused;
* `decodeString_encodeToString` — the round trip.
-/

namespace Go.Base64

/-- The character of six bits. -/
def encodeChar (s : Nat) : Char :=
  if s < 26 then Char.ofNat (65 + s)
  else if s < 52 then Char.ofNat (71 + s)
  else if s < 62 then Char.ofNat (s - 4)
  else if s = 62 then '+'
  else '/'

def decodeChar (c : Char) : Option Nat :=
  if 65 ≤ c.toNat ∧ c.toNat ≤ 90 then some (c.toNat - 65)
  else if 97 ≤ c.toNat ∧ c.toNat ≤ 122 then some (c.toNat - 71)
  else if 48 ≤ c.toNat ∧ c.toNat ≤ 57 then some (c.toNat + 4)
  else if c = '+' then some 62
  else if c = '/' then some 63
  else none

theorem decodeChar_encodeChar : ∀ s < 64, decodeChar (encodeChar s) = some s := by decide

/-! ## Encoding -/

def encode : List UInt8 → List Char
  | [] => []
  | [a] => [encodeChar (a.toNat / 4), encodeChar (a.toNat % 4 * 16), '=', '=']
  | [a, b] =>
    [encodeChar (a.toNat / 4), encodeChar (a.toNat % 4 * 16 + b.toNat / 16),
      encodeChar (b.toNat % 16 * 4), '=']
  | a :: b :: c :: rest =>
    encodeChar (a.toNat / 4) :: encodeChar (a.toNat % 4 * 16 + b.toNat / 16) ::
      encodeChar (b.toNat % 16 * 4 + c.toNat / 64) :: encodeChar (c.toNat % 64) :: encode rest

def encodeToString (bs : List UInt8) : String := String.ofList (encode bs)

/-! ## Decoding -/

/-- The bytes of a quantum, one fewer than it has characters. -/
def quantum : List Nat → List UInt8
  | [s₀, s₁] => [UInt8.ofNat (s₀ * 4 + s₁ / 16)]
  | [s₀, s₁, s₂] => [UInt8.ofNat (s₀ * 4 + s₁ / 16), UInt8.ofNat (s₁ % 16 * 16 + s₂ / 4)]
  | [s₀, s₁, s₂, s₃] =>
    [UInt8.ofNat (s₀ * 4 + s₁ / 16), UInt8.ofNat (s₁ % 16 * 16 + s₂ / 4),
      UInt8.ofNat (s₂ % 4 * 64 + s₃)]
  | _ => []

def isNewline (c : Char) : Bool := c = '\n' || c = '\r'

/-- The rest after the newlines, with its offset. -/
def skipNewlines : Nat → List Char → Nat × List Char
  | si, [] => (si, [])
  | si, c :: rest => if isNewline c then skipNewlines (si + 1) rest else (si, c :: rest)

/-- Nothing may come after the padding. -/
def finish (si : Nat) (rest : List Char) (out : List UInt8) : Except Nat (List UInt8) :=
  match skipNewlines si rest with
  | (_, []) => .ok out
  | (si, _ :: _) => .error si

/-- After the first `=` of the last quantum. -/
def decodePadding (si : Nat) (rest : List Char) (dbuf : List Nat) : Except Nat (List UInt8) :=
  if dbuf.length = 3 then finish si rest (quantum dbuf)
  else if dbuf.length = 2 then
    match skipNewlines si rest with
    | (si, []) => .error si
    | (si, c :: rest) => if c = '=' then finish (si + 1) rest (quantum dbuf) else .error (si - 1)
  else .error (si - 1)

/-- `dbuf` has the characters of the quantum so far, and `si` is the offset of the rest. -/
def decode (si : Nat) (dbuf : List Nat) : List Char → Except Nat (List UInt8)
  | [] => if dbuf = [] then .ok [] else .error (si - dbuf.length)
  | c :: rest =>
    match decodeChar c with
    | some s =>
      if dbuf.length = 3 then
        (decode (si + 1) [] rest).map fun out => quantum (dbuf ++ [s]) ++ out
      else decode (si + 1) (dbuf ++ [s]) rest
    | none =>
      if isNewline c then decode (si + 1) dbuf rest
      else if c = '=' then decodePadding (si + 1) rest dbuf
      else .error si

def decodeString (s : String) : Except String (List UInt8) :=
  match decode 0 [] s.toList with
  | .error si =>
    .error ("illegal base64 data at input byte " ++ String.ofList (itoa (si : Int)))
  | .ok bs => .ok bs

/-! ## The round trip -/

theorem ofNat_eq {n : Nat} {a : UInt8} (h : n = a.toNat) : UInt8.ofNat n = a := by
  rw [h, UInt8.ofNat_toNat]

theorem decode_sextet {s si : Nat} {dbuf : List Nat} {rest : List Char} (hs : s < 64)
    (hdbuf : dbuf.length < 3) :
    decode si dbuf (encodeChar s :: rest) = decode (si + 1) (dbuf ++ [s]) rest := by
  rw [decode, decodeChar_encodeChar s hs]
  exact if_neg (by omega)

theorem decode_last {s si : Nat} {dbuf : List Nat} {rest : List Char} (hs : s < 64)
    (hdbuf : dbuf.length = 3) :
    decode si dbuf (encodeChar s :: rest) =
      (decode (si + 1) [] rest).map fun out => quantum (dbuf ++ [s]) ++ out := by
  rw [decode, decodeChar_encodeChar s hs]
  exact if_pos hdbuf

theorem decode_encode (si : Nat) (bs : List UInt8) : decode si [] (encode bs) = .ok bs := by
  induction bs using encode.induct generalizing si with
  | case1 => rfl
  | case2 a =>
    have ha := a.toNat_lt
    rw [encode, decode_sextet (by omega) (by simp), decode_sextet (by omega) (by simp)]
    show Except.ok [_] = _
    rw [ofNat_eq (a := a) (by omega)]
  | case3 a b =>
    have ha := a.toNat_lt
    have hb := b.toNat_lt
    rw [encode, decode_sextet (by omega) (by simp), decode_sextet (by omega) (by simp),
      decode_sextet (by omega) (by simp)]
    show Except.ok [_, _] = _
    rw [ofNat_eq (a := a) (by omega), ofNat_eq (a := b) (by omega)]
  | case4 a b c rest ih =>
    have ha := a.toNat_lt
    have hb := b.toNat_lt
    have hc := c.toNat_lt
    rw [encode, decode_sextet (by omega) (by simp), decode_sextet (by omega) (by simp),
      decode_sextet (by omega) (by simp), decode_last (by omega) rfl, ih]
    show Except.ok (_ :: _ :: _ :: rest) = _
    rw [ofNat_eq (a := a) (by omega), ofNat_eq (a := b) (by omega), ofNat_eq (a := c) (by omega)]

/-- **Round trip.** -/
theorem decodeString_encodeToString (bs : List UInt8) :
    decodeString (encodeToString bs) = .ok bs := by
  rw [decodeString, encodeToString, String.toList_ofList, decode_encode]

/-- Only nothing is encoded as the empty text. -/
theorem encodeToString_ne_empty {bs : List UInt8} (h : bs ≠ []) : encodeToString bs ≠ "" := by
  intro hempty
  have hround := decodeString_encodeToString bs
  rw [hempty] at hround
  exact h (Except.ok.inj hround).symm

example : encodeToString [77, 97, 110, 77] = "TWFuTQ==" := by decide

example : decodeString "TWFuTQ=" = .error "illegal base64 data at input byte 7" := by rfl

end Go.Base64
