import Mathlib.Data.List.Basic

/-!
# AES-256-GCM

`aes.NewCipher` with a key of 32 bytes under `cipher.NewGCM`, for nonces of 12 bytes and without
additional data. The bytes of a block are the columns of the AES state one after another; GHASH
works on the block as a number whose most significant bit comes first.

* `encryptBlock` — AES;
* `crypt`, `tag` — the counter mode and the authentication tag;
* `seal_`, `open_` — the AEAD, and `open_seal`, what is sealed is opened.
-/

namespace Go.AesGcm

/-! ## AES -/

/-- Multiplication with `x` in the field of 256 elements. -/
def xtime (b : UInt8) : UInt8 := if b &&& 0x80 = 0 then b <<< 1 else (b <<< 1) ^^^ 0x1b

def mulBits : Nat → UInt8 → UInt8 → UInt8
  | 0, _, _ => 0
  | n + 1, a, b => (if b &&& 1 = 0 then 0 else a) ^^^ mulBits n (xtime a) (b >>> 1)

def mul (a b : UInt8) : UInt8 := mulBits 8 a b

/-- The power 254, which is the inverse of an element other than zero. -/
def inverse (a : UInt8) : UInt8 :=
  let square (b : UInt8) : UInt8 := mul b b
  ((List.range 6).foldl (fun (p : UInt8 × UInt8) _ => (mul p.1 (square p.2), square p.2))
    (square a, square a)).1

def rotateLeft (b : UInt8) (k : UInt8) : UInt8 := (b <<< k) ||| (b >>> (8 - k))

def subByte (b : UInt8) : UInt8 :=
  let x := inverse b
  x ^^^ rotateLeft x 1 ^^^ rotateLeft x 2 ^^^ rotateLeft x 3 ^^^ rotateLeft x 4 ^^^ 0x63

example : subByte 0x53 = 0xed := by decide

def xorBytes (xs ys : List UInt8) : List UInt8 := List.zipWith (· ^^^ ·) xs ys

/-- The word `i` of the schedule, up to the word eight places before it. -/
def scheduleWord (i : Nat) (previous : List UInt8) : List UInt8 :=
  if i % 8 = 0 then
    xorBytes ((previous.rotateLeft 1).map subByte) [Nat.repeat xtime (i / 8 - 1) 1, 0, 0, 0]
  else if i % 8 = 4 then previous.map subByte
  else previous

def extendSchedule : Nat → List (List UInt8) → List (List UInt8)
  | 0, ws => ws
  | n + 1, ws =>
    extendSchedule n
      (ws ++ [xorBytes (ws.getD (ws.length - 8) [])
        (scheduleWord ws.length (ws.getD (ws.length - 1) []))])

/-- The fifteen round keys. -/
def roundKeys (key : List UInt8) : List (List UInt8) :=
  let ws := extendSchedule 52 ((List.range 8).map fun i => (key.drop (4 * i)).take 4)
  (List.range 15).map fun r => ((ws.drop (4 * r)).take 4).flatten

def shiftRows (block : List UInt8) : List UInt8 :=
  (List.range 16).map fun i => block.getD ((i + 4 * (i % 4)) % 16) 0

def mixColumns (block : List UInt8) : List UInt8 :=
  (List.range 16).map fun i =>
    let byte (k : Nat) : UInt8 := block.getD (i / 4 * 4 + (i + k) % 4) 0
    mul 2 (byte 0) ^^^ mul 3 (byte 1) ^^^ byte 2 ^^^ byte 3

def encryptBlock (key block : List UInt8) : List UInt8 :=
  match roundKeys key with
  | [] => []
  | first :: rest =>
    let state := rest.dropLast.foldl
      (fun state k => xorBytes (mixColumns (shiftRows (state.map subByte))) k)
      (xorBytes block first)
    xorBytes (shiftRows (state.map subByte)) (rest.getLastD [])

/-! ## GCM -/

/-- A block as a number. -/
def ofBlock (block : List UInt8) : Nat := block.foldl (fun n b => n * 256 + b.toNat) 0

def toBytes (count n : Nat) : List UInt8 :=
  (List.range count).map fun i => UInt8.ofNat (n >>> (8 * (count - 1 - i)))

/-- Multiplication in the field of 2^128 elements, over the first bits of `x`. -/
def mulBlock (x : Nat) : Nat → Nat → Nat
  | 0, _ => 0
  | n + 1, v =>
    (if x.testBit n then v else 0) ^^^
      mulBlock x n (if v.testBit 0 then (v >>> 1) ^^^ (0xe1 <<< 120) else v >>> 1)

def ghash (h : Nat) (blocks : List Nat) : Nat :=
  blocks.foldl (fun y x => mulBlock (y ^^^ x) 128 h) 0

/-- The blocks of a text, the last one filled up with zeros. -/
def blocks (text : List UInt8) : List Nat :=
  (List.range ((text.length + 15) / 16)).map fun i =>
    ofBlock (((text.drop (16 * i)).take 16 ++ List.replicate 16 0).take 16)

/-- The block of a nonce with a counter. -/
def counterBlock (nonce : List UInt8) (counter : Nat) : List UInt8 := nonce ++ toBytes 4 counter

def tag (key nonce ciphertext : List UInt8) : List UInt8 :=
  let h := ofBlock (encryptBlock key (List.replicate 16 0))
  toBytes 16 (ghash h (blocks ciphertext ++ [8 * ciphertext.length]) ^^^
    ofBlock (encryptBlock key (counterBlock nonce 1)))

/-- The text with the key stream, which begins with the counter 2. -/
def crypt (key nonce text : List UInt8) : List UInt8 :=
  text.mapIdx fun i b => b ^^^ (encryptBlock key (counterBlock nonce (i / 16 + 2))).getD (i % 16) 0

def seal_ (key nonce plaintext : List UInt8) : List UInt8 :=
  let ciphertext := crypt key nonce plaintext
  ciphertext ++ tag key nonce ciphertext

def open_ (key nonce sealed : List UInt8) : Except String (List UInt8) :=
  let ciphertext := sealed.take (sealed.length - 16)
  if sealed.length < 16 ∨ sealed.drop (sealed.length - 16) ≠ tag key nonce ciphertext then
    .error "cipher: message authentication failed"
  else .ok (crypt key nonce ciphertext)

theorem length_tag (key nonce ciphertext : List UInt8) :
    (tag key nonce ciphertext).length = 16 := by
  simp [tag, toBytes]

/-- The key stream cancels itself. -/
theorem crypt_crypt (key nonce text : List UInt8) :
    crypt key nonce (crypt key nonce text) = text := by
  refine List.ext_getElem (by simp [crypt]) fun i hi hi' => ?_
  simp only [crypt, List.getElem_mapIdx, UInt8.xor_assoc, UInt8.xor_self, UInt8.xor_zero]

/-- **What is sealed is opened.** -/
theorem open_seal (key nonce plaintext : List UInt8) :
    open_ key nonce (seal_ key nonce plaintext) = .ok plaintext := by
  have hlength : (seal_ key nonce plaintext).length =
      (crypt key nonce plaintext).length + 16 := by
    simp [seal_, length_tag]
  unfold open_
  simp only [hlength, Nat.add_sub_cancel]
  rw [seal_, List.take_left, List.drop_left, if_neg (by simp), crypt_crypt]

end Go.AesGcm
