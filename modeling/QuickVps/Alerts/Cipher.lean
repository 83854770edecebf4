import QuickVps.Alerts.Service
import QuickVps.Go.AesGcm
import QuickVps.Go.Base64

/-!
# The cipher of the secrets

`Cipher` as the service has it: a ciphertext is the Base64 text of a random nonce and of what
AES-GCM seals with it.

* `encryptText`, `decryptText` — `Encrypt` and `Decrypt`, and `aesCrypto`, the two with Base64;
* `openSecret_encrypt` — an encrypted secret is opened with the same key.
-/

namespace QuickVps.Alerts

open Go

/-- The nonce of GCM has 12 bytes. -/
def nonceSize : Nat := 12

/-- The text of bytes. Only texts are ever sealed. -/
def ofBytes (bs : List UInt8) : String := (String.fromUTF8? ⟨bs.toArray⟩).getD ""

theorem ofBytes_bytes (s : String) : ofBytes (bytes s) = s := by
  have h : (⟨(bytes s).toArray⟩ : ByteArray) = s.toUTF8 := by simp [bytes]
  rw [ofBytes, h, String.fromUTF8?, String.toUTF8_eq_toByteArray, dif_pos s.isValidUTF8]
  rfl

/-- `Encrypt` after the nonce is read. -/
def encryptText (key nonce : List UInt8) (plaintext : String) : String :=
  Base64.encodeToString (nonce ++ AesGcm.seal_ key nonce (bytes plaintext))

def decryptText (key : List UInt8) (ciphertext : String) : Except String String :=
  match Base64.decodeString ciphertext with
  | .error err => .error ("decode ciphertext: " ++ err)
  | .ok packed =>
    if packed.length < nonceSize then .error "ciphertext too short"
    else
      match AesGcm.open_ key (packed.take nonceSize) (packed.drop nonceSize) with
      | .error err => .error ("decrypt: " ++ err)
      | .ok plain => .ok (ofBytes plain)

def aesCrypto : Crypto where
  decodeBase64 := Base64.decodeString
  encrypt := encryptText
  decrypt := decryptText

variable {key nonce : List UInt8}

theorem decryptText_encryptText (hnonce : nonce.length = nonceSize) (plaintext : String) :
    decryptText key (encryptText key nonce plaintext) = .ok plaintext := by
  have hlong : ¬ (nonce ++ AesGcm.seal_ key nonce (bytes plaintext)).length < nonceSize := by
    rw [List.length_append, hnonce]
    omega
  rw [decryptText, encryptText, Base64.decodeString_encodeToString]
  simp only
  rw [if_neg hlong, List.take_left' hnonce, List.drop_left' hnonce, AesGcm.open_seal]
  exact congrArg Except.ok (ofBytes_bytes plaintext)

theorem encryptText_ne_empty (hnonce : nonce.length = nonceSize) (plaintext : String) :
    encryptText key nonce plaintext ≠ "" := by
  refine Base64.encodeToString_ne_empty fun hnil => ?_
  rw [(List.append_eq_nil_iff.1 hnil).1] at hnonce
  cases hnonce

/-- **A secret that is stored is opened again.** -/
theorem openSecret_encrypt (hnonce : nonce.length = nonceSize) (plaintext : String) :
    openSecret aesCrypto key (aesCrypto.encrypt key nonce plaintext) = plaintext := by
  have hne : aesCrypto.encrypt key nonce plaintext ≠ "" := encryptText_ne_empty hnonce plaintext
  have hround : aesCrypto.decrypt key (aesCrypto.encrypt key nonce plaintext) = .ok plaintext :=
    decryptText_encryptText hnonce plaintext
  rw [openSecret, if_neg hne, hround]

end QuickVps.Alerts
