import MessageBus.Cipher.Aes
import MessageBus.Cipher.Feedback
import MessageBus.Text.Base64
import MessageBus.Error

/-!
# Sealed bodies

A sealed body is base64 text of an initialization vector of sixteen bytes followed by the text
encrypted with AES in cipher feedback.  There is no authentication: opening a body with the wrong
key gives bytes that mean nothing.

## Main statements

* `keepsSize_aes` : the block function of every key makes blocks out of blocks.
-/

namespace MessageBus.Sealed

/-- How many bytes an initialization vector has. -/
def vectorSize : Nat := 16

/-- The failure for a key of an unusable size. -/
def badKeySize (n : Nat) : BusError := .crypto ("invalid key size " ++ toString n)

/-- Seals a text with a key and an initialization vector.  `cipher` is the block function of each
key. -/
def closeBy (cipher : Bytes → Bytes → Bytes) (key vector plain : Bytes) : BusResult String :=
  if Aes.isKeySize key.length then
    .ok (Base64.encode (vector ++ Feedback.encrypt (cipher key) vector plain))
  else .error (badKeySize key.length)

/-- Opens a sealed body with a key; ASCII whitespace around it is ignored. -/
def openBy (cipher : Bytes → Bytes → Bytes) (key wire : Bytes) : BusResult Bytes :=
  match Base64.decode (Bytes.trim wire) with
  | .error e => .error (.decryptionFailed ("bad base64: " ++ e.message))
  | .ok data =>
    if data.length < vectorSize then .error (.decryptionFailed "ciphertext too short")
    else if Aes.isKeySize key.length then
      .ok (Feedback.decrypt (cipher key) (data.take vectorSize) (data.drop vectorSize))
    else .error (badKeySize key.length)

/-- Seals a text with AES. -/
def close (key vector plain : Bytes) : BusResult String := closeBy Aes.encrypt key vector plain

/-- Opens what was sealed with AES. -/
def openWith (key wire : Bytes) : BusResult Bytes := openBy Aes.encrypt key wire

theorem keepsSize_aes (key : Bytes) : Feedback.KeepsSize vectorSize (Aes.encrypt key) :=
  fun block _ => Aes.length_encrypt key block

end MessageBus.Sealed
