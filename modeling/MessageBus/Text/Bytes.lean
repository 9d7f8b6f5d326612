/-!
# Bytes and text

A body on the bus is a sequence of bytes; a text is a `String`.  `utf8` writes a text as bytes and
`Bytes.text?` reads bytes that are well-formed UTF-8 back, refusing everything else (stray
continuation bytes, overlong forms, encoded surrogates).

## Main statements

* `text?_utf8` : writing and then reading gives the text back.
* `utf8_of_text?` : only the bytes of a text are read as that text.
-/

namespace MessageBus

/-- A sequence of bytes. -/
abbrev Bytes := List UInt8

/-- The UTF-8 bytes of a text. -/
def utf8 (s : String) : Bytes :=
  s.toByteArray.data.toList

namespace Bytes

/-- The text that the bytes encode in UTF-8, if they encode one. -/
def text? (b : Bytes) : Option String :=
  String.fromUTF8? ⟨b.toArray⟩

theorem text?_utf8 (s : String) : text? (utf8 s) = some s := by
  have h : (⟨(utf8 s).toArray⟩ : ByteArray) = s.toByteArray := by simp [utf8]
  unfold text? String.fromUTF8?
  rw [h, dif_pos s.isValidUTF8]
  rfl

theorem utf8_of_text? {b : Bytes} {s : String} (h : text? b = some s) : utf8 s = b := by
  unfold text? String.fromUTF8? at h
  split at h
  · cases h
    simp [utf8, String.fromUTF8]
  · cases h

/-- ASCII whitespace: space, tab, line feed, carriage return and form feed (not vertical tab). -/
def isBlank (b : UInt8) : Bool :=
  b == 0x20 || b == 0x09 || b == 0x0A || b == 0x0D || b == 0x0C

/-- The bytes without ASCII whitespace at either end. -/
def trim (b : Bytes) : Bytes :=
  ((b.dropWhile isBlank).reverse.dropWhile isBlank).reverse

/-- One hexadecimal digit, in lower case. -/
def hexDigit (n : Nat) : Char :=
  if n < 10 then Char.ofNat (48 + n) else Char.ofNat (87 + n)

/-- The bytes as lower-case hexadecimal digits, two for each byte. -/
def hex (b : Bytes) : String :=
  String.ofList (b.flatMap fun x => [hexDigit (x.toNat / 16), hexDigit (x.toNat % 16)])

/-- The value of a hexadecimal digit, of either case. -/
def hexValue? (c : Char) : Option Nat :=
  if '0' ≤ c ∧ c ≤ '9' then some (c.toNat - 48)
  else if 'a' ≤ c ∧ c ≤ 'f' then some (c.toNat - 87)
  else if 'A' ≤ c ∧ c ≤ 'F' then some (c.toNat - 55)
  else none

/-- Reads pairs of hexadecimal digits. -/
def ofHex? : List Char → Option Bytes
  | [] => some []
  | a :: b :: rest => do
    let hi ← hexValue? a
    let lo ← hexValue? b
    let tail ← ofHex? rest
    return UInt8.ofNat (16 * hi + lo) :: tail
  | [_] => none

end Bytes

end MessageBus
