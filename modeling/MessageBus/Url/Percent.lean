import MessageBus.Text.Bytes

/-!
# Percent encoding

`encode` writes the UTF-8 bytes of a text, those of a given set as a percent sign and two
upper-case hexadecimal digits.  Each part of a URL has its set; control characters and everything
outside of ASCII are in all of them.
-/

namespace MessageBus.Percent

/-- Whether a byte is a control character or outside of ASCII. -/
def inControls (b : UInt8) : Bool := b < 32 || 126 < b

/-- Whether a byte is one of some characters. -/
def isOneOf (chars : List Char) (b : UInt8) : Bool := chars.any fun c => c.toNat == b.toNat

/-- The bytes that are encoded in a fragment. -/
def inFragment (b : UInt8) : Bool := inControls b || isOneOf [' ', '"', '<', '>', '`'] b

/-- The bytes that are encoded in a path. -/
def inPath (b : UInt8) : Bool := inFragment b || isOneOf ['#', '?', '\x7b', '\x7d'] b

/-- The bytes that are encoded in a user name or a password. -/
def inUserInfo (b : UInt8) : Bool :=
  inPath b || isOneOf ['/', ':', ';', '=', '@', '[', '\\', ']', '^', '|'] b

/-- The bytes that are encoded in a query. -/
def inQuery (b : UInt8) : Bool := inControls b || isOneOf [' ', '"', '#', '<', '>'] b

/-- The bytes that are encoded in the query of a special URL. -/
def inSpecialQuery (b : UInt8) : Bool := inQuery b || isOneOf ['\''] b

/-- One upper-case hexadecimal digit. -/
def digit (n : Nat) : Char := if n < 10 then Char.ofNat (48 + n) else Char.ofNat (55 + n)

/-- One byte, encoded if it is in the set. -/
def encodeByte (encoded : UInt8 → Bool) (b : UInt8) : List Char :=
  if encoded b then ['%', digit (b.toNat / 16), digit (b.toNat % 16)] else [Char.ofNat b.toNat]

/-- Some characters, with the bytes of a set encoded. -/
def encode (encoded : UInt8 → Bool) (cs : List Char) : List Char :=
  (utf8 (String.ofList cs)).flatMap (encodeByte encoded)

/-- The bytes of a text with its encoded bytes decoded.  A percent sign without two digits stands
for itself. -/
def decode : Bytes → Bytes
  | 0x25 :: a :: b :: rest =>
    match Bytes.hexValue? (Char.ofNat a.toNat), Bytes.hexValue? (Char.ofNat b.toNat) with
    | some hi, some lo => UInt8.ofNat (16 * hi + lo) :: decode rest
    | _, _ => 0x25 :: decode (a :: b :: rest)
  | b :: rest => b :: decode rest
  | [] => []

end MessageBus.Percent
