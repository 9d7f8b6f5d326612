import MessageBus.Text.Split
import MessageBus.Url.Percent
import MessageBus.Url.Punycode

/-!
# Hosts

The host of a URL is a name or an address.  With the special schemes a name that ends in a number
has to be an address of version 4, names are folded to lower case and written in ASCII; with other
schemes a name is any text without the delimiters of a URL.
-/

namespace MessageBus

/-- What is wrong with the text of a URL. -/
inductive UrlError where
  | emptyHost
  | domainName
  | port
  | addressV4
  | addressV6
  | domainCharacter
  | relative
  deriving DecidableEq, Repr

/-- The wording of what is wrong. -/
def UrlError.message : UrlError → String
  | emptyHost => "empty host"
  | domainName => "invalid international domain name"
  | port => "invalid port number"
  | addressV4 => "invalid IPv4 address"
  | addressV6 => "invalid IPv6 address"
  | domainCharacter => "invalid domain character"
  | relative => "relative URL without a base"

/-- The host of a URL. -/
inductive Host where
  | empty
  | domain (name : String)
  /-- An address of version 4, as one number. -/
  | v4 (address : Nat)
  /-- An address of version 6, as eight numbers. -/
  | v6 (pieces : List Nat)
  deriving DecidableEq, Repr

namespace Host

/-- A number in lower-case hexadecimal digits. -/
def hex (n : Nat) : String := String.ofList (Nat.toDigits 16 n)

/-- How many zeros a list starts with. -/
def zeros (pieces : List Nat) : Nat := (pieces.takeWhile (· == 0)).length

/-- Start and length of the first longest run of zeros, from place `start` on. -/
def longestZeros (start : Nat) : List Nat → Nat × Nat
  | [] => (start, 0)
  | p :: rest =>
    let here := zeros (p :: rest)
    let later := longestZeros (start + 1) rest
    if later.2 ≤ here then (start, here) else later

/-- The text of an address of version 6: two colons stand for the first longest run of zeros. -/
def renderV6 (pieces : List Nat) : String :=
  let joined (ps : List Nat) := String.intercalate ":" (ps.map hex)
  let (start, length) := longestZeros 0 pieces
  if length < 2 then joined pieces
  else joined (pieces.take start) ++ "::" ++ joined (pieces.drop (start + length))

/-- The text of a host. -/
def render : Host → String
  | empty => ""
  | domain name => name
  | v4 a => String.intercalate "."
      ([a / 0x1000000, a / 0x10000 % 256, a / 0x100 % 256, a % 256].map toString)
  | v6 pieces => "[" ++ renderV6 pieces ++ "]"

/-- The value of some digits, if all are digits of the base and there is one. -/
def readDigits? (base : Nat) (cs : List Char) : Option Nat :=
  if cs.isEmpty then none
  else cs.foldlM (fun n c => do
    let d ← Bytes.hexValue? c
    if d < base then some (n * base + d) else none) 0

/-- One part of an address of version 4: a number with base ten, eight after a zero, or sixteen
after `0x`. -/
def readPart? (cs : List Char) : Option Nat :=
  match cs with
  | ['0', 'x'] | ['0', 'X'] => some 0
  | '0' :: 'x' :: rest | '0' :: 'X' :: rest => readDigits? 16 rest
  | '0' :: c :: rest => readDigits? 8 (c :: rest)
  | cs => readDigits? 10 cs

/-- The parts of a name, without an empty one after a last dot. -/
def parts (cs : List Char) : List (List Char) :=
  let ps := Text.cut (· == '.') cs
  if ps.length ≠ 1 ∧ ps.getLast? = some [] then ps.dropLast else ps

/-- Whether the last part of a name is a number. -/
def endsInNumber (cs : List Char) : Bool :=
  match (parts cs).getLast? with
  | some p => (!p.isEmpty && p.all Char.isDigit) || (p.take 1 == ['0'] && (readPart? p).isSome)
  | none => false

/-- Reads an address of version 4: the last part fills what the parts before it leave. -/
def readV4? (cs : List Char) : Option Nat := do
  let ps := parts cs
  let numbers ← ps.mapM readPart?
  let last ← numbers.getLast?
  let first := numbers.dropLast
  let room := Nat.pow 256 (4 - first.length)
  if 4 < numbers.length ∨ first.any (255 < ·) ∨ room ≤ last then none
  else
    let high := first.foldl (fun n p => n * 256 + p) 0
    some (high * room + last)

/-- One decimal part of an address inside an address of version 6. -/
def readDecimal? (cs : List Char) : Option Nat :=
  if 1 < cs.length ∧ cs.head? = some '0' then none
  else match readDigits? 10 cs with
    | some n => if n < 256 then some n else none
    | none => none

/-- The pieces of an address of version 6 between colons.  The last may be an address of
version 4 where `mayEnd` says so. -/
def readPieces? (mayEnd : Bool) : List (List Char) → Option (List Nat)
  | [] => some []
  | [p] =>
    if p.length ≤ 4 ∧ p.all (· != '.') then (readDigits? 16 p).map fun n => [n]
    else if mayEnd then
      match (Text.cut (· == '.') p).mapM readDecimal? with
      | some [a, b, c, d] => some [a * 256 + b, c * 256 + d]
      | _ => none
    else none
  | p :: rest =>
    if p.length ≤ 4 then do
      let n ← readDigits? 16 p
      let ns ← readPieces? mayEnd rest
      return n :: ns
    else none

/-- What stands before and after the first two colons in a row. -/
def cutGap? : List Char → Option (List Char × List Char)
  | ':' :: ':' :: rest => some ([], rest)
  | c :: rest => (cutGap? rest).map fun (before, after) => (c :: before, after)
  | [] => none

/-- The pieces of a part of an address; an empty part has none. -/
def readGroup? (mayEnd : Bool) (cs : List Char) : Option (List Nat) :=
  if cs.isEmpty then some [] else readPieces? mayEnd (Text.cut (· == ':') cs)

/-- Reads an address of version 6: two colons stand for at least one piece of zero. -/
def readV6? (cs : List Char) : Option (List Nat) :=
  match cutGap? cs with
  | none => do
    let pieces ← readPieces? true (Text.cut (· == ':') cs)
    if pieces.length = 8 then some pieces else none
  | some (before, after) => do
    let front ← readGroup? false before
    let back ← readGroup? true after
    if front.length + back.length < 8 then
      some (front ++ List.replicate (8 - front.length - back.length) 0 ++ back)
    else none

/-- Reads an address of version 6 in brackets; the opening one is read already. -/
def bracketed (rest : List Char) : Except UrlError Host :=
  if rest.getLast? = some ']' then
    match readV6? rest.dropLast with
    | some pieces => .ok (.v6 pieces)
    | none => .error .addressV6
  else .error .addressV6

/-- The delimiters that a host cannot hold. -/
def isDelimiter (c : Char) : Bool :=
  c.toNat = 0 || ['\t', '\n', '\r', ' ', '#', '/', ':', '<', '>', '?', '@', '[', '\\', ']', '^',
    '|'].contains c

/-- The characters that a domain name cannot hold. -/
def isForbidden (c : Char) : Bool := isDelimiter c || c.toNat < 32 || c = '%' || c.toNat = 127

/-- Whether a character is left out of a domain name: soft hyphens, joiners of words, marks of byte
order and selectors of variants. -/
def isIgnored (n : Nat) : Bool :=
  n = 0xAD || n = 0x200B || n = 0x2060 || n = 0x2064 || n = 0xFEFF || (0x180B ≤ n && n ≤ 0x180F)
    || (0xFE00 ≤ n && n ≤ 0xFE0F)

/-- Whether a character stands for a space in a domain name, alone or with a mark on it. -/
def isSpacing (n : Nat) : Bool :=
  [0xA0, 0xA8, 0xAF, 0xB4, 0xB8, 0x202F, 0x205F, 0x3000].contains n || (0x2000 ≤ n && n ≤ 0x200A)

/-- Whether a label of a domain name cannot hold a character: control characters, characters that
only direct the writing, line separators, private ones and those that are none. -/
def isRefused (c : Char) : Bool :=
  let n := c.toNat
  (0x80 ≤ n && n ≤ 0x9F) || (0x200C ≤ n && n ≤ 0x200F) || (0x2028 ≤ n && n ≤ 0x202E)
    || (0x2066 ≤ n && n ≤ 0x206F) || (0xE000 ≤ n && n ≤ 0xF8FF) || (0xFFF9 ≤ n && n ≤ 0xFFFF)
    || 0xE0000 ≤ n

/-- The letters of Latin script that do not stand two apart from their capitals, or stand for
others. -/
def foldLatin? (n : Nat) : Option String :=
  [(0xAA, "a"), (0xB2, "2"), (0xB3, "3"), (0xB5, "\u03bc"), (0xB9, "1"), (0xBA, "o"),
    (0xBC, "1\u20444"), (0xBD, "1\u20442"), (0xBE, "3\u20444"), (0x130, "i\u0307"), (0x132, "ij"),
    (0x133, "ij"), (0x13F, "l\u00b7"), (0x140, "l\u00b7"), (0x149, "\u02bcn"), (0x178, "\u00ff"),
    (0x17F, "s")].lookup n

/-- A character of a domain name as it is compared: letters of the common alphabets in lower case,
wide forms of ASCII as ASCII, other full stops as the full stop. -/
def fold (c : Char) : List Char :=
  let n := c.toNat
  let lower (m : Nat) := [Char.ofNat m]
  if isIgnored n then []
  else if isSpacing n then [' ']
  else if n = 0x3002 ∨ n = 0xFF61 then ['.']
  else if 0xFF01 ≤ n ∧ n ≤ 0xFF5E then [(Char.ofNat (n - 0xFEE0)).toLower]
  else if 0xC0 ≤ n ∧ n ≤ 0xDE ∧ n ≠ 0xD7 then lower (n + 32)
  else match foldLatin? n with
    | some s => s.toList
    | none =>
      if 0x100 ≤ n ∧ n ≤ 0x137 ∧ n % 2 = 0 then lower (n + 1)
      else if 0x139 ≤ n ∧ n ≤ 0x148 ∧ n % 2 = 1 then lower (n + 1)
      else if 0x14A ≤ n ∧ n ≤ 0x177 ∧ n % 2 = 0 then lower (n + 1)
      else if 0x179 ≤ n ∧ n ≤ 0x17E ∧ n % 2 = 1 then lower (n + 1)
      else if 0x391 ≤ n ∧ n ≤ 0x3A9 then lower (n + 32)
      else if 0x400 ≤ n ∧ n ≤ 0x40F then lower (n + 80)
      else if 0x410 ≤ n ∧ n ≤ 0x42F then lower (n + 32)
      else if 0x460 ≤ n ∧ n ≤ 0x481 ∧ n % 2 = 0 then lower (n + 1)
      else if 0x531 ≤ n ∧ n ≤ 0x556 then lower (n + 48)
      else [c.toLower]

/-- What stands in front of a label that is written in ASCII. -/
def encodedMark : List Char := ['x', 'n', '-', '-']

/-- Whether an ASCII form without the mark stands for a label that needs one. -/
def isEncodedLabel (cs : List Char) : Bool :=
  match Punycode.decode? cs with
  | some label =>
    label.any (128 ≤ ·.toNat) && label.all fun c => fold c == [c] && !isRefused c
  | none => false

/-- A label of a domain name in ASCII, if it is one. -/
def label? (cs : List Char) : Option (List Char) :=
  if cs.all (·.toNat < 128) then
    if cs.take 4 = encodedMark ∧ ¬ isEncodedLabel (cs.drop 4) then none else some cs
  else if cs.take 4 = encodedMark ∨ cs.any isRefused then none
  else some (encodedMark ++ Punycode.encode cs)

/-- A domain name in ASCII, from its encoded text. -/
def domainName (cs : List Char) : Except UrlError (List Char) :=
  match Bytes.text? (Percent.decode (utf8 (String.ofList cs))) with
  | none => .error .domainName
  | some s =>
    match (Text.cut (· == '.') (s.toList.flatMap fold)).mapM label? with
    | none => .error .domainName
    | some labels =>
      let name := ['.'].intercalate labels
      if name.any isForbidden then .error .domainName else .ok name

/-- The host of a URL with a special scheme. -/
def special (cs : List Char) : Except UrlError Host :=
  match cs with
  | '[' :: rest => bracketed rest
  | cs => do
    let name ← domainName cs
    if name.isEmpty then .error .emptyHost
    else if endsInNumber name then
      match readV4? name with
      | some a => .ok (.v4 a)
      | none => .error .addressV4
    else .ok (.domain (String.ofList name))

/-- The host of a URL with another scheme. -/
def general (cs : List Char) : Except UrlError Host :=
  match cs with
  | [] => .ok .empty
  | '[' :: rest => bracketed rest
  | cs =>
    if cs.any isDelimiter then .error .domainCharacter
    else .ok (.domain (String.ofList (Percent.encode Percent.inControls cs)))

end Host

end MessageBus
