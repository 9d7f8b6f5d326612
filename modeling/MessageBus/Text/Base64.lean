import MessageBus.Text.Bytes

/-!
# Base64 text with the URL-safe alphabet

`encode` writes bytes with the alphabet `A-Z a-z 0-9 - _` and padding.  `decode` accepts exactly
what `encode` writes and names what is wrong with anything else: bytes outside the alphabet, bad
lengths, bad padding, and unused bits that are not zero.
-/

namespace MessageBus.Base64

/-- What is wrong with a text. -/
inductive Error where
  | symbol (byte : UInt8) (offset : Nat)
  | length (n : Nat)
  | padding
  | lastSymbol (byte : UInt8) (offset : Nat)
  deriving DecidableEq, Repr

/-- The wording of an error. -/
def Error.message : Error → String
  | symbol b i => "Invalid symbol " ++ toString b.toNat ++ ", offset " ++ toString i ++ "."
  | length n => "Invalid input length: " ++ toString n
  | padding => "Invalid padding"
  | lastSymbol b i => "Invalid last symbol " ++ toString b.toNat ++ ", offset " ++ toString i ++ "."

/-- The symbol of a six-bit value. -/
def symbol (n : Nat) : UInt8 :=
  if n < 26 then UInt8.ofNat (65 + n)
  else if n < 52 then UInt8.ofNat (71 + n)
  else if n < 62 then UInt8.ofNat (n - 4)
  else if n = 62 then 45
  else 95

/-- The value of a symbol. -/
def value? (b : UInt8) : Option Nat :=
  let n := b.toNat
  if 65 ≤ n ∧ n ≤ 90 then some (n - 65)
  else if 97 ≤ n ∧ n ≤ 122 then some (n - 71)
  else if 48 ≤ n ∧ n ≤ 57 then some (n + 4)
  else if n = 45 then some 62
  else if n = 95 then some 63
  else none

/-- The padding byte. -/
def pad : UInt8 := 61

/-- Writes bytes, three at a time. -/
def encodeBytes : Bytes → Bytes
  | a :: b :: c :: rest =>
    let n := a.toNat * 65536 + b.toNat * 256 + c.toNat
    symbol (n / 262144) :: symbol (n / 4096 % 64) :: symbol (n / 64 % 64) :: symbol (n % 64)
      :: encodeBytes rest
  | [a, b] =>
    let n := a.toNat * 1024 + b.toNat * 4
    [symbol (n / 4096), symbol (n / 64 % 64), symbol (n % 64), pad]
  | [a] =>
    let n := a.toNat * 16
    [symbol (n / 64), symbol (n % 64), pad, pad]
  | [] => []

/-- The text of some bytes. -/
def encode (b : Bytes) : String :=
  String.ofList ((encodeBytes b).map fun x => Char.ofNat x.toNat)

/-- The first byte outside the alphabet, from an offset on. -/
def badSymbol? (offset : Nat) : Bytes → Option Error
  | [] => none
  | b :: rest => if (value? b).isNone then some (.symbol b offset) else badSymbol? (offset + 1) rest

/-- Checks the last group from left to right.  `start` is its offset, `position` the place in the
group, and `firstPad` the place of its first padding byte. -/
def badGroup? (start position : Nat) (firstPad : Option Nat) : Bytes → Option Error
  | [] => none
  | b :: rest =>
    if b = pad then
      if position < 2 then some (.symbol pad (start + position))
      else badGroup? start (position + 1) (some (firstPad.getD position)) rest
    else match firstPad with
      | some p => some (.symbol pad (start + p))
      | none =>
        if (value? b).isNone then some (.symbol b (start + position))
        else badGroup? start (position + 1) none rest

/-- Where the last group begins: the last one to four bytes, whatever fills up to a multiple of
four. -/
def lastGroup (n : Nat) : Nat := if n % 4 = 0 then n - 4 else n - n % 4

/-- The first thing wrong with a text, in the order in which the checks are made. -/
def error? (b : Bytes) : Option Error :=
  let n := b.length
  let start := lastGroup n
  let group := b.drop start
  let symbols := (group.takeWhile (· != pad)).length
  let last := group.getD (symbols - 1) 0
  -- two symbols leave four bits over and three leave two
  let unused := match symbols with
    | 2 => 16
    | 3 => 4
    | _ => 1
  -- a single byte too many is named before anything else, unless it could be a symbol
  let straggler : Option Error :=
    match b.getLast? with
    | some x => if n % 4 = 1 ∧ x ≠ pad ∧ (value? x).isNone then some (.symbol x (n - 1)) else none
    | none => none
  straggler
    <|> badSymbol? 0 (b.take start)
    <|> badGroup? start 0 none group
    <|> (if 0 < n ∧ symbols < 2 then some (.length (start + symbols)) else none)
    <|> (if group.length % 4 ≠ 0 then some .padding else none)
    <|> (if ((value? last).getD 0) % unused ≠ 0 then some (.lastSymbol last (start + symbols - 1))
         else none)

/-- The bytes that four symbols, or the two or three of the last group, stand for. -/
def decodeValues : List Nat → Bytes
  | a :: b :: c :: d :: rest =>
    let n := a * 262144 + b * 4096 + c * 64 + d
    UInt8.ofNat (n / 65536) :: UInt8.ofNat (n / 256 % 256) :: UInt8.ofNat (n % 256)
      :: decodeValues rest
  | [a, b, c] =>
    let n := a * 4096 + b * 64 + c
    [UInt8.ofNat (n / 1024), UInt8.ofNat (n / 4 % 256)]
  | [a, b] => [UInt8.ofNat ((a * 64 + b) / 16)]
  | _ => []

/-- Reads a text. -/
def decode (b : Bytes) : Except Error Bytes :=
  match error? b with
  | some e => .error e
  | none => .ok (decodeValues (b.filterMap value?))

end MessageBus.Base64
