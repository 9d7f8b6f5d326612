import MessageBus.Json.Basic
import MessageBus.Number.Shortest

/-!
# Numbers in JSON text

`Number.chars` writes a number: an integer in decimal, a floating-point number with the fewest
digits that read back.  `Number.read?` reads the text of one number.

A number without fraction and exponent that fits a 64-bit word is an integer, `-0` excepted.  Any
other is a floating-point number made from a 64-bit significand by one multiplication or division
with a power of ten, so it is not always the nearest one: digits beyond the significand are
dropped.
-/

namespace MessageBus.Json.Number

/-! ## Writing -/

/-- Zeros. -/
def zeros (n : Nat) : List Char := List.replicate n '0'

/-- Digits with the point after the first `n` of them, padded to at least one digit on each
side. -/
def pointed (digits : List Char) (point : Int) : List Char :=
  if point ≤ 0 then '0' :: '.' :: (zeros (-point).toNat ++ digits)
  else
    let n := point.toNat
    if digits.length ≤ n then digits ++ zeros (n - digits.length) ++ ['.', '0']
    else digits.take n ++ '.' :: digits.drop n

/-- Digits in scientific notation; the exponent always has its sign. -/
def scientific (digits : List Char) (exponent : Int) : List Char :=
  let mantissa := match digits with
    | [d] => [d]
    | d :: rest => d :: '.' :: rest
    | [] => ['0']
  let sign := if exponent < 0 then '-' else '+'
  mantissa ++ 'e' :: sign :: Nat.toDigits 10 exponent.natAbs

/-- Removes zeros at the end of a digit sequence. -/
def dropTrailingZeros (digits : List Char) : List Char :=
  (digits.reverse.dropWhile (· == '0')).reverse

/-- The text of a finite floating-point number: positional from `10 ^ -5` to below `10 ^ 16`,
scientific outside, always with a point or an exponent. -/
def renderFloat (x : Binary64) : List Char :=
  let sign := if x.isNegative then ['-'] else []
  if x.magnitude = 0 then sign ++ ['0', '.', '0']
  else
    let d := x.shortest
    let all := Nat.toDigits 10 d.digits
    let first := d.exponent + all.length - 1
    let digits := dropTrailingZeros all
    if -5 ≤ first ∧ first ≤ 15 then sign ++ pointed digits (first + 1)
    else sign ++ scientific digits first

/-- The text of a number.  A floating-point number that is not finite has none and reads
`null`. -/
def chars : Number → List Char
  | .int i => if i < 0 then '-' :: Nat.toDigits 10 i.natAbs else Nat.toDigits 10 i.natAbs
  | .float x => if x.isFinite then renderFloat x else ['n', 'u', 'l', 'l']

/-! ## Reading -/

/-- The bound of 64-bit words. -/
def wordBound : Nat := 0x10000000000000000

/-- Digits gathered into a 64-bit significand, and what they add to the exponent. -/
structure Gathered where
  significand : Nat
  exponent : Int
  overflowed : Bool
  deriving Repr

/-- The value of a decimal digit. -/
def digit (c : Char) : Nat := c.toNat - 48

/-- Gathers the integer part.  From the first digit that does not fit on, each digit only adds one
to the exponent. -/
def gatherInteger : List Char → Nat → Gathered
  | [], n => ⟨n, 0, false⟩
  | c :: rest, n =>
    let next := n * 10 + digit c
    if next < wordBound then gatherInteger rest next
    else ⟨n, rest.length + 1, true⟩

/-- Gathers the fraction.  The first digit that does not fit ends it. -/
def gatherFraction : List Char → Nat → Int → Nat × Int
  | [], n, e => (n, e)
  | c :: rest, n, e =>
    let next := n * 10 + digit c
    if next < wordBound then gatherFraction rest next (e - 1) else (n, e)

/-- The bound of the written exponent. -/
def exponentBound : Nat := 0x80000000

/-- A significand scaled by powers of ten, `none` when the result is out of range. -/
def scaleFloat (x : Binary64) (exponent : Int) : Nat → Option Binary64
  | 0 => some x
  | fuel + 1 =>
    if exponent.natAbs ≤ 308 then
      if 0 ≤ exponent then
        let y := x.mul (Binary64.tenPow exponent.natAbs)
        if y.isFinite then some y else none
      -- a division cannot leave the range, it can only go down to zero
      else some (x.div (Binary64.tenPow exponent.natAbs))
    else if x.magnitude = 0 then some x
    else if 0 ≤ exponent then none
    else scaleFloat (x.div (Binary64.tenPow 308)) (exponent + 308) fuel

/-- A floating-point number from its parts.  Four divisions by `10 ^ 308` leave nothing of any
significand. -/
def assemble (negative : Bool) (significand : Nat) (exponent : Int) : Option Number := do
  let x ← scaleFloat (Binary64.ofInt significand) exponent 8
  return .float (if negative then x.neg else x)

/-- Keeps an exponent within the 32-bit range. -/
def saturate (e : Int) : Int := max (-2147483648) (min 2147483647 e)

/-- Applies a written exponent. -/
def withExponent (negative : Bool) (significand : Nat) (exponent : Int) (down : Bool)
    (digits : List Char) : Option Number :=
  let written := digits.foldl (fun n c => n * 10 + digit c) 0
  if written < exponentBound then
    let total := if down then exponent - written else exponent + written
    assemble negative significand (saturate total)
  -- an exponent that does not fit is out of range upwards, and zero otherwise
  else if significand ≠ 0 ∧ !down then none
  else assemble negative 0 0

/-- An integer that fits, or the floating-point number for it. -/
def ofInteger (negative : Bool) (g : Gathered) : Option Number :=
  if g.overflowed then assemble negative g.significand g.exponent
  else if !negative then some (.int g.significand)
  -- minus zero is no integer, and below `-2 ^ 63` none fits
  else if g.significand = 0 ∨ wordBound / 2 < g.significand then
    some (.float (Binary64.ofInt g.significand).neg)
  else some (.int (-(g.significand : Int)))

/-- Splits off the decimal digits at the front. -/
def spanDigits (cs : List Char) : List Char × List Char :=
  (cs.takeWhile Char.isDigit, cs.dropWhile Char.isDigit)

/-- Reads an exponent after its mark: an optional sign and digits up to the end. -/
def readExponent (negative : Bool) (significand : Nat) (exponent : Int) (cs : List Char) :
    Option Number :=
  let (down, cs) := match cs with
    | '-' :: rest => (true, rest)
    | '+' :: rest => (false, rest)
    | rest => (false, rest)
  match spanDigits cs with
  | ([], _) => none
  | (digits, []) => withExponent negative significand exponent down digits
  | _ => none

/-- Reads what follows the integer part. -/
def readRest (negative : Bool) (g : Gathered) (cs : List Char) : Option Number :=
  match cs with
  | [] => ofInteger negative g
  | '.' :: rest =>
    match spanDigits rest with
    | ([], _) => none
    | (digits, tail) =>
      let (significand, exponent) := gatherFraction digits g.significand g.exponent
      match tail with
      | [] => assemble negative significand exponent
      | c :: more =>
        if c = 'e' ∨ c = 'E' then readExponent negative significand exponent more else none
  | c :: more =>
    if c = 'e' ∨ c = 'E' then readExponent negative g.significand g.exponent more else none

/-- Reads the text of one number: no leading zeros, digits on both sides of the point. -/
def read? (cs : List Char) : Option Number :=
  let (negative, cs) := match cs with
    | '-' :: rest => (true, rest)
    | rest => (false, rest)
  match spanDigits cs with
  | ([], _) => none
  | ('0' :: _ :: _, _) => none
  | (digits, rest) => readRest negative (gatherInteger digits 0) rest

end MessageBus.Json.Number
