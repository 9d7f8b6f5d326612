import MessageBus.Number.Binary64

/-!
# Numbers from decimal text

A number is digits with an optional point and an optional exponent, or a word for infinity or for
no number, in either case with an optional sign.  It is rounded once.
-/

namespace MessageBus.Binary64

/-- Whether a character is a decimal digit. -/
def isDigit (c : Char) : Bool := '0' ≤ c && c ≤ '9'

/-- The number that digits write. -/
def digitsValue (digits : List Char) : Nat :=
  digits.foldl (fun n c => 10 * n + (c.toNat - 48)) 0

/-- An optional sign, and what follows it. -/
def splitSign : List Char → Bool × List Char
  | '-' :: rest => (true, rest)
  | '+' :: rest => (false, rest)
  | cs => (false, cs)

/-- The exponent that ends a number. -/
def readExponent? : List Char → Option Int
  | [] => some 0
  | c :: rest =>
    if c = 'e' || c = 'E' then
      let (negative, digits) := splitSign rest
      if digits.isEmpty || !digits.all isDigit then none
      else some (if negative then -(digitsValue digits : Int) else digitsValue digits)
    else none

/-- How far a decimal point can be from the leading digit of a number that is not rounded to zero
or to infinity. -/
def exponentReach : Int := 400

/-- The number nearest to some digits with the point moved. -/
def ofDigits (negative : Bool) (digits : List Char) (exponent : Int) : Binary64 :=
  let digits := digits.dropWhile (· == '0')
  let leading := exponent + digits.length
  if digits.isEmpty || leading < -exponentReach then ofMagnitude negative 0
  else if exponentReach < leading then infinity negative
  else ofRatio negative (digitsValue digits * tenTo exponent.toNat) (tenTo (-exponent).toNat)

/-- The number that a text without its sign writes. -/
def readMagnitude? (negative : Bool) (cs : List Char) : Option Binary64 :=
  let word := String.ofList (cs.map Char.toLower)
  if word = "inf" || word = "infinity" then some (infinity negative)
  else if word = "nan" then some nan
  else
    let whole := cs.takeWhile isDigit
    let rest := cs.drop whole.length
    let (fraction, rest) := match rest with
      | '.' :: after => (after.takeWhile isDigit, after.dropWhile isDigit)
      | _ => ([], rest)
    if whole.isEmpty && fraction.isEmpty then none
    else (readExponent? rest).map fun e =>
      ofDigits negative (whole ++ fraction) (e - fraction.length)

/-- The number that a text writes. -/
def ofDecimal? (s : String) : Option Binary64 :=
  let (negative, cs) := splitSign s.toList
  readMagnitude? negative cs

end MessageBus.Binary64
