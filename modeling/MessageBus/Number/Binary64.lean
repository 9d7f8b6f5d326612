/-!
# Binary floating-point numbers

A number of the 64-bit IEEE format is its word: a sign bit, eleven exponent bits and 52 fraction
bits.  Keeping the word makes equality decidable and the order computable, and arithmetic is exact
integer arithmetic followed by one rounding (`ofRatio`, to nearest, ties to even).

## Main statements

* `lt_irrefl`, `lt_trans` : the order is a strict order, not-a-number being below nothing.
* `lt_asymm_of_lt` : of two numbers at most one is below the other.
-/

namespace MessageBus

/-- A 64-bit floating-point number, as its word. -/
structure Binary64 where
  /-- Sign, exponent and fraction bits, from the top. -/
  bits : UInt64
  deriving DecidableEq, Inhabited, Repr

namespace Binary64

/-- The sign bit. -/
def isNegative (x : Binary64) : Bool := 0x8000000000000000 ≤ x.bits.toNat

/-- The word without its sign bit: the magnitudes are ordered as these numbers are. -/
def magnitude (x : Binary64) : Nat := x.bits.toNat % 0x8000000000000000

/-- The magnitude word of infinity; greater ones are not numbers. -/
def infinityWord : Nat := 0x7FF0000000000000

/-- Whether the word stands for no number at all. -/
def isNaN (x : Binary64) : Bool := infinityWord < x.magnitude

/-- Whether the word is neither infinite nor without a value. -/
def isFinite (x : Binary64) : Bool := x.magnitude < infinityWord

/-- A word from its sign and magnitude. -/
def ofMagnitude (negative : Bool) (m : Nat) : Binary64 :=
  ⟨UInt64.ofNat (if negative then 0x8000000000000000 + m else m)⟩

/-- Positive zero. -/
def zero : Binary64 := ⟨0⟩

/-- Positive or negative infinity. -/
def infinity (negative : Bool) : Binary64 := ofMagnitude negative infinityWord

/-- The quiet word that is not a number. -/
def nan : Binary64 := ofMagnitude false 0x7FF8000000000000

/-- The number with its sign bit flipped. -/
def neg (x : Binary64) : Binary64 := ofMagnitude (!x.isNegative) x.magnitude

/-- A key whose order is the order of the numbers: both zeros have key zero. -/
def orderKey (x : Binary64) : Int :=
  if x.isNegative then -(x.magnitude : Int) else x.magnitude

/-- `x < y` as numbers.  False when either is not a number. -/
def lt (x y : Binary64) : Bool :=
  !x.isNaN && !y.isNaN && decide (x.orderKey < y.orderKey)

instance : LT Binary64 := ⟨fun x y => x.lt y = true⟩

instance (x y : Binary64) : Decidable (x < y) := inferInstanceAs (Decidable (x.lt y = true))

theorem lt_iff {x y : Binary64} :
    x < y ↔ x.isNaN = false ∧ y.isNaN = false ∧ x.orderKey < y.orderKey := by
  show x.lt y = true ↔ _
  simp [lt, and_assoc]

theorem lt_irrefl (x : Binary64) : ¬ x < x := by
  simp [lt_iff]

theorem lt_trans {x y z : Binary64} (h : x < y) (k : y < z) : x < z := by
  rw [lt_iff] at *
  exact ⟨h.1, k.2.1, by omega⟩

theorem lt_asymm_of_lt {x y : Binary64} (h : x < y) : ¬ y < x := by
  rw [lt_iff] at *
  omega

/-- Two to the power `n`. -/
def twoTo (n : Nat) : Nat := Nat.pow 2 n

/-- Ten to the power `n`. -/
def tenTo (n : Nat) : Nat := Nat.pow 10 n

/-- The leading one of a significand, which stands above the 52 bits of the fraction. -/
def leadingOne : Nat := twoTo 52

/-- The fraction field with the leading one that every normal number has. -/
def significand (x : Binary64) : Nat :=
  let fraction := x.magnitude % leadingOne
  if x.magnitude < leadingOne then fraction else leadingOne + fraction

/-- The value of a finite number's magnitude is `significand * 2 ^ (scale - 1074)`. -/
def scale (x : Binary64) : Nat := x.magnitude / leadingOne - 1

/-- Numerator and denominator of a finite number's magnitude. -/
def ratio (x : Binary64) : Nat × Nat :=
  (x.significand * twoTo x.scale, twoTo 1074)

/-- The integer nearest to `num / den`, ties going to the even one. -/
def roundDiv (num den : Nat) : Nat :=
  let q := num / den
  let r := num % den
  if 2 * r < den then q
  else if den < 2 * r then q + 1
  else if q % 2 = 0 then q else q + 1

/--
The number nearest to `num / den`, ties going to the even significand; infinite from halfway above
the greatest number on.

With `2 ^ 52 ≤ num / den * 2 ^ s < 2 ^ 53` the significand is that product rounded, and `s` never
exceeds 1074, which makes small numbers subnormal.  Adding the significand to the exponent field
carries over by itself when rounding reaches the next power of two.
-/
def ofRatio (negative : Bool) (num den : Nat) : Binary64 :=
  if num = 0 ∨ den = 0 then ofMagnitude negative 0
  else
    let guess : Int := 52 - ((num.log2 : Int) - (den.log2 : Int))
    let scaled (s : Int) : Nat × Nat := (num * twoTo s.toNat, den * twoTo (-s).toNat)
    let (n, d) := scaled guess
    let s := min (if n / d < leadingOne then guess + 1 else guess) 1074
    let (n, d) := scaled s
    let word : Int := (1074 - s) * leadingOne + roundDiv n d
    if word < infinityWord then ofMagnitude negative word.toNat else infinity negative

/-- The number nearest to an integer. -/
def ofInt (i : Int) : Binary64 := ofRatio (decide (i < 0)) i.natAbs 1

/-- Ten to the power `k`, rounded once. -/
def tenPow (k : Nat) : Binary64 := ofRatio false (tenTo k) 1

/-- The product of two finite numbers, rounded once. -/
def mul (x y : Binary64) : Binary64 :=
  ofRatio (x.isNegative != y.isNegative) (x.ratio.1 * y.ratio.1) (x.ratio.2 * y.ratio.2)

/-- The quotient of two finite numbers, the second not zero, rounded once. -/
def div (x y : Binary64) : Binary64 :=
  ofRatio (x.isNegative != y.isNegative) (x.ratio.1 * y.ratio.2) (x.ratio.2 * y.ratio.1)

end Binary64

end MessageBus
