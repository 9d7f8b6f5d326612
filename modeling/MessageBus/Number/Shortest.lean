import MessageBus.Number.Binary64

/-!
# Shortest decimal digits

`Binary64.shortest` finds, for a finite positive number, the fewest decimal digits that read back
as the same number, and of those digits the nearest ones.  The reals that round to a number form an
interval; for one, two, three … digits the two neighbours of the number on that decimal grid are
tested against it, in exact arithmetic, and the first grid with a hit wins.
-/

namespace MessageBus.Binary64

/-- How many decimal digits a natural number has; zero has one. -/
def digitCount (n : Nat) : Nat := (Nat.toDigits 10 n).length

/-- The exponent `x` with `10 ^ x ≤ num / den < 10 ^ (x + 1)`, for a positive quotient. -/
def decimalExponent (num den : Nat) : Int :=
  if den ≤ num then (digitCount (num / den) : Int) - 1
  else
    let k := digitCount (den / num) - 1
    if den ≤ num * tenTo k then -(k : Int) else -(k : Int) - 1

/-- The reals that round to a number: twice the bounds over one denominator, and whether the
bounds themselves belong. -/
structure Interval where
  low : Nat
  high : Nat
  closed : Bool
  deriving Repr

/-- Whether `value` lies in the interval, all over the same denominator. -/
def Interval.contains (i : Interval) (value : Nat) : Bool :=
  (decide (i.low < value) && decide (value < i.high))
    || (i.closed && (value == i.low || value == i.high))

/-- The interval of a positive finite number, in units of `2 ^ -1076`.  Below a power of two the
lower neighbour is only half as far away. -/
def interval (x : Binary64) : Interval :=
  let m := x.significand
  let unit := twoTo x.scale
  let low := if m = leadingOne ∧ 0 < x.scale then (4 * m - 1) * unit else (4 * m - 2) * unit
  ⟨low, (4 * m + 2) * unit, m % 2 == 0⟩

/-- Digits and the power of ten of the last digit. -/
structure Decimal where
  digits : Nat
  exponent : Int
  deriving Repr, DecidableEq

/-- The neighbours of the number on the grid of `n` digits, and the better one that lies in the
interval.  An exact tie goes to the even digit. -/
def onGrid (x : Binary64) (first : Int) (n : Nat) : Option Decimal :=
  let i := x.interval
  let value := 4 * x.significand * twoTo x.scale
  let last := first - (n : Int) + 1
  -- the unit of the last digit is `up / down` in units of `2 ^ -1076`
  let up := tenTo last.toNat * twoTo 1076
  let down := tenTo (-last).toNat
  let below := value * down / up
  let inside (d : Nat) : Bool :=
    Interval.contains ⟨i.low * down, i.high * down, i.closed⟩ (d * up)
  match inside below, inside (below + 1) with
  | false, false => none
  | true, false => some ⟨below, last⟩
  | false, true => some ⟨below + 1, last⟩
  | true, true =>
    let gapBelow := value * down - below * up
    let gapAbove := (below + 1) * up - value * down
    if gapBelow < gapAbove then some ⟨below, last⟩
    else if gapAbove < gapBelow then some ⟨below + 1, last⟩
    else if below % 2 = 0 then some ⟨below, last⟩ else some ⟨below + 1, last⟩

/-- The first grid, from `n` digits on, that has a point in the interval. -/
def searchGrid (x : Binary64) (first : Int) (n : Nat) : Nat → Decimal
  | 0 => ⟨0, 0⟩
  | fuel + 1 => (x.onGrid first n).getD (searchGrid x first (n + 1) fuel)

/-- The fewest digits that read back as the positive finite number `x`, nearest first.  Seventeen
digits always do. -/
def shortest (x : Binary64) : Decimal :=
  searchGrid x (decimalExponent x.ratio.1 x.ratio.2) 1 17

end MessageBus.Binary64
