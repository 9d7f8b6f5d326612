/-!
# Random material

`Entropy` is a seeded stream of numbers; every draw returns the rest of the stream.  Fresh ids,
keys and initialization vectors are drawn from it, so that a whole run is a function of its seed.
-/

namespace MessageBus

/-- The state of a stream of random numbers. -/
structure Entropy where
  state : Nat
  deriving Repr, Inhabited

namespace Entropy

/-- The next number below `bound`, and the rest of the stream. -/
def draw (e : Entropy) (bound : Nat) : Nat × Entropy :=
  let next := (e.state * 6364136223846793005 + 1442695040888963407) % 0x10000000000000000
  (next / 0x200000000 % bound, ⟨next⟩)

/-- The next `n` numbers below `bound`. -/
def drawList (e : Entropy) (bound : Nat) : Nat → List Nat × Entropy
  | 0 => ([], e)
  | n + 1 =>
    let (x, e) := e.draw bound
    let (xs, e) := drawList e bound n
    (x :: xs, e)

theorem length_drawList (e : Entropy) (bound n : Nat) : (e.drawList bound n).1.length = n := by
  induction n generalizing e with
  | zero => rfl
  | succ n ih => simp [drawList, ih]

/-- The next `n` bytes. -/
def drawBytes (e : Entropy) (n : Nat) : List UInt8 × Entropy :=
  let (xs, e) := e.drawList 256 n
  (xs.map UInt8.ofNat, e)

end Entropy

end MessageBus
