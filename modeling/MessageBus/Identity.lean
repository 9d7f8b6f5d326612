import MessageBus.Entropy

/-!
# Names of participants

A fresh id is a given head, a hyphen and twelve random characters out of digits and lower-case
letters.

## Main statements

* `length_randomText` : a random text has the length asked for.
* `randomText_charset` : a random text holds digits and lower-case letters only.
-/

namespace MessageBus.Identity

/-- The digits and the lower-case letters. -/
def alphabet : List Char :=
  ['1', '2', '3', '4', '5', '6', '7', '8', '9', '0', 'a', 'b', 'c', 'd', 'e', 'f', 'g', 'h', 'i',
   'j', 'k', 'l', 'm', 'n', 'o', 'p', 'q', 'r', 's', 't', 'u', 'v', 'w', 'x', 'y', 'z']

/-- Whether a character is a digit or a lower-case letter. -/
def isAlphabetic (c : Char) : Bool := ('0' ≤ c && c ≤ '9') || ('a' ≤ c && c ≤ 'z')

/-- The letter of the alphabet with a number. -/
def letter (n : Nat) : Char := alphabet.getD n 'a'

/-- A random text of a given length. -/
def randomText (e : Entropy) (length : Nat) : String × Entropy :=
  let (xs, e) := e.drawList 36 length
  (String.ofList (xs.map letter), e)

theorem length_randomText (e : Entropy) (n : Nat) : (randomText e n).1.toList.length = n := by
  simp [randomText, Entropy.length_drawList]

theorem isAlphabetic_letter (n : Nat) : isAlphabetic (letter n) = true := by
  by_cases h : n < 36
  · have all : ∀ k ∈ List.range 36, isAlphabetic (letter k) = true := by decide +kernel
    exact all n (List.mem_range.2 h)
  · have : letter n = 'a' := by
      unfold letter
      rw [List.getD_eq_getElem?_getD, List.getElem?_eq_none (by simpa [alphabet] using h)]
      rfl
    rw [this]; decide

theorem randomText_charset (e : Entropy) (n : Nat) :
    (randomText e n).1.toList.all isAlphabetic = true := by
  simp [randomText, isAlphabetic_letter]

/-- How many random characters an id ends in. -/
def tailLength : Nat := 12

/-- A fresh id with a given head. -/
def fresh (e : Entropy) (head : String) : String × Entropy :=
  let (tail, e) := randomText e tailLength
  (head ++ "-" ++ tail, e)

end MessageBus.Identity

namespace MessageBus

/-- What a participant tells about its machine with every message. -/
structure HostInfo where
  hostname : Option String
  ip : Option String
  deriving Repr, DecidableEq, Inhabited

end MessageBus
