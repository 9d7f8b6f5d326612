/-!
# Punycode

A label of a domain name with characters outside of ASCII is written in ASCII: first its ASCII
characters, then how the others are put in between, one after the other, by ascending code points.
`insertions` is the list of these steps; each is written as the number of code points and places
that are passed over, with digits whose weight adapts to the numbers before.

## Main statements

* `length_rest_lt_of_readNumber` : reading a number takes at least one digit.
-/

namespace MessageBus.Punycode

/-- A character that is put into a label: its code point, and its place among those that are there
by then. -/
structure Insertion where
  point : Nat
  place : Nat
  deriving DecidableEq, Repr

/-- How the characters outside of ASCII get into a label, from left to right; `before` is what
stands to the left. -/
def insertionsFrom (before : List Char) : List Char → List Insertion
  | [] => []
  | c :: rest =>
    let later := insertionsFrom (before ++ [c]) rest
    if c.toNat < 128 then later
    else ⟨c.toNat, before.countP fun b => b.toNat ≤ c.toNat⟩ :: later

/-- How the characters outside of ASCII get into a label, by ascending code points. -/
def insertions (label : List Char) : List Insertion :=
  (insertionsFrom [] label).mergeSort fun a b => a.point ≤ b.point

/-- Where writing or reading of the insertions stands. -/
structure Cursor where
  /-- The code point that comes next at the least. -/
  point : Nat
  /-- The place that comes next at the least if it is that code point. -/
  place : Nat
  /-- How many characters are there. -/
  length : Nat
  bias : Nat
  isFirst : Bool
  deriving DecidableEq, Repr

/-- The cursor before any insertion. -/
def Cursor.start (length : Nat) : Cursor := ⟨128, 0, length, 72, true⟩

/-- Divides a number by 35 until it is at most 455, and tells how often. -/
def reduce (n : Nat) : Nat × Nat :=
  if 455 < n then
    let (rest, times) := reduce (n / 35)
    (rest, times + 1)
  else (n, 0)
termination_by n
decreasing_by exact Nat.div_lt_self (by omega) (by omega)

/-- The bias after a number was used at a cursor. -/
def Cursor.nextBias (s : Cursor) (n : Nat) : Nat :=
  let scaled := n / if s.isFirst then 700 else 2
  let (rest, times) := reduce (scaled + scaled / (s.length + 1))
  36 * times + 36 * rest / (rest + 38)

/-- The number that leads from a cursor to an insertion. -/
def Cursor.distance (s : Cursor) (x : Insertion) : Nat :=
  (x.point - s.point) * (s.length + 1) + x.place - s.place

/-- The insertion that a number leads to. -/
def Cursor.target (s : Cursor) (n : Nat) : Insertion :=
  ⟨s.point + (s.place + n) / (s.length + 1), (s.place + n) % (s.length + 1)⟩

/-- The cursor after an insertion that a number led to. -/
def Cursor.advance (s : Cursor) (x : Insertion) (n : Nat) : Cursor :=
  ⟨x.point, x.place + 1, s.length + 1, s.nextBias n, false⟩

/-- The digit in a column that ends a number at the most; the columns are 36, 72 and so on. -/
def threshold (bias column : Nat) : Nat := max 1 (min 26 (column - bias))

/-- The character of a digit. -/
def digit (n : Nat) : Char := if n < 26 then Char.ofNat (97 + n) else Char.ofNat (22 + n)

/-- The digit of a character. -/
def digit? (c : Char) : Option Nat :=
  if c.isLower then some (c.toNat - 97) else if c.isDigit then some (c.toNat - 22) else none

/-- A number in digits, from a column on. -/
def number (bias column n : Nat) : List Char :=
  let t := threshold bias column
  if n < t then [digit n]
  else digit (t + (n - t) % (36 - t)) :: number bias (column + 36) ((n - t) / (36 - t))
termination_by n
decreasing_by
  have : 1 ≤ threshold bias column := Nat.le_max_left ..
  exact Nat.lt_of_le_of_lt (Nat.div_le_self _ _) (by omega)

/-- Reads a number from a column on, whose digits there count `weight`-fold. -/
def readNumber (bias column weight : Nat) : List Char → Option (Nat × List Char)
  | [] => none
  | c :: rest => do
    let d ← digit? c
    let t := threshold bias column
    if d < t then return (d * weight, rest)
    else
      let (n, rest) ← readNumber bias (column + 36) (weight * (36 - t)) rest
      return (d * weight + n, rest)

/-- The numbers of insertions in digits. -/
def write (s : Cursor) : List Insertion → List Char
  | [] => []
  | x :: xs =>
    let n := s.distance x
    number s.bias 36 n ++ write (s.advance x n) xs

theorem length_rest_lt_of_readNumber {bias column weight n : Nat} {cs rest : List Char}
    (h : readNumber bias column weight cs = some (n, rest)) : rest.length < cs.length := by
  induction cs generalizing column weight n with
  | nil => simp [readNumber] at h
  | cons c cs ih =>
    unfold readNumber at h
    cases hd : digit? c with
    | none => simp [hd] at h
    | some d =>
      simp only [hd, Option.bind_eq_bind, Option.bind_some] at h
      split at h
      · cases h
        exact Nat.lt_succ_self _
      · cases hr : readNumber bias (column + 36) (weight * (36 - threshold bias column)) cs with
        | none => simp [hr] at h
        | some r =>
          simp only [hr, Option.bind_some] at h
          cases h
          exact Nat.lt_succ_of_lt (ih hr)

/-- The character of a code point, if it is that of a character outside of ASCII. -/
def character? (point : Nat) : Option Char :=
  let c := Char.ofNat point
  if 128 ≤ point ∧ c.toNat = point then some c else none

/-- Reads the numbers of insertions and carries them out. -/
def read (s : Cursor) (label cs : List Char) : Option (List Char) :=
  match cs with
  | [] => some label
  | cs =>
    match h : readNumber s.bias 36 1 cs with
    | none => none
    | some (n, rest) =>
      have := length_rest_lt_of_readNumber h
      let x := s.target n
      match character? x.point with
      | none => none
      | some c => read (s.advance x n) (label.insertIdx x.place c) rest
termination_by cs.length

/-- The ASCII form of a label, without the mark in front. -/
def encode (label : List Char) : List Char :=
  let basic := label.filter (·.toNat < 128)
  let head := if basic.isEmpty then [] else basic ++ ['-']
  head ++ write (.start basic.length) (insertions label)

/-- The label that an ASCII form without the mark stands for. -/
def decode? (cs : List Char) : Option (List Char) :=
  let digits := (cs.reverse.takeWhile (· != '-')).reverse
  let basic := cs.take (cs.length - digits.length - 1)
  read (.start basic.length) basic digits

end MessageBus.Punycode
