/-!
# Points in time as text

The field that says when a message was sent holds a date, a time to the second and the offset from
universal time, always as digits with a sign: `2026-10-19T10:04:05+02:00`.
-/

namespace MessageBus

/-- A local date and time with its offset in minutes. -/
structure Timestamp where
  year : Nat
  month : Nat
  day : Nat
  hour : Nat
  minute : Nat
  second : Nat
  offset : Int
  deriving Repr, DecidableEq, Inhabited

namespace Timestamp

/-- A number with at least `width` digits. -/
def padded (width n : Nat) : List Char :=
  let digits := Nat.toDigits 10 n
  List.replicate (width - digits.length) '0' ++ digits

/-- The characters of a timestamp. -/
def chars (t : Timestamp) : List Char :=
  padded 4 t.year ++ '-' :: padded 2 t.month ++ '-' :: padded 2 t.day ++ 'T' :: padded 2 t.hour
    ++ ':' :: padded 2 t.minute ++ ':' :: padded 2 t.second
    ++ (if t.offset < 0 then '-' else '+') :: padded 2 (t.offset.natAbs / 60)
    ++ ':' :: padded 2 (t.offset.natAbs % 60)

/-- The text of a timestamp. -/
def render (t : Timestamp) : String := String.ofList t.chars

/-- Days since 1970-01-01 as year, month and day, by eras of 400 years that begin in March. -/
def civil (days : Nat) : Nat × Nat × Nat :=
  -- 719468 days lie between the start of March of the year 0 and the start of 1970
  let z := days + 719468
  let era := z / 146097
  let dayOfEra := z % 146097
  let yearOfEra := (dayOfEra - dayOfEra / 1460 + dayOfEra / 36524 - dayOfEra / 146096) / 365
  let dayOfYear := dayOfEra - (365 * yearOfEra + yearOfEra / 4 - yearOfEra / 100)
  -- months counted from March have 153 days in every five
  let shifted := (5 * dayOfYear + 2) / 153
  let day := dayOfYear - (153 * shifted + 2) / 5 + 1
  let month := if shifted < 10 then shifted + 3 else shifted - 9
  let year := yearOfEra + era * 400
  (if month ≤ 2 then year + 1 else year, month, day)

/-- The universal time a number of seconds after the start of 1970. -/
def ofSeconds (seconds : Nat) : Timestamp :=
  let (year, month, day) := civil (seconds / 86400)
  let rest := seconds % 86400
  ⟨year, month, day, rest / 3600, rest / 60 % 60, rest % 60, 0⟩

/-- The shape of a timestamp: `0` stands for a digit and `+` for a sign. -/
def shape : List Char := "0000-00-00T00:00:00+00:00".toList

/-- Whether a character fits its place in the shape. -/
def fits (s c : Char) : Bool :=
  if s = '0' then c.isDigit
  else if s = '+' then c = '+' || c = '-'
  else c = s

/-- Whether a text has the form of a timestamp. -/
def isTimestamp (text : String) : Bool :=
  let cs := text.toList
  cs.length == shape.length && (shape.zip cs).all fun p => fits p.1 p.2

end Timestamp

end MessageBus
