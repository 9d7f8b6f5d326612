import MessageBus.Number.Binary64
import MessageBus.Table

/-!
# JSON values

A value holds numbers as integers or as 64-bit floating-point numbers, and an object as its members
in ascending order of their names, each name once.
-/

namespace MessageBus

/-- A JSON number: an integer in the range of 64-bit words, or a floating-point number. -/
inductive Json.Number where
  | int (i : Int)
  | float (x : Binary64)
  deriving DecidableEq, Repr, Inhabited

/-- A JSON value.  The members of an object are sorted by name. -/
inductive Json where
  | null
  | bool (b : Bool)
  | num (n : Json.Number)
  | str (s : String)
  | arr (items : List Json)
  | obj (members : List (String × Json))
  deriving Repr, Inhabited

/-- The members of an object, in ascending order of their names. -/
abbrev Fields := Table Json

/-- A member that is a text. -/
def Fields.text? (fields : Fields) (name : String) : Option String :=
  match fields.get? name with
  | some (.str s) => some s
  | _ => none

end MessageBus
