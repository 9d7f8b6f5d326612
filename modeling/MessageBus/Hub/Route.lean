/-!
# Routes of a hub

A client joins a realm by the path that it asks for: `/pmb/` and a name without a slash, and a
slash after it.
-/

namespace MessageBus.Hub

/-- The characters after a given start. -/
def dropStart? : (start : List Char) → List Char → Option (List Char)
  | [], cs => some cs
  | a :: start, c :: cs => if a = c then dropStart? start cs else none
  | _ :: _, [] => none

/-- The realm of a path, which is the path itself, if it leads to one. -/
def realmOfPath? (path : String) : Option String :=
  match dropStart? "/pmb/".toList path.toList with
  | some rest =>
    if rest.getLast? = some '/' ∧ rest.dropLast ≠ [] ∧ '/' ∉ rest.dropLast then some path else none
  | none => none

end MessageBus.Hub
