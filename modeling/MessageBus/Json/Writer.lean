import MessageBus.Json.Number

/-!
# Writing JSON text

`Json.write` is the compact text of a value: no blanks, members in their order, and the escapes
`\" \\ \b \f \n \r \t` and `\u00xx` for the other characters below U+0020.  `Json.writePretty`
puts each item and member on a line of its own, indented by two spaces a level.
-/

namespace MessageBus.Json

/-- A character inside a JSON string. -/
def escape (c : Char) : List Char :=
  if c = '"' then ['\\', '"']
  else if c = '\\' then ['\\', '\\']
  else if c = '\n' then ['\\', 'n']
  else if c = '\r' then ['\\', 'r']
  else if c = '\t' then ['\\', 't']
  else if c.toNat = 8 then ['\\', 'b']
  else if c.toNat = 12 then ['\\', 'f']
  else if c.toNat < 32 then
    ['\\', 'u', '0', '0', Nat.digitChar (c.toNat / 16), Nat.digitChar (c.toNat % 16)]
  else [c]

/-- A text as a JSON string. -/
def quote (s : String) : List Char :=
  '"' :: s.toList.flatMap escape ++ ['"']

mutual

/-- The compact text of a value, as characters. -/
def chars : Json → List Char
  | .null => ['n', 'u', 'l', 'l']
  | .bool true => ['t', 'r', 'u', 'e']
  | .bool false => ['f', 'a', 'l', 's', 'e']
  | .num n => n.chars
  | .str s => quote s
  | .arr [] => ['[', ']']
  | .arr (x :: xs) => '[' :: chars x ++ itemChars xs
  | .obj [] => ['{', '}']
  | .obj ((n, v) :: ms) => '{' :: quote n ++ ':' :: chars v ++ memberChars ms

/-- The items of an array after the first, and its end. -/
def itemChars : List Json → List Char
  | [] => [']']
  | x :: xs => ',' :: chars x ++ itemChars xs

/-- The members of an object after the first, and its end. -/
def memberChars : List (String × Json) → List Char
  | [] => ['}']
  | (n, v) :: ms => ',' :: quote n ++ ':' :: chars v ++ memberChars ms

end

/-- The compact text of a value. -/
def write (j : Json) : String := String.ofList j.chars

/-- A line break and the indentation of a nesting level. -/
def newline (level : Nat) : List Char := '\n' :: List.replicate (2 * level) ' '

mutual

/-- The indented text of a value that stands at a nesting level. -/
def prettyChars (level : Nat) : Json → List Char
  | .arr [] => ['[', ']']
  | .arr (x :: xs) =>
    '[' :: newline (level + 1) ++ prettyChars (level + 1) x ++ prettyItems (level + 1) xs
      ++ newline level ++ [']']
  | .obj [] => ['{', '}']
  | .obj ((n, v) :: ms) =>
    '{' :: newline (level + 1) ++ quote n ++ ':' :: ' ' :: prettyChars (level + 1) v
      ++ prettyMembers (level + 1) ms ++ newline level ++ ['}']
  | j => j.chars

/-- The items after the first, each on its line. -/
def prettyItems (level : Nat) : List Json → List Char
  | [] => []
  | x :: xs => ',' :: newline level ++ prettyChars level x ++ prettyItems level xs

/-- The members after the first, each on its line. -/
def prettyMembers (level : Nat) : List (String × Json) → List Char
  | [] => []
  | (n, v) :: ms =>
    ',' :: newline level ++ quote n ++ ':' :: ' ' :: prettyChars level v ++ prettyMembers level ms

end

/-- The indented text of a value. -/
def writePretty (j : Json) : String := String.ofList (prettyChars 0 j)

end MessageBus.Json

namespace MessageBus

/-- The compact text of an object. -/
def Fields.write (fields : Fields) : String := (Json.obj fields).write

end MessageBus
