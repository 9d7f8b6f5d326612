import MessageBus.Config.Sections
import MessageBus.Config.Toml.Writer
import MessageBus.Text.Bytes

/-!
# Reading TOML

`Toml.read?` reads a document that holds a table of tables of texts and nothing else.  A section
is made by a header `[name]`, by dotted names `name.key = …` before the first header, or by an
inline table `name = { … }`; it can be made in one way only, and no name is set twice.  Readers take
characters and return what they read with the characters that are left.
-/

namespace MessageBus.Toml

/-- Blanks within a line. -/
def isBlank (c : Char) : Bool := c = ' ' || c = '\t'

/-- Drops blanks. -/
def skip (cs : List Char) : List Char := cs.dropWhile isBlank

/-- Characters that stand for themselves in a comment or a text, but for the delimiters. -/
def isPlain (c : Char) : Bool := c = '\t' || (32 ≤ c.toNat && c.toNat ≠ 127)

/-- Takes the line break after a line, and blanks and a comment before it. -/
def endLine (cs : List Char) : Option (List Char) :=
  let cs := skip cs
  let cs := match cs with
    | '#' :: rest => rest.dropWhile isPlain
    | cs => cs
  match cs with
  | [] => some []
  | '\n' :: rest => some rest
  | '\r' :: '\n' :: rest => some rest
  | _ => none

/-- The one-letter escapes. -/
def unescape (c : Char) : Option Char :=
  if c = 'b' then some (Char.ofNat 8)
  else if c = 't' then some '\t'
  else if c = 'n' then some '\n'
  else if c = 'f' then some (Char.ofNat 12)
  else if c = 'r' then some '\r'
  else if c = '"' then some '"'
  else if c = '\\' then some '\\'
  else none

/-- Where a text with escapes stands. -/
inductive Place where
  /-- Outside of any escape. -/
  | plain
  /-- After a number of quotes in a row. -/
  | quotes (n : Nat)
  /-- After a carriage return, which a line feed has to follow. -/
  | carriage
  /-- After a backslash. -/
  | opened
  /-- In the digits of a character: those missing, and the value of those read. -/
  | digits (missing value : Nat)
  /-- After a backslash and blanks: the line has to end. -/
  | fold
  /-- After a carriage return at the end of a folded line. -/
  | foldReturn
  /-- In the blanks and line breaks that a folded line end drops. -/
  | folded
  deriving DecidableEq, Repr

/-- The character of a code point, unless it is none. -/
def scalar? (n : Nat) : Option Char := if n.isValidChar then some (Char.ofNat n) else none

/-- After a backslash. -/
def openedStep (multi : Bool) (c : Char) : Option (List Char × Place) :=
  if c = 'u' then some ([], .digits 4 0)
  else if c = 'U' then some ([], .digits 8 0)
  else match unescape c with
    | some d => some ([d], .plain)
    | none =>
      if !multi then none
      else if isBlank c then some ([], .fold)
      else if c = '\n' then some ([], .folded)
      else if c = '\r' then some ([], .foldReturn)
      else none

/-- A character outside of any escape, not a quote. -/
def plainStep (multi : Bool) (c : Char) : Option (List Char × Place) :=
  if c = '\\' then some ([], .opened)
  else if isPlain c then some ([c], .plain)
  else if multi && c = '\n' then some ([c], .plain)
  else if multi && c = '\r' then some ([], .carriage)
  else none

/-- One character of a text with escapes: what it adds, and the place after it. -/
def step (multi : Bool) (place : Place) (c : Char) : Option (List Char × Place) :=
  match place with
  | .plain => if c = '"' then some ([], .quotes 1) else plainStep multi c
  | .quotes n =>
    if c = '"' then some ([], .quotes (n + 1))
    else (plainStep multi c).map fun (cs, place) => (List.replicate n '"' ++ cs, place)
  | .carriage => if c = '\n' then some (['\n'], .plain) else none
  | .opened => openedStep multi c
  | .digits missing value => do
    let d ← Bytes.hexValue? c
    let value := value * 16 + d
    if missing = 1 then (scalar? value).map fun d => ([d], .plain)
    else some ([], .digits (missing - 1) value)
  | .fold =>
    if isBlank c then some ([], .fold)
    else if c = '\n' then some ([], .folded)
    else if c = '\r' then some ([], .foldReturn)
    else none
  | .foldReturn => if c = '\n' then some ([], .folded) else none
  | .folded =>
    if isBlank c || c = '\n' then some ([], .folded)
    else if c = '\r' then some ([], .foldReturn)
    else if c = '"' then some ([], .quotes 1)
    else plainStep multi c

/-- How many quotes in a row end a text. -/
def closing (multi : Bool) : Nat := if multi then 3 else 1

/-- The quotes of a text that the closing ones follow, if the quotes so far close it. -/
def closed? (multi : Bool) (place : Place) : Option (List Char) :=
  match place with
  | .quotes n => if closing multi ≤ n then some (List.replicate (n - closing multi) '"') else none
  | _ => none

/-- The greatest number of quotes in a row: two of the text, and the closing ones. -/
def mostQuotes (multi : Bool) : Nat := if multi then 5 else 1

/-- The rest of a text with escapes. -/
def basicRest (multi : Bool) (place : Place) : List Char → Option (List Char × List Char)
  | [] => (closed? multi place).map fun quotes => (quotes, [])
  | c :: cs =>
    match closed? multi place with
    -- more quotes can follow those that already close the text: they belong to it
    | some quotes =>
      if c = '"' ∧ place ≠ .quotes (mostQuotes multi) then
        (step multi place c).bind fun (_, place) => basicRest multi place cs
      else some (quotes, c :: cs)
    | none =>
      (step multi place c).bind fun (added, place) =>
        (basicRest multi place cs).map fun (text, rest) => (added ++ text, rest)

/-- The rest of a text between apostrophes. -/
def literalRest : List Char → Option (List Char × List Char)
  | [] => none
  | c :: cs =>
    if c = '\'' then some ([], cs)
    else if isPlain c then (literalRest cs).map fun (text, rest) => (c :: text, rest)
    else none

/-- The rest of a text between three apostrophes, after a number of them in a row and perhaps a
carriage return. -/
def multiLiteralRest (apostrophes : Nat) (carriage : Bool) :
    List Char → Option (List Char × List Char)
  | [] => if 3 ≤ apostrophes then some (List.replicate (apostrophes - 3) '\'', []) else none
  | c :: cs =>
    if carriage then
      if c = '\n' then (multiLiteralRest 0 false cs).map fun (text, rest) => (c :: text, rest)
      else none
    else if c = '\'' ∧ apostrophes < 5 then multiLiteralRest (apostrophes + 1) false cs
    -- up to two apostrophes before the closing ones belong to the text
    else if 3 ≤ apostrophes then some (List.replicate (apostrophes - 3) '\'', c :: cs)
    else
      let before := List.replicate apostrophes '\''
      if isPlain c ∨ c = '\n' then
        (multiLiteralRest 0 false cs).map fun (text, rest) => (before ++ c :: text, rest)
      else if c = '\r' then
        (multiLiteralRest 0 true cs).map fun (text, rest) => (before ++ text, rest)
      else none

/-- Drops the line break at the start of a text on several lines. -/
def skipBreak : List Char → List Char
  | '\n' :: rest => rest
  | '\r' :: '\n' :: rest => rest
  | cs => cs

/-- A text on one line. -/
def readLine : List Char → Option (List Char × List Char)
  | '"' :: rest => basicRest false .plain rest
  | '\'' :: rest => literalRest rest
  | _ => none

/-- A text. -/
def readText : List Char → Option (List Char × List Char)
  | '"' :: '"' :: '"' :: rest => basicRest true .plain (skipBreak rest)
  | '\'' :: '\'' :: '\'' :: rest => multiLiteralRest 0 false (skipBreak rest)
  | cs => readLine cs

/-- One name. -/
def readKey (cs : List Char) : Option (String × List Char) :=
  match cs with
  | '"' :: _ | '\'' :: _ => (readLine cs).map fun (name, rest) => (String.ofList name, rest)
  | cs =>
    let name := cs.takeWhile isBare
    if name.isEmpty then none else some (String.ofList name, cs.drop name.length)

/-- A name, or two with a dot between them. -/
def readKeys (cs : List Char) : Option ((String × Option String) × List Char) := do
  let (first, rest) ← readKey cs
  match skip rest with
  | '.' :: rest =>
    let (second, rest) ← readKey (skip rest)
    return ((first, some second), rest)
  | rest => return ((first, none), rest)

/-- The sign between a name and its value, with the blanks around it. -/
def readEquals (cs : List Char) : Option (List Char) :=
  match skip cs with
  | '=' :: rest => some (skip rest)
  | _ => none

/-- A name with its text. -/
def readEntry (cs : List Char) : Option ((String × String) × List Char) := do
  let (name, rest) ← readKey cs
  let rest ← readEquals rest
  let (value, rest) ← readText rest
  return ((name, String.ofList value), rest)

/-- A table with a name set that is not set yet. -/
def insertNew {α : Type} (table : Table α) (name : String) (value : α) : Option (Table α) :=
  match table.get? name with
  | none => some (table.insert name value)
  | some _ => none

/-- The entries of an inline table, from the first name on, and its closing brace. -/
def readInline (fuel : Nat) (table : Table String) (cs : List Char) :
    Option (Table String × List Char) :=
  match fuel with
  | 0 => none
  | fuel + 1 => do
    let ((name, value), rest) ← readEntry (skip cs)
    let table ← insertNew table name value
    match skip rest with
    | ',' :: rest => readInline fuel table rest
    | '\x7d' :: rest => return (table, rest)
    | _ => none

/-- An inline table. -/
def readTable : List Char → Option (Table String × List Char)
  | '\x7b' :: rest =>
    match skip rest with
    | '\x7d' :: rest => some ([], rest)
    | rest => readInline rest.length [] rest
  | _ => none

/-- What is read of a document: the sections, those that no dotted name may add to any more, and
the section of the last header. -/
structure Document where
  sections : Sections
  complete : List String
  current : Option String
  deriving Repr

namespace Document

/-- The empty document. -/
def empty : Document := ⟨[], [], none⟩

/-- A header opens a new section. -/
def openSection (d : Document) (name : String) : Option Document :=
  (insertNew d.sections name []).map fun s => ⟨s, name :: d.complete, some name⟩

/-- An inline table is a new section. -/
def addTable (d : Document) (name : String) (values : Table String) : Option Document :=
  (insertNew d.sections name values).map fun s =>
    { d with sections := s, complete := name :: d.complete }

/-- A new value in a section, which is made if need be. -/
def addValue (d : Document) (group name value : String) : Option Document :=
  (insertNew ((d.sections.get? group).getD []) name value).map fun values =>
    { d with sections := d.sections.insert group values }

end Document

/-- A header line. -/
def readHeader (d : Document) (cs : List Char) : Option (Document × List Char) := do
  let (name, rest) ← readKey (skip cs)
  match skip rest with
  | ']' :: rest => return (← d.openSection name, rest)
  | _ => none

/-- A line with a name and a value before the first header. -/
def readTopEntry (d : Document) (cs : List Char) : Option (Document × List Char) := do
  let ((first, second), rest) ← readKeys cs
  let rest ← readEquals rest
  match second with
  | some name =>
    -- a section with a header, or made inline, takes nothing more by dotted names
    if d.complete.contains first then none
    else
      let (value, rest) ← readText rest
      return (← d.addValue first name (String.ofList value), rest)
  | none =>
    let (values, rest) ← readTable rest
    return (← d.addTable first values, rest)

/-- One line of a document, up to its end. -/
def readExpression (d : Document) (cs : List Char) : Option (Document × List Char) :=
  match cs with
  | [] | '\n' :: _ | '\r' :: _ | '#' :: _ => some (d, cs)
  | '[' :: rest => readHeader d rest
  | cs =>
    match d.current with
    | some group => do
      let ((name, value), rest) ← readEntry cs
      return (← d.addValue group name value, rest)
    | none => readTopEntry d cs

/-- The lines of a document; each takes a character at least. -/
def readLines (fuel : Nat) (d : Document) (cs : List Char) : Option Document :=
  match fuel, cs with
  | _, [] => some d
  | 0, _ => none
  | fuel + 1, cs => do
    let (d, rest) ← readExpression d (skip cs)
    readLines fuel d (← endLine rest)

/-- The byte order mark that may stand first. -/
def byteOrderMark : Char := Char.ofNat 0xFEFF

/-- Reads the sections of a document. -/
def read? (text : String) : Option Sections :=
  let cs := text.toList
  let cs := if cs.head? = some byteOrderMark then cs.tail else cs
  (readLines cs.length .empty cs).map (·.sections)

end MessageBus.Toml
