import MessageBus.Config.Sections

/-!
# Writing TOML

Sections are written in order, a blank line between two of them, with a header `[name]` and a line
`name = value` for each value.  A text stands in the plainest of five forms that can hold it:
between quotes without an escape but for the tab, between apostrophes, between three quotes on
several lines, between three apostrophes, and last between quotes with escapes.
-/

namespace MessageBus.Toml

/-- A control character other than the tab and the line feed. -/
def isControl (c : Char) : Bool := (c.toNat < 32 && c != '\t' && c != '\n') || c.toNat = 127

/-- The longest run of a character. -/
def longestRun (c : Char) (current longest : Nat) : List Char → Nat
  | [] => max current longest
  | d :: rest =>
    if d = c then longestRun c (current + 1) longest rest
    else longestRun c 0 (max current longest) rest

/-- The form of a text. -/
inductive Form where
  | basic
  | literal
  | multiBasic
  | multiLiteral
  deriving DecidableEq, Repr

/-- The plainest form that holds a text. -/
def Form.of (cs : List Char) : Form :=
  let control := cs.any isControl
  let backslash := cs.contains '\\'
  let newline := cs.contains '\n'
  let quotes := longestRun '"' 0 0 cs
  let apostrophes := longestRun '\'' 0 0 cs
  -- a tab keeps a text out of no form
  if !control && !backslash && quotes = 0 && !newline then .basic
  else if !control && apostrophes = 0 && !newline then .literal
  else if !control && !backslash && quotes ≤ 2 then .multiBasic
  else if !control && apostrophes ≤ 2 then .multiLiteral
  -- only escapes are left
  else if newline then .multiBasic
  else .basic

/-- Upper-case hexadecimal digit. -/
def hexDigit (n : Nat) : Char := if n < 10 then Char.ofNat (48 + n) else Char.ofNat (55 + n)

/-- A control character as an escape. -/
def escape (c : Char) : List Char :=
  let n := c.toNat
  if n = 8 then ['\\', 'b']
  else if c = '\t' then ['\\', 't']
  else if c = '\n' then ['\\', 'n']
  else if n = 12 then ['\\', 'f']
  else if c = '\r' then ['\\', 'r']
  else if c = '\\' then ['\\', '\\']
  else if c = '"' then ['\\', '"']
  else ['\\', 'u', '0', '0', hexDigit (n / 16), hexDigit (n % 16)]

/-- The characters of a text with escapes.  So many quotes in a row stand as they are as `room`
says, and `quotes` of them just did; a line feed stands as it is where `multi` says so. -/
def escaped (multi : Bool) (quotes : Nat) : List Char → List Char
  | [] => []
  | c :: rest =>
    let room := if multi then 2 else 0
    if c = '"' then
      if quotes < room then '"' :: escaped multi (quotes + 1) rest
      else '\\' :: '"' :: escaped multi 0 rest
    else if c = '\n' && multi then '\n' :: escaped multi 0 rest
    else if isControl c || c = '\t' || c = '\n' || c = '\\' then escape c ++ escaped multi 0 rest
    else c :: escaped multi 0 rest

/-- A text in a form.  A text on several lines starts on a line of its own. -/
def writeAs (form : Form) (cs : List Char) : List Char :=
  let start := if cs.contains '\n' then ['\n'] else []
  match form with
  | .basic => ['"'] ++ escaped false 0 cs ++ ['"']
  | .literal => ['\''] ++ cs ++ ['\'']
  | .multiBasic => ['"', '"', '"'] ++ start ++ escaped true 0 cs ++ ['"', '"', '"']
  | .multiLiteral => ['\'', '\'', '\''] ++ start ++ cs ++ ['\'', '\'', '\'']

/-- A value. -/
def writeText (s : String) : List Char := writeAs (.of s.toList) s.toList

/-- The characters of a key that needs no quotes. -/
def isBare (c : Char) : Bool := c.isAlphanum || c = '-' || c = '_'

/-- The form of a key that needs quotes: one line, and apostrophes only if quotes would need
escapes and apostrophes would not. -/
def keyForm (cs : List Char) : Form :=
  let broken := cs.any fun c => isControl c || c = '\n'
  if broken then .basic
  else if !cs.contains '\\' && !cs.contains '"' then .basic
  else if !cs.contains '\'' then .literal
  else .basic

/-- The name of a section or value. -/
def writeKey (s : String) : List Char :=
  let cs := s.toList
  if !cs.isEmpty && cs.all isBare then cs else writeAs (keyForm cs) cs

/-- One line for a value. -/
def writeEntry (entry : String × String) : List Char :=
  writeKey entry.1 ++ [' ', '=', ' '] ++ writeText entry.2 ++ ['\n']

/-- A section with its header. -/
def writeSection (group : String × Table String) : List Char :=
  ['['] ++ writeKey group.1 ++ [']', '\n'] ++ group.2.flatMap writeEntry

/-- The text of some sections. -/
def chars (s : Sections) : List Char := ['\n'].intercalate (s.map writeSection)

/-- The text of some sections. -/
def write (s : Sections) : String := String.ofList (chars s)

end MessageBus.Toml
