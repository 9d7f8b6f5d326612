import MessageBus.Json.Number

/-!
# Reading JSON text

The reader is a machine that takes one character at a time: `Reader.step` is its transition and
`Json.read?` folds it over the text.  The state is the stack of containers not yet closed and what
the machine is in the middle of.  Nothing but the characters drives it, so reading ends with the
text, and the run over two texts in a row is the run over the second from where the first left off.

Containers nest at most 127 deep.  The last of several members with one name counts.
-/

namespace MessageBus.Json.Reader

/-- A container that is not closed yet: the items before the current one in reverse, or the members
so far and the name of the current one. -/
inductive Frame where
  | array (items : List Json)
  | object (fields : Fields) (name : String)
  deriving Repr

/-- Where a string stands after a backslash. -/
inductive Escape where
  /-- Outside of any escape. -/
  | none
  /-- After a backslash. -/
  | opened
  /-- In the digits of a code unit: those still missing, and the value of those read. -/
  | digits (missing : Nat) (value : Nat)
  /-- After the high half of a pair. -/
  | pair (high : Nat)
  /-- After the high half and a backslash. -/
  | pairOpened (high : Nat)
  /-- In the digits of the low half. -/
  | pairDigits (high : Nat) (missing : Nat) (value : Nat)
  deriving Repr

/-- What the machine is in the middle of. -/
inductive Mode where
  /-- A value has to start here. -/
  | value
  /-- An item of an array or its end, right after the opening bracket. -/
  | firstItem
  /-- A name or the end, right after the opening brace. -/
  | firstName
  /-- A name has to start here. -/
  | name
  /-- The colon after a name. -/
  | colon (name : String)
  /-- A value is complete: a comma, an end or, at the top, nothing more. -/
  | complete (v : Json)
  /-- In a string; the characters so far are in reverse. -/
  | string (isName : Bool) (chars : List Char) (escape : Escape)
  /-- In a number; its characters are in reverse. -/
  | number (chars : List Char)
  /-- In a literal: the characters still missing. -/
  | literal (missing : List Char) (v : Json)
  deriving Repr

/-- The state of the machine. -/
structure State where
  stack : List Frame
  mode : Mode
  deriving Repr

/-- The start: a value is expected and nothing is open. -/
def State.start : State := ⟨[], .value⟩

/-- How deep containers may nest. -/
def maxDepth : Nat := 127

/-- The whitespace of JSON text. -/
def isSpace (c : Char) : Bool := c == ' ' || c == '\n' || c == '\t' || c == '\r'

/-- Opens a container, if the nesting allows it. -/
def push (stack : List Frame) (frame : Frame) (mode : Mode) : Option State :=
  if stack.length < maxDepth then some ⟨frame :: stack, mode⟩ else none

/-- The characters that may stand in a number. -/
def isNumeric (c : Char) : Bool :=
  c.isDigit || c == '-' || c == '+' || c == '.' || c == 'e' || c == 'E'

/-- Starts a value. -/
def startValue (stack : List Frame) (c : Char) : Option State :=
  if isSpace c then some ⟨stack, .value⟩
  else if c = '[' then push stack (.array []) .firstItem
  else if c = '\x7b' then push stack (.object [] "") .firstName
  else if c = '"' then some ⟨stack, .string false [] .none⟩
  else if c = 't' then some ⟨stack, .literal ['r', 'u', 'e'] (.bool true)⟩
  else if c = 'f' then some ⟨stack, .literal ['a', 'l', 's', 'e'] (.bool false)⟩
  else if c = 'n' then some ⟨stack, .literal ['u', 'l', 'l'] .null⟩
  else if c = '-' || c.isDigit then some ⟨stack, .number [c]⟩
  else none

/-- What may follow a complete value. -/
def afterValue (stack : List Frame) (v : Json) (c : Char) : Option State :=
  if isSpace c then some ⟨stack, .complete v⟩
  else match stack with
    | [] => none
    | .array items :: rest =>
      if c = ',' then some ⟨.array (v :: items) :: rest, .value⟩
      else if c = ']' then some ⟨rest, .complete (.arr (v :: items).reverse)⟩
      else none
    | .object fields name :: rest =>
      if c = ',' then some ⟨.object (fields.insert name v) "" :: rest, .name⟩
      else if c = '\x7d' then some ⟨rest, .complete (.obj (fields.insert name v))⟩
      else none

/-- A name stands in the object on top of the stack. -/
def setName (stack : List Frame) (name : String) : Option (List Frame) :=
  match stack with
  | .object fields _ :: rest => some (.object fields name :: rest)
  | _ => none

/-- The one-character escapes. -/
def unescape (c : Char) : Option Char :=
  if c = '"' then some '"'
  else if c = '\\' then some '\\'
  else if c = '/' then some '/'
  else if c = 'b' then some (Char.ofNat 8)
  else if c = 'f' then some (Char.ofNat 12)
  else if c = 'n' then some '\n'
  else if c = 'r' then some '\r'
  else if c = 't' then some '\t'
  else none

/-- The value of a hexadecimal digit. -/
def hexDigit? (c : Char) : Option Nat :=
  if '0' ≤ c ∧ c ≤ '9' then some (c.toNat - 48)
  else if 'a' ≤ c ∧ c ≤ 'f' then some (c.toNat - 87)
  else if 'A' ≤ c ∧ c ≤ 'F' then some (c.toNat - 55)
  else none

/-- A finished code unit: a character, or the high half of a pair.  A low half alone is no
character. -/
def codeUnit (chars : List Char) (n : Nat) : Option (List Char × Escape) :=
  if 0xD800 ≤ n ∧ n < 0xDC00 then some (chars, .pair n)
  else if 0xDC00 ≤ n ∧ n < 0xE000 then none
  else some (Char.ofNat n :: chars, .none)

/-- One more character of a string, `none` where it may not stand.  The closing quote is not for
this function. -/
def stringChar (chars : List Char) (escape : Escape) (c : Char) : Option (List Char × Escape) :=
  match escape with
  | .none =>
    if c = '\\' then some (chars, .opened)
    else if c.toNat < 32 then none
    else some (c :: chars, .none)
  | .opened =>
    if c = 'u' then some (chars, .digits 4 0)
    else (unescape c).map fun d => (d :: chars, .none)
  | .digits missing value => do
    let d ← hexDigit? c
    let value := value * 16 + d
    if missing = 1 then codeUnit chars value else some (chars, .digits (missing - 1) value)
  | .pair high => if c = '\\' then some (chars, .pairOpened high) else none
  | .pairOpened high => if c = 'u' then some (chars, .pairDigits high 4 0) else none
  | .pairDigits high missing value => do
    let d ← hexDigit? c
    let value := value * 16 + d
    if missing = 1 then
      if 0xDC00 ≤ value ∧ value < 0xE000 then
        some (Char.ofNat (0x10000 + (high - 0xD800) * 0x400 + (value - 0xDC00)) :: chars, .none)
      else none
    else some (chars, .pairDigits high (missing - 1) value)

/-- Whether a quote ends the string here. -/
def Escape.isNone : Escape → Bool
  | .none => true
  | _ => false

/-- A string is complete: it is a name or a value. -/
def endString (stack : List Frame) (isName : Bool) (chars : List Char) : State :=
  let s := String.ofList chars.reverse
  if isName then ⟨stack, .colon s⟩ else ⟨stack, .complete (.str s)⟩

/-- The transition for one character; `none` when the text is not JSON. -/
def step (s : State) (c : Char) : Option State :=
  match s.mode with
  | .value => startValue s.stack c
  | .firstItem =>
    if isSpace c then some s
    else if c = ']' then some ⟨s.stack.tail, .complete (.arr [])⟩
    else startValue s.stack c
  | .firstName =>
    if isSpace c then some s
    else if c = '\x7d' then some ⟨s.stack.tail, .complete (.obj [])⟩
    else if c = '"' then some ⟨s.stack, .string true [] .none⟩
    else none
  | .name =>
    if isSpace c then some s
    else if c = '"' then some ⟨s.stack, .string true [] .none⟩
    else none
  | .colon name =>
    if isSpace c then some s
    else if c = ':' then (setName s.stack name).map fun stack => ⟨stack, .value⟩
    else none
  | .complete v => afterValue s.stack v c
  | .string isName chars escape =>
    if c = '"' ∧ escape.isNone then some (endString s.stack isName chars)
    else (stringChar chars escape c).map fun (chars, escape) =>
      ⟨s.stack, .string isName chars escape⟩
  | .number chars =>
    if isNumeric c then some ⟨s.stack, .number (c :: chars)⟩
    else do
      let n ← Number.read? chars.reverse
      afterValue s.stack (.num n) c
  | .literal missing v =>
    match missing with
    | [] => afterValue s.stack v c
    | m :: rest => if c = m then some ⟨s.stack, .literal rest v⟩ else none

/-- The value when the text ends in this state. -/
def State.finish (s : State) : Option Json :=
  match s.stack, s.mode with
  | [], .complete v => some v
  | [], .number chars => (Number.read? chars.reverse).map Json.num
  | [], .literal [] v => some v
  | _, _ => none

/-- The run of the machine over some characters. -/
def run (s : State) (cs : List Char) : Option State := cs.foldlM step s

theorem run_append (s : State) (a b : List Char) : run s (a ++ b) = (run s a).bind (run · b) := by
  simp [run, List.foldlM_append]

end MessageBus.Json.Reader

namespace MessageBus.Json

/-- Reads the text of one value, blanks around it allowed. -/
def read? (text : String) : Option Json :=
  (Reader.run Reader.State.start text.toList).bind Reader.State.finish

/-- Reads the text of one object. -/
def readObject? (text : String) : Option Fields :=
  match read? text with
  | some (.obj fields) => some fields
  | _ => none

end MessageBus.Json
