import MessageBus.Text.Hidden

/-!
# Quoted text

`quoted` shows a text between double quotes for a reader of diagnostics: the quote, the backslash
and the common control characters are escaped with a backslash, hidden characters are spelled as
code points in braces, and all else stands for itself.
-/

namespace MessageBus.Text

/-- A character of a quoted text. -/
def quotedChar (c : Char) : List Char :=
  if c.toNat = 0 then ['\\', '0']
  else if c = '\t' then ['\\', 't']
  else if c = '\r' then ['\\', 'r']
  else if c = '\n' then ['\\', 'n']
  else if c = '\\' then ['\\', '\\']
  else if c = '"' then ['\\', '"']
  else if isHidden c then
    ['\\', 'u', '\x7b'] ++ Nat.toDigits 16 c.toNat ++ ['\x7d']
  else [c]

/-- The text between quotes, escaped. -/
def quoted (s : String) : String :=
  String.ofList ('"' :: s.toList.flatMap quotedChar ++ ['"'])

end MessageBus.Text
