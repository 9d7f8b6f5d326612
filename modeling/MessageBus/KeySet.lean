import MessageBus.Error
import MessageBus.Identity
import MessageBus.Text.Quoted
import MessageBus.Text.Bytes

/-!
# Key sets

A participant holds a list of shared keys in a fixed order.  Keys are read from any text: a key is
a run of 32 digits and lower-case letters, and longer runs are cut into keys from the left.
-/

namespace MessageBus

/-- The keys that a participant holds, in order. -/
structure KeySet where
  keys : List String
  deriving DecidableEq, Repr, Inhabited

namespace KeySet

/-- No keys: messages travel in the clear. -/
def empty : KeySet := ⟨[]⟩

/-- How many characters a key has. -/
def keyLength : Nat := 32

/-- Whether there are no keys. -/
def isEmpty (k : KeySet) : Bool := k.keys.isEmpty

/-- How many keys there are. -/
def size (k : KeySet) : Nat := k.keys.length

/-- The keys with commas between them. -/
def joined (k : KeySet) : String := String.intercalate "," k.keys

/-- The keys in a text.  `run` holds the characters of the key at hand, latest first. -/
def scan (run : List Char) : List Char → List String
  | [] => []
  | c :: rest =>
    if Identity.isAlphabetic c then
      if run.length + 1 = keyLength then String.ofList (c :: run).reverse :: scan [] rest
      else scan (c :: run) rest
    else scan [] rest

/-- Reads the keys in a text; there has to be one. -/
def parse (text : String) : BusResult KeySet :=
  match scan [] text.toList with
  | [] => .error .invalidKey
  | keys => .ok ⟨keys⟩

/-- A fresh key. -/
def freshKey (e : Entropy) : String × Entropy := Identity.randomText e keyLength

/-- The first characters that fill exactly `size` bytes, if some do. -/
def takeBytes? (size : Nat) : List Char → Option (List Char)
  | [] => if size = 0 then some [] else none
  | c :: rest =>
    if size = 0 then some []
    else if c.utf8Size ≤ size then (takeBytes? (size - c.utf8Size) rest).map (c :: ·)
    else none

/-- The start of a key that may be shown: four bytes, or all of a shorter key.  There is none when
the cut would split a character. -/
def fingerprint? (key : String) : Option String :=
  (takeBytes? (min key.utf8ByteSize 4) key.toList).map String.ofList

/-- The keys for diagnostics: never more than a fingerprint of each. -/
def debug? (k : KeySet) : Option String := do
  let prints ← k.keys.mapM fingerprint?
  let inner := String.intercalate ", " (prints.map Text.quoted)
  return "KeySet \x7b keys: [" ++ inner ++ "] \x7d"

end KeySet

end MessageBus
