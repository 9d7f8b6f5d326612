import MessageBus.Text.Blank
import MessageBus.Text.Bytes

/-!
# Frames of sockets

What travels over a socket between a hub and a client, and how many bytes it takes there.  The text
of a frame that the hub hands on is brought into one line first.

## Main statements

* `newline_notMem_normalize` : a text that is handed on has no line breaks.
-/

namespace MessageBus

/-- A frame of a socket. -/
inductive Frame where
  | text (s : String)
  | binary (data : Bytes)
  | ping (data : Bytes)
  | pong (data : Bytes)
  | close
  deriving DecidableEq, Repr, Inhabited

namespace Frame

/-- How many bytes a frame carries. -/
def payload : Frame → Nat
  | text s => s.utf8ByteSize
  | binary data | ping data | pong data => data.length
  | close => 0

/-- Whether a frame belongs to the upkeep of the socket. -/
def isControl : Frame → Bool
  | ping _ | pong _ | close => true
  | _ => false

/-- The largest frame of the upkeep. -/
def maxControl : Nat := 125

/-- How many bytes a frame takes on its way to a client. -/
def wireSize (f : Frame) : Nat :=
  let n := f.payload
  n + (if n ≤ 125 then 2 else if n < 65536 then 4 else 10)

/-- Whether a hub with a limit accepts a frame. -/
def isAcceptable (limit : Nat) (f : Frame) : Bool :=
  f.payload ≤ limit && (!f.isControl || f.payload ≤ maxControl)

/-- A space in place of a line break. -/
def unbreak (c : Char) : Char := if c = '\n' then ' ' else c

/-- The text that the hub hands on. -/
def normalize (s : String) : String := String.ofList (Text.trimChars (s.toList.map unbreak))

theorem unbreak_ne (c : Char) : unbreak c ≠ '\n' := by
  unfold unbreak
  split
  · decide
  · assumption

theorem newline_notMem_normalize (s : String) : '\n' ∉ (normalize s).toList := by
  intro h
  simp only [normalize, String.toList_ofList] at h
  have h := Text.mem_of_mem_trimChars h
  obtain ⟨c, _, hc⟩ := List.mem_map.1 h
  exact unbreak_ne c hc

end Frame

end MessageBus
