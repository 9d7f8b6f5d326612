import MessageBus.Message.Decode

/-!
# Envelopes

What a participant receives: the object of a message, the exact text it came as, and whether the
connection itself made it up to tell that the link is up again.

## Main statements

* `isReconnected_received` : nothing that came from the bus counts as that signal.
-/

namespace MessageBus

/-- A received message. -/
structure Envelope where
  contents : Fields
  raw : String
  isInternal : Bool
  deriving Repr, Inhabited

namespace Envelope

/-- An envelope for an object from the bus and the text that it was read from. -/
def received (contents : Fields) (raw : String) : Envelope := ⟨contents, raw, false⟩

/-- The signal that the link is up again. -/
def reconnected : Envelope :=
  let contents := Message.reconnected.toFields
  ⟨contents, contents.write, true⟩

/-- The type that the object names. -/
def type? (e : Envelope) : Option String := e.contents.text? "type"

/-- The id of the participant that sent the message. -/
def sender? (e : Envelope) : Option String := e.contents.text? "id"

/-- The typed message. -/
def message (e : Envelope) : BusResult Message :=
  match Message.ofFields e.contents with
  | .ok m => .ok m
  | .error c => .error (.malformedMessage c.message)

/-- Whether this is the local signal that the link is up again. -/
def isReconnected (e : Envelope) : Bool := e.isInternal && e.type? == some "Reconnected"

theorem isReconnected_received (contents : Fields) (raw : String) :
    (received contents raw).isReconnected = false := rfl

theorem isReconnected_reconnected : reconnected.isReconnected = true := by decide +kernel

end Envelope

end MessageBus
