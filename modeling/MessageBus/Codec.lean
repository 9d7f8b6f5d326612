import MessageBus.Cipher.Sealed
import MessageBus.Json.Reader
import MessageBus.KeySet
import MessageBus.Message.Envelope
import MessageBus.Timestamp

/-!
# From messages to bodies and back

`Codec.prepare` marks an object with the sender's id, its machine and the time, writes it as JSON
text and seals that text once for each key; without keys the text itself is the body.
`Codec.parse` reads a body: text that begins with a brace is read as it is, anything else is
opened with the keys in turn.  What does not read as an object, and what the participant sent
itself, is dropped.
-/

namespace MessageBus

/-- What differs from one preparation to the next: the time, and the initialization vector for
each key. -/
structure Occasion where
  sent : Timestamp
  vectors : List Bytes
  deriving Repr, Inhabited

/-- The codec of one participant. -/
structure Codec where
  id : String
  host : HostInfo
  deriving Repr, DecidableEq, Inhabited

namespace Codec

/-- Sets a member if there is a value for it. -/
def insertText? (fields : Fields) (name : String) : Option String → Fields
  | some s => fields.insert name (.str s)
  | none => fields

/-- The object with the marks of its sender. -/
def tag (c : Codec) (sent : Timestamp) (contents : Fields) : Fields :=
  let fields := contents.insert "id" (.str c.id)
  let fields := insertText? fields "hostname" c.host.hostname
  let fields := insertText? fields "ip" c.host.ip
  fields.insert "sent" (.str sent.render)

/-- Whether a key can seal a body. -/
def isUsable (key : String) : Bool := Aes.isKeySize (utf8 key).length

/-- One sealed body for each usable key, in the order of the keys.  The k-th vector is for the
k-th usable key. -/
def sealAll (text : String) : (keys : List String) → (vectors : List Bytes) → List String
  | [], _ => []
  | key :: keys, vectors =>
    match Sealed.close (utf8 key) (vectors.headD []) (utf8 text) with
    | .ok body => body :: sealAll text keys vectors.tail
    | .error _ => sealAll text keys vectors

/-- The bodies of an object. -/
def prepare (c : Codec) (occasion : Occasion) (contents : Fields) (keys : KeySet) :
    BusResult (List String) :=
  let text := (c.tag occasion.sent contents).write
  -- keys none of which can seal must not make the message go out in the clear
  if keys.isEmpty then .ok [text]
  else match sealAll text keys.keys occasion.vectors with
    | [] => .error (.crypto "no key could encrypt the message")
    | bodies => .ok bodies

/-- The text of an object, and the object. -/
def readObject? (body : Bytes) : Option (String × Fields) := do
  let raw ← Bytes.text? body
  let fields ← Json.readObject? raw
  return (raw, fields)

/-- What the first key yields under which the body opens to an object. -/
def openAny? (body : Bytes) (keys : List String) : Option (String × Fields) :=
  keys.findSome? fun key =>
    match Sealed.openWith (utf8 key) body with
    | .ok plain => readObject? plain
    | .error _ => none

/-- The byte that marks a body in the clear. -/
def openBrace : UInt8 := 0x7B

/-- What a body holds, whoever sent it. -/
def decode? (body : Bytes) (keys : KeySet) : Option (String × Fields) :=
  match body.find? fun b => !Bytes.isBlank b with
  | none => none
  | some b => if b = openBrace then readObject? body else openAny? body keys.keys

/-- The envelope of a body, unless it says nothing or comes from the participant itself. -/
def parse (c : Codec) (body : Bytes) (keys : KeySet) : Option Envelope :=
  match decode? body keys with
  | none => none
  | some (raw, fields) =>
    -- an echo of the participant's own message
    if fields.text? "id" = some c.id then none else some (.received fields raw)

end Codec

end MessageBus
