/-!
# Realms

A realm hands every frame that one of its clients sends to all of them, the sender included.  Each
client has a bounded send buffer.  A client whose buffer is full, or from whose buffer nobody takes
any more, leaves at the next frame and does not get that frame; what is in its buffer can still be
taken.

## Main statements

* `broadcast_stopped` : a realm that has stopped hands nothing out.
* `Outbox.take_cons` : the oldest frame is taken first.
-/

namespace MessageBus

/-- The send buffer of a client. -/
structure Outbox where
  number : Nat
  client : Nat
  capacity : Nat
  /-- The frames that were handed out and not taken yet. -/
  buffer : List String
  /-- Whether the client belongs to the realm. -/
  attached : Bool
  /-- Whether anybody still takes frames. -/
  listening : Bool
  deriving DecidableEq, Repr, Inhabited

/-- A realm, with the send buffers of all clients that it ever had. -/
structure Realm where
  name : String
  /-- Tells apart the realms that had the same name one after the other. -/
  incarnation : Nat
  running : Bool
  outboxes : List Outbox
  deriving DecidableEq, Repr, Inhabited

namespace Outbox

/-- Whether another frame finds room, and somebody to take it. -/
def accepts (o : Outbox) : Bool := o.listening && o.buffer.length < o.capacity

/-- The buffer after a frame was handed out. -/
def offer (text : String) (o : Outbox) : Outbox :=
  if !o.attached then o
  else if o.accepts then { o with buffer := o.buffer ++ [text] }
  else { o with attached := false }

/-- The buffer of a client that leaves. -/
def detach (o : Outbox) : Outbox := { o with attached := false }

/-- The buffer that nobody takes from any more. -/
def abandon (o : Outbox) : Outbox := { o with listening := false, buffer := [] }

/-- The next frame, and the buffer without it. -/
def take (o : Outbox) : Option String × Outbox :=
  match o.buffer with
  | text :: rest => (some text, { o with buffer := rest })
  | [] => (none, o)

theorem take_cons (o : Outbox) (text : String) (rest : List String)
    (h : o.buffer = text :: rest) : o.take = (some text, { o with buffer := rest }) := by
  simp [take, h]

end Outbox

namespace Realm

/-- A realm without clients. -/
def start (name : String) (incarnation : Nat) : Realm := ⟨name, incarnation, true, []⟩

/-- A client joins; an earlier one of that number leaves. -/
def add (r : Realm) (client number capacity : Nat) : Realm :=
  { r with outboxes :=
      r.outboxes.map (fun o => if o.client = client then o.detach else o)
        ++ [⟨number, client, capacity, [], true, true⟩] }

/-- A client leaves. -/
def remove (r : Realm) (client : Nat) : Realm :=
  { r with outboxes := r.outboxes.map fun o => if o.client = client then o.detach else o }

/-- A frame goes to every client. -/
def broadcast (r : Realm) (text : String) : Realm :=
  { r with outboxes := r.outboxes.map (Outbox.offer text) }

/-- How many clients there are. -/
def count (r : Realm) : Nat := r.outboxes.countP (·.attached)

/-- The realm stops, and all its clients leave. -/
def stop (r : Realm) : Realm :=
  { r with running := false, outboxes := r.outboxes.map Outbox.detach }

/-- The realm stops if it has no clients. -/
def retireIfEmpty (r : Realm) : Realm := if r.count = 0 then r.stop else r

/-- Changes the send buffer of a number. -/
def modify (r : Realm) (number : Nat) (change : Outbox → Outbox) : Realm :=
  { r with outboxes := r.outboxes.map fun o => if o.number = number then change o else o }

/-- The send buffer of a number. -/
def outbox? (r : Realm) (number : Nat) : Option Outbox := r.outboxes.find? (·.number == number)

theorem count_start (name : String) (incarnation : Nat) : (start name incarnation).count = 0 := rfl

theorem broadcast_stopped (r : Realm) (text : String) : r.stop.broadcast text = r.stop := by
  simp [broadcast, stop, Outbox.offer, Outbox.detach]

theorem count_stop (r : Realm) : r.stop.count = 0 := by
  simp [count, stop, Outbox.detach]

end Realm

end MessageBus
