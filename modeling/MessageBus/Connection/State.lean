import MessageBus.Codec

/-!
# Connections

A connection is a participant's channel to the bus.  Callers put messages into a bounded outbound
queue and take envelopes out of a bounded inbound queue; behind the queues a link is kept open.
`Connection.step` is the transition system of all that: each action is one atomic move of a caller,
of the link, or of the connection itself, and tells what it made happen.

A link that fails is opened again and again, with a fixed pause between the attempts and before the
first one if the link had not lasted that long.  A message that was partly written goes on with its
next body on the next link.  Before a new link is served, one internal signal is put into the
inbound queue.

## Main statements

* `step_stopped` : a connection that has stopped does nothing but hand out what it received.
-/

namespace MessageBus

/-- A message in the outbound queue.  Who waits for it to be written holds its ticket. -/
structure Outgoing where
  contents : Fields
  ticket : Option Nat
  deriving Repr, Inhabited

/-- A message on its way: its bodies, and how many of them are written. -/
structure InFlight where
  bodies : List String
  sent : Nat
  ticket : Option Nat
  deriving Repr, Inhabited

/-- What a connection does about its link. -/
inductive Phase where
  /-- The link is up since a moment.  An envelope that was read waits for room in the queue. -/
  | serving (since : Nat) (handing : Option Envelope)
  /-- The link failed, and the next attempt to open one is at a moment. -/
  | pausing (until_ : Nat)
  /-- A link is being opened. -/
  | opening
  /-- A link is open, and the signal of that waits for room in the queue. -/
  | announcing
  /-- The connection is shut down. -/
  | stopped
  deriving Repr, Inhabited

/-- The state of a connection. -/
structure Connection where
  codec : Codec
  /-- How many messages either queue holds. -/
  capacity : Nat
  /-- The pause between two attempts to open a link. -/
  delay : Nat
  keys : KeySet
  outbound : List Outgoing
  inFlight : Option InFlight
  inbound : List Envelope
  phase : Phase
  deriving Repr, Inhabited

namespace Connection

/-- The moves of a connection. -/
inductive Action where
  /-- A caller queues a message. -/
  | queue (o : Outgoing)
  /-- A caller replaces the keys. -/
  | setKeys (keys : KeySet)
  /-- A caller takes the next envelope. -/
  | take
  /-- The next message is taken from the queue and made into bodies. -/
  | prepare (occasion : Occasion)
  /-- The link takes the next body, or fails to. -/
  | write (ok : Bool)
  /-- The message on its way is written completely. -/
  | finish
  /-- The link delivers a body. -/
  | arrive (body : Bytes)
  /-- The envelope that was read is put into the queue. -/
  | deliver
  /-- The link fails to deliver. -/
  | loseLink
  /-- The pause is over. -/
  | resume
  /-- An attempt to open a link succeeds or fails. -/
  | opened (ok : Bool)
  /-- The signal of the new link is put into the queue. -/
  | announce
  /-- The connection is shut down. -/
  | cancel
  deriving Repr

/-- What a move made happen. -/
inductive Event where
  /-- A message became these bodies. -/
  | prepared (o : Outgoing) (bodies : List String)
  /-- A message could not be made into bodies. -/
  | rejected (o : Outgoing)
  /-- A body is on the wire. -/
  | wrote (body : String)
  /-- A message is written; whoever holds its ticket learns of it. -/
  | completed (ticket : Option Nat)
  /-- A message will not be written; whoever holds its ticket learns of it. -/
  | abandoned (ticket : Option Nat)
  /-- An envelope is in the inbound queue. -/
  | delivered (e : Envelope)
  /-- A caller took an envelope. -/
  | took (e : Envelope)
  deriving Repr

/-- A new connection on a link that was just opened. -/
def start (codec : Codec) (capacity delay : Nat) (keys : KeySet) (now : Nat) : Connection where
  codec := codec
  capacity := capacity
  delay := delay
  keys := keys
  outbound := []
  inFlight := none
  inbound := []
  phase := .serving now none

/-- Whether the connection is shut down. -/
def isStopped (c : Connection) : Bool :=
  match c.phase with
  | .stopped => true
  | _ => false

/-- Whether the link is up. -/
def isServing (c : Connection) : Bool :=
  match c.phase with
  | .serving .. => true
  | _ => false

/-- Whether the inbound queue has room. -/
def hasInboundRoom (c : Connection) : Bool := c.inbound.length < c.capacity

/-- Whether the outbound queue has room. -/
def hasOutboundRoom (c : Connection) : Bool := c.outbound.length < c.capacity

/-- The body that the link takes next. -/
def nextBody? (c : Connection) : Option String :=
  c.inFlight.bind fun f => f.bodies[f.sent]?

/-- What follows a failure of the link that was up since a moment: the first attempt comes at once
unless the link was short-lived. -/
def afterFailure (c : Connection) (now since : Nat) : Phase :=
  -- a link that fails as soon as it is up must not be opened over and over without a pause
  if now - since < c.delay then .pausing (now + c.delay) else .opening

/-- The next message of the queue becomes bodies, or is dropped. -/
def prepareNext (c : Connection) (occasion : Occasion) : Option (Connection × List Event) :=
  match c.phase, c.inFlight, c.outbound with
  | .serving .., none, o :: rest =>
    match c.codec.prepare occasion o.contents c.keys with
    | .ok bodies =>
      some ({ c with outbound := rest, inFlight := some ⟨bodies, 0, o.ticket⟩ },
        [.prepared o bodies])
    | .error _ => some ({ c with outbound := rest }, [.rejected o, .abandoned o.ticket])
  | _, _, _ => none

/-- The link takes the next body, or fails. -/
def writeNext (c : Connection) (now : Nat) (ok : Bool) : Option (Connection × List Event) :=
  match c.phase, c.inFlight with
  | .serving since _, some f =>
    match f.bodies[f.sent]? with
    | none => none
    | some body =>
      if ok then some ({ c with inFlight := some { f with sent := f.sent + 1 } }, [.wrote body])
      -- an envelope that still waits for room is lost here
      else some ({ c with phase := c.afterFailure now since }, [])
  | _, _ => none

/-- The message on its way is done with. -/
def finishMessage (c : Connection) : Option (Connection × List Event) :=
  match c.phase, c.inFlight with
  | .serving .., some f =>
    if f.bodies.length ≤ f.sent then some ({ c with inFlight := none }, [.completed f.ticket])
    else none
  | _, _ => none

/-- A body comes from the link.  What says nothing is dropped. -/
def receiveBody (c : Connection) (body : Bytes) : Option (Connection × List Event) :=
  match c.phase with
  | .serving since none => some ({ c with phase := .serving since (c.codec.parse body c.keys) }, [])
  | _ => none

/-- The envelope that was read is put into the inbound queue. -/
def deliverEnvelope (c : Connection) : Option (Connection × List Event) :=
  match c.phase with
  | .serving since (some e) =>
    if c.hasInboundRoom then
      some ({ c with inbound := c.inbound ++ [e], phase := .serving since none }, [.delivered e])
    else none
  | _ => none

/-- The link fails while the next body is awaited. -/
def loseLink (c : Connection) (now : Nat) : Option (Connection × List Event) :=
  match c.phase with
  | .serving since none => some ({ c with phase := c.afterFailure now since }, [])
  | _ => none

/-- The pause is over. -/
def resume (c : Connection) (now : Nat) : Option (Connection × List Event) :=
  match c.phase with
  | .pausing due => if due ≤ now then some ({ c with phase := .opening }, []) else none
  | _ => none

/-- An attempt to open a link succeeds, or the next one is a pause away. -/
def linkOpened (c : Connection) (now : Nat) (ok : Bool) : Option (Connection × List Event) :=
  match c.phase with
  | .opening =>
    some ({ c with phase := if ok then .announcing else .pausing (now + c.delay) }, [])
  | _ => none

/-- The signal of the new link is put into the inbound queue. -/
def announceLink (c : Connection) (now : Nat) : Option (Connection × List Event) :=
  match c.phase with
  | .announcing =>
    if c.hasInboundRoom then
      some ({ c with inbound := c.inbound ++ [.reconnected], phase := .serving now none },
        [.delivered .reconnected])
    else none
  | _ => none

/-- The connection shuts down; what is not written is abandoned. -/
def shutDown (c : Connection) : Option (Connection × List Event) :=
  if c.isStopped then none
  else
    -- whoever waits for a message to be written learns that it will not be
    let waiting := c.outbound.map (·.ticket)
    let tickets := match c.inFlight with
      | some f => f.ticket :: waiting
      | none => waiting
    some ({ c with outbound := [], inFlight := none, phase := .stopped }, tickets.map .abandoned)

/-- The transition for a move at a moment; `none` when the move is not possible. -/
def step (now : Nat) (c : Connection) : Action → Option (Connection × List Event)
  | .queue o =>
    if !c.isStopped && c.hasOutboundRoom then some ({ c with outbound := c.outbound ++ [o] }, [])
    else none
  | .setKeys keys => some ({ c with keys := keys }, [])
  | .take =>
    match c.inbound with
    | e :: rest => some ({ c with inbound := rest }, [.took e])
    | [] => none
  | .prepare occasion => c.prepareNext occasion
  | .write ok => c.writeNext now ok
  | .finish => c.finishMessage
  | .arrive body => c.receiveBody body
  | .deliver => c.deliverEnvelope
  | .loseLink => c.loseLink now
  | .resume => c.resume now
  | .opened ok => c.linkOpened now ok
  | .announce => c.announceLink now
  | .cancel => c.shutDown

theorem step_stopped (now : Nat) (c c' : Connection) (a : Action) (events : List Event)
    (h : c.phase = .stopped) (hs : c.step now a = some (c', events)) :
    (∃ keys, a = .setKeys keys) ∨ a = .take := by
  cases a <;>
    simp_all [step, prepareNext, writeNext, finishMessage, receiveBody, deliverEnvelope, loseLink,
      resume, linkOpened, announceLink, shutDown, isStopped]

end Connection

end MessageBus
