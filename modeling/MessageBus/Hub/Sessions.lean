import MessageBus.Hub.Frame
import MessageBus.Hub.Registry
import MessageBus.Hub.Route
import MessageBus.Hub.Settings

/-!
# The hub

The hub switches frames between the sockets of a realm and never looks into them.  A client is in a
session from its upgrade on: one side of the session reads what the client sends and hands it to the
realm, the other takes from the client's send buffer what the realm hands out.

`Hub.step` is the transition system of that; when a socket fails or is too slow is up to whoever
makes the moves.

## Main statements

* `upgrade_elsewhere` : a path that leads to no realm attaches nobody.
-/

namespace MessageBus

/-- A client of a hub. -/
structure Session where
  client : Nat
  seat : Seat
  /-- Whether the hub still reads what the client sends. -/
  reading : Bool
  /-- Whether the hub still writes to the client. -/
  writing : Bool
  deriving DecidableEq, Repr, Inhabited

/-- The state of a hub.  Sessions are numbered in the order of their upgrades. -/
structure Hub where
  settings : HubSettings
  registry : Registry
  sessions : List Session
  nextClient : Nat
  deriving DecidableEq, Repr

namespace Hub

/-- The moves of a hub and its clients. -/
inductive Action where
  /-- A client asks for a path. -/
  | upgrade (path : String)
  /-- A text frame of a session is read. -/
  | receive (session : Nat) (text : String)
  /-- No more is read from a session: its socket failed, was silent for too long, or was closed. -/
  | endReading (session : Nat)
  /-- The next frame for the client of a session is taken from its send buffer. -/
  | send (session : Nat)
  /-- No more is written to the client of a session. -/
  | endWriting (session : Nat)
  /-- Realms without clients are retired. -/
  | sweep
  deriving DecidableEq, Repr

/-- What a move made happen. -/
inductive Event where
  /-- A session started. -/
  | joined (session : Nat) (seat : Seat)
  /-- There is no realm at a path, or the registry is gone. -/
  | refused
  /-- A text went to a realm. -/
  | handed (incarnation : Nat) (text : String)
  /-- A text is on its way to the client of a session. -/
  | sent (session : Nat) (text : String)
  deriving DecidableEq, Repr

/-- A hub without clients. -/
def start (settings : HubSettings) : Hub := ⟨settings, .start, [], 1⟩

/-- The session of a number. -/
def session? (h : Hub) (k : Nat) : Option Session := h.sessions[k]?

/-- The hub after a client came by. -/
def welcome (h : Hub) (path : String) : Hub × List Event :=
  let client := h.nextClient
  -- a number is used up even by whoever is turned away
  let h := { h with nextClient := client + 1 }
  match realmOfPath? path with
  | none => (h, [.refused])
  | some name =>
    match h.registry.attach name client h.settings.sendBuffer with
    | (.error _, r) => ({ h with registry := r }, [.refused])
    | (.ok seat, r) =>
      ({ h with registry := r, sessions := h.sessions ++ [⟨client, seat, true, true⟩] },
        [.joined h.sessions.length seat])

/-- The hub after a text frame was read. -/
def hand (h : Hub) (k : Nat) (text : String) : Hub × List Event :=
  match (h.session? k).filter (·.reading) with
  | none => (h, [])
  | some s =>
    let line := Frame.normalize text
    ({ h with registry := h.registry.broadcast s.seat.incarnation line },
      [.handed s.seat.incarnation line])

/-- The hub that reads no more from a session, whose client leaves its realm. -/
def endReading (h : Hub) (k : Nat) : Hub :=
  match (h.session? k).filter (·.reading) with
  | none => h
  | some s =>
    { h with
      registry := h.registry.remove s.seat.incarnation s.client
      sessions := h.sessions.set k { s with reading := false } }

/-- The hub after the next frame for a client was taken. -/
def takeNext (h : Hub) (k : Nat) : Hub × List Event :=
  match (h.session? k).filter (·.writing) with
  | none => (h, [])
  | some s =>
    match (h.registry.outbox? s.seat).map Outbox.take with
    | some (some text, o) =>
      ({ h with registry := h.registry.modifyOutbox s.seat fun _ => o }, [.sent k text])
    | _ => (h, [])

/-- The hub that writes no more to a client. -/
def endWriting (h : Hub) (k : Nat) : Hub :=
  match (h.session? k).filter (·.writing) with
  | none => h
  | some s =>
    { h with
      registry := h.registry.modifyOutbox s.seat Outbox.abandon
      sessions := h.sessions.set k { s with writing := false } }

/-- The transition for a move. -/
def step (h : Hub) : Action → Hub × List Event
  | .upgrade path => h.welcome path
  | .receive k text => h.hand k text
  | .endReading k => (h.endReading k, [])
  | .send k => h.takeNext k
  | .endWriting k => (h.endWriting k, [])
  | .sweep => ({ h with registry := h.registry.sweep }, [])

/-- Whether the realm has given up the client of a session, and its send buffer is empty. -/
def isDrained (h : Hub) (k : Nat) : Bool :=
  match (h.session? k).bind fun s => h.registry.outbox? s.seat with
  | some o => !o.attached && o.buffer.isEmpty
  | none => true

theorem upgrade_elsewhere (h : Hub) (path : String) (hp : realmOfPath? path = none) :
    (h.step (.upgrade path)).1 = { h with nextClient := h.nextClient + 1 } := by
  simp [step, welcome, hp]

end Hub

end MessageBus
