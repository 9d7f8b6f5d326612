import MessageBus.Hub.Sessions
import MessageBus.Proofs.Hub.Registration

/-! # Sockets on a hub, by the mailboxes behind it

    Whoever connects gets the next number and asks for a path.  If the path leads
    to a realm, the registry lets the client in when it comes to it, and from then
    on the client is in a session.  What a session reads goes to the mailbox of
    the realm that the client was handed; so does its leave when no more is read.
    What the realm has put into the client's send buffer is sent, frame by frame.
    The registry and the realms go on with their own work in between.

    * `moves_of_act`: what a move does, one constructor for each outcome.
    * `orderly_dispatch`: what is behind the sockets stays in order. -/

namespace MessageBus

/-- A hub with the mailboxes behind it. -/
structure Switchboard where
  settings : HubSettings
  dispatch : Dispatch
  /-- Who asked for a realm and was not let in yet. -/
  waiting : List (Nat × String)
  /-- In the order in which the registry let them in. -/
  sessions : List Session
  nextClient : Nat

namespace Dispatch

/-- Whether a move is up to the registry or a realm alone. -/
def Action.isInternal : Action → Bool
  | .work _ | .setOut .. | .ask | .conclude => true
  | _ => false

/-- The place of a client that the registry lets in next. -/
def nextSeat (d : Dispatch) (lingers : Bool) (name : String) : Seat :=
  ⟨(d.registry.handed? lingers name).getD (d.registry.started + 1), d.registry.nextOutbox⟩

end Dispatch

namespace Switchboard

/-- The moves of clients, of the registry and of realms. -/
inductive Action where
  /-- A client asks for a path. -/
  | upgrade (path : String)
  /-- The registry lets one of those in who wait. -/
  | letIn (index : Nat) (lingers : Bool)
  /-- A text frame of a session is read. -/
  | receive (session : Nat) (text : String)
  /-- No more is read from a session. -/
  | endReading (session : Nat)
  /-- The next frame for the client of a session is taken from its send buffer. -/
  | send (session : Nat)
  /-- No more is written to the client of a session. -/
  | endWriting (session : Nat)
  /-- The registry or a realm does something. -/
  | internal (a : Dispatch.Action)

/-- A hub without clients. -/
def start (settings : HubSettings) : Switchboard := ⟨settings, .start, [], [], 1⟩

/-- The hub after a move of what is behind its sockets. -/
def pass (b : Switchboard) (a : Dispatch.Action) : Option (Switchboard × List Dispatch.Event) :=
  (b.dispatch.act a).map fun (d, events) => ({ b with dispatch := d }, events)

/-- The hub that does not read from a session any more. -/
def deafen (b : Switchboard) (k : Nat) (s : Session) : Switchboard :=
  { b with sessions := b.sessions.set k { s with reading := false } }

/-- The hub that does not write to the client of a session any more. -/
def mute (b : Switchboard) (k : Nat) (s : Session) : Switchboard :=
  { b with sessions := b.sessions.set k { s with writing := false } }

/-- The hub after one of those who waited came in. -/
def settle (b : Switchboard) (index client : Nat) (seat : Seat) : Switchboard :=
  { b with
    waiting := b.waiting.eraseIdx index
    sessions := b.sessions ++ [⟨client, seat, true, true⟩] }

/-- The next state with what happened, `none` for a move that is not possible. -/
def act (b : Switchboard) : Action → Option (Switchboard × List Dispatch.Event)
  | .upgrade path =>
    let client := b.nextClient
    let waiting := ((Hub.realmOfPath? path).map fun name => (client, name)).toList
    some ({ b with nextClient := client + 1, waiting := b.waiting ++ waiting }, [])
  | .letIn index lingers =>
    match b.waiting[index]? with
    | none => none
    | some (client, name) =>
      (b.settle index client (b.dispatch.nextSeat lingers name)).pass
        (.attach name client b.settings.sendBuffer lingers)
  | .receive k text =>
    match b.sessions[k]?.filter (·.reading) with
    | none => none
    | some s => b.pass (.post s.seat.incarnation (.broadcast (Frame.normalize text)))
  | .endReading k =>
    match b.sessions[k]?.filter (·.reading) with
    | none => none
    | some s => (b.deafen k s).pass (.post s.seat.incarnation (.remove s.client))
  | .send k =>
    match b.sessions[k]?.filter (·.writing) with
    | none => none
    | some s => b.pass (.take s.seat)
  | .endWriting k =>
    match b.sessions[k]?.filter (·.writing) with
    | none => none
    | some s => (b.mute k s).pass (.abandon s.seat)
  | .internal a => if a.isInternal then b.pass a else none

/-- A trace of a hub. -/
abbrev Trace := List (Stage Switchboard Action Dispatch.Event)

/-- Runs of a hub from the time when it had no clients. -/
abbrev Runs (settings : HubSettings) (trace : Trace) (b : Switchboard) : Prop :=
  Run act (start settings) trace b

/-! ## Moves -/

/-- The possible moves, one constructor for each outcome.  In all but the first
    two, something happens behind the sockets. -/
inductive Moves (b : Switchboard) : Action → Switchboard → List Dispatch.Event → Prop where
  | accepted {path name : String} :
      Hub.realmOfPath? path = some name →
      Moves b (.upgrade path)
        { b with nextClient := b.nextClient + 1, waiting := b.waiting ++ [(b.nextClient, name)] } []
  | refused {path : String} :
      Hub.realmOfPath? path = none →
      Moves b (.upgrade path) { b with nextClient := b.nextClient + 1 } []
  | admitted {index client : Nat} {lingers : Bool} {name : String} {d : Dispatch}
      {events : List Dispatch.Event} :
      b.waiting[index]? = some (client, name) →
      Dispatch.Moves b.dispatch (.attach name client b.settings.sendBuffer lingers) d events →
      Moves b (.letIn index lingers)
        { b.settle index client (b.dispatch.nextSeat lingers name) with dispatch := d } events
  | received {k : Nat} {text : String} {s : Session} {d : Dispatch}
      {events : List Dispatch.Event} :
      b.sessions[k]? = some s →
      Dispatch.Moves b.dispatch
        (.post s.seat.incarnation (.broadcast (Frame.normalize text))) d events →
      Moves b (.receive k text) { b with dispatch := d } events
  | left {k : Nat} {s : Session} {d : Dispatch} {events : List Dispatch.Event} :
      b.sessions[k]? = some s →
      Dispatch.Moves b.dispatch (.post s.seat.incarnation (.remove s.client)) d events →
      Moves b (.endReading k) { b.deafen k s with dispatch := d } events
  | sent {k : Nat} {s : Session} {d : Dispatch} {events : List Dispatch.Event} :
      b.sessions[k]? = some s → Dispatch.Moves b.dispatch (.take s.seat) d events →
      Moves b (.send k) { b with dispatch := d } events
  | muted {k : Nat} {s : Session} {d : Dispatch} {events : List Dispatch.Event} :
      b.sessions[k]? = some s → Dispatch.Moves b.dispatch (.abandon s.seat) d events →
      Moves b (.endWriting k) { b.mute k s with dispatch := d } events
  | worked {a : Dispatch.Action} {d : Dispatch} {events : List Dispatch.Event} :
      a.isInternal = true → Dispatch.Moves b.dispatch a d events →
      Moves b (.internal a) { b with dispatch := d } events

theorem exists_of_pass {b b' : Switchboard} {a : Dispatch.Action} {events : List Dispatch.Event}
    (h : b.pass a = some (b', events)) :
    ∃ d, Dispatch.Moves b.dispatch a d events ∧ b' = { b with dispatch := d } := by
  obtain ⟨⟨d, events'⟩, hact, heq⟩ := Option.map_eq_some_iff.mp h
  cases heq
  exact ⟨d, Dispatch.moves_of_act hact, rfl⟩

/-- Every possible move is one of the listed ones. -/
theorem moves_of_act {b b' : Switchboard} {a : Action} {events : List Dispatch.Event}
    (h : b.act a = some (b', events)) : Moves b a b' events := by
  cases a with
  | upgrade path =>
    cases hpath : Hub.realmOfPath? path with
    | none =>
      simp only [act, hpath, Option.map_none, Option.toList_none, List.append_nil] at h
      cases h
      exact .refused hpath
    | some name =>
      simp only [act, hpath, Option.map_some, Option.toList_some] at h
      cases h
      exact .accepted hpath
  | letIn index lingers =>
    simp only [act] at h
    split at h
    · cases h
    · next client name hwaiting =>
      obtain ⟨d, hd, rfl⟩ := exists_of_pass h
      exact .admitted hwaiting hd
  | receive k text =>
    simp only [act] at h
    split at h
    · cases h
    · next s hs =>
      obtain ⟨d, hd, rfl⟩ := exists_of_pass h
      exact .received (Option.filter_eq_some_iff.mp hs).1 hd
  | endReading k =>
    simp only [act] at h
    split at h
    · cases h
    · next s hs =>
      obtain ⟨d, hd, rfl⟩ := exists_of_pass h
      exact .left (Option.filter_eq_some_iff.mp hs).1 hd
  | send k =>
    simp only [act] at h
    split at h
    · cases h
    · next s hs =>
      obtain ⟨d, hd, rfl⟩ := exists_of_pass h
      exact .sent (Option.filter_eq_some_iff.mp hs).1 hd
  | endWriting k =>
    simp only [act] at h
    split at h
    · cases h
    · next s hs =>
      obtain ⟨d, hd, rfl⟩ := exists_of_pass h
      exact .muted (Option.filter_eq_some_iff.mp hs).1 hd
  | internal a =>
    simp only [act] at h
    split at h
    · next ha =>
      obtain ⟨d, hd, rfl⟩ := exists_of_pass h
      exact .worked ha hd
    · cases h

/-- What is behind the sockets stays in order. -/
theorem orderly_dispatch {settings : HubSettings} {trace : Trace} {b : Switchboard}
    (h : Runs settings trace b) : b.dispatch.Orderly := by
  apply h.invariant _ Dispatch.Orderly.start
  intro b a b' events ho hact
  cases moves_of_act hact with
  | accepted | refused => exact ho
  | admitted _ hm | received _ hm | left _ hm | sent _ hm | muted _ hm | worked _ hm =>
    exact ho.moves hm

end Switchboard

end MessageBus
