import MessageBus.Connection.Handshake
import MessageBus.Connection.RunCommand
import MessageBus.Simulation.Foreground
import MessageBus.Transport

/-!
# A bus with named participants

A world whose connections, introducers and raw links have names.  Each operation lets everything
happen that follows from it before the next one.
-/

namespace MessageBus

/-- A raw link to a bus in memory. -/
structure Tap where
  topic : String
  link : Nat
  deriving DecidableEq, Repr

/-- Named participants in a world. -/
structure BusScenario where
  world : World
  connections : Table Nat
  introducers : Table Nat
  taps : Table Tap
  /-- Whether everything that is opened is told at once to shut down. -/
  cancelled : Bool

namespace BusScenario

/-- A world without participants. -/
def start (seed : Nat) : BusScenario := ⟨.start seed, [], [], [], false⟩

/-- What a transport leads to in a world without a network. -/
def mediumOf : Transport → BusResult Medium
  | .memory topic => .ok (.memory topic)
  | .poll _ _ => .ok .unanswered
  | .socket _ => .error (.webSocket "IO error: Network is unreachable (os error 101)")
  | .queue .. => .error (.amqp "Network is unreachable (os error 101)")

/-- Lets everything happen that can happen now. -/
def settle (s : BusScenario) : BusScenario := { s with world := s.world.settle }

/-- Lets time pass. -/
def wait (s : BusScenario) (ms : Nat) : BusScenario :=
  { s with world := s.world.advance (s.world.now + ms) }

/-- The bus of a topic changed. -/
def modifyBus (s : BusScenario) (topic : String) (change : MemoryBus → MemoryBus) : BusScenario :=
  settle { s with world := s.world.setBus (change (s.world.bus topic)) }

/-- The connection of a name. -/
def peer? (s : BusScenario) (name : String) : Option Peer :=
  (Table.get? s.connections name).bind s.world.peer?

/-- Gives up the connection of a name. -/
def drop (s : BusScenario) (name : String) : BusScenario :=
  match Table.get? s.connections name with
  | none => s
  | some i =>
    settle { s with world := s.world.cancelPeer i, connections := s.connections.erase name }

/-- Puts a connection under a name; the one that was there is given up. -/
def attach (s : BusScenario) (name : String) (i : Nat) : BusScenario :=
  let s := s.drop name
  settle { s with connections := s.connections.insert name i }

/-- Opens a connection. -/
def openPeer (s : BusScenario) (settings : Settings) (id : String) (sub : Option String)
    (keys : KeySet) : BusResult Nat × BusScenario :=
  match Transport.ofSettings settings id sub >>= mediumOf with
  | .error e => (.error e, s)
  | .ok medium =>
    let (r, w) := s.world.connect medium ⟨id, ⟨none, none⟩⟩ settings.queueCapacity
      settings.reconnectDelay keys s.cancelled
    (r, { s with world := w })

/-- Opens a connection under a name. -/
def connect (s : BusScenario) (name : String) (settings : Settings) (id : String)
    (sub : Option String) (keys : KeySet) : BusResult Unit × BusScenario :=
  match s.openPeer settings id sub keys with
  | (.error e, s) => (.error e, s.settle)
  | (.ok i, s) => (.ok (), s.attach name i)

/-- The keys of a participant that only listens. -/
def configuredKeys (settings : Settings) : BusResult KeySet :=
  match Handshake.configuredKey? settings with
  | some key => KeySet.parse key
  | none => .ok .empty

/-- The keys of an introducer, fresh ones if none are configured. -/
def introducerKeys (s : BusScenario) (settings : Settings) : BusResult KeySet × BusScenario :=
  match Handshake.configuredKey? settings with
  | some key => (KeySet.parse key, s)
  | none =>
    let (key, e) := KeySet.freshKey s.world.entropy
    (.ok ⟨[key]⟩, { s with world := { s.world with entropy := e } })

/-- Opens a connection that uses its keys as they are. -/
def connectPassive (s : BusScenario) (name : String) (settings : Settings) (id : String) :
    BusResult Unit × BusScenario :=
  match configuredKeys settings with
  | .error e => (.error e, s)
  | .ok keys => s.connect name settings id none keys

/-- Opens a connection for an introducer. -/
def connectIntroducer (s : BusScenario) (name : String) (settings : Settings) (id : String) :
    BusResult Unit × BusScenario :=
  match s.introducerKeys settings with
  | (.error e, s) => (.error e, s)
  | (.ok keys, s) => s.connect name settings id none keys

/-- Opens a sub-channel of the connection of a name. -/
def connectSub (s : BusScenario) (name parent sub : String) (settings : Settings) :
    BusResult Unit × BusScenario :=
  match s.peer? parent with
  | none => (.error .closed, s)
  | some p =>
    let c := p.connection
    s.connect name settings (Transport.channel c.codec.id (some sub)) (some sub) c.keys

/-- Runs a program on a connection; `none` when it does not end in time. -/
def runOn {α : Type} (s : BusScenario) (i : Nat) (limit : Option Nat) (p : Program α) :
    Option α × BusScenario :=
  let (r, w) := s.world.run (Table.get? s.introducers) (limit.map (s.world.now + ·)) i p
  (r, settle { s with world := w })

/-- Opens a connection and puts it under a name if a task on it ends well. -/
def connectThen (s : BusScenario) (name : String) (settings : Settings) (id : String)
    (limit : Option Nat) (task : Task BusError Unit) :
    Option (BusResult Unit) × BusScenario :=
  match s.openPeer settings id none .empty with
  | (.error e, s) => (some (.error e), s.settle)
  | (.ok i, s) =>
    match s.runOn i limit task.run with
    | (some (.ok ()), s) => (some (.ok ()), s.attach name i)
    | (r, s) => (r, settle { s with world := s.world.cancelPeer i })

/-- Runs a task on the connection of a name. -/
def perform {ε α : Type} (s : BusScenario) (name : String) (limit : Option Nat)
    (task : String → Task ε α) : Option (Except ε α) × BusScenario :=
  match Table.get? s.connections name, s.peer? name with
  | some i, some p => s.runOn i limit (task p.connection.codec.id).run
  | _, _ => (none, s)

/-- Takes what is in the inbound queue of a connection, at most so many envelopes. -/
def drain (s : BusScenario) (i : Nat) (most : Option Nat) : List Envelope × BusScenario :=
  match s.world.peer? i with
  | none => ([], s)
  | some p =>
    let inbound := p.connection.inbound
    let got := match most with
      | some n => inbound.take n
      | none => inbound
    (got, settle { s with world := s.world.takeEnvelopes i got.length })

/-- How often a receiver looks again for what came while it looked. -/
def looks : Nat := 3

/-- Takes what a connection received, at most so many envelopes, and tells whether it is shut
down with nothing left. -/
def receive (s : BusScenario) (name : String) (most : Option Nat) :
    List Envelope × Bool × BusScenario :=
  match Table.get? s.connections name with
  | none => ([], true, s)
  | some i => go i looks s most
where
  go (i : Nat) : Nat → BusScenario → Option Nat → List Envelope × Bool × BusScenario
    | 0, s, _ => ([], false, s)
    | n + 1, s, most =>
      if most = some 0 then ([], false, s)
      else
        let stopped := s.world.isStopped i
        let (got, s) := s.drain i most
        if stopped && most.all (got.length < ·) then (got, true, s)
        else
          let (rest, closed, s) := go i n s (most.map (· - got.length))
          (got ++ rest, closed, s)

/-- Gives a connection new keys. -/
def setKeys (s : BusScenario) (name : String) (keys : KeySet) : BusScenario :=
  match Table.get? s.connections name with
  | none => s
  | some i => settle { s with world := (s.world.act i (.setKeys keys)).getD s.world }

/-- Tells a connection to shut down. -/
def close (s : BusScenario) (name : String) : BusScenario :=
  match Table.get? s.connections name with
  | none => s
  | some i => settle { s with world := s.world.cancelPeer i }

/-- Tells every connection to shut down, also those that are opened later. -/
def cancelAll (s : BusScenario) : BusScenario :=
  settle { s with
    cancelled := true
    world := { s.world with peers := s.world.peers.map fun p => { p with cancelled := true } } }

/-- An introducer takes over the connection of a name. -/
def startIntroducer (s : BusScenario) (name : String) (level : Binary64) (silence : Nat)
    (fails : Deed → Bool) : BusScenario :=
  match Table.get? s.connections name with
  | none => s
  | some i =>
    settle { s with
      world := s.world.startIntroducer i level silence fails
      connections := s.connections.erase name
      introducers := s.introducers.insert name s.world.introducers.length }

/-- Tells an introducer to end. -/
def stopIntroducer (s : BusScenario) (name : String) : BusScenario :=
  match Table.get? s.introducers name with
  | none => s
  | some k =>
    settle { s with world := { s.world with
      introducers := s.world.introducers.modify k fun x => { x with cancelled := true } } }

/-- An introducer as it is now.  Its log starts anew, and if it has ended it is forgotten. -/
def inspect (s : BusScenario) (name : String) : Option Introducing × BusScenario :=
  match Table.get? s.introducers name with
  | none => (none, s)
  | some k =>
    match s.world.introducers[k]? with
    | none => (none, s)
    | some x =>
      let s := { s with world := s.world.setIntroducer k { x with log := [] } }
      (some x, if x.ended.isSome then { s with introducers := s.introducers.erase name } else s)

/-- Opens a raw link under a name; the one that was there is given up. -/
def openTap (s : BusScenario) (name topic : String) : BusResult String × BusScenario :=
  match s.world.openLink (.memory topic) with
  | (.error e, w) => (.error e, { s with world := w })
  | (.ok link, w) =>
    let w := match Table.get? s.taps name with
      | some t => w.setBus ((w.bus t.topic).drop t.link)
      | none => w
    (.ok ("mem://" ++ topic), { s with world := w, taps := s.taps.insert name ⟨topic, link⟩ })

/-- Sends bodies over a raw link, sealed if there is a key. -/
def tapSend (s : BusScenario) (name : String) (key : Option String) (bodies : List String) :
    BusResult Unit × BusScenario :=
  match Table.get? s.taps name with
  | none => (.error MemoryBus.severed, s)
  | some t =>
    let (r, w) := go t s.world bodies
    (r, settle { s with world := w })
where
  go (t : Tap) (w : World) : List String → BusResult Unit × World
    | [] => (.ok (), w)
    | body :: rest =>
      let (vector, e) := w.entropy.drawBytes Sealed.vectorSize
      let wire := match key with
        | some k => Sealed.close (utf8 k) vector (utf8 body)
        | none => .ok body
      match wire with
      | .error e => (.error e, w)
      | .ok text =>
        match (w.bus t.topic).send t.link text with
        | (.ok _, b) => go t ({ w with entropy := e }.setBus b) rest
        | (.error e, _) => (.error e, w)

/-- Takes what a raw link has, and tells whether it is cut. -/
def tapReceive (s : BusScenario) (name : String) : List String × Bool × BusScenario :=
  match Table.get? s.taps name with
  | none => ([], true, s)
  | some t =>
    let (got, cut, b) := go t (MemoryBus.linkBuffer + 1) (s.world.bus t.topic)
    (got, cut, { s with world := s.world.setBus b })
where
  go (t : Tap) : Nat → MemoryBus → List String × Bool × MemoryBus
    | 0, b => ([], false, b)
    | n + 1, b =>
      match b.receive t.link with
      | (.body body, b) =>
        let (rest, cut, b) := go t n b
        (body :: rest, cut, b)
      | (.waiting, b) => ([], false, b)
      | (.severed, b) => ([], true, b)

end BusScenario

end MessageBus
