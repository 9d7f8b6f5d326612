import MessageBus.Connection.Program
import MessageBus.Introducer
import MessageBus.Link.MemoryBus

/-!
# A world under a virtual clock

Connections, introducers and the buses between them, with a clock that moves only when all of them
wait: then it jumps to the next moment at which one of them has something to do.  So a whole run
is a function of its steps, and waiting costs nothing.

`World.settle` lets everything happen that can happen now, `World.advance` also what happens up to a
later moment.
-/

namespace MessageBus

/-- What a connection's links lead to. -/
inductive Medium where
  /-- The bus in memory of a topic. -/
  | memory (topic : String)
  /-- Polled requests that nobody answers: nothing arrives, and what is sent is gone. -/
  | unanswered
  deriving DecidableEq, Repr, Inhabited

/-- A connection with the link that it has. -/
structure Peer where
  connection : Connection
  medium : Medium
  link : Nat
  /-- Whether the connection was told to shut down. -/
  cancelled : Bool
  deriving Repr, Inhabited

/-- An introducer on a connection. -/
structure Introducing where
  peer : Nat
  election : Election
  /-- What it still has to send. -/
  pending : List Message
  /-- How long it waits for an envelope. -/
  silence : Nat
  /-- When the present wait is over. -/
  due : Nat
  /-- The deeds that fail. -/
  fails : Deed → Bool
  /-- The deeds since the last look, in order. -/
  log : List (Deed × Bool)
  clipboard : Option String
  cancelled : Bool
  ended : Option (BusResult Unit)

/-- Everything that moves by itself. -/
structure World where
  /-- Milliseconds since the start. -/
  now : Nat
  buses : List MemoryBus
  peers : List Peer
  introducers : List Introducing
  entropy : Entropy
  nextTicket : Nat
  /-- The tickets that were redeemed, with whether the message was written. -/
  redeemed : List (Nat × Bool)

namespace World

/-- An empty world. -/
def start (seed : Nat) : World := ⟨0, [], [], [], ⟨seed⟩, 0, []⟩

/-- The bus of a topic; it is there as soon as it is used. -/
def bus (w : World) (topic : String) : MemoryBus :=
  (w.buses.find? (·.name == topic)).getD (.create topic)

/-- Changes the bus of a topic. -/
def setBus (w : World) (b : MemoryBus) : World :=
  { w with buses := b :: w.buses.filter (·.name != b.name) }

/-- The connection of a number. -/
def peer? (w : World) (i : Nat) : Option Peer := w.peers[i]?

/-- Replaces a connection. -/
def setPeer (w : World) (i : Nat) (p : Peer) : World := { w with peers := w.peers.set i p }

/-- Remembers which tickets a move redeemed. -/
def redeem (w : World) (events : List Connection.Event) : World :=
  { w with redeemed := events.foldl (fun known e =>
      match e with
      | .completed (some t) => (t, true) :: known
      | .abandoned (some t) => (t, false) :: known
      | _ => known) w.redeemed }

/-- Makes a move of a connection, if it is possible. -/
def act (w : World) (i : Nat) (a : Connection.Action) : Option World := do
  let p ← w.peer? i
  let (c, events) ← p.connection.step w.now a
  return (w.setPeer i { p with connection := c }).redeem events

/-- Gives up the link that a connection has. -/
def dropLink (w : World) (p : Peer) : World :=
  match p.medium with
  | .memory topic => w.setBus ((w.bus topic).drop p.link)
  | .unanswered => w

/-- The link takes a body. -/
def write (w : World) (i : Nat) (p : Peer) (body : String) : Option World :=
  match p.medium with
  | .unanswered => w.act i (.write true)
  | .memory topic =>
    match (w.bus topic).send p.link body with
    | (.ok _, b) => (w.setBus b).act i (.write true)
    -- the rest of what this link received is gone with it
    | (.error _, _) => (w.dropLink p).act i (.write false)

/-- What is next with the message on its way. -/
def moveOut (w : World) (i : Nat) (p : Peer) : Option World :=
  let c := p.connection
  match c.inFlight with
  | some _ =>
    match c.nextBody? with
    | some body => w.write i p body
    | none => w.act i .finish
  | none =>
    let vectors := (List.range c.keys.size).foldl (fun (vs, e) _ =>
      let (v, e) := Entropy.drawBytes e Sealed.vectorSize
      (vs ++ [v], e)) ([], w.entropy)
    let occasion : Occasion := ⟨Timestamp.ofSeconds (1792404000 + w.now / 1000), vectors.1⟩
    ({ w with entropy := vectors.2 }).act i (.prepare occasion)

/-- What is next with what the link delivers. -/
def moveIn (w : World) (i : Nat) (p : Peer) : Option World :=
  match p.connection.phase, p.medium with
  | .serving _ (some _), _ => w.act i .deliver
  | .serving _ none, .memory topic =>
    match (w.bus topic).receive p.link with
    | (.body body, b) => (w.setBus b).act i (.arrive (utf8 body))
    | (.severed, _) => (w.dropLink p).act i .loseLink
    | (.waiting, _) => none
  | _, _ => none

/-- An attempt to open a link. -/
def openLink (w : World) (m : Medium) : BusResult Nat × World :=
  match m with
  | .unanswered => (.ok 0, w)
  | .memory topic =>
    let (r, b) := (w.bus topic).openLink
    (r, w.setBus b)

/-- The next move of a connection by itself, if there is one. -/
def moveConnection (w : World) (i : Nat) : Option World := do
  let p ← w.peer? i
  match p.connection.phase with
  | .stopped => none
  | _ =>
    -- shutting down comes before everything else
    if p.cancelled then (w.dropLink p).act i .cancel
    else match p.connection.phase with
      -- what arrives is taken in before anything goes out, so a full link drains first
      | .serving .. => (w.moveIn i p).or (w.moveOut i p)
      | .pausing _ => w.act i .resume
      | .opening =>
        match w.openLink p.medium with
        | (.ok link, w) => (w.setPeer i { p with link := link }).act i (.opened true)
        | (.error _, w) => w.act i (.opened false)
      | .announcing => w.act i .announce
      | .stopped => none

/-- Replaces an introducer. -/
def setIntroducer (w : World) (k : Nat) (x : Introducing) : World :=
  { w with introducers := w.introducers.set k x }

/-- Tells a connection to shut down. -/
def cancelPeer (w : World) (i : Nat) : World :=
  { w with peers := w.peers.modify i fun p => { p with cancelled := true } }

/-- An introducer ends, and its connection with it. -/
def endIntroducer (w : World) (k : Nat) (x : Introducing) (r : BusResult Unit) : World :=
  (w.setIntroducer k { x with ended := some r }).cancelPeer x.peer

/-- An introducer does what it decided on. -/
def absorb (x : Introducing) (e : Election) (effects : List Introducer.Effect) : Introducing :=
  effects.foldl (fun x effect =>
    match effect with
    | .send m => { x with pending := x.pending ++ [m] }
    | .did d ok =>
      { x with
        log := x.log ++ [(d, ok)]
        clipboard := match d with
          | .copy text => if ok then some text else x.clipboard
          | _ => x.clipboard }) { x with election := e }

/-- The wait of an introducer for its next envelope starts. -/
def awaitNext (w : World) (x : Introducing) : Introducing :=
  if x.pending.isEmpty then { x with due := w.now + x.silence } else x

/-- An introducer without anything to send takes an envelope, or notices the silence. -/
def introduce (w : World) (k : Nat) (x : Introducing) (p : Peer) : Option World :=
  if x.cancelled then some (w.endIntroducer k x (.ok ()))
  else match p.connection.inbound with
    | envelope :: _ =>
      let (e, effects) :=
        Introducer.receive p.connection.keys (fun d => !x.fails d) x.election envelope
      (w.act x.peer .take).map fun w => w.setIntroducer k (w.awaitNext (absorb x e effects))
    | [] =>
      if p.connection.isStopped then some (w.endIntroducer k x (.error .closed))
      else if x.due ≤ w.now then
        let (e, effects) := Introducer.observe x.election .silence
        some (w.setIntroducer k (w.awaitNext (absorb x e effects)))
      else none

/-- The next move of an introducer, if there is one. -/
def moveIntroducer (w : World) (k : Nat) : Option World := do
  let x ← w.introducers[k]?
  let p ← w.peer? x.peer
  if x.ended.isSome then none
  else match x.pending with
    | m :: rest =>
      if p.connection.isStopped then some (w.endIntroducer k x (.error .closed))
      else do
        let w ← w.act x.peer (.queue ⟨m.toFields, none⟩)
        return w.setIntroducer k (w.awaitNext { x with pending := rest })
    | [] => w.introduce k x p

/-- Repeats a move while it is possible, at most so many times as `fuel` says, and tells whether it
was possible at all. -/
def exhaust (move : World → Option World) (fuel : Nat) (w : World) : World × Bool :=
  match fuel with
  | 0 => (w, false)
  | fuel + 1 =>
    match move w with
    | some w => ((exhaust move fuel w).1, true)
    | none => (w, false)

/-- How many moves one turn takes at most. -/
def turnLength : Nat := 100000

/-- Every connection and introducer in turn moves as long as it can. -/
def round (w : World) : World × Bool :=
  let turn (move : World → Nat → Option World) (acc : World × Bool) (i : Nat) : World × Bool :=
    let (w, moved) := exhaust (move · i) turnLength acc.1
    (w, acc.2 || moved)
  let acc := (List.range w.peers.length).foldl (turn moveConnection) (w, false)
  (List.range w.introducers.length).foldl (turn moveIntroducer) acc

/-- Lets rounds pass until nothing moves, at most so many as `fuel` says. -/
def settleFor (fuel : Nat) (w : World) : World :=
  match fuel with
  | 0 => w
  | fuel + 1 =>
    match w.round with
    | (w, true) => settleFor fuel w
    | (w, false) => w

/-- Lets everything happen that can happen now. -/
def settle (w : World) : World := w.settleFor turnLength

/-- The moment that a connection waits for. -/
def peerTimer? (p : Peer) : Option Nat :=
  match p.connection.phase with
  | .pausing due => some due
  | _ => none

/-- The moment that an introducer waits for. -/
def introducerTimer? (x : Introducing) : Option Nat :=
  if x.ended.isNone && x.pending.isEmpty then some x.due else none

/-- The next moment, after now, at which something is due. -/
def nextTimer? (w : World) : Option Nat :=
  let timers := w.peers.filterMap peerTimer? ++ w.introducers.filterMap introducerTimer?
  (timers.filter (w.now < ·)).min?

/-- Lets the time pass up to a moment. -/
def advanceFor (fuel : Nat) (w : World) (target : Nat) : World :=
  let w := w.settle
  match fuel with
  | 0 => w
  | fuel + 1 =>
    match w.nextTimer? with
    | some t =>
      -- what is due exactly at the target still happens
      if t ≤ target then advanceFor fuel { w with now := t } target
      else ({ w with now := max w.now target }).settle
    | none => ({ w with now := max w.now target }).settle

/-- Lets the time pass up to a moment. -/
def advance (w : World) (target : Nat) : World := w.advanceFor turnLength target

/-- Adds a connection on a fresh link; returns its number. -/
def connect (w : World) (m : Medium) (codec : Codec) (capacity delay : Nat) (keys : KeySet)
    (cancelled : Bool) : BusResult Nat × World :=
  match w.openLink m with
  | (.error e, w) => (.error e, w)
  | (.ok link, w) =>
    let c := Connection.start codec capacity delay keys w.now
    (.ok w.peers.length, { w with peers := w.peers ++ [⟨c, m, link, cancelled⟩] })

/-- Starts an introducer on a connection. -/
def startIntroducer (w : World) (i : Nat) (level : Binary64) (silence : Nat) (fails : Deed → Bool) :
    World :=
  let (e, effects) := Introducer.observe (Election.start level) .startup
  let x : Introducing := ⟨i, e, [], silence, 0, fails, [], none, false, none⟩
  { w with introducers := w.introducers ++ [absorb x e effects] }

end World

end MessageBus
