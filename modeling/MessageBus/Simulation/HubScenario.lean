import MessageBus.Hub.Sessions

/-!
# A hub and its clients under a virtual clock

Every client has a socket in memory, perhaps one that takes only so many bytes that it never reads.
The hub gives up a client that is silent for too long, pings its clients, and gives up writing
where a write takes too long.  Alarms that are due at the same moment go off in the order in which
they were set.
-/

namespace MessageBus

/-- A moment at which something is due, with its place among those that are due then. -/
structure Alarm where
  due : Nat
  order : Nat
  deriving DecidableEq, Repr, Inhabited

/-- Whether an alarm goes off before another. -/
def Alarm.before (a b : Alarm) : Bool := a.due < b.due || (a.due == b.due && a.order < b.order)

/-- What the writing side of a session does. -/
inductive WriterState where
  /-- It waits for a frame, or until the next ping is due. -/
  | ready (ping : Alarm)
  /-- A frame does not fit, and is given up at a moment. -/
  | stalled (alarm : Alarm)
  | done
  deriving DecidableEq, Repr, Inhabited

/-- The socket of a client.  Its number is that of the session. -/
structure HubSocket where
  /-- How many bytes still fit towards a client that never reads. -/
  room : Option Nat
  /-- The frames that the client can read. -/
  arriving : List Frame
  /-- When the client was silent for too long; `none` when no more is read from it. -/
  deadline : Option Alarm
  writer : WriterState
  /-- Whether the client's own end is open. -/
  isOpen : Bool
  deriving DecidableEq, Repr, Inhabited

/-- A hub, its sockets, and the clock. -/
structure HubScenario where
  hub : Hub
  sockets : List HubSocket
  /-- The numbers of the named clients. -/
  names : Table Nat
  now : Nat
  /-- How many alarms were set. -/
  alarms : Nat
  sweep : Alarm

namespace HubScenario

/-- A hub without clients. -/
def start (settings : HubSettings) : HubScenario :=
  ⟨.start settings, [], [], 0, 1, ⟨settings.sweepInterval, 0⟩⟩

/-- Sets an alarm. -/
def setAlarm (s : HubScenario) (due : Nat) : Alarm × HubScenario :=
  (⟨due, s.alarms⟩, { s with alarms := s.alarms + 1 })

/-- Makes a move of the hub. -/
def act (s : HubScenario) (a : Hub.Action) : HubScenario × List Hub.Event :=
  let (hub, events) := s.hub.step a
  ({ s with hub := hub }, events)

/-- The socket of a number. -/
def socket (s : HubScenario) (k : Nat) : HubSocket := (s.sockets[k]?).getD default

/-- Changes the socket of a number. -/
def modify (s : HubScenario) (k : Nat) (change : HubSocket → HubSocket) : HubScenario :=
  { s with sockets := s.sockets.modify k change }

/-- No more is written to a client. -/
def endWriting (s : HubScenario) (k : Nat) : HubScenario :=
  (s.modify k ({ · with writer := .done })).act (.endWriting k) |>.1

/-- No more is read from a client. -/
def endReading (s : HubScenario) (k : Nat) : HubScenario :=
  (s.modify k ({ · with deadline := none })).act (.endReading k) |>.1

/-- Puts a frame on its way to a client if it fits; tells whether it does. -/
def push (s : HubScenario) (k : Nat) (f : Frame) : Bool × HubScenario :=
  match (s.socket k).room with
  | none => (true, s.modify k fun x => { x with arriving := x.arriving ++ [f] })
  | some room =>
    if f.wireSize ≤ room then
      (true, s.modify k fun x =>
        { x with arriving := x.arriving ++ [f], room := some (room - f.wireSize) })
    else (false, s)

/-- Writes a frame to a client, or waits for room. -/
def write (s : HubScenario) (k : Nat) (f : Frame) : HubScenario :=
  if !(s.socket k).isOpen then s.endWriting k
  else match s.push k f with
    | (true, s) => s
    | (false, s) =>
      let (alarm, s) := s.setAlarm (s.now + s.hub.settings.writeWait)
      s.modify k ({ · with writer := .stalled alarm })

/-- Writes the last frame to a client. -/
def writeClose (s : HubScenario) (k : Nat) : HubScenario :=
  let s := s.write k .close
  match (s.socket k).writer with
  | .ready _ => s.endWriting k
  | _ => s

/-- Writes what is in the send buffer of a client, as far as it goes. -/
def pump (k : Nat) (fuel : Nat) (s : HubScenario) : HubScenario :=
  match fuel, (s.socket k).writer with
  | fuel + 1, .ready _ =>
    match s.act (.send k) with
    | (s, [.sent _ text]) => pump k fuel (s.write k (.text text))
    -- a client that its realm has given up gets what is left, and then a close
    | (s, _) => if s.hub.isDrained k then s.writeClose k else s
  | _, _ => s

/-- How many frames are written in one go at most. -/
def pumpLength : Nat := 100000

/-- Writes all that can be written. -/
def settle (s : HubScenario) : HubScenario :=
  (List.range s.sockets.length).foldl (fun s k => pump k pumpLength s) s

/-- The hub reads a frame of a client. -/
def read (s : HubScenario) (k : Nat) (f : Frame) : HubScenario :=
  match (s.socket k).deadline with
  | none => s
  | some _ =>
    if !f.isAcceptable s.hub.settings.maxMessageSize then s.endReading k
    else
      -- anything that is read shows that the client is there
      let (alarm, s) := s.setAlarm (s.now + s.hub.settings.pongWait)
      let s := s.modify k ({ · with deadline := some alarm })
      match f with
      | .text t => (s.act (.receive k t)).1
      | .ping data => (s.push k (.pong data)).2
      | .close => s.endReading k
      | _ => s

/-- Whether the hub has closed the socket of a client. -/
def isEnded (s : HubScenario) (k : Nat) : Bool :=
  (s.socket k).deadline.isNone && (s.socket k).writer == .done

/-- A client sends a frame; tells whether it could. -/
def sendFrame (s : HubScenario) (name : String) (f : Frame) : Bool × HubScenario :=
  match Table.get? s.names name with
  | none => (false, s)
  | some k =>
    if !(s.socket k).isOpen || s.isEnded k then (false, s)
    else
      let s := if f = .close then s.modify k ({ · with isOpen := false }) else s
      (true, (s.read k f).settle)

/-- The socket of a number goes away without a word. -/
def cut (s : HubScenario) (k : Nat) : HubScenario :=
  let s := (s.modify k ({ · with isOpen := false })).endReading k
  match (s.socket k).writer with
  | .stalled _ => (s.endWriting k).settle
  | _ => s.settle

/-- The socket of a client goes away; tells whether there was one. -/
def drop (s : HubScenario) (name : String) : Bool × HubScenario :=
  match Table.get? s.names name with
  | none => (false, s)
  | some k => (true, { s with names := s.names.erase name }.cut k)

/-- A client asks for a path.  The client that had its name before is gone if it gets in. -/
def connect (s : HubScenario) (name path : String) (room : Option Nat) :
    Option (String × Nat) × HubScenario :=
  match s.act (.upgrade path) with
  | (s, [.joined k seat]) =>
    let (deadline, s) := s.setAlarm (s.now + s.hub.settings.pongWait)
    let (ping, s) := s.setAlarm (s.now + s.hub.settings.pingPeriod)
    let socket : HubSocket := ⟨room, [], some deadline, .ready ping, true⟩
    let s := { s with sockets := s.sockets ++ [socket] }
    let s := (s.drop name).2
    (some (path, seat.incarnation), settle { s with names := s.names.insert name k })
  | (s, _) => (none, s)

/-- What a client reads. -/
inductive Reading where
  | frame (f : Frame)
  /-- The socket is gone. -/
  | ended
  deriving DecidableEq, Repr

/-- A client reads what has arrived, answers pings, and answers a close. -/
def receive (s : HubScenario) (name : String) : List Reading × HubScenario :=
  match Table.get? s.names name with
  | none => ([.ended], s)
  | some k =>
    let frames := (s.socket k).arriving
    let wasOpen := (s.socket k).isOpen
    let s := s.modify k ({ · with arriving := [] })
    let s := (frames.foldl (fun s f =>
      match f with
      | .ping data => s.read k (.pong data)
      | .close => (s.modify k ({ · with isOpen := false })).read k .close
      | _ => s) s).settle
    -- a client that has closed its own end takes the answer for the end of the socket
    let shown := if wasOpen then frames else frames.filter (· != .close)
    (shown.map .frame ++ if s.isEnded k then [.ended] else [], s)

/-- The alarms of a socket, each with what it does. -/
def alarmsOf (s : HubScenario) (k : Nat) : List (Alarm × (HubScenario → HubScenario)) :=
  let x := s.socket k
  let silence := match x.deadline with
    | some a => [(a, fun (s : HubScenario) => s.endReading k)]
    | none => []
  let writing := match x.writer with
    | .ready a => [(a, fun (s : HubScenario) =>
        let (next, s) := s.setAlarm (a.due + s.hub.settings.pingPeriod)
        (s.modify k ({ · with writer := .ready next })).write k (.ping []))]
    | .stalled a => [(a, fun (s : HubScenario) => s.endWriting k)]
    | .done => []
  silence ++ writing

/-- The sweep. -/
def sweepNow (s : HubScenario) : HubScenario :=
  let (next, s) := s.setAlarm (s.sweep.due + s.hub.settings.sweepInterval)
  ({ s with sweep := next }.act .sweep).1

/-- The alarm that goes off next. -/
def nextAlarm (s : HubScenario) : Alarm × (HubScenario → HubScenario) :=
  let others := (List.range s.sockets.length).flatMap s.alarmsOf
  others.foldl (fun best x => if x.1.before best.1 then x else best) (s.sweep, sweepNow)

/-- Lets the alarms up to a moment go off. -/
def advanceFor (fuel : Nat) (s : HubScenario) (target : Nat) : HubScenario :=
  match fuel with
  | 0 => { s with now := target }
  | fuel + 1 =>
    let (alarm, ring) := s.nextAlarm
    if alarm.due ≤ target then
      advanceFor fuel (ring { s with now := max s.now alarm.due }).settle target
    else { s with now := target }

/-- Lets time pass. -/
def wait (s : HubScenario) (ms : Nat) : HubScenario := s.advanceFor pumpLength (s.now + ms)

end HubScenario

end MessageBus
