import MessageBus.Link.MemoryBus

/-!
# Buses in memory under handles

Several buses at once, reached through named handles and links.  A registered name leads to the bus
that was made under it as long as a handle or the end of a link keeps that bus alive; after that
the name starts a new one.
-/

namespace MessageBus

/-- The end of a link: its bus and its number there. -/
structure LinkEnd where
  bus : Nat
  link : Nat
  deriving DecidableEq, Repr

/-- Buses, handles to them by name, ends of links by name, and registered buses by name. -/
structure MemoryScenario where
  buses : List MemoryBus
  handles : List (String × Nat)
  ends : List (String × LinkEnd)
  registered : List (String × Nat)
  deriving Repr

namespace MemoryScenario

/-- One private bus under the handle `main`. -/
def start (name : String) : MemoryScenario := ⟨[.create name], [("main", 0)], [], []⟩

/-- A list of named things with one set. -/
def put {α : Type} (things : List (String × α)) (name : String) (thing : α) : List (String × α) :=
  (name, thing) :: things.filter (·.1 != name)

/-- The number of the bus behind a handle. -/
def index (s : MemoryScenario) (handle : String) : Nat := (s.handles.lookup handle).getD 0

/-- The bus behind a handle. -/
def bus (s : MemoryScenario) (handle : String) : MemoryBus :=
  (s.buses[s.index handle]?).getD default

/-- Changes the bus of a number. -/
def modifyAt (s : MemoryScenario) (i : Nat) (change : MemoryBus → MemoryBus) : MemoryScenario :=
  { s with buses := s.buses.modify i change }

/-- Changes the bus behind a handle. -/
def modifyBus (s : MemoryScenario) (handle : String) (change : MemoryBus → MemoryBus) :
    MemoryScenario :=
  s.modifyAt (s.index handle) change

/-- Adds a bus under a handle. -/
def addPrivate (s : MemoryScenario) (handle name : String) : MemoryScenario :=
  { s with buses := s.buses ++ [.create name], handles := put s.handles handle s.buses.length }

/-- Whether anything keeps a bus alive. -/
def isAlive (s : MemoryScenario) (i : Nat) : Bool :=
  s.handles.any (·.2 == i) || s.ends.any (·.2.bus == i)

/-- Adds a handle to the registered bus of a name, which is made if there is none alive. -/
def addNamed (s : MemoryScenario) (handle name : String) : MemoryScenario :=
  match (s.registered.lookup name).filter s.isAlive with
  | some i => { s with handles := put s.handles handle i }
  | none =>
    let i := s.buses.length
    { s.addPrivate handle name with registered := put s.registered name i }

/-- Adds another handle to the bus behind a handle. -/
def addClone (s : MemoryScenario) (handle other : String) : MemoryScenario :=
  { s with handles := put s.handles handle (s.index other) }

/-- Gives a handle up; tells whether there was one. -/
def dropHandle (s : MemoryScenario) (handle : String) : Bool × MemoryScenario :=
  ((s.handles.lookup handle).isSome, { s with handles := s.handles.filter (·.1 != handle) })

/-- Gives the end of a link up; tells whether there was one. -/
def closeLink (s : MemoryScenario) (name : String) : Bool × MemoryScenario :=
  match s.ends.lookup name with
  | none => (false, s)
  | some e =>
    (true, { s.modifyAt e.bus (·.drop e.link) with ends := s.ends.filter (·.1 != name) })

/-- Opens a link; an earlier one of that name is given up afterwards. -/
def openLink (s : MemoryScenario) (handle name : String) : BusResult String × MemoryScenario :=
  let i := s.index handle
  match (s.bus handle).openLink with
  | (.error e, b) => (.error e, s.modifyAt i fun _ => b)
  | (.ok link, b) =>
    let s := ((s.modifyAt i fun _ => b).closeLink name).2
    (.ok ("mem://" ++ b.name), { s with ends := put s.ends name ⟨i, link⟩ })

/-- Sends bodies one after the other; tells at which one it failed. -/
def sendAll (s : MemoryScenario) (name : String) (bodies : List String) :
    Option (Nat × BusError) × MemoryScenario :=
  match s.ends.lookup name with
  | none => (some (0, MemoryBus.severed), s)
  | some e => go e 0 s bodies
where
  go (e : LinkEnd) (i : Nat) (s : MemoryScenario) :
      List String → Option (Nat × BusError) × MemoryScenario
    | [] => (none, s)
    | body :: rest =>
      match ((s.buses[e.bus]?).getD default).send e.link body with
      | (.ok _, b) => go e (i + 1) (s.modifyAt e.bus fun _ => b) rest
      | (.error failure, _) => (some (i, failure), s)

/-- Takes what a link has, at most `room` bodies, and tells whether its end was met. -/
def takeAll (b : MemoryBus) (link room : Nat) : List String × Bool × MemoryBus :=
  match room with
  | 0 => ([], false, b)
  | room + 1 =>
    match b.receive link with
    | (.body body, b) =>
      let (rest, ended, b) := takeAll b link room
      (body :: rest, ended, b)
    | (.waiting, b) => ([], false, b)
    | (.severed, b) => ([], true, b)

/-- Takes what a link has, at most so many bodies as are asked for. -/
def receive (s : MemoryScenario) (name : String) (most : Option Nat) :
    List String × Bool × MemoryScenario :=
  match s.ends.lookup name with
  | none => ([], true, s)
  | some e =>
    let b := (s.buses[e.bus]?).getD default
    let (got, ended, b) := takeAll b e.link (most.getD (MemoryBus.linkBuffer + 1))
    (got, ended, s.modifyAt e.bus fun _ => b)

end MemoryScenario

end MessageBus
