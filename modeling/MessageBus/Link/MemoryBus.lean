import MessageBus.Error

/-!
# The bus in memory

Every link that is attached to the bus gets every body that any link sends, its own bodies too.  A
link buffers a bounded number of bodies; a body that does not fit, or that nobody would take, cuts
the link off.  What was buffered before can still be taken.  Failures of opening can be scripted.

## Main statements

* `send_severed` : a severed link reaches nobody.
* `opens_open` : every attempt to open counts.
-/

namespace MessageBus

/-- A link to the bus. -/
structure MemoryLink where
  id : Nat
  /-- Whether the bus still delivers to the link. -/
  attached : Bool
  /-- Whether anybody may still take from the buffer. -/
  listening : Bool
  /-- The bodies that were delivered and not taken yet. -/
  buffer : List String
  deriving DecidableEq, Repr, Inhabited

/-- The bus: its links by ascending numbers, how many of the next attempts to open fail, and how
many attempts there were. -/
structure MemoryBus where
  name : String
  links : List MemoryLink
  nextLink : Nat
  failingOpens : Nat
  opens : Nat
  deriving DecidableEq, Repr, Inhabited

/-- What a link has for its receiver. -/
inductive Reception where
  | body (text : String)
  | waiting
  | severed
  deriving DecidableEq, Repr

namespace MemoryBus

/-- How many bodies a link buffers. -/
def linkBuffer : Nat := 256

/-- A bus without links. -/
def create (name : String) : MemoryBus := ⟨name, [], 0, 0, 0⟩

/-- The failure of a severed link. -/
def severed : BusError := .transport "memory link severed"

/-- How many links are attached. -/
def linkCount (b : MemoryBus) : Nat := b.links.countP (·.attached)

/-- Makes the next attempts to open fail. -/
def failNextOpens (b : MemoryBus) (n : Nat) : MemoryBus := { b with failingOpens := n }

/-- Attaches a link and returns its number. -/
def openLink (b : MemoryBus) : BusResult Nat × MemoryBus :=
  let b := { b with opens := b.opens + 1 }
  match b.failingOpens with
  | n + 1 =>
    (.error (.transport ("memory bus " ++ b.name ++ " refused link")), { b with failingOpens := n })
  | 0 =>
    (.ok b.nextLink,
      { b with links := b.links ++ [⟨b.nextLink, true, true, []⟩], nextLink := b.nextLink + 1 })

/-- Changes the link of a number. -/
def modify (b : MemoryBus) (id : Nat) (change : MemoryLink → MemoryLink) : MemoryBus :=
  { b with links := b.links.map fun l => if l.id = id then change l else l }

/-- The link of a number. -/
def find? (b : MemoryBus) (id : Nat) : Option MemoryLink := b.links.find? (·.id == id)

/-- Whether a link is attached. -/
def isAttached (b : MemoryBus) (id : Nat) : Bool := b.links.any fun l => l.id == id && l.attached

/-- A link after a body was sent. -/
def offer (body : String) (l : MemoryLink) : MemoryLink :=
  if !l.attached then l
  else if l.listening && l.buffer.length < linkBuffer then { l with buffer := l.buffer ++ [body] }
  else { l with attached := false }

/-- Sends a body from a link to all that are attached. -/
def send (b : MemoryBus) (id : Nat) (body : String) : BusResult Unit × MemoryBus :=
  if b.isAttached id then (.ok (), { b with links := b.links.map (offer body) })
  else (.error severed, b)

/-- Takes the next body of a link. -/
def receive (b : MemoryBus) (id : Nat) : Reception × MemoryBus :=
  match b.find? id with
  | none => (.severed, b)
  | some l =>
    match l.buffer with
    | body :: rest => (.body body, b.modify id fun l => { l with buffer := rest })
    | [] => (if l.attached then .waiting else .severed, b)

/-- Gives a link up: its end is gone, but it stays attached until the next body. -/
def drop (b : MemoryBus) (id : Nat) : MemoryBus :=
  b.modify id fun l => { l with listening := false, buffer := [] }

/-- Severs every link. -/
def disconnectAll (b : MemoryBus) : MemoryBus :=
  { b with links := b.links.map fun l => { l with attached := false } }

/-- Severs the attached link of the smallest number. -/
def disconnectOldest (b : MemoryBus) : MemoryBus :=
  match b.links.find? (·.attached) with
  | some oldest => b.modify oldest.id fun l => { l with attached := false }
  | none => b

theorem send_severed (b : MemoryBus) (id : Nat) (body : String) (h : b.isAttached id = false) :
    b.send id body = (.error severed, b) := by
  simp [send, h]

theorem opens_open (b : MemoryBus) : b.openLink.2.opens = b.opens + 1 := by
  unfold openLink
  cases h : b.failingOpens <;> simp

end MemoryBus

end MessageBus
