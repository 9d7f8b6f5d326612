import MessageBus.Error
import MessageBus.Hub.Realm
import MessageBus.Table

/-!
# The registry of realms

The registry starts a realm when its first client comes and retires realms without clients at
every sweep.  A name that comes back later gets a new incarnation.  Who joined a realm keeps hold of
that incarnation, also when it is gone.

## Main statements

* `attach_cancelled` : a cancelled registry lets nobody in.
* `sweep_current` : a sweep keeps exactly the realms that have clients.
-/

namespace MessageBus

/-- Every realm that ever was, and which incarnation has a name at present. -/
structure Registry where
  /-- In the order of their incarnations. -/
  realms : List Realm
  current : Table Nat
  /-- How many realms were started. -/
  started : Nat
  nextOutbox : Nat
  cancelled : Bool
  deriving DecidableEq, Repr, Inhabited

/-- What is known of a realm. -/
structure RealmStats where
  name : String
  incarnation : Nat
  clients : Nat
  deriving DecidableEq, Repr

/-- A client's place in a realm. -/
structure Seat where
  incarnation : Nat
  outbox : Nat
  deriving DecidableEq, Repr, Inhabited

namespace Registry

/-- A registry without realms. -/
def start : Registry := ⟨[], [], 0, 0, false⟩

/-- The realm of an incarnation. -/
def realm? (r : Registry) (incarnation : Nat) : Option Realm :=
  r.realms.find? (·.incarnation == incarnation)

/-- Changes the realm of an incarnation. -/
def modify (r : Registry) (incarnation : Nat) (change : Realm → Realm) : Registry :=
  { r with realms := r.realms.map fun x => if x.incarnation = incarnation then change x else x }

/-- Starts a realm under a name. -/
def create (r : Registry) (name : String) : Nat × Registry :=
  let incarnation := r.started + 1
  (incarnation, { r with
    started := incarnation
    realms := r.realms ++ [.start name incarnation]
    current := r.current.insert name incarnation })

/-- The incarnation that serves a name. -/
def serving (r : Registry) (name : String) : Nat × Registry :=
  match Table.get? r.current name with
  | some n => if (r.realm? n).any (·.running) then (n, r) else r.create name
  | none => r.create name

/-- A client joins the realm of a name, which is started if need be. -/
def attach (r : Registry) (name : String) (client capacity : Nat) : BusResult Seat × Registry :=
  if r.cancelled then (.error .closed, r)
  else
    let (n, r) := r.serving name
    let number := r.nextOutbox
    (.ok ⟨n, number⟩,
      { r.modify n (·.add client number capacity) with nextOutbox := number + 1 })

/-- Hands a frame to a realm, if it is still there. -/
def broadcast (r : Registry) (incarnation : Nat) (text : String) : Registry :=
  r.modify incarnation (·.broadcast text)

/-- Makes a client leave a realm. -/
def remove (r : Registry) (incarnation client : Nat) : Registry :=
  r.modify incarnation (·.remove client)

/-- How many clients a realm has; `none` when it is gone. -/
def count (r : Registry) (incarnation : Nat) : Option Nat :=
  ((r.realm? incarnation).filter (·.running)).map Realm.count

/-- The send buffer of a seat. -/
def outbox? (r : Registry) (s : Seat) : Option Outbox :=
  (r.realm? s.incarnation).bind (·.outbox? s.outbox)

/-- Changes the send buffer of a seat. -/
def modifyOutbox (r : Registry) (s : Seat) (change : Outbox → Outbox) : Registry :=
  r.modify s.incarnation (·.modify s.outbox change)

/-- Whether a realm stays at a sweep. -/
def stays (r : Registry) (incarnation : Nat) : Bool :=
  (r.realm? incarnation).any fun x => x.running && x.count != 0

/-- Retires the realms without clients. -/
def sweep (r : Registry) : Registry :=
  if r.cancelled then r
  else
    -- the clients are counted at the moment of the sweep, so nobody who joined before it is lost
    let registered := r.current.map (·.2)
    { r with
      realms := r.realms.map fun x =>
        if registered.contains x.incarnation then x.retireIfEmpty else x
      current := r.current.filter fun entry => r.stays entry.2 }

/-- What is known of every realm, by name. -/
def stats (r : Registry) : BusResult (List RealmStats) :=
  if r.cancelled then .error .closed
  else .ok (r.current.map fun (name, n) => ⟨name, n, (r.count n).getD 0⟩)

/-- Everything stops. -/
def cancel (r : Registry) : Registry :=
  { r with cancelled := true, realms := r.realms.map Realm.stop }

theorem attach_cancelled (r : Registry) (name : String) (client capacity : Nat)
    (h : r.cancelled = true) : r.attach name client capacity = (.error .closed, r) := by
  simp [attach, h]

theorem sweep_current (r : Registry) (h : r.cancelled = false) :
    r.sweep.current = r.current.filter fun entry => r.stays entry.2 := by
  simp [sweep, h]

end Registry

end MessageBus
