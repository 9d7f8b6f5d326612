import MessageBus.Hub.Registry

/-!
# A registry under a virtual clock

A registry whose clients have names: each holds a seat, and the receiving end of its send buffer as
long as it wants to.  Sweeps come at the multiples of their interval.
-/

namespace MessageBus

/-- A registry, the clock, and the named clients with whether they still receive. -/
structure RegistryScenario where
  registry : Registry
  now : Nat
  interval : Nat
  seats : Table Seat
  receivers : Table Seat

namespace RegistryScenario

/-- An empty registry that is swept at an interval. -/
def start (interval : Nat) : RegistryScenario := ⟨.start, 0, interval, [], []⟩

/-- The incarnation that a client joined. -/
def incarnation (s : RegistryScenario) (name : String) : Nat :=
  ((Table.get? s.seats name).map (·.incarnation)).getD 0

/-- A client gives its receiving end up; tells whether it had one. -/
def dropReceiver (s : RegistryScenario) (name : String) : Bool × RegistryScenario :=
  match Table.get? s.receivers name with
  | none => (false, s)
  | some seat =>
    (true, { s with
      registry := s.registry.modifyOutbox seat Outbox.abandon
      receivers := s.receivers.erase name })

/-- A client joins a realm; the one that had its name before is gone. -/
def attach (s : RegistryScenario) (name realm : String) (client capacity : Nat) :
    BusResult Nat × RegistryScenario :=
  match s.registry.attach realm client capacity with
  | (.error e, r) => (.error e, { s with registry := r })
  | (.ok seat, r) =>
    let s := ({ s with registry := r }.dropReceiver name).2
    (.ok seat.incarnation,
      { s with seats := s.seats.insert name seat, receivers := s.receivers.insert name seat })

/-- Frames go to the realm that a client joined. -/
def broadcast (s : RegistryScenario) (name : String) (texts : List String) : RegistryScenario :=
  { s with registry := texts.foldl (fun r t => r.broadcast (s.incarnation name) t) s.registry }

/-- A client of a number leaves the realm that a client joined. -/
def remove (s : RegistryScenario) (name : String) (client : Nat) : RegistryScenario :=
  { s with registry := s.registry.remove (s.incarnation name) client }

/-- How many clients the realm has that a client joined. -/
def count (s : RegistryScenario) (name : String) : Option Nat :=
  s.registry.count (s.incarnation name)

/-- What a client received, and whether nothing more will come. -/
def receive (s : RegistryScenario) (name : String) : List String × Bool × RegistryScenario :=
  match Table.get? s.receivers name with
  | none => ([], true, s)
  | some seat =>
    match s.registry.outbox? seat with
    | none => ([], true, s)
    | some o =>
      (o.buffer, !o.attached,
        { s with registry := s.registry.modifyOutbox seat fun o => { o with buffer := [] } })

/-- Lets time pass. -/
def wait (s : RegistryScenario) (ms : Nat) : RegistryScenario :=
  let later := s.now + ms
  { s with
    now := later
    registry := if s.now / s.interval < later / s.interval then s.registry.sweep
      else s.registry }

/-- Everything stops. -/
def cancel (s : RegistryScenario) : RegistryScenario := { s with registry := s.registry.cancel }

end RegistryScenario

end MessageBus
