import MessageBus.Hub.Realm
import MessageBus.Proofs.Run

/-! # The commands of a realm

    A realm works through a mailbox of commands, one after the other.  What a
    command does to the send buffer of one client depends on that buffer alone,
    so a realm with all its clients is understood by looking at one client at a
    time.

    * `outboxes_obey`: a command changes each send buffer on its own and may add
      one.
    * `outboxes_retireIfEmpty`: retiring detaches nobody. -/

namespace MessageBus

/-- What is put into the mailbox of a realm. -/
inductive Realm.Command where
  | add (client number capacity : Nat)
  | remove (client : Nat)
  | broadcast (text : String)
  | count
  | retireIfEmpty
  deriving DecidableEq, Repr

/-- The send buffer of a client that has just joined. -/
def Outbox.joining (client number capacity : Nat) : Outbox :=
  ⟨number, client, capacity, [], true, true⟩

/-- What a command does to the send buffer of a client that joined before it. -/
def Outbox.obey (o : Outbox) : Realm.Command → Outbox
  | .add client _ _ | .remove client => if o.client = client then o.detach else o
  | .broadcast text => o.offer text
  | .count | .retireIfEmpty => o

theorem Outbox.detach_of_detached {o : Outbox} (h : o.attached = false) : o.detach = o := by
  cases o
  cases h
  rfl

namespace Realm

/-- The send buffer that a command adds. -/
def Command.newcomer? : Command → Option Outbox
  | .add client number capacity => some (.joining client number capacity)
  | _ => none

/-- The realm after a command. -/
def obey (r : Realm) : Command → Realm
  | .add client number capacity => r.add client number capacity
  | .remove client => r.remove client
  | .broadcast text => r.broadcast text
  | .count => r
  | .retireIfEmpty => r.retireIfEmpty

/-- The clients of a realm. -/
def clients (r : Realm) : List Nat := (r.outboxes.filter (·.attached)).map (·.client)

/-! ## Send buffers one by one -/

theorem count_eq_zero_iff (r : Realm) :
    r.count = 0 ↔ ∀ o ∈ r.outboxes, o.attached = false := by
  simp [count, List.countP_eq_zero]

/-- A realm retires when there is nobody to detach. -/
theorem outboxes_retireIfEmpty (r : Realm) : r.retireIfEmpty.outboxes = r.outboxes := by
  unfold retireIfEmpty
  split
  · next h =>
    have hdetached := (count_eq_zero_iff r).mp h
    calc r.stop.outboxes = r.outboxes.map Outbox.detach := rfl
      _ = r.outboxes.map id :=
        List.map_congr_left fun o ho => Outbox.detach_of_detached (hdetached o ho)
      _ = r.outboxes := List.map_id _
  · rfl

/-- A command changes each send buffer on its own and may add one. -/
theorem outboxes_obey (r : Realm) (command : Command) :
    (r.obey command).outboxes
      = r.outboxes.map (·.obey command) ++ command.newcomer?.toList := by
  cases command with
  | add client number capacity => rfl
  | remove client => exact (List.append_nil _).symm
  | broadcast text => exact (List.append_nil _).symm
  | count => simp [obey, Outbox.obey, Command.newcomer?]
  | retireIfEmpty =>
    simp [obey, Outbox.obey, Command.newcomer?, outboxes_retireIfEmpty]

@[simp] theorem name_obey (r : Realm) (command : Command) : (r.obey command).name = r.name := by
  cases command with
  | retireIfEmpty => simp only [obey, retireIfEmpty]; split <;> rfl
  | _ => rfl

@[simp] theorem incarnation_obey (r : Realm) (command : Command) :
    (r.obey command).incarnation = r.incarnation := by
  cases command with
  | retireIfEmpty => simp only [obey, retireIfEmpty]; split <;> rfl
  | _ => rfl

/-- Only retiring stops a realm. -/
theorem running_obey (r : Realm) {command : Command} (h : command ≠ .retireIfEmpty) :
    (r.obey command).running = r.running := by
  cases command with
  | retireIfEmpty => exact absurd rfl h
  | _ => rfl

/-- A realm retires just if it has no clients. -/
theorem running_retireIfEmpty (r : Realm) :
    r.retireIfEmpty.running = (r.running && r.count != 0) := by
  unfold retireIfEmpty
  split
  · next h => simp [stop, h]
  · next h => simp [h]

end Realm

namespace Outbox

variable (o : Outbox)

@[simp] theorem number_offer (text : String) : (o.offer text).number = o.number := by
  unfold offer
  split
  · rfl
  · split <;> rfl

@[simp] theorem number_obey (command : Realm.Command) : (o.obey command).number = o.number := by
  cases command with
  | broadcast text => exact number_offer o text
  | add client _ _ | remove client => simp only [obey]; split <;> rfl
  | count | retireIfEmpty => rfl

end Outbox

end MessageBus
