import Mathlib.Logic.Function.Basic
import MessageBus.Proofs.Hub.Clients
import MessageBus.Proofs.Hub.Incarnations

/-! # A registry and its realms, by their mailboxes

    A realm works through its mailbox at a time of its own, and a mailbox holds
    no more than so many commands.  The registry lets clients in, by a command to
    the realm that is registered under a name, and goes round its realms with a
    question, for a sweep or for an overview: it puts the question to one realm
    after the other, waits for the answer each time, and only then does something
    else.  At the end of a sweep it forgets the realms that were empty when they
    were asked.  Clients post to the realm that they were handed, registered or
    not, and take from their send buffers.

    All of this happens in any order.  A realm that has stopped may still take
    mail for a moment, which is lost; whether it does is part of the move.

    * `moves_of_act`: what a move does, one constructor for each outcome. -/

namespace MessageBus

/-! ## The system -/

/-- Whether a command asks for an answer. -/
def Realm.Command.isQuestion : Realm.Command → Bool
  | .count | .retireIfEmpty => true
  | _ => false

/-- A question changes nothing unless the realm retires. -/
theorem Realm.obey_question (x : Realm) {c : Realm.Command} (h : c.isQuestion = true) :
    x.obey c = if c = .retireIfEmpty ∧ x.count = 0 then x.stop else x := by
  cases c with
  | add | remove | broadcast => cases h
  | count => rfl
  | retireIfEmpty => simp [Realm.obey, Realm.retireIfEmpty]

/-- Whether a command comes from a client. -/
def Realm.Command.isClients : Realm.Command → Bool
  | .remove _ | .broadcast _ => true
  | _ => false

/-- What the registry goes round for. -/
inductive Errand where
  | sweep
  | overview
  deriving DecidableEq, Repr

/-- What every realm is asked. -/
def Errand.question : Errand → Realm.Command
  | sweep => .retireIfEmpty
  | overview => .count

/-- What the registry is about. -/
inductive Dispatch.Phase where
  /-- It takes the next request. -/
  | idle
  /-- It goes round, with the realms that are yet to be asked and what the others
      answered. -/
  | round (errand : Errand) (unasked : List (String × Nat)) (answers : List RealmStats)
  /-- It waits for the answer of a realm. -/
  | waiting (errand : Errand) (name : String) (incarnation : Nat)
      (unasked : List (String × Nat)) (answers : List RealmStats)

/-- A registry, the mailboxes of its realms, and what the registry is about. -/
structure Dispatch where
  registry : Registry
  mail : Nat → List Realm.Command
  phase : Dispatch.Phase

/-- The realm that is handed to a client that asks for a name, if none has to be
    started.  One that has stopped is passed over unless it still takes mail. -/
def Registry.handed? (r : Registry) (lingers : Bool) (name : String) : Option Nat :=
  (r.current.get? name).filter fun n => lingers || (r.realm? n).any (·.running)

/-- The names of the realms that were empty. -/
def emptied (answers : List RealmStats) : List String :=
  (answers.filter fun a => a.clients == 0).map (·.name)

namespace Dispatch

/-- What the registry, its realms and their clients do. -/
inductive Action where
  /-- The registry lets a client in. -/
  | attach (name : String) (client capacity : Nat) (lingers : Bool)
  /-- A client posts to a realm. -/
  | post (incarnation : Nat) (command : Realm.Command)
  /-- A realm obeys the next command in its mailbox. -/
  | work (incarnation : Nat)
  /-- The next frame is taken from a send buffer. -/
  | take (seat : Seat)
  /-- Nobody takes from a send buffer any more. -/
  | abandon (seat : Seat)
  /-- The registry sets out to ask its realms in some order. -/
  | setOut (errand : Errand) (order : List (String × Nat))
  /-- The registry asks the next realm. -/
  | ask
  /-- The registry has asked all realms. -/
  | conclude

/-- What a move made happen. -/
inductive Event where
  | created (name : String) (incarnation : Nat)
  /-- A realm had so many clients when it was asked. -/
  | answered (incarnation clients : Nat)
  /-- What the registry found out on its round. -/
  | reported (stats : List RealmStats)
  /-- Something happened to a send buffer of a realm. -/
  | buffer (incarnation : Nat) (event : Realm.Event)
  deriving DecidableEq

/-- A registry without realms. -/
def start : Dispatch := ⟨.start, fun _ => [], .idle⟩

/-- How many commands wait in a mailbox. -/
def mailboxSize : Nat := 64

/-- Whether the realm of an incarnation runs. -/
def isRunning (d : Dispatch) (n : Nat) : Bool := (d.registry.realm? n).any (·.running)

/-- Whether a command can be posted to a realm now: whoever posts waits for room
    in the mailbox as long as there is somebody to read it. -/
def hasRoom (d : Dispatch) (n : Nat) : Bool :=
  !d.isRunning n || (d.mail n).length < mailboxSize

/-- A command is put into a mailbox.  Nobody reads it if the realm has stopped. -/
def put (d : Dispatch) (n : Nat) (command : Realm.Command) : Dispatch :=
  if d.isRunning n then { d with mail := Function.update d.mail n (d.mail n ++ [command]) } else d

/-- A client is let into the realm of an incarnation, with a new send buffer. -/
def enroll (d : Dispatch) (n client capacity : Nat) : Dispatch :=
  let number := d.registry.nextOutbox
  { d with registry := { d.registry with nextOutbox := number + 1 } }.put n
    (.add client number capacity)

/-- The realm of an incarnation obeys a command, which leaves `rest` in its
    mailbox. -/
def obey (d : Dispatch) (n : Nat) (command : Realm.Command) (rest : List Realm.Command) :
    Dispatch :=
  { d with
    registry := d.registry.modify n (·.obey command)
    mail := Function.update d.mail n rest }

/-- The registry hears how many clients a realm has. -/
def hear (clients : Nat) : Phase → Phase
  | .waiting errand name n unasked answers =>
    .round errand unasked (answers ++ [⟨name, n, clients⟩])
  | phase => phase

/-- The registry forgets the realms that were empty. -/
def forget (d : Dispatch) (answers : List RealmStats) : Dispatch :=
  { d with
    registry := { d.registry with
      current := d.registry.current.filter fun entry => !(emptied answers).contains entry.1 }
    phase := .idle }

/-- The next state with what happened, `none` for a move that is not possible. -/
def act (d : Dispatch) : Action → Option (Dispatch × List Event)
  | .attach name client capacity lingers =>
    match d.phase, d.registry.handed? lingers name with
    | .idle, some n => if d.hasRoom n then some (d.enroll n client capacity, []) else none
    | .idle, none =>
      let (n, r) := d.registry.create name
      some ({ d with registry := r }.enroll n client capacity, [.created name n])
    | _, _ => none
  | .post n command =>
    if command.isClients && (d.registry.realm? n).isSome && d.hasRoom n then
      some (d.put n command, [])
    else none
  | .work n =>
    match (d.registry.realm? n).filter (·.running), d.mail n with
    | some x, command :: rest =>
      let d' := d.obey n command rest
      if command.isQuestion then
        some ({ d' with phase := hear x.count d.phase }, [.answered n x.count])
      else some (d', (x.acceptances command).map (.buffer n))
    | _, _ => none
  | .take seat =>
    match (d.registry.outbox? seat).map Outbox.take with
    | some (some text, o) =>
      some ({ d with registry := d.registry.modifyOutbox seat fun _ => o },
        [.buffer seat.incarnation (.took seat.outbox text)])
    | _ => none
  | .abandon seat =>
    if (d.registry.outbox? seat).isSome then
      some ({ d with registry := d.registry.modifyOutbox seat Outbox.abandon }, [])
    else none
  | .setOut errand order =>
    match d.phase with
    | .idle =>
      if order.Perm d.registry.current then some ({ d with phase := .round errand order [] }, [])
      else none
    | _ => none
  | .ask =>
    match d.phase with
    | .round errand ((name, n) :: unasked) answers =>
      if d.isRunning n then
        if d.hasRoom n then
          some
            ({ d.put n errand.question with phase := .waiting errand name n unasked answers }, [])
        else none
      else
        -- a realm that does not answer has stopped, and it stopped because it was empty
        some ({ d with phase := .round errand unasked (answers ++ [⟨name, n, 0⟩]) },
          [.answered n 0])
    | _ => none
  | .conclude =>
    match d.phase with
    | .round .sweep [] answers => some (d.forget answers, [])
    | .round .overview [] answers =>
      some ({ d with phase := .idle }, [.reported (answers.mergeSort fun a b => a.name ≤ b.name)])
    | _ => none

/-- A trace of a registry with its realms. -/
abbrev Trace := List (Stage Dispatch Action Event)

/-- Runs of a registry from the time when it had no realms. -/
abbrev Runs (trace : Trace) (d : Dispatch) : Prop := Run act start trace d

/-! ## Moves -/

/-- The possible moves, one constructor for each outcome. -/
inductive Moves (d : Dispatch) : Action → Dispatch → List Event → Prop where
  | joined {name : String} {client capacity n : Nat} {lingers : Bool} :
      d.phase = .idle → d.registry.handed? lingers name = some n → d.hasRoom n = true →
      Moves d (.attach name client capacity lingers) (d.enroll n client capacity) []
  | created {name : String} {client capacity : Nat} {lingers : Bool} :
      d.phase = .idle → d.registry.handed? lingers name = none →
      Moves d (.attach name client capacity lingers)
        ({ d with registry := (d.registry.create name).2 }.enroll (d.registry.started + 1)
          client capacity)
        [.created name (d.registry.started + 1)]
  | posted {n : Nat} {x : Realm} {command : Realm.Command} :
      command.isClients = true → d.registry.realm? n = some x → d.hasRoom n = true →
      Moves d (.post n command) (d.put n command) []
  | obeyed {n : Nat} {x : Realm} {command : Realm.Command} {rest : List Realm.Command} :
      d.registry.realm? n = some x → x.running = true → d.mail n = command :: rest →
      command.isQuestion = false →
      Moves d (.work n) (d.obey n command rest) ((x.acceptances command).map (.buffer n))
  | answered {n : Nat} {x : Realm} {command : Realm.Command} {rest : List Realm.Command} :
      d.registry.realm? n = some x → x.running = true → d.mail n = command :: rest →
      command.isQuestion = true →
      Moves d (.work n) { d.obey n command rest with phase := hear x.count d.phase }
        [.answered n x.count]
  | took {seat : Seat} {o : Outbox} {text : String} {rest : List String} :
      d.registry.outbox? seat = some o → o.buffer = text :: rest →
      Moves d (.take seat)
        { d with registry := d.registry.modifyOutbox seat fun _ => { o with buffer := rest } }
        [.buffer seat.incarnation (.took seat.outbox text)]
  | abandoned {seat : Seat} {o : Outbox} :
      d.registry.outbox? seat = some o →
      Moves d (.abandon seat)
        { d with registry := d.registry.modifyOutbox seat Outbox.abandon } []
  | setOut {errand : Errand} {order : List (String × Nat)} :
      d.phase = .idle → order.Perm d.registry.current →
      Moves d (.setOut errand order) { d with phase := .round errand order [] } []
  | asked {errand : Errand} {name : String} {n : Nat} {unasked : List (String × Nat)}
      {answers : List RealmStats} :
      d.phase = .round errand ((name, n) :: unasked) answers → d.isRunning n = true →
      Moves d .ask
        { d.put n errand.question with phase := .waiting errand name n unasked answers } []
  | unanswered {errand : Errand} {name : String} {n : Nat} {unasked : List (String × Nat)}
      {answers : List RealmStats} :
      d.phase = .round errand ((name, n) :: unasked) answers → d.isRunning n = false →
      Moves d .ask { d with phase := .round errand unasked (answers ++ [⟨name, n, 0⟩]) }
        [.answered n 0]
  | swept {answers : List RealmStats} :
      d.phase = .round .sweep [] answers → Moves d .conclude (d.forget answers) []
  | reported {answers : List RealmStats} :
      d.phase = .round .overview [] answers →
      Moves d .conclude { d with phase := .idle }
        [.reported (answers.mergeSort fun a b => a.name ≤ b.name)]

theorem hasRoom_of_nil {d : Dispatch} {n : Nat} (h : d.mail n = []) : d.hasRoom n = true := by
  simp [hasRoom, h, mailboxSize]

/-- Every possible move is one of the listed ones. -/
theorem moves_of_act {d d' : Dispatch} {a : Action} {events : List Event}
    (h : d.act a = some (d', events)) : Moves d a d' events := by
  cases a with
  | attach name client capacity lingers =>
    simp only [act] at h
    split at h
    · next hphase hhanded =>
      split at h
      · next hroom => cases h; exact .joined hphase hhanded hroom
      · cases h
    · next hphase hhanded => cases h; exact .created hphase hhanded
    · cases h
  | post n command =>
    simp only [act] at h
    split at h
    · next hguard =>
      simp only [Bool.and_eq_true] at hguard
      obtain ⟨⟨hclients, hrealm⟩, hroom⟩ := hguard
      obtain ⟨x, hx⟩ := Option.isSome_iff_exists.mp hrealm
      cases h
      exact .posted hclients hx hroom
    · cases h
  | work n =>
    simp only [act] at h
    split at h
    · next x command rest hrealm hmail =>
      obtain ⟨hx, hrunning⟩ := Option.filter_eq_some_iff.mp hrealm
      split at h
      · next hquestion => cases h; exact .answered hx hrunning hmail hquestion
      · next hquestion =>
        cases h
        exact .obeyed hx hrunning hmail (Bool.not_eq_true _ ▸ hquestion)
    · cases h
  | take seat =>
    simp only [act] at h
    split at h
    · next text o htake =>
      obtain ⟨o', ho', htaken⟩ := Option.map_eq_some_iff.mp htake
      cases hbuffer : o'.buffer with
      | nil => simp [Outbox.take, hbuffer] at htaken
      | cons text' rest =>
        rw [o'.take_cons text' rest hbuffer] at htaken
        cases htaken
        cases h
        exact .took ho' hbuffer
    · cases h
  | abandon seat =>
    simp only [act] at h
    split at h
    · next hsome =>
      obtain ⟨o, ho⟩ := Option.isSome_iff_exists.mp hsome
      cases h
      exact .abandoned ho
    · cases h
  | setOut errand order =>
    simp only [act] at h
    split at h
    · next hphase =>
      split at h
      · next hperm => cases h; exact .setOut hphase hperm
      · cases h
    · cases h
  | ask =>
    simp only [act] at h
    split at h
    · next hphase =>
      split at h
      · next hrunning =>
        split at h
        · cases h; exact .asked hphase hrunning
        · cases h
      · next hrunning =>
        cases h
        exact .unanswered hphase (Bool.not_eq_true _ ▸ hrunning)
    · cases h
  | conclude =>
    simp only [act] at h
    split at h
    · next hphase => cases h; exact .swept hphase
    · next hphase => cases h; exact .reported hphase
    · cases h

end Dispatch

end MessageBus
