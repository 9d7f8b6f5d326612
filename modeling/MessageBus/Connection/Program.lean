import MessageBus.Connection.State
import MessageBus.Text.Duration

/-!
# Programs over a connection

What a caller does with a connection is a `Program`: a tree whose nodes are the requests that the
caller makes, each with what it does next for every answer.  A `Task` is a program that may fail.
Waiting for a message takes envelopes until one is accepted (`firstMatch`); those before it are
gone.

## Main statements

* `firstMatch_eq_some_iff` : waiting ends at the first message that is accepted, not earlier or
  later.
-/

namespace MessageBus

/-- The envelopes up to the first whose message is accepted, that message, and the rest. -/
def firstMatch (accepts : Message → Bool) : List Envelope → Option (Message × List Envelope)
  | [] => none
  | e :: rest =>
    match e.message with
    | .ok m => if accepts m then some (m, rest) else firstMatch accepts rest
    | .error _ => firstMatch accepts rest

/-- Whether an envelope holds a message that is accepted. -/
def Envelope.isAccepted (accepts : Message → Bool) (e : Envelope) : Bool :=
  match e.message with
  | .ok m => accepts m
  | .error _ => false

theorem firstMatch_eq_some_iff (accepts : Message → Bool) (es rest : List Envelope) (m : Message) :
    firstMatch accepts es = some (m, rest) ↔
      ∃ before e, es = before ++ e :: rest ∧ before.all (fun b => !b.isAccepted accepts) = true
        ∧ e.message = .ok m ∧ accepts m = true := by
  induction es with
  | nil => simp [firstMatch]
  | cons e es ih =>
    unfold firstMatch
    constructor
    · intro h
      split at h
      · rename_i m' hm
        split at h
        · rename_i ha
          cases h
          exact ⟨[], e, rfl, rfl, hm, ha⟩
        · rename_i ha
          obtain ⟨before, e', hes, hb, he, hacc⟩ := ih.1 h
          refine ⟨e :: before, e', by rw [hes]; rfl, ?_, he, hacc⟩
          simp only [List.all_cons, Bool.and_eq_true]
          exact ⟨by simp [Envelope.isAccepted, hm, ha], hb⟩
      · rename_i err hm
        obtain ⟨before, e', hes, hb, he, hacc⟩ := ih.1 h
        refine ⟨e :: before, e', by rw [hes]; rfl, ?_, he, hacc⟩
        simp only [List.all_cons, Bool.and_eq_true]
        exact ⟨by simp [Envelope.isAccepted, hm], hb⟩
    · rintro ⟨before, e', hes, hb, he, hacc⟩
      cases before with
      | nil =>
        cases hes
        simp [he, hacc]
      | cons b before =>
        cases hes
        simp only [List.all_cons, Bool.and_eq_true, Bool.not_eq_true'] at hb
        have hr := ih.2 ⟨before, e', rfl, hb.2, he, hacc⟩
        split
        · rename_i m' hm
          have hb1 : accepts m' = false := by simpa [Envelope.isAccepted, hm] using hb.1
          rw [hb1]
          exact hr
        · exact hr

/-- How waiting for a message ends. -/
inductive Awaited where
  | matched (m : Message)
  | timedOut
  | closed
  deriving Repr

/-- An answer of the person who is asked for a key. -/
inductive KeyAnswer where
  | text (s : String)
  /-- What an introducer of a name copied last. -/
  | clipboard (introducer : String)
  deriving Repr, DecidableEq

/-- How a command of the machine ended. -/
inductive CommandOutcome where
  | exited (status : Nat)
  | killed (signal : Nat) (name : String)
  | notStarted (reason : String)
  deriving Repr, DecidableEq

/-- What a caller does with its connection. -/
inductive Program (α : Type) : Type where
  | done (a : α)
  /-- Puts a message into the outbound queue, as soon as there is room. -/
  | queue (contents : Fields) (next : BusResult Unit → Program α)
  /-- The same, and waits until the message is written. -/
  | flush (contents : Fields) (next : BusResult Unit → Program α)
  /-- Waits for a message that is accepted, perhaps up to a limit. -/
  | await (limit : Option Nat) (accepts : Message → Bool) (next : Awaited → Program α)
  | sleep (ms : Nat) (next : Program α)
  | setKeys (keys : KeySet) (next : Program α)
  /-- Asks a person for a key; `none` when nobody answers any more. -/
  | ask (answer : Option KeyAnswer) (next : BusResult String → Program α)
  | execute (command : List String) (next : CommandOutcome → Program α)
  | freshId (head : String) (next : String → Program α)

namespace Program

/-- One program after another. -/
def bind {α β : Type} (p : Program α) (f : α → Program β) : Program β :=
  match p with
  | done a => f a
  | queue c next => queue c fun r => (next r).bind f
  | flush c next => flush c fun r => (next r).bind f
  | await limit accepts next => await limit accepts fun r => (next r).bind f
  | sleep ms next => sleep ms (next.bind f)
  | setKeys keys next => setKeys keys (next.bind f)
  | ask answer next => ask answer fun r => (next r).bind f
  | execute command next => execute command fun r => (next r).bind f
  | freshId head next => freshId head fun r => (next r).bind f

instance : Monad Program where
  pure := done
  bind := bind

end Program

/-- A program that may fail. -/
abbrev Task (ε α : Type) := ExceptT ε Program α

namespace Task

variable {ε : Type}

/-- A task whose failures are those of the bus. -/
def ofResult {α : Type} (p : Program (BusResult α)) : Task BusError α := ExceptT.mk p

/-- Queues an object. -/
def sendFields (contents : Fields) : Task BusError Unit := ofResult (.queue contents .done)

/-- Queues a message. -/
def send (m : Message) : Task BusError Unit := sendFields m.toFields

/-- Queues a message and waits until it is written. -/
def sendAndFlush (m : Message) : Task BusError Unit := ofResult (.flush m.toFields .done)

/-- Waits without limit. -/
def waitUntil (accepts : Message → Bool) : Task BusError Message :=
  ofResult (.await none accepts fun
    | .matched m => .done (.ok m)
    | _ => .done (.error .closed))

/-- Waits up to a limit; `what` names the reply that is awaited. -/
def waitFor (limit : Nat) (what : String) (accepts : Message → Bool) : Task BusError Message :=
  ofResult (.await (some limit) accepts fun
    | .matched m => .done (.ok m)
    | .timedOut => .done (.error (.timeout ("no " ++ what ++ " within " ++ Text.duration limit)))
    | .closed => .done (.error .closed))

/-- Pauses. -/
def sleep (ms : Nat) : Task ε Unit := ExceptT.mk (.sleep ms (.done (.ok ())))

/-- Replaces the keys of the connection. -/
def setKeys (keys : KeySet) : Task ε Unit := ExceptT.mk (.setKeys keys (.done (.ok ())))

/-- Asks a person for a key. -/
def ask (answer : Option KeyAnswer) : Task BusError String := ofResult (.ask answer .done)

/-- Runs a command of the machine. -/
def execute (command : List String) : Task ε CommandOutcome :=
  ExceptT.mk (.execute command fun o => .done (.ok o))

/-- Makes an id. -/
def freshId (head : String) : Task ε String := ExceptT.mk (.freshId head fun id => .done (.ok id))

/-- The outcome of a task, whose failure is no failure any more. -/
def outcome {α : Type} (t : Task BusError α) : Task ε (BusResult α) :=
  ExceptT.mk (t.run.bind fun r => .done (.ok r))

end Task

end MessageBus
