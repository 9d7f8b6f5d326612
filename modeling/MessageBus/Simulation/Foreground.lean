import MessageBus.Simulation.Machine
import MessageBus.Simulation.World

/-!
# Running programs in a world

One program at a time runs on a connection of a world.  As long as it can go on, nothing else
moves; where it waits, everything else does, and the clock jumps if it has to.

`World.run` runs a program to its end, or up to a moment at which it is given up.
-/

namespace MessageBus

/-- A program that cannot go on by itself. -/
inductive Waiting (α : Type) : Type where
  | finished (a : α)
  /-- For room in the outbound queue. -/
  | room (contents : Fields) (ticket : Option Nat) (next : BusResult Unit → Program α)
  /-- For a message to be written. -/
  | ticket (t : Nat) (next : BusResult Unit → Program α)
  /-- For a message, perhaps up to a moment. -/
  | message (until_ : Option Nat) (accepts : Message → Bool) (next : Awaited → Program α)
  /-- For a moment. -/
  | moment (until_ : Nat) (next : Program α)

namespace World

/-- What the introducer of a number copied last. -/
def clipboard (w : World) (k : Option Nat) : BusResult String :=
  match (k.bind (w.introducers[·]?)).bind (·.clipboard) with
  | some text => .ok text
  | none => .error (.transport "clipboard empty")

/-- The answer of the person who is asked for a key, who finds introducers by their names. -/
def answer (w : World) (find : String → Option Nat) : Option KeyAnswer → BusResult String
  | none => .error .closed
  | some (.text s) => .ok s
  | some (.clipboard name) => w.clipboard (find name)

/-- Runs a program up to where it waits. -/
def begin {α : Type} (find : String → Option Nat) (w : World) (i : Nat) :
    Program α → Waiting α × World
  | .done a => (.finished a, w)
  | .queue contents next => (.room contents none next, w)
  | .flush contents next =>
    (.room contents (some w.nextTicket) next, { w with nextTicket := w.nextTicket + 1 })
  | .await limit accepts next => (.message (limit.map (w.now + ·)) accepts next, w)
  | .sleep ms next => (.moment (w.now + ms) next, w)
  | .setKeys keys next => begin find ((w.act i (.setKeys keys)).getD w) i next
  | .ask a next => begin find w i (next (w.answer find a))
  | .execute command next => begin find w i (next (Machine.execute command))
  | .freshId head next =>
    let (id, e) := Identity.fresh w.entropy head
    begin find { w with entropy := e } i (next id)

/-- Takes a number of envelopes. -/
def takeEnvelopes (w : World) (i : Nat) : Nat → World
  | 0 => w
  | n + 1 => takeEnvelopes ((w.act i .take).getD w) i n

/-- Takes envelopes up to the first that is accepted; without one all are gone. -/
def takeMatch (w : World) (i : Nat) (accepts : Message → Bool) : Option Message × World :=
  match w.peer? i with
  | none => (none, w)
  | some p =>
    let inbound := p.connection.inbound
    match firstMatch accepts inbound with
    | some (m, rest) => (some m, w.takeEnvelopes i (inbound.length - rest.length))
    | none => (none, w.takeEnvelopes i inbound.length)

/-- Whether a connection is shut down, or not there. -/
def isStopped (w : World) (i : Nat) : Bool := (w.peer? i).all (·.connection.isStopped)

/-- What a program waits for next, if what it waited for is there. -/
def wake {α : Type} (find : String → Option Nat) (w : World) (i : Nat) :
    Waiting α → Option (Waiting α) × World
  | .finished _ => (none, w)
  | .room contents ticket next =>
    if w.isStopped i then go w (next (.error .closed))
    else match w.act i (.queue ⟨contents, ticket⟩), ticket with
      | some w, none => go w (next (.ok ()))
      | some w, some t => (some (.ticket t next), w)
      | none, _ => (none, w)
  | .ticket t next =>
    match w.redeemed.lookup t with
    | some written => go w (next (if written then .ok () else .error .closed))
    | none => (none, w)
  | .message due accepts next =>
    match w.takeMatch i accepts with
    | (some m, w) => go w (next (.matched m))
    | (none, w) =>
      -- what has arrived is looked at even after the end, and before the limit
      if w.isStopped i then go w (next .closed)
      else if due.any (· ≤ w.now) then go w (next .timedOut)
      else (none, w)
  | .moment due next => if due ≤ w.now then go w next else (none, w)
where
  /-- The next stop of a program that goes on. -/
  go (w : World) (p : Program α) : Option (Waiting α) × World :=
    let (s, w) := begin find w i p
    (some s, w)

/-- Lets a program go on as far as it gets, and tells whether it got on at all. -/
def poll {α : Type} (fuel : Nat) (find : String → Option Nat) (w : World) (i : Nat)
    (s : Waiting α) : Waiting α × World × Bool :=
  match fuel with
  | 0 => (s, w, false)
  | fuel + 1 =>
    match wake find w i s with
    | (some s, w) =>
      let (s, w, _) := poll fuel find w i s
      (s, w, true)
    | (none, w) => (s, w, false)

/-- The moment that a program waits for. -/
def deadline? {α : Type} : Waiting α → Option Nat
  | .message due _ _ => due
  | .moment due _ => some due
  | _ => none

/-- The next moment at which anything can happen. -/
def nextMoment (w : World) (deadline cap : Option Nat) : Option Nat :=
  ([w.nextTimer?, deadline.filter (w.now < ·), cap.filter (w.now < ·)].filterMap id).min?

/-- Lets a program go on to its end, or to the moment at which it is given up. -/
def finish {α : Type} (fuel : Nat) (find : String → Option Nat) (cap : Option Nat) (w : World)
    (i : Nat) (s : Waiting α) : Option α × World :=
  match fuel with
  | 0 => (none, w)
  | fuel + 1 =>
    let (s, w, moved) := poll turnLength find w i s
    match s with
    | .finished a => (some a, w)
    | s =>
      -- the clock moves only when neither the program nor the world can
      if moved then finish fuel find cap w.settle i s
      else
        let (s, w, moved) := poll turnLength find w.settle i s
        if moved then finish fuel find cap w i s
        else if cap.any (· ≤ w.now) then (none, w)
        else match w.nextMoment (deadline? s) cap with
          | some t => finish fuel find cap { w with now := t } i s
          | none => (none, w)

/-- Runs a program on a connection, at most until a moment. -/
def run {α : Type} (find : String → Option Nat) (cap : Option Nat) (w : World) (i : Nat)
    (p : Program α) : Option α × World :=
  let (s, w) := begin find w i p
  finish turnLength find cap w i s

end World

end MessageBus
