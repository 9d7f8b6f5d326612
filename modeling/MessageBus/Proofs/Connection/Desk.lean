import MessageBus.Proofs.Connection.Caller

/-! # Calls over one connection

    Any number of callers share a connection.  A call queues a message with a
    ticket of its own and waits for the receipt; meanwhile other callers queue
    messages, with or without a ticket, and the link fails and comes back.

    * `Desk.step`: what can happen.
    * `Desk.Moves`, `moves_of_step`: what it leads to.
    * `runs_link`: what the connection goes through is a run of it. -/

namespace MessageBus

/-! ## The system -/

/-- A call that queues a message and waits until it is written. -/
structure FlushCall where
  contents : Fields
  flush : Flush

/-- The call when something happened on the connection. -/
def FlushCall.heed (events : List Connection.Event) (call : FlushCall) : FlushCall :=
  { call with flush := events.foldl Flush.heed call.flush }

/-- Whether an action queues a message with a ticket. -/
def Connection.Action.isTicketed : Connection.Action → Bool
  | .queue ⟨_, some _⟩ => true
  | _ => false

/-- A connection and all calls that were made of it.  The ticket of a call is its number. -/
structure Desk where
  connection : Connection
  calls : List FlushCall

namespace Desk

/-- A connection of which no call was made yet. -/
def start (c : Connection) : Desk := ⟨c, []⟩

/-- What can happen. -/
inductive Move where
  /-- A call is made. -/
  | flush (contents : Fields)
  /-- A call returns. -/
  | settle (call : Nat)
  /-- Anything else that the connection, its link or a caller does. -/
  | work (a : Connection.Action)

/-- What a move is for the connection, if anything, the calls with it, and which call returns, if
any does. -/
structure Turn where
  action? : Option Connection.Action
  calls : List FlushCall
  returned? : Option (Nat × BusResult Unit)

/-- The turn for a move; `none` when nothing of the kind can happen now. -/
def turn? (d : Desk) : Move → Option Turn
  | .flush contents =>
    let ticket := d.calls.length
    if d.connection.isStopped then
      some ⟨none, d.calls ++ [⟨contents, .idle ticket⟩], some (ticket, .error .closed)⟩
    else
      some ⟨some (.queue ⟨contents, some ticket⟩), d.calls ++ [⟨contents, .waiting ticket⟩], none⟩
  | .settle k =>
    match d.calls[k]? with
    | some ⟨contents, .ended _ r⟩ => some ⟨none, d.calls.set k ⟨contents, .idle k⟩, some (k, r)⟩
    | _ => none
  | .work a => if a.isTicketed then none else some ⟨some a, d.calls, none⟩

/-- The next state for a move at a moment, and what happened on the connection; `none` for a move
that is not possible. -/
def step (d : Desk) (m : Nat × Move) : Option (Desk × List Connection.Event) := do
  let turn ← d.turn? m.2
  let (connection, events) ← d.connection.act m.1 turn.action?
  return (⟨connection, turn.calls.map (·.heed events)⟩, events)

/-- What happened, move by move. -/
abbrev Journal := List (Stage Desk (Nat × Move) Connection.Event)

/-- The runs: whatever is possible may happen, at any moments. -/
abbrev Runs (d₀ : Desk) (journal : Journal) (d : Desk) : Prop := Run step d₀ journal d

/-! ## Reading a journal -/

/-- What a stage is for the connection, if anything. -/
def act? (st : Stage Desk (Nat × Move) Connection.Event) :
    Option (Stage Connection (Nat × Connection.Action) Connection.Event) :=
  ((st.before.turn? st.move.2).bind (·.action?)).map fun a =>
    ⟨st.before.connection, (st.move.1, a), st.events⟩

/-- The call that returns at a stage, with its result. -/
def return? (st : Stage Desk (Nat × Move) Connection.Event) : Option (Nat × BusResult Unit) :=
  (st.before.turn? st.move.2).bind (·.returned?)

/-- The message of the call that is made at a stage. -/
def flush? (st : Stage Desk (Nat × Move) Connection.Event) : Option Fields :=
  match st.move.2 with
  | .flush contents => some contents
  | _ => none

/-- What the connection goes through. -/
def link (journal : Journal) : Connection.Trace := journal.filterMap act?

/-- The calls that have returned, with their results. -/
def returns (journal : Journal) : List (Nat × BusResult Unit) := journal.filterMap return?

/-- The messages of the calls, in the order in which these were made. -/
def flushes (journal : Journal) : List Fields := journal.filterMap flush?

section snoc
variable (journal : Journal) (st : Stage Desk (Nat × Move) Connection.Event)

@[simp] theorem link_snoc : link (journal ++ [st]) = link journal ++ (act? st).toList := by
  cases h : act? st <;> simp [link, h]

@[simp] theorem returns_snoc :
    returns (journal ++ [st]) = returns journal ++ (return? st).toList := by
  cases h : return? st <;> simp [returns, h]

@[simp] theorem flushes_snoc :
    flushes (journal ++ [st]) = flushes journal ++ (flush? st).toList := by
  cases h : flush? st <;> simp [flushes, h]

end snoc

/-! ## Moves as a relation -/

/-- The moves, one constructor for each outcome: where the move leads, what it is
    for the connection, and which call returns. -/
inductive Moves (d : Desk) (now : Nat) : Move → Desk → List Connection.Event →
    Option Connection.Action → Option (Nat × BusResult Unit) → Prop where
  | refused {contents : Fields} :
      d.connection.isStopped = true →
      Moves d now (.flush contents)
        ⟨d.connection, d.calls ++ [⟨contents, .idle d.calls.length⟩]⟩ [] none
        (some (d.calls.length, .error .closed))
  | posted {contents : Fields} {c : Connection} :
      d.connection.step now (.queue ⟨contents, some d.calls.length⟩) = some (c, []) →
      Moves d now (.flush contents) ⟨c, d.calls ++ [⟨contents, .waiting d.calls.length⟩]⟩ []
        (some (.queue ⟨contents, some d.calls.length⟩)) none
  | settled {k ticket : Nat} {contents : Fields} {r : BusResult Unit} :
      d.calls[k]? = some ⟨contents, .ended ticket r⟩ →
      Moves d now (.settle k) ⟨d.connection, d.calls.set k ⟨contents, .idle k⟩⟩ [] none
        (some (k, r))
  | worked {a : Connection.Action} {c : Connection} {events : List Connection.Event} :
      a.isTicketed = false → d.connection.step now a = some (c, events) →
      Moves d now (.work a) ⟨c, d.calls.map (·.heed events)⟩ events (some a) none

variable {d d' d₀ : Desk} {m : Nat × Move} {events : List Connection.Event} {journal : Journal}

theorem map_heed_nil (calls : List FlushCall) : calls.map (·.heed []) = calls :=
  List.map_id' calls

/-- Every possible move is one of the listed ones. -/
theorem moves_of_step (h : d.step m = some (d', events)) :
    ∃ action? returned?, Moves d m.1 m.2 d' events action? returned? ∧
      act? ⟨d, m, events⟩ = action?.map (fun a => ⟨d.connection, (m.1, a), events⟩) ∧
      return? ⟨d, m, events⟩ = returned? := by
  obtain ⟨now, move⟩ := m
  simp only [step, Option.bind_eq_bind, Option.bind_eq_some_iff] at h
  obtain ⟨turn, hturn, ⟨c, events'⟩, hact, heq⟩ := h
  cases heq
  refine ⟨turn.action?, turn.returned?, ?_, ?_, ?_⟩
  · cases move with
    | flush contents =>
      simp only [turn?] at hturn
      split at hturn
      · next hstopped =>
        cases hturn
        cases hact
        rw [map_heed_nil]
        exact .refused hstopped
      · cases hturn
        have hstep : d.connection.step now (.queue ⟨contents, some d.calls.length⟩)
            = some (c, events') := hact
        cases Connection.moves_of_step hstep with
        | queued =>
          rw [map_heed_nil]
          exact .posted hstep
    | settle k =>
      simp only [turn?] at hturn
      split at hturn
      · next hcall =>
        cases hturn
        cases hact
        rw [map_heed_nil]
        exact .settled hcall
      · cases hturn
    | work a =>
      simp only [turn?] at hturn
      split at hturn
      · cases hturn
      · next hplain =>
        cases hturn
        exact .worked (by simpa using hplain) hact
  · simp only [act?, hturn, Option.bind_some]
  · simp only [return?, hturn, Option.bind_some]

/-- What the connection goes through is a run of it. -/
theorem runs_link (h : Runs d₀ journal d) :
    Connection.Runs d₀.connection (link journal) d.connection := by
  induction h with
  | start => exact .start
  | @move journal d d' m events _ hstep ih =>
    obtain ⟨action?, returned?, hmove, hact, -⟩ := moves_of_step hstep
    rw [link_snoc, hact]
    generalize m.2 = move at hmove
    cases hmove with
    | refused => simpa using ih
    | posted hqueue => exact ih.move hqueue
    | settled => simpa using ih
    | worked _ hwork => exact ih.move hwork

end Desk

end MessageBus
