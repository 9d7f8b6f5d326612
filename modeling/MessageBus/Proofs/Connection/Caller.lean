import MessageBus.Proofs.Connection.Progress
import MessageBus.Proofs.Connection.Replies

/-! # A caller of a connection

    A caller runs a program over its connection while the connection works on
    its own: it writes what is queued and reads what comes, and its link fails
    and comes back.  Every request of the program is a move, so anything may
    happen between two of them.  There is no clock: a wait with a limit may run
    out at any time.

    So every run of a caller plays its program with the replies that came along
    the run, and what the program asked of its connection is what the connection
    was asked.

    * `Caller.step`: what can happen.
    * `runs_link`: what the connection goes through is a run of it.
    * `isStopped_of_closed`: only a connection that is shut down refuses anything.
    * `keys_eq`, `heard_eq`: the keys in force, and the envelopes that were taken.
    * `play_of_run`: every run plays the program. -/

namespace MessageBus

/-- How it stands with a message that a caller has to see written.  The number is the ticket of
that message, or of the next one. -/
inductive Flush where
  /-- There is no such message. -/
  | idle (ticket : Nat)
  /-- It is queued. -/
  | waiting (ticket : Nat)
  /-- It is written, or never will be. -/
  | ended (ticket : Nat) (r : BusResult Unit)

namespace Flush

/-- What becomes of the message when something happens on the connection. -/
def heed : Flush → Connection.Event → Flush
  | waiting ticket, .completed (some other) =>
    if other = ticket then ended ticket (.ok ()) else waiting ticket
  | waiting ticket, .abandoned (some other) =>
    if other = ticket then ended ticket (.error .closed) else waiting ticket
  | f, _ => f

/-- Whether there is no message to see written. -/
def isIdle : Flush → Bool
  | idle _ => true
  | _ => false

theorem foldl_heed_idle (ticket : Nat) (events : List Connection.Event) :
    events.foldl heed (idle ticket) = idle ticket := by
  induction events with
  | nil => rfl
  | cons event events ih => exact ih

/-- A message that is queued is not forgotten. -/
theorem isIdle_foldl_heed (f : Flush) (events : List Connection.Event) :
    (events.foldl heed f).isIdle = f.isIdle := by
  induction events generalizing f with
  | nil => rfl
  | cons event events ih =>
    rw [List.foldl_cons, ih]
    unfold heed
    split
    · split <;> rfl
    · split <;> rfl
    · rfl

end Flush

/-- The envelope that a program hears. -/
def Reply.envelope? : Reply → Option Envelope
  | heard e => some e
  | _ => none

@[simp] theorem Reply.envelope_comp_heard : envelope? ∘ heard = some := rfl

/-- The answer of the person who is asked for a key. -/
def Reply.answer? : Reply → Option (BusResult String)
  | entered answer => some answer
  | _ => none

/-- The keys that a call sets. -/
def Call.keys? : Call → Option KeySet
  | rekey keys => some keys
  | _ => none

/-- What a connection is asked for by an action, besides envelopes. -/
def Connection.Action.call? : Connection.Action → Option Call
  | setKeys keys => some (.rekey keys)
  | queue ⟨contents, none⟩ => some (.send contents)
  | queue ⟨contents, some _⟩ => some (.flush contents)
  | _ => none

/-- The transition of a connection that does something, or nothing. -/
def Connection.act (c : Connection) (now : Nat) :
    Option Connection.Action → Option (Connection × List Connection.Event)
  | some a => c.step now a
  | none => some (c, [])

/-! ## The system -/

/-- A caller: its connection, and what it has yet to do. -/
structure Caller (α : Type) where
  connection : Connection
  program : Program α
  flush : Flush

namespace Caller

variable {α : Type}

/-- A caller that has done nothing yet. -/
def start (c : Connection) (program : Program α) : Caller α := ⟨c, program, .idle 0⟩

/-- What can happen. -/
inductive Move where
  /-- The caller does what its program requests next of the connection. -/
  | proceed
  /-- A reply comes from outside. -/
  | reply (r : Reply)
  /-- The connection or its link does something. -/
  | work (a : Connection.Action)

/-- What a move is for the connection, if anything, and which reply the program gets, if any. -/
structure Turn where
  action? : Option Connection.Action
  reply? : Option Reply
  flush : Flush

/-- The turn for a move; `none` when nothing of the kind can happen now. -/
def turn? (p : Caller α) : Move → Option Turn
  | .proceed =>
    match p.program with
    | .setKeys keys _ => some ⟨some (.setKeys keys), some .rekeyed, p.flush⟩
    | .queue contents _ =>
      if p.connection.isStopped then some ⟨none, some .closed, p.flush⟩
      else some ⟨some (.queue ⟨contents, none⟩), some .queued, p.flush⟩
    | .flush contents _ =>
      match p.flush with
      | .idle ticket =>
        if p.connection.isStopped then some ⟨none, some .closed, .idle ticket⟩
        else some ⟨some (.queue ⟨contents, some ticket⟩), none, .waiting ticket⟩
      | .waiting _ => none
      | .ended ticket r => some ⟨none, some (.flushed r), .idle (ticket + 1)⟩
    | .await .. =>
      match p.connection.inbound with
      | e :: _ => some ⟨some .take, some (.heard e), p.flush⟩
      | [] => if p.connection.isStopped then some ⟨none, some .closed, p.flush⟩ else none
    | _ => none
  | .reply r => if r.isFromOutside then some ⟨none, some r, p.flush⟩ else none
  | .work a => if a.isByCaller then none else some ⟨some a, none, p.flush⟩

/-- The next state for a move at a moment, and what happened on the connection; `none` for a move
that is not possible. -/
def step (p : Caller α) (m : Nat × Move) : Option (Caller α × List Connection.Event) := do
  let turn ← p.turn? m.2
  let (_, program) ← p.program.play turn.reply?.toList
  let (connection, events) ← p.connection.act m.1 turn.action?
  return (⟨connection, program, events.foldl Flush.heed turn.flush⟩, events)

/-- What happened to a caller, move by move. -/
abbrev Journal (α : Type) := List (Stage (Caller α) (Nat × Move) Connection.Event)

/-- The runs of a caller: whatever is possible may happen, at any moments. -/
abbrev Runs (p₀ : Caller α) (journal : Journal α) (p : Caller α) : Prop := Run step p₀ journal p

/-! ## Reading a journal -/

/-- What a stage is for the connection, if anything. -/
def act? (st : Stage (Caller α) (Nat × Move) Connection.Event) :
    Option (Stage Connection (Nat × Connection.Action) Connection.Event) :=
  ((st.before.turn? st.move.2).bind (·.action?)).map fun a =>
    ⟨st.before.connection, (st.move.1, a), st.events⟩

/-- The reply that the program gets at a stage. -/
def reply? (st : Stage (Caller α) (Nat × Move) Connection.Event) : Option Reply :=
  (st.before.turn? st.move.2).bind (·.reply?)

/-- What the connection goes through. -/
def link (journal : Journal α) : Connection.Trace := journal.filterMap act?

/-- The replies that the program gets. -/
def replies (journal : Journal α) : List Reply := journal.filterMap reply?

/-- What the connection is asked for, besides envelopes. -/
def calls (journal : Journal α) : List Call :=
  (link journal).filterMap fun st => st.move.2.call?

/-- The envelopes that the caller takes. -/
def heard (journal : Journal α) : List Envelope := Connection.taken (link journal)

/-- The answers of the person who is asked for keys. -/
def answers (journal : Journal α) : List (BusResult String) :=
  (replies journal).filterMap Reply.answer?

section snoc
variable (journal : Journal α) (st : Stage (Caller α) (Nat × Move) Connection.Event)

@[simp] theorem link_snoc : link (journal ++ [st]) = link journal ++ (act? st).toList := by
  cases h : act? st <;> simp [link, h]

@[simp] theorem replies_snoc :
    replies (journal ++ [st]) = replies journal ++ (reply? st).toList := by
  cases h : reply? st <;> simp [replies, h]

@[simp] theorem calls_snoc :
    calls (journal ++ [st]) = calls journal ++ ((act? st).bind (·.move.2.call?)).toList := by
  unfold calls
  rw [link_snoc, List.filterMap_append]
  cases h : act? st with
  | none => rfl
  | some stage => cases hcall : stage.move.2.call? <;> simp [hcall]

end snoc

theorem replies_append (journal journal' : Journal α) :
    replies (journal ++ journal') = replies journal ++ replies journal' :=
  List.filterMap_append

/-! ## Moves as a relation -/

variable {p p' p₀ : Caller α} {m : Nat × Move} {move : Move} {turn : Turn}
  {events : List Connection.Event} {journal : Journal α}

/-- The turns, one constructor for each outcome. -/
inductive Turns (p : Caller α) : Move → Turn → Prop where
  | rekey {keys : KeySet} {next : Program α} :
      p.program = .setKeys keys next →
      Turns p .proceed ⟨some (.setKeys keys), some .rekeyed, p.flush⟩
  | send {contents : Fields} {next : BusResult Unit → Program α} :
      p.program = .queue contents next →
      Turns p .proceed ⟨some (.queue ⟨contents, none⟩), some .queued, p.flush⟩
  | refuse {contents : Fields} {next : BusResult Unit → Program α} :
      p.program = .queue contents next → p.connection.isStopped = true →
      Turns p .proceed ⟨none, some .closed, p.flush⟩
  | post {contents : Fields} {next : BusResult Unit → Program α} {ticket : Nat} :
      p.program = .flush contents next → p.flush = .idle ticket →
      Turns p .proceed ⟨some (.queue ⟨contents, some ticket⟩), none, .waiting ticket⟩
  | refuseFlush {contents : Fields} {next : BusResult Unit → Program α} {ticket : Nat} :
      p.program = .flush contents next → p.flush = .idle ticket → p.connection.isStopped = true →
      Turns p .proceed ⟨none, some .closed, .idle ticket⟩
  | settle {contents : Fields} {next : BusResult Unit → Program α} {ticket : Nat}
      {r : BusResult Unit} :
      p.program = .flush contents next → p.flush = .ended ticket r →
      Turns p .proceed ⟨none, some (.flushed r), .idle (ticket + 1)⟩
  | take {limit : Option Nat} {accepts : Message → Bool} {next : Awaited → Program α}
      {e : Envelope} {rest : List Envelope} :
      p.program = .await limit accepts next → p.connection.inbound = e :: rest →
      Turns p .proceed ⟨some .take, some (.heard e), p.flush⟩
  | endWait {limit : Option Nat} {accepts : Message → Bool} {next : Awaited → Program α} :
      p.program = .await limit accepts next → p.connection.isStopped = true →
      p.connection.inbound = [] → Turns p .proceed ⟨none, some .closed, p.flush⟩
  | reply {r : Reply} : r.isFromOutside = true → Turns p (.reply r) ⟨none, some r, p.flush⟩
  | work {a : Connection.Action} :
      a.isByCaller = false → Turns p (.work a) ⟨some a, none, p.flush⟩

/-- Every turn is one of the listed ones. -/
theorem turns_of_turn (h : p.turn? move = some turn) : Turns p move turn := by
  cases move with
  | proceed =>
    simp only [turn?] at h
    split at h
    · next hprogram =>
      cases h
      exact .rekey hprogram
    · next hprogram =>
      split at h
      · next hstopped =>
        cases h
        exact .refuse hprogram hstopped
      · cases h
        exact .send hprogram
    · next hprogram =>
      split at h
      · next hflush =>
        split at h
        · next hstopped =>
          cases h
          exact .refuseFlush hprogram hflush hstopped
        · cases h
          exact .post hprogram hflush
      · cases h
      · next hflush =>
        cases h
        exact .settle hprogram hflush
    · next hprogram =>
      split at h
      · next hin =>
        cases h
        exact .take hprogram hin
      · next hin =>
        split at h
        · next hstopped =>
          cases h
          exact .endWait hprogram hstopped hin
        · cases h
    · cases h
  | reply r =>
    simp only [turn?] at h
    split at h
    · next houtside =>
      cases h
      exact .reply houtside
    · cases h
  | work a =>
    simp only [turn?] at h
    split at h
    · cases h
    · next hown =>
      cases h
      exact .work (by simpa using hown)

/-- A move is possible if the program gets its reply and the connection does its part. -/
theorem step_eq_some_iff :
    p.step m = some (p', events) ↔
      ∃ turn calls, p.turn? m.2 = some turn ∧
        p.program.play turn.reply?.toList = some (calls, p'.program) ∧
        p.connection.act m.1 turn.action? = some (p'.connection, events) ∧
        events.foldl Flush.heed turn.flush = p'.flush := by
  obtain ⟨c, program, flush⟩ := p'
  simp only [step, Option.bind_eq_bind, Option.bind_eq_some_iff, Option.pure_def, Prod.exists,
    Option.some.injEq, Prod.mk.injEq, Caller.mk.injEq]
  constructor
  · intro ⟨turn, hturn, calls, _, hplay, _, _, hact, ⟨hc, hprogram, hflush⟩, hevents⟩
    subst hc hprogram hevents
    exact ⟨turn, calls, hturn, hplay, hact, hflush⟩
  · intro ⟨turn, calls, hturn, hplay, hact, hflush⟩
    exact ⟨turn, hturn, calls, program, hplay, c, events, hact, ⟨rfl, rfl, hflush⟩, rfl⟩

theorem act_of_turn (h : p.turn? m.2 = some turn) :
    act? ⟨p, m, events⟩ =
      turn.action?.map fun a => ⟨p.connection, (m.1, a), events⟩ := by
  simp only [act?, h, Option.bind_some]

theorem reply_of_turn (h : p.turn? m.2 = some turn) : reply? ⟨p, m, events⟩ = turn.reply? := by
  simp only [reply?, h, Option.bind_some]

/-- In a move the connection stays as it is, or does something itself. -/
theorem act_cases {c c' : Connection} {now : Nat} {action? : Option Connection.Action}
    (h : c.act now action? = some (c', events)) :
    action? = none ∧ c' = c ∧ events = [] ∨
      ∃ a, action? = some a ∧ c.timedStep (now, a) = some (c', events) := by
  cases action? with
  | none =>
    cases h
    exact .inl ⟨rfl, rfl, rfl⟩
  | some a => exact .inr ⟨a, rfl, h⟩

/-- At every stage the connection stays as it is, or does something itself. -/
theorem act_of_step (h : p.step m = some (p', events)) :
    act? ⟨p, m, events⟩ = none ∧ p'.connection = p.connection ∧ events = [] ∨
      ∃ a, act? ⟨p, m, events⟩ = some ⟨p.connection, (m.1, a), events⟩ ∧
        p.connection.timedStep (m.1, a) = some (p'.connection, events) := by
  obtain ⟨turn, _, hturn, -, hact, -⟩ := step_eq_some_iff.1 h
  rw [act_of_turn hturn]
  rcases act_cases hact with ⟨hnone, hsame⟩ | ⟨a, hsome, hmove⟩
  · exact .inl ⟨by rw [hnone, Option.map_none], hsame⟩
  · exact .inr ⟨a, by rw [hsome, Option.map_some], hmove⟩

/-! ## What the connection goes through -/

/-- What the connection goes through is a run of it. -/
theorem runs_link (h : Runs p₀ journal p) :
    Connection.Runs p₀.connection (link journal) p.connection := by
  induction h with
  | start => exact .start
  | @move journal p p' m events _ hstep ih =>
    rw [link_snoc]
    rcases act_of_step hstep with ⟨hnone, hsame, -⟩ | ⟨a, hsome, hmove⟩
    · rw [hnone, hsame]
      simpa using ih
    · rw [hsome]
      exact ih.move hmove

/-- A connection that is shut down stays so. -/
theorem isStopped_step (h : p.step m = some (p', events)) (hs : p.connection.isStopped = true) :
    p'.connection.isStopped = true := by
  rcases act_of_step h with ⟨-, hsame, -⟩ | ⟨a, -, hmove⟩
  · rwa [hsame]
  · exact (Connection.isStopped_moves hs (Connection.moves_of_step hmove)).1

/-- Only a connection that is shut down refuses anything. -/
theorem isStopped_of_closed (h : Runs p₀ journal p) (hclosed : .closed ∈ replies journal) :
    p.connection.isStopped = true := by
  induction h with
  | start => cases hclosed
  | @move journal p p' m events _ hstep ih =>
    apply isStopped_step hstep
    obtain ⟨turn, _, hturn, -⟩ := step_eq_some_iff.1 hstep
    rw [replies_snoc, reply_of_turn hturn] at hclosed
    rcases List.mem_append.mp hclosed with hbefore | hnow
    · exact ih hbefore
    · have hreply : turn.reply? = some .closed := by simpa using hnow
      have hturns := turns_of_turn hturn
      generalize m.2 = move at hturns
      cases hturns with
      | refuse _ hstopped | refuseFlush _ _ hstopped | endWait _ hstopped => exact hstopped
      | reply houtside =>
        cases hreply
        cases houtside
      | _ => cases hreply

/-- The keys of the connection are those that it was last asked to take. -/
theorem keys_eq (h : Runs p₀ journal p) :
    p.connection.keys =
      ((calls journal).filterMap Call.keys?).getLast?.getD p₀.connection.keys := by
  induction h with
  | start => rfl
  | @move journal p p' m events _ hstep ih =>
    rw [calls_snoc]
    rcases act_of_step hstep with ⟨hnone, hsame, -⟩ | ⟨a, hsome, hmove⟩
    · rw [hnone, hsame]
      simpa using ih
    · rw [hsome, Connection.keys_moves (Connection.moves_of_step hmove)]
      -- only a call that replaces the keys counts
      cases a with
      | setKeys keys =>
        simp [Connection.keysAfter, Connection.Action.call?, Call.keys?]
      | queue o =>
        obtain ⟨contents, ticket?⟩ := o
        cases ticket? <;>
          simpa [Connection.keysAfter, Connection.Action.call?, Call.keys?] using ih
      | _ => simpa [Connection.keysAfter, Connection.Action.call?] using ih

/-- A caller takes just the envelopes that its program hears. -/
theorem heard_eq (h : Runs p₀ journal p) :
    heard journal = (replies journal).filterMap Reply.envelope? := by
  unfold heard
  induction h with
  | start => rfl
  | @move journal p p' m events _ hstep ih =>
    obtain ⟨turn, _, hturn, -, hact, -⟩ := step_eq_some_iff.1 hstep
    rw [link_snoc, act_of_turn hturn, replies_snoc, reply_of_turn hturn, List.filterMap_append,
      ← ih]
    have hturns := turns_of_turn hturn
    generalize m.2 = move at hturns
    generalize p'.connection = c' at hact
    rcases act_cases hact with ⟨hnone, -, rfl⟩ | ⟨a, hsome, hmove⟩
    · have hreply : turn.reply?.toList.filterMap Reply.envelope? = [] := by
        cases hturns with
        | @reply r houtside => cases r <;> first | rfl | cases houtside
        | refuse | refuseFlush | settle | endWait => rfl
        | _ => cases hnone
      simp [hnone, hreply]
    · rw [hsome, Option.map_some, Option.toList_some, Connection.taken_snoc]
      have hmoves := Connection.moves_of_step hmove
      congr 1
      cases hturns with
      | rekey | send | post =>
        cases hsome
        cases hmoves
        rfl
      | take _ hin =>
        cases hsome
        cases hmoves with
        | took hin' =>
          rw [hin] at hin'
          cases hin'
          rfl
      | work hown =>
        cases hsome
        cases hmoves with
        | took => cases hown
        | cancelled => exact Connection.filterMap_abandoned (fun _ => rfl) _
        | _ => rfl
      | _ => cases hsome

/-! ## Runs and plays -/

/-- The message that the caller has to see written; its program is still at that request. -/
def pending (p : Caller α) : List Call :=
  if p.flush.isIdle then []
  else match p.program with
    | .flush contents _ => [.flush contents]
    | _ => []

/-- Only a program at such a request has a message to see written. -/
def IsInOrder (p : Caller α) : Prop :=
  p.flush.isIdle = true ∨ ∃ contents next, p.program = .flush contents next

/-- What the program asked for before a move and in it is what the connection was asked for. -/
theorem play_of_step (h : p.step m = some (p', events)) (ho : p.IsInOrder) :
    p'.IsInOrder ∧ ∃ calls,
      p.program.play (reply? ⟨p, m, events⟩).toList = some (calls, p'.program) ∧
      p.pending ++ ((act? ⟨p, m, events⟩).bind (·.move.2.call?)).toList = calls ++ p'.pending := by
  obtain ⟨turn, calls, hturn, hplay, -, hflush⟩ := step_eq_some_iff.1 h
  rw [reply_of_turn hturn, act_of_turn hturn]
  have hidle : p'.flush.isIdle = turn.flush.isIdle := by rw [← hflush, Flush.isIdle_foldl_heed]
  clear hflush
  -- a program at another request has no message to see written
  have hother : (∀ contents next, p.program ≠ .flush contents next) → p.flush.isIdle = true := by
    intro hne
    exact ho.resolve_right fun ⟨contents, next, hprogram⟩ => hne contents next hprogram
  have hpending : p.flush.isIdle = true → p.pending = [] := fun h => if_pos h
  have hpending' : turn.flush.isIdle = true → p'.pending = [] := fun h => if_pos (hidle.trans h)
  have hturns := turns_of_turn hturn
  generalize m.2 = move at hturns
  cases hturns with
  | rekey hprogram | send hprogram | take hprogram | refuse hprogram | endWait hprogram =>
    have hidle₀ := hother (by simp [hprogram])
    refine ⟨.inl (hidle.trans hidle₀), calls, hplay, ?_⟩
    obtain ⟨call?, hafter, rfl⟩ := Program.play_singleton_iff.mp hplay
    simp only [hprogram, Program.after, Option.some.injEq, Prod.mk.injEq] at hafter
    rw [hpending hidle₀, hpending' hidle₀, ← hafter.1]
    rfl
  | @post contents next ticket hprogram hflush =>
    obtain ⟨rfl, hsame⟩ := Prod.mk.inj (Option.some.inj hplay)
    refine ⟨.inr ⟨contents, next, by rw [← hsame, hprogram]⟩, [], hplay, ?_⟩
    rw [hpending (by rw [hflush]; rfl), pending, hidle, ← hsame, hprogram]
    rfl
  | refuseFlush hprogram hflush =>
    refine ⟨.inl hidle, calls, hplay, ?_⟩
    obtain ⟨call?, hafter, rfl⟩ := Program.play_singleton_iff.mp hplay
    simp only [hprogram, Program.after, Option.some.injEq, Prod.mk.injEq] at hafter
    rw [hpending (by rw [hflush]; rfl), hpending' rfl, ← hafter.1]
    rfl
  | settle hprogram hflush =>
    refine ⟨.inl hidle, calls, hplay, ?_⟩
    obtain ⟨call?, hafter, rfl⟩ := Program.play_singleton_iff.mp hplay
    simp only [hprogram, Program.after, Option.some.injEq, Prod.mk.injEq] at hafter
    rw [pending, hflush, hprogram, hpending' rfl, ← hafter.1]
    rfl
  | @reply r houtside =>
    obtain ⟨call?, hafter, rfl⟩ := Program.play_singleton_iff.mp hplay
    obtain ⟨hnone, hne⟩ := Program.call_of_isFromOutside hafter houtside
    have hidle₀ := hother hne
    refine ⟨.inl (hidle.trans hidle₀), _, hplay, ?_⟩
    rw [hpending hidle₀, hpending' hidle₀, hnone]
    rfl
  | @work a hown =>
    obtain ⟨rfl, hsame⟩ := Prod.mk.inj (Option.some.inj hplay)
    have hcall : a.call? = none := by
      cases a <;> first | rfl | cases hown
    refine ⟨?_, [], hplay, ?_⟩
    · rw [IsInOrder, hidle, ← hsame]
      exact ho
    · rw [pending, pending, hidle, ← hsame]
      simp [hcall]

/-- Every run plays the program with the replies that came along it. -/
theorem play_of_run (h : Runs p₀ journal p) (hidle : p₀.flush.isIdle = true) :
    p.IsInOrder ∧ ∃ calls', p₀.program.play (replies journal) = some (calls', p.program) ∧
      calls journal = calls' ++ p.pending := by
  induction h with
  | start => exact ⟨.inl hidle, [], rfl, (if_pos hidle).symm⟩
  | @move journal p p' m events _ hstep ih =>
    obtain ⟨ho, calls', hplay, hcalls⟩ := ih
    obtain ⟨ho', called, hnext, hcalled⟩ := play_of_step hstep ho
    refine ⟨ho', calls' ++ called, ?_, ?_⟩
    · rw [replies_snoc]
      exact Program.play_append hplay hnext
    · rw [calls_snoc, hcalls, List.append_assoc, hcalled, List.append_assoc]

/-- When the program has ended, its calls are what the connection was asked for. -/
theorem play_of_done {a : α} (h : Runs p₀ journal p) (hidle : p₀.flush.isIdle = true)
    (hdone : p.program = .done a) :
    p₀.program.play (replies journal) = some (calls journal, .done a) := by
  obtain ⟨ho, calls', hplay, hcalls⟩ := play_of_run h hidle
  have hidle' : p.flush.isIdle = true := by
    refine ho.resolve_right ?_
    intro ⟨contents, next, hflush⟩
    rw [hdone] at hflush
    cases hflush
  have hpending : p.pending = [] := if_pos hidle'
  rw [hcalls, hpending, List.append_nil, hplay, hdone]

end Caller

end MessageBus
