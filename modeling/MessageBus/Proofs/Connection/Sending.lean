import MessageBus.Proofs.Connection.Caller
import MessageBus.Proofs.Connection.Ledger

/-! # What becomes of the messages of a caller

    A caller puts its messages into a queue, and its connection takes them from
    there later, in the same order.  A message is made into bodies when it is
    taken, under the keys of that moment, and the caller may have replaced the
    keys by then.

    * `exists_queued`: what is taken from the queue was put there before, and
      the queue keeps its order.
    * `exists_dequeue_of_written`: every body on the wire comes from a message
      that was taken from the queue.
    * `keys_of_play`: the keys are those that the program last set.
    * `keys_since_queue`: the keys are those under which a message was sent
      unless the caller has set others since. -/

namespace MessageBus

namespace Connection

variable {codec : Codec} {capacity delay began : Nat} {keys : KeySet} {c : Connection}
  {trace before after : Trace} {st : Stage Connection (Nat × Action) Event} {d : Dequeue}

/-- The message that a move takes from the queue is the next one that was queued, after those
that were taken before. -/
theorem queued_of_dequeue (h : Runs (start codec capacity delay keys began) trace c)
    (hsplit : trace = before ++ st :: after) (hd : dequeue? st = some d) :
    ∃ waiting, queued before = (dequeued before).map (·.message) ++ d.message :: waiting := by
  obtain ⟨hrun, c', hstep⟩ := h.split hsplit
  obtain ⟨flight, waiting, hlive, hledger⟩ := exists_ledger hrun
  obtain ⟨c₁, ⟨now, a⟩, events⟩ := st
  have hmoves : Moves now c₁ a c' events := moves_of_step hstep
  cases hmoves with
  | @prepared _ _ o rest _ _ hphase _ hout | @rejected _ _ o rest _ _ hphase _ hout =>
    simp only [dequeue?, hout, Option.some.injEq] at hd
    obtain ⟨-, rfl⟩ := hlive (by simp [isStopped, hphase])
    exact ⟨rest, by rw [hledger.queue, hout, ← hd]⟩
  | _ => cases hd

end Connection

namespace Caller

variable {α : Type} {p p' p₀ : Caller α} {m : Nat × Move} {events : List Connection.Event}
  {journal before after front between : Journal α}
  {st sending : Stage (Caller α) (Nat × Move) Connection.Event}

/-! ## The queue and the wire -/

/-- The message that a stage puts into the queue. -/
def queue? (st : Stage (Caller α) (Nat × Move) Connection.Event) : Option Outgoing :=
  (act? st).bind Connection.queue?

/-- The message that is taken from the queue at a stage. -/
def dequeue? (st : Stage (Caller α) (Nat × Move) Connection.Event) : Option Connection.Dequeue :=
  (act? st).bind Connection.dequeue?

/-- The messages that were put into the queue. -/
def queued (journal : Journal α) : List Outgoing := journal.filterMap queue?

/-- The messages that were taken from the queue. -/
def dequeued (journal : Journal α) : List Connection.Dequeue := journal.filterMap dequeue?

/-- The bodies on the wire, over all links. -/
def written (journal : Journal α) : List String :=
  (eventsOf journal).filterMap Connection.Event.written?

theorem queued_link (journal : Journal α) :
    Connection.queued (link journal) = queued journal := by
  rw [Connection.queued, link, List.filterMap_filterMap]
  rfl

theorem dequeued_link (journal : Journal α) :
    Connection.dequeued (link journal) = dequeued journal := by
  rw [Connection.dequeued, link, List.filterMap_filterMap]
  rfl

/-- Nothing is written but by the connection. -/
theorem written_link (h : Runs p₀ journal p) :
    Connection.written (link journal) = written journal := by
  induction h with
  | start => rfl
  | @move journal p p' m events _ hstep ih =>
    rcases act_of_step hstep with ⟨hact, -, rfl⟩ | ⟨a, hact, -⟩ <;> simp [written, hact, ih]

section queue
variable {codec : Codec} {capacity delay began : Nat} {keys : KeySet} {program : Program α}
  {d : Connection.Dequeue}

/-- What is taken from the queue was put there at an earlier stage: as many messages were put
there before it as were taken before it. -/
theorem exists_queued
    (h : Runs (start (.start codec capacity delay keys began) program) (before ++ st :: after) p)
    (hd : dequeue? st = some d) :
    ∃ front sending between, before = front ++ sending :: between ∧
      queue? sending = some d.message ∧
      (queued front).length = (dequeued before).length := by
  obtain ⟨stage, hact, hstage⟩ := Option.bind_eq_some_iff.mp hd
  have hlink : link (before ++ st :: after) = link before ++ stage :: link after := by
    simp [link, hact]
  obtain ⟨waiting, hwaiting⟩ := Connection.queued_of_dequeue (runs_link h) hlink hstage
  rw [queued_link, dequeued_link] at hwaiting
  -- The queue keeps its order, so the message was the next one after those taken before.
  obtain ⟨front, back, rfl, hfront, hback⟩ := List.filterMap_eq_append_iff.mp hwaiting
  obtain ⟨idle, sending, between, rfl, hidle, hsending, -⟩ := List.filterMap_eq_cons_iff.mp hback
  refine ⟨front ++ idle, sending, between, by simp, hsending, ?_⟩
  have hnone : queued idle = [] := List.filterMap_eq_nil_iff.mpr hidle
  rw [queued, List.filterMap_append, hfront, ← queued, hnone, List.append_nil, List.length_map]

/-- Every body on the wire is one of those that a message became when it was taken from the
queue. -/
theorem exists_dequeue_of_written
    (h : Runs (start (.start codec capacity delay keys began) program) journal p) {body : String}
    (hbody : body ∈ written journal) :
    ∃ before taking after d bodies, journal = before ++ taking :: after ∧
      dequeue? taking = some d ∧
      codec.prepare d.occasion d.message.contents d.keys = .ok bodies ∧ body ∈ bodies := by
  obtain ⟨flight, waiting, -, hledger⟩ := Connection.exists_ledger (runs_link h)
  -- What is on the wire is finished, or part of the message that is being written.
  have hmem : ∃ bodies ∈ Connection.accepted codec (link journal), body ∈ bodies := by
    rw [← written_link h, hledger.wire] at hbody
    rw [hledger.accepts]
    rcases List.mem_append.mp hbody with hdone | hflight
    · obtain ⟨bodies, hbodies, hbody⟩ := List.mem_flatten.mp hdone
      exact ⟨bodies, List.mem_append_left _ hbodies, hbody⟩
    · obtain ⟨f, hf, hbody⟩ := List.mem_flatMap.mp hflight
      exact ⟨f.bodies, List.mem_append_right _ (List.mem_map_of_mem hf), List.mem_of_mem_take hbody⟩
  obtain ⟨bodies, haccepted, hbody⟩ := hmem
  obtain ⟨d, hd, hbodies⟩ := List.mem_filterMap.mp haccepted
  rw [dequeued_link] at hd
  obtain ⟨taking, htaking, hdequeue⟩ := List.mem_filterMap.mp hd
  obtain ⟨before, after, hsplit⟩ := List.append_of_mem htaking
  refine ⟨before, taking, after, d, bodies, hsplit, hdequeue, ?_, hbody⟩
  rw [Connection.Dequeue.bodies?] at hbodies
  cases hprepare : codec.prepare d.occasion d.message.contents d.keys with
  | ok bodies' =>
    rw [hprepare] at hbodies
    rw [Option.some.inj hbodies]
  | error e =>
    rw [hprepare] at hbodies
    cases hbodies

end queue

/-! ## What the program requests -/

/-- The keys that a stage sets. -/
def keysSet? (st : Stage (Caller α) (Nat × Move) Connection.Event) : Option KeySet :=
  ((act? st).bind (·.move.2.call?)).bind Call.keys?

theorem turns_of_act {stage : Stage Connection (Nat × Connection.Action) Connection.Event}
    (h : act? st = some stage) :
    ∃ turn, Turns st.before st.move.2 turn ∧ turn.action? = some stage.move.2 := by
  obtain ⟨a, haction, rfl⟩ := Option.map_eq_some_iff.mp h
  obtain ⟨turn, hturn, haction⟩ := Option.bind_eq_some_iff.mp haction
  exact ⟨turn, turns_of_turn hturn, haction⟩

/-- What is put into the queue is what the program requests to send, or to see written. -/
theorem program_of_queue {o : Outgoing} (h : queue? st = some o) :
    ∃ next, st.before.program = .queue o.contents next ∨
      st.before.program = .flush o.contents next := by
  obtain ⟨stage, hact, hqueue⟩ := Option.bind_eq_some_iff.mp h
  obtain ⟨turn, hturns, haction⟩ := turns_of_act hact
  obtain ⟨c, ⟨now, a⟩, events⟩ := stage
  cases a with
  | queue o' =>
    obtain rfl : o' = o := Option.some.inj hqueue
    generalize st.move.2 = move at hturns
    cases hturns with
    | send hprogram =>
      cases haction
      exact ⟨_, .inl hprogram⟩
    | post hprogram =>
      cases haction
      exact ⟨_, .inr hprogram⟩
    | work hown =>
      cases haction
      cases hown
    | _ => cases haction
  | _ => cases hqueue

theorem setKeys_of_keysSet {keys : KeySet} (h : keysSet? st = some keys) :
    ∃ stage, act? st = some stage ∧ stage.move.2 = .setKeys keys := by
  obtain ⟨call, hcall, hkeys⟩ := Option.bind_eq_some_iff.mp h
  obtain ⟨stage, hact, hcall⟩ := Option.bind_eq_some_iff.mp hcall
  refine ⟨stage, hact, ?_⟩
  generalize stage.move.2 = a at hcall ⊢
  cases a with
  | setKeys keys' =>
    cases hcall
    cases hkeys
    rfl
  | queue o =>
    obtain ⟨contents, ticket?⟩ := o
    cases ticket? <;> cases hcall <;> cases hkeys
  | _ => cases hcall

/-- The keys are set that the program requests to set. -/
theorem program_of_keysSet {keys : KeySet} (h : keysSet? st = some keys) :
    ∃ next, st.before.program = .setKeys keys next := by
  obtain ⟨stage, hact, hset⟩ := setKeys_of_keysSet h
  obtain ⟨turn, hturns, haction⟩ := turns_of_act hact
  rw [hset] at haction
  generalize st.move.2 = move at hturns
  cases hturns with
  | rekey hprogram =>
    cases haction
    exact ⟨_, hprogram⟩
  | work hown =>
    cases haction
    cases hown
  | _ => cases haction

theorem queue_eq_none_of_keysSet {keys : KeySet} (h : keysSet? st = some keys) :
    queue? st = none := by
  obtain ⟨⟨c, ⟨now, a⟩, events⟩, hact, hset⟩ := setKeys_of_keysSet h
  obtain rfl : a = .setKeys keys := hset
  rw [queue?, hact]
  rfl

/-! ## The keys in force -/

/-- A message is made into bodies under the keys of the connection. -/
theorem keys_of_dequeue {d : Connection.Dequeue} (h : dequeue? st = some d) :
    d.keys = st.before.connection.keys := by
  obtain ⟨stage, hact, hstage⟩ := Option.bind_eq_some_iff.mp h
  obtain ⟨a, -, rfl⟩ := Option.map_eq_some_iff.mp hact
  simp only [Connection.dequeue?] at hstage
  split at hstage
  · cases hstage
    rfl
  · cases hstage

/-- Every run plays the program, and the connection has the keys that the program last set. -/
theorem keys_of_play (h : Runs p₀ journal p) (hidle : p₀.flush.isIdle = true) :
    ∃ called, p₀.program.play (replies journal) = some (called, p.program) ∧
      p.connection.keys =
        ((called.filterMap Call.keys?).getLast?).getD p₀.connection.keys := by
  obtain ⟨-, called, hplay, hcalls⟩ := play_of_run h hidle
  refine ⟨called, hplay, ?_⟩
  -- a message that is yet to be written sets no keys
  have hpending : p.pending.filterMap Call.keys? = [] := by
    unfold pending
    split
    · rfl
    · split <;> rfl
  rw [keys_eq h, hcalls, List.filterMap_append, hpending, List.append_nil]

/-- The keys are those of an earlier moment unless the program has set others since. -/
theorem keys_in_force (h : Runs p₀ journal p) :
    p.connection.keys = p₀.connection.keys ∨
      ∃ st ∈ journal, keysSet? st = some p.connection.keys := by
  have hset : (calls journal).filterMap Call.keys? = journal.filterMap keysSet? := by
    simp only [calls, link, List.filterMap_filterMap]
    rfl
  have hkeys := keys_eq h
  rw [hset] at hkeys
  cases hlast : (journal.filterMap keysSet?).getLast? with
  | none =>
    rw [hlast] at hkeys
    exact .inl hkeys
  | some keys =>
    rw [hlast, Option.getD_some] at hkeys
    obtain ⟨st, hst, hset⟩ := List.mem_filterMap.mp (List.mem_of_getLast? hlast)
    exact .inr ⟨st, hst, by rw [hkeys, hset]⟩

/-- The keys are still those under which a message was sent, unless they were set since. -/
theorem keys_since_queue {o : Outgoing} (h : Runs p₀ (front ++ sending :: between) p)
    (hqueue : queue? sending = some o) :
    p.connection.keys = sending.before.connection.keys ∨
      ∃ st ∈ between, keysSet? st = some p.connection.keys := by
  obtain ⟨p₁, -, hrun⟩ := h.of_append
  obtain rfl : sending.before = p₁ := Run.of_nil (hrun.split (List.nil_append _).symm).1
  -- A stage that sends sets no keys, so whatever changed the keys came later.
  rcases keys_in_force hrun with heq | ⟨st, hst, hset⟩
  · exact .inl heq
  · rcases List.mem_cons.mp hst with rfl | hst
    · rw [queue_eq_none_of_keysSet hset] at hqueue
      cases hqueue
    · exact .inr ⟨st, hst, hset⟩

end Caller

end MessageBus
