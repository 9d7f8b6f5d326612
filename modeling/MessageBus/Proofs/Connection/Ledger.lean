import MessageBus.Proofs.Connection.Moves

/-! # What is on the wire

    A message waits in the outbound queue, is made into bodies when it is taken
    from there, and is written body by body.  The link may fail between any two
    bodies, and the message then goes on over the next link.

    The ledger of a run compares what was written over all links with what was
    taken from the queue.  Its invariant says that the wire holds the complete
    bodies of the messages that are done, in the order of the queue, and then
    the bodies of the message on its way that were already written.

    * `ledger_moves`: every move of a running connection keeps the ledger.
    * `written_eq_finished_append_sent`: the ledger along every run. -/

namespace MessageBus.Connection

/-! ## Reading a trace -/

/-- A message at the moment it is taken from the queue, with everything that
    its bodies depend on. -/
structure Dequeue where
  message : Outgoing
  keys : KeySet
  occasion : Occasion

/-- What the one preparation of the message yields; `none` when it is refused. -/
def Dequeue.bodies? (codec : Codec) (d : Dequeue) : Option (List String) :=
  (codec.prepare d.occasion d.message.contents d.keys).toOption

/-- The message that a move takes from the queue. -/
def dequeue? (st : Stage Connection (Nat × Action) Event) : Option Dequeue :=
  match st.move.2, st.before.outbound with
  | .prepare occasion, o :: _ => some ⟨o, st.before.keys, occasion⟩
  | _, _ => none

/-- The message that a move puts into the queue. -/
def queue? (st : Stage Connection (Nat × Action) Event) : Option Outgoing :=
  match st.move.2 with
  | .queue o => some o
  | _ => none

/-- The bodies of the message that a move is done with. -/
def finish? (st : Stage Connection (Nat × Action) Event) : Option (List String) :=
  match st.move.2 with
  | .finish => st.before.inFlight.map (·.bodies)
  | _ => none

/-- The body that an event puts on the wire. -/
def Event.written? : Event → Option String
  | .wrote body => some body
  | _ => none

/-- The message that an event drops because it could not be prepared. -/
def Event.rejected? : Event → Option Outgoing
  | .rejected o => some o
  | _ => none

/-- The messages that callers queued. -/
def queued (trace : Trace) : List Outgoing := trace.filterMap queue?

/-- The messages that were taken from the queue. -/
def dequeued (trace : Trace) : List Dequeue := trace.filterMap dequeue?

/-- The body lists of the messages that could be prepared. -/
def accepted (codec : Codec) (trace : Trace) : List (List String) :=
  (dequeued trace).filterMap (·.bodies? codec)

/-- The complete body lists of the messages that are done. -/
def finished (trace : Trace) : List (List String) := trace.filterMap finish?

/-- The bodies on the wire, over all links. -/
def written (trace : Trace) : List String := (eventsOf trace).filterMap Event.written?

/-- The messages that were dropped because they could not be prepared. -/
def rejected (trace : Trace) : List Outgoing := (eventsOf trace).filterMap Event.rejected?

section snoc
variable (trace : Trace) (st : Stage Connection (Nat × Action) Event)

@[simp] theorem queued_snoc : queued (trace ++ [st]) = queued trace ++ (queue? st).toList := by
  cases h : queue? st <;> simp [queued, h]

@[simp] theorem dequeued_snoc :
    dequeued (trace ++ [st]) = dequeued trace ++ (dequeue? st).toList := by
  cases h : dequeue? st <;> simp [dequeued, h]

@[simp] theorem finished_snoc :
    finished (trace ++ [st]) = finished trace ++ (finish? st).toList := by
  cases h : finish? st <;> simp [finished, h]

@[simp] theorem accepted_snoc (codec : Codec) :
    accepted codec (trace ++ [st]) =
      accepted codec trace ++ ((dequeue? st).bind (·.bodies? codec)).toList := by
  unfold accepted
  rw [dequeued_snoc, List.filterMap_append]
  cases h : dequeue? st with
  | none => rfl
  | some d => cases hb : d.bodies? codec <;> simp [hb]

@[simp] theorem written_snoc :
    written (trace ++ [st]) = written trace ++ st.events.filterMap Event.written? := by
  simp [written]

@[simp] theorem rejected_snoc :
    rejected (trace ++ [st]) = rejected trace ++ st.events.filterMap Event.rejected? := by
  simp [rejected]

end snoc

/-! ## The invariant -/

/-- The ledger of a trace: `flight` is the message on its way, and `waiting`
    are the messages in the queue. -/
structure Ledger (codec : Codec) (trace : Trace) (flight : Option InFlight)
    (waiting : List Outgoing) : Prop where
  queue : queued trace = (dequeued trace).map (·.message) ++ waiting
  accepts : accepted codec trace = finished trace ++ flight.toList.map (·.bodies)
  rejects : rejected trace =
    ((dequeued trace).filter fun d => (d.bodies? codec).isNone).map (·.message)
  wire : written trace =
    (finished trace).flatten ++ flight.toList.flatMap fun f => f.bodies.take f.sent

variable {codec : Codec} {trace : Trace} {flight : Option InFlight} {waiting : List Outgoing}

theorem ledger_nil : Ledger codec [] none [] := ⟨rfl, rfl, rfl, rfl⟩

/-- A move that touches neither the queue nor the wire keeps the ledger. -/
theorem Ledger.idle (h : Ledger codec trace flight waiting)
    {st : Stage Connection (Nat × Action) Event} (hq : queue? st = none) (hd : dequeue? st = none)
    (hf : finish? st = none) (hw : st.events.filterMap Event.written? = [])
    (hr : st.events.filterMap Event.rejected? = []) :
    Ledger codec (trace ++ [st]) flight waiting where
  queue := by simpa [hq, hd] using h.queue
  accepts := by simpa [hd, hf] using h.accepts
  rejects := by simpa [hd, hr] using h.rejects
  wire := by simpa [hf, hw] using h.wire

/-- A move of a connection that is not shut down by it keeps the ledger of the
    message on its way and of the queue. -/
theorem ledger_moves {now : Nat} {c c' : Connection} {a : Action} {events : List Event}
    (hc : c.codec = codec) (h : Ledger codec trace c.inFlight c.outbound)
    (hm : Moves now c a c' events) (ha : a ≠ .cancel) :
    Ledger codec (trace ++ [⟨c, (now, a), events⟩]) c'.inFlight c'.outbound := by
  cases hm with
  | queued =>
    refine ⟨?_, by simpa [dequeue?, finish?] using h.accepts, by simpa [dequeue?] using h.rejects,
      by simpa [finish?] using h.wire⟩
    simp [queue?, dequeue?, h.queue]
  | @prepared since handing o rest occasion bodies hphase hflight hout hok =>
    -- nothing was on its way, so the new message starts after complete ones only
    have hd : dequeue? ⟨c, (now, .prepare occasion), [.prepared o bodies]⟩
        = some ⟨o, c.keys, occasion⟩ := by
      simp only [dequeue?, hout]
    have hb : Dequeue.bodies? codec ⟨o, c.keys, occasion⟩ = some bodies := by
      simp only [Dequeue.bodies?, ← hc, hok]
      rfl
    refine ⟨?_, ?_, ?_, ?_⟩
    · simpa [queue?, hd, hout] using h.queue
    · simpa [finish?, hd, hb, hflight] using h.accepts
    · simpa [hd, hb, List.filterMap_cons, Event.rejected?] using h.rejects
    · simpa [finish?, hflight, List.filterMap_cons, Event.written?] using h.wire
  | @rejected since handing o rest occasion err hphase hflight hout herr =>
    have hd : dequeue? ⟨c, (now, .prepare occasion), [.rejected o, .abandoned o.ticket]⟩
        = some ⟨o, c.keys, occasion⟩ := by
      simp only [dequeue?, hout]
    have hb : Dequeue.bodies? codec ⟨o, c.keys, occasion⟩ = none := by
      simp only [Dequeue.bodies?, ← hc, herr]
      rfl
    refine ⟨?_, ?_, ?_, ?_⟩
    · simpa [queue?, hd, hout] using h.queue
    · simpa [finish?, hd, hb, hflight] using h.accepts
    · simp [hd, hb, List.filterMap_cons, Event.rejected?, h.rejects]
    · simpa [finish?, hflight, List.filterMap_cons, Event.written?] using h.wire
  | wrote hphase hflight hbody =>
    have hwire := h.wire
    rw [hflight] at hwire
    refine ⟨by simpa [queue?, dequeue?] using h.queue,
      by simpa [dequeue?, finish?, hflight] using h.accepts,
      by simpa [dequeue?, List.filterMap_cons, Event.rejected?] using h.rejects, ?_⟩
    simp [finish?, Event.written?, hwire, List.take_add_one, hbody]
  | finished hphase hflight hsent =>
    have hwire := h.wire
    rw [hflight] at hwire
    refine ⟨by simpa [queue?, dequeue?] using h.queue,
      by simpa [dequeue?, finish?, hflight] using h.accepts,
      by simpa [dequeue?, List.filterMap_cons, Event.rejected?] using h.rejects, ?_⟩
    -- every body is written, so the part of the message on the wire is all of it
    simp [finish?, List.filterMap_cons, Event.written?, hflight, hwire,
      List.take_of_length_le hsent]
  | cancelled => exact absurd rfl ha
  | rekeyed => exact h.idle rfl rfl rfl rfl rfl
  | took => exact h.idle rfl rfl rfl rfl rfl
  | writeFailed => exact h.idle rfl rfl rfl rfl rfl
  | arrived => exact h.idle rfl rfl rfl rfl rfl
  | delivered => exact h.idle rfl rfl rfl rfl rfl
  | lost => exact h.idle rfl rfl rfl rfl rfl
  | resumed => exact h.idle rfl rfl rfl rfl rfl
  | opened => exact h.idle rfl rfl rfl rfl rfl
  | refused => exact h.idle rfl rfl rfl rfl rfl
  | announced => exact h.idle rfl rfl rfl rfl rfl

/-- The codec of a connection never changes. -/
theorem codec_eq {c₀ c : Connection} (h : Runs c₀ trace c) : c.codec = c₀.codec := by
  refine Run.invariant (P := fun c => c.codec = c₀.codec) h (fun c m c' events hc hstep => ?_) rfl
  obtain ⟨now, a⟩ := m
  cases moves_of_step hstep <;> exact hc

/-- After it was shut down a connection only hands out what it received. -/
theorem isStopped_moves {now : Nat} {c c' : Connection} {a : Action} {events : List Event}
    (hs : c.isStopped = true) (hm : Moves now c a c' events) :
    c'.isStopped = true ∧ ((∃ keys, a = .setKeys keys) ∨ a = .take) := by
  cases hm with
  | rekeyed => exact ⟨hs, .inl ⟨_, rfl⟩⟩
  | took => exact ⟨hs, .inr rfl⟩
  | queued hrun | cancelled hrun => rw [hs] at hrun; cases hrun
  | prepared hphase | rejected hphase | wrote hphase | writeFailed hphase | finished hphase
  | arrived hphase | delivered hphase | lost hphase | resumed hphase | opened hphase
  | refused hphase | announced hphase => simp [isStopped, hphase] at hs

/-- Every run has a ledger.  Up to the shutdown its message on its way and its
    queue are those of the connection; afterwards they are what was left. -/
theorem exists_ledger {c : Connection} {capacity delay now : Nat} {keys : KeySet}
    (h : Runs (start codec capacity delay keys now) trace c) :
    ∃ flight waiting, (c.isStopped = false → flight = c.inFlight ∧ waiting = c.outbound) ∧
      Ledger codec trace flight waiting := by
  induction h with
  | start => exact ⟨none, [], fun _ => ⟨rfl, rfl⟩, ledger_nil⟩
  | @move trace c c' m events hrun hstep ih =>
    obtain ⟨now, a⟩ := m
    obtain ⟨flight, waiting, hlive, hledger⟩ := ih
    have hm : Moves now c a c' events := moves_of_step hstep
    cases hs : c.isStopped with
    | false =>
      obtain ⟨rfl, rfl⟩ := hlive hs
      by_cases ha : a = .cancel
      · subst ha
        cases hm with
        | cancelled =>
          -- the shutdown drops what waits, so the ledger keeps it from here on
          refine ⟨c.inFlight, c.outbound, fun hs' => by simp [isStopped] at hs', ?_⟩
          exact hledger.idle rfl rfl rfl (filterMap_abandoned (fun _ => rfl) _)
            (filterMap_abandoned (fun _ => rfl) _)
      · exact ⟨_, _, fun _ => ⟨rfl, rfl⟩, ledger_moves (codec_eq hrun) hledger hm ha⟩
    | true =>
      obtain ⟨hs', ha⟩ := isStopped_moves hs hm
      refine ⟨flight, waiting, fun hrunning => absurd hrunning (by simp [hs']), ?_⟩
      obtain ⟨keys, rfl⟩ | rfl := ha
      · cases hm
        exact hledger.idle rfl rfl rfl rfl rfl
      · cases hm
        exact hledger.idle rfl rfl rfl rfl rfl

/-! ## Main theorem -/

/-- Over all links and reconnects, the wire holds the complete bodies of the
    messages that are done, in the order of the queue, and after them the first
    bodies of the message on its way.

    Every queued message is taken from the queue at most once and in order;
    its bodies are those of one preparation, under the keys of that moment; and
    a message that cannot be prepared leaves no mark on the others. -/
theorem written_eq_finished_append_sent {c : Connection} {capacity delay now : Nat}
    {keys : KeySet} (h : Runs (start codec capacity delay keys now) trace c) :
    ∃ (flight : Option InFlight) (waiting : List Outgoing),
      (c.isStopped = false → flight = c.inFlight ∧ waiting = c.outbound) ∧
      written trace =
        (finished trace).flatten ++ flight.toList.flatMap (fun f => f.bodies.take f.sent) ∧
      accepted codec trace = finished trace ++ flight.toList.map (·.bodies) ∧
      queued trace = (dequeued trace).map (·.message) ++ waiting ∧
      rejected trace =
        ((dequeued trace).filter fun d => (d.bodies? codec).isNone).map (·.message) := by
  obtain ⟨flight, waiting, hlive, hledger⟩ := exists_ledger h
  exact ⟨flight, waiting, hlive, hledger.wire, hledger.accepts, hledger.queue, hledger.rejects⟩

/-- Of a message with two bodies the first is written, the link fails at the
    second, and the message goes on over the next link. -/
theorem written_across_reconnect :
    ∃ (trace : Trace) (c : Connection),
      trace.map (fun st => st.move.2) =
        [.queue ⟨[], none⟩, .prepare ⟨default, []⟩, .write true, .write false, .opened true,
          .announce, .write true] ∧
      Runs (start ⟨"a", ⟨none, none⟩⟩ 1 0 ⟨["0123456789abcdef", "fedcba9876543210"]⟩ 0) trace c ∧
      ∃ (flight : Option InFlight) (waiting : List Outgoing),
        (c.isStopped = false → flight = c.inFlight ∧ waiting = c.outbound) ∧
        written trace =
          (finished trace).flatten ++ flight.toList.flatMap (fun f => f.bodies.take f.sent) ∧
        accepted ⟨"a", ⟨none, none⟩⟩ trace = finished trace ++ flight.toList.map (·.bodies) ∧
        queued trace = (dequeued trace).map (·.message) ++ waiting ∧
        rejected trace = ((dequeued trace).filter fun d =>
          (d.bodies? ⟨"a", ⟨none, none⟩⟩).isNone).map (·.message) := by
  have hstart : Runs (start ⟨"a", ⟨none, none⟩⟩ 1 0
      ⟨["0123456789abcdef", "fedcba9876543210"]⟩ 0) [] _ := .start
  have hprepared := (hstart.move (m := (0, .queue ⟨[], none⟩)) rfl).move
    (m := (0, .prepare ⟨default, []⟩)) rfl
  have hfailed := (hprepared.move (m := (1, .write true)) rfl).move (m := (1, .write false)) rfl
  have hreopened := (hfailed.move (m := (1, .opened true)) rfl).move (m := (1, .announce)) rfl
  have hresumed := hreopened.move (m := (1, .write true)) rfl
  exact ⟨_, _, rfl, hresumed, written_eq_finished_append_sent hresumed⟩

end MessageBus.Connection
