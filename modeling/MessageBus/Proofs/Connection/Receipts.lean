import MessageBus.Proofs.Connection.Progress

/-! # What becomes of a message

    Who queues a message with a ticket learns what became of it: that it is
    written, or that it will not be.  The receipts of a run are what was learned
    of the tickets, in the order in which it was.  That is the order of the queue:
    the messages for which there is a receipt come first, after them the one on
    its way, and then those that wait.

    A message is written completely before the next one is taken from the queue,
    over however many links.  So with the receipt that a message is written
    everything is on the wire that was queued before it, too.

    * `tickets_eq`: every ticket has one receipt at most, in the order of the queue.
    * `onWire_of_receipt`: what a receipt means.
    * `receipt_of_rejected`: the receipt of a message that cannot be prepared.
    * `exists_drained`: nothing keeps what is queued from being dealt with. -/

namespace MessageBus.Connection

/-! ## Receipts -/

/-- What is learned of a ticket. -/
abbrev Receipt := Option Nat × BusResult Unit

/-- What an event tells about the ticket of a message. -/
def Event.receipt? : Event → Option Receipt
  | .completed ticket => some (ticket, .ok ())
  | .abandoned ticket => some (ticket, .error .closed)
  | _ => none

/-- What was learned of the tickets. -/
def receipts (trace : Trace) : List Receipt := (eventsOf trace).filterMap Event.receipt?

variable {codec : Codec} {trace trace' : Trace} {c c' : Connection} {capacity delay now : Nat}
  {keys : KeySet}

@[simp] theorem receipts_snoc (trace : Trace) (st : Stage Connection (Nat × Action) Event) :
    receipts (trace ++ [st]) = receipts trace ++ st.events.filterMap Event.receipt? := by
  simp [receipts]

/-- The tickets of the messages that are not dealt with: of the one on its way,
    and of those in the queue. -/
def openTickets (c : Connection) : List (Option Nat) :=
  c.inFlight.toList.map (·.ticket) ++ c.outbound.map (·.ticket)

/-- A shutdown leaves a receipt for every ticket that is open. -/
theorem receipts_abandoned (tickets : List (Option Nat)) :
    (tickets.map Event.abandoned).filterMap Event.receipt?
      = tickets.map fun ticket => (ticket, .error .closed) := by
  simp [List.filterMap_map, Function.comp_def, Event.receipt?]

/-- A ticket comes in at the end of those that are open, and the receipts are for the first of
them. -/
theorem openTickets_step {m : Nat × Action} {events : List Event}
    (h : timedStep c m = some (c', events)) :
    c.openTickets ++ (queue? ⟨c, m, events⟩).toList.map (·.ticket) =
      (events.filterMap Event.receipt?).map Prod.fst ++ c'.openTickets := by
  obtain ⟨now, a⟩ := m
  cases moves_of_step h with
  | queued => simp [queue?, openTickets]
  | prepared _ hflight hout | rejected _ hflight hout =>
    simp [queue?, List.filterMap_cons, Event.receipt?, openTickets, hflight, hout]
  | wrote _ hflight | finished _ hflight =>
    simp [queue?, List.filterMap_cons, Event.receipt?, openTickets, hflight]
  | cancelled =>
    rw [receipts_abandoned]
    simp [queue?, openTickets, Function.comp_def]
  | _ => simp [queue?, List.filterMap_cons, Event.receipt?, openTickets]

/-- Every ticket has one receipt at most, and they come in the order in which the
    messages were queued. -/
theorem tickets_eq (h : Runs (start codec capacity delay keys now) trace c) :
    (queued trace).map (·.ticket) = (receipts trace).map Prod.fst ++ c.openTickets := by
  induction h with
  | start => rfl
  | move _ hstep ih =>
    rw [queued_snoc, receipts_snoc, List.map_append, List.map_append, ih, List.append_assoc,
      List.append_assoc, openTickets_step hstep]

/-! ## The receipt that a message is written -/

/-- The message on its way is the last one that was taken from the queue. -/
theorem last_dequeued (h : Runs (start codec capacity delay keys now) trace c) {f : InFlight}
    (hflight : c.inFlight = some f) :
    ∃ earlier d, dequeued trace = earlier ++ [d] ∧ d.message.ticket = f.ticket ∧
      d.bodies? codec = some f.bodies := by
  induction h generalizing f with
  | start => cases hflight
  | @move trace c c' m events hrun hstep ih =>
    obtain ⟨now, a⟩ := m
    have hcodec : c.codec = codec := codec_eq hrun
    rw [dequeued_snoc]
    cases moves_of_step hstep with
    | @prepared since handing o rest occasion bodies hphase hnone hout hok =>
      cases hflight
      have hd : dequeue? ⟨c, (now, .prepare occasion), [.prepared o bodies]⟩
          = some ⟨o, c.keys, occasion⟩ := by
        simp only [dequeue?, hout]
      refine ⟨dequeued trace, ⟨o, c.keys, occasion⟩, by rw [hd]; rfl, rfl, ?_⟩
      simp only [Dequeue.bodies?, ← hcodec, hok]
      rfl
    | rejected _ hnone =>
      -- nothing is taken from the queue while a message is on its way
      have hsome : c.inFlight = some f := hflight
      rw [hnone] at hsome
      cases hsome
    | wrote _ hbefore =>
      cases hflight
      simpa [dequeue?] using ih hbefore
    | finished => cases hflight
    | cancelled => cases hflight
    | queued | rekeyed | took | writeFailed | arrived | delivered | lost | resumed | opened
    | refused | announced => simpa [dequeue?] using ih hflight

/-- A message is on the wire, and so is everything that was queued before it and
    could be prepared. -/
def OnWire (codec : Codec) (trace : Trace) (message : Outgoing) : Prop :=
  ∃ (earlier : List Dequeue) (d : Dequeue) (waiting : List Outgoing),
    d.message = message ∧ earlier ++ [d] <+: dequeued trace ∧
    queued trace = earlier.map (·.message) ++ message :: waiting ∧
    (d.bodies? codec).isSome = true ∧
    ((earlier ++ [d]).filterMap (·.bodies? codec)).flatten <+: written trace

/-- What is on the wire stays there. -/
theorem OnWire.snoc {message : Outgoing} (h : OnWire codec trace message)
    (st : Stage Connection (Nat × Action) Event) : OnWire codec (trace ++ [st]) message := by
  obtain ⟨earlier, d, waiting, hmessage, hdequeued, hqueued, hbodies, hwritten⟩ := h
  refine ⟨earlier, d, waiting ++ (queue? st).toList, hmessage, ?_, ?_, hbodies, ?_⟩
  · rw [dequeued_snoc]
    exact hdequeued.trans (List.prefix_append ..)
  · rw [queued_snoc, hqueued, List.append_assoc, List.cons_append]
  · rw [written_snoc]
    exact hwritten.trans (List.prefix_append ..)

/-- When a message is done, all that was taken from the queue is on the wire. -/
theorem onWire_finished (h : Runs (start codec capacity delay keys now) trace c) {f : InFlight}
    (hflight : c.inFlight = some f) {moment : Nat} {events : List Event}
    (hstep : c.step moment .finish = some (c', events)) :
    ∃ message, message.ticket = f.ticket ∧
      OnWire codec (trace ++ [⟨c, (moment, .finish), events⟩]) message := by
  have hdone : c'.isStopped = false ∧ c'.inFlight = none := by
    cases moves_of_step hstep with
    | finished hphase => exact ⟨by simp [isStopped, hphase], rfl⟩
  have hmove : timedStep c (moment, .finish) = some (c', events) := hstep
  obtain ⟨earlier, d, hdequeued, hticket, hbodies⟩ := last_dequeued h hflight
  obtain ⟨flight, waiting, hlive, hledger⟩ := exists_ledger (h.move hmove)
  obtain ⟨rfl, -⟩ := hlive hdone.1
  have hnone : dequeue? ⟨c, (moment, .finish), events⟩ = none := rfl
  have hsame : dequeued (trace ++ [⟨c, (moment, .finish), events⟩]) = earlier ++ [d] := by
    rw [dequeued_snoc, hdequeued, hnone, Option.toList_none, List.append_nil]
  refine ⟨d.message, hticket, earlier, d, waiting, rfl, ?_, ?_, by rw [hbodies]; rfl, ?_⟩
  · exact ⟨[], by rw [List.append_nil, hsame]⟩
  · rw [hledger.queue, hsame, List.map_append, List.append_assoc]
    rfl
  · -- nothing is on its way, so the wire holds just what could be prepared
    have hwire := hledger.wire
    have haccepts := hledger.accepts
    rw [hdone.2] at hwire haccepts
    rw [accepted, hsame] at haccepts
    rw [hwire, haccepts]
    simp

/-- With the receipt that a message is written it is on the wire, together with
    everything that was queued before it. -/
theorem onWire_of_receipt (h : Runs (start codec capacity delay keys now) trace c)
    {ticket : Option Nat} (hreceipt : (ticket, .ok ()) ∈ receipts trace) :
    ∃ message, message.ticket = ticket ∧ OnWire codec trace message := by
  induction h with
  | start => cases hreceipt
  | @move trace c c' m events hrun hstep ih =>
    obtain ⟨now, a⟩ := m
    rw [receipts_snoc] at hreceipt
    rcases List.mem_append.mp hreceipt with hbefore | hnow
    · obtain ⟨message, hticket, hwire⟩ := ih hbefore
      exact ⟨message, hticket, hwire.snoc _⟩
    · cases moves_of_step hstep with
      | finished hphase hflight =>
        obtain rfl : ticket = _ := by simpa [List.filterMap_cons, Event.receipt?] using hnow
        exact onWire_finished hrun hflight hstep
      | cancelled =>
        rw [receipts_abandoned] at hnow
        simp at hnow
      | _ => simp [List.filterMap_cons, Event.receipt?] at hnow

/-! ## Messages that cannot be prepared -/

/-- For a message that could not be prepared there is the receipt that it will not
    be written. -/
theorem receipt_of_rejected (h : Runs (start codec capacity delay keys now) trace c)
    {d : Dequeue} (hd : d ∈ dequeued trace) (hbodies : d.bodies? codec = none) :
    (d.message.ticket, .error .closed) ∈ receipts trace := by
  induction h with
  | start => cases hd
  | @move trace c c' m events hrun hstep ih =>
    obtain ⟨now, a⟩ := m
    rw [dequeued_snoc] at hd
    rw [receipts_snoc]
    rcases List.mem_append.mp hd with hbefore | hnow
    · exact List.mem_append_left _ (ih hbefore)
    · refine List.mem_append_right _ ?_
      have hcodec : c.codec = codec := codec_eq hrun
      cases moves_of_step hstep with
      | prepared _ _ hout hok =>
        simp only [dequeue?, hout, Option.toList_some, List.mem_singleton] at hnow
        subst hnow
        simp only [Dequeue.bodies?, ← hcodec, hok] at hbodies
        cases hbodies
      | rejected _ _ hout =>
        simp only [dequeue?, hout, Option.toList_some, List.mem_singleton] at hnow
        subst hnow
        simp [List.filterMap_cons, Event.receipt?]
      | _ => simp [dequeue?] at hnow

/-- Nothing is on the wire but bodies of messages that could be prepared. -/
theorem written_le_accepted (h : Runs (start codec capacity delay keys now) trace c) :
    written trace <+: (accepted codec trace).flatten := by
  obtain ⟨flight, waiting, -, hledger⟩ := exists_ledger h
  rw [hledger.wire, hledger.accepts, List.flatten_append]
  refine (List.prefix_append_right_inj _).mpr ?_
  cases flight with
  | none => exact List.nil_prefix
  | some f => simpa using List.take_prefix f.sent f.bodies

/-! ## What is queued is dealt with -/

theorem dequeued_append (trace trace' : Trace) :
    dequeued (trace ++ trace') = dequeued trace ++ dequeued trace' :=
  List.filterMap_append

theorem written_append (trace trace' : Trace) :
    written (trace ++ trace') = written trace ++ written trace' := by
  simp [written, eventsOf_append]

/-- Some messages are taken from the queue, one after the other, and those of them
    that can be prepared are written. -/
structure Drains (c : Connection) (messages : List Outgoing) (trace : Trace) (c' : Connection) :
    Prop where
  run : Runs c trace c'
  outbound : ∀ st ∈ trace, st.move.2.isOutbound = true
  dequeued : (dequeued trace).map (·.message) = messages
  written : written trace = (accepted c.codec trace).flatten

theorem Drains.trans {c₁ c₂ : Connection} {messages messages' : List Outgoing}
    (h : Drains c messages trace c₁) (h' : Drains c₁ messages' trace' c₂) :
    Drains c (messages ++ messages') (trace ++ trace') c₂ where
  run := h.run.append h'.run
  outbound := List.forall_mem_append.mpr ⟨h.outbound, h'.outbound⟩
  dequeued := by rw [dequeued_append, List.map_append, h.dequeued, h'.dequeued]
  written := by
    have hcodec : c₁.codec = c.codec := codec_eq h.run
    rw [written_append, h.written, h'.written, hcodec, accepted, accepted, accepted,
      dequeued_append, List.filterMap_append, List.flatten_append]

/-- A message on its way is written body by body. -/
theorem runs_rest (bodies : List String) (ticket : Option Nat) {since : Nat}
    {handing : Option Envelope} (hphase : c.phase = .serving since handing) :
    ∀ {left sent : Nat}, sent + left = bodies.length →
      ∃ trace, Runs { c with inFlight := some ⟨bodies, sent, ticket⟩ } trace
          { c with inFlight := none } ∧
        (∀ st ∈ trace, st.move.2.isOutbound = true) ∧ dequeued trace = [] ∧
        written trace = bodies.drop sent := by
  intro left
  induction left with
  | zero =>
    intro sent hsent
    have hle : bodies.length ≤ sent := by omega
    have hfinish : timedStep { c with inFlight := some ⟨bodies, sent, ticket⟩ } (0, .finish) =
        some ({ c with inFlight := none }, [.completed ticket]) := by
      simp [timedStep, step, finishMessage, hphase, hle]
    refine ⟨_, Run.start.move hfinish, List.forall_mem_singleton.mpr rfl, rfl, ?_⟩
    rw [List.drop_of_length_le hle]
    rfl
  | succ left ih =>
    intro sent hsent
    have hlt : sent < bodies.length := by omega
    have hwrite : timedStep { c with inFlight := some ⟨bodies, sent, ticket⟩ } (0, .write true) =
        some ({ c with inFlight := some ⟨bodies, sent + 1, ticket⟩ }, [.wrote bodies[sent]]) := by
      simp [timedStep, step, writeNext, hphase, hlt]
    have hsent' : sent + 1 + left = bodies.length := by omega
    obtain ⟨trace, hrun, hkind, hdequeued, hwritten⟩ := ih hsent'
    refine ⟨_, (Run.start.move hwrite).append hrun, ?_, ?_, ?_⟩
    · exact List.forall_mem_append.mpr ⟨List.forall_mem_singleton.mpr rfl, hkind⟩
    · rw [dequeued_append, hdequeued]
      rfl
    · rw [written_append, hwritten, List.drop_eq_getElem_cons hlt]
      rfl

theorem dequeued_prepare {o : Outgoing} {rest : List Outgoing} (hout : c.outbound = o :: rest)
    (moment : Nat) (occasion : Occasion) (events : List Event) :
    dequeued [⟨c, (moment, .prepare occasion), events⟩] = [⟨o, c.keys, occasion⟩] := by
  simp [dequeued, dequeue?, hout]

/-- The next message is dealt with, whether it can be prepared or not. -/
theorem drains_next {since : Nat} {handing : Option Envelope}
    (hphase : c.phase = .serving since handing) (hflight : c.inFlight = none) {o : Outgoing}
    {rest : List Outgoing} (hout : c.outbound = o :: rest) :
    ∃ trace, Drains c [o] trace { c with outbound := rest } := by
  have hdequeued := dequeued_prepare hout 0 default
  cases hprepare : c.codec.prepare default o.contents c.keys with
  | error err =>
    have hrejected : timedStep c (0, .prepare default) =
        some ({ c with outbound := rest }, [.rejected o, .abandoned o.ticket]) := by
      simp [timedStep, step, prepareNext, hphase, hflight, hout, hprepare]
    have hbodies : Dequeue.bodies? c.codec ⟨o, c.keys, default⟩ = none := by
      simp only [Dequeue.bodies?, hprepare]
      rfl
    refine ⟨_, Run.start.move hrejected, List.forall_mem_singleton.mpr rfl, ?_, ?_⟩
    · rw [List.nil_append, hdequeued]
      rfl
    · rw [List.nil_append, accepted, hdequeued, List.filterMap_cons_none hbodies]
      rfl
  | ok bodies =>
    have hprepared : timedStep c (0, .prepare default) =
        some ({ c with outbound := rest, inFlight := some ⟨bodies, 0, o.ticket⟩ },
          [.prepared o bodies]) := by
      simp [timedStep, step, prepareNext, hphase, hflight, hout, hprepare]
    have hbodies : Dequeue.bodies? c.codec ⟨o, c.keys, default⟩ = some bodies := by
      simp only [Dequeue.bodies?, hprepare]
      rfl
    have hsilent : written [⟨c, (0, .prepare default), [.prepared o bodies]⟩] = [] := rfl
    have hsame : { c with outbound := rest, inFlight := none } = { c with outbound := rest } := by
      rw [← hflight]
    obtain ⟨trace, hrun, hkind, hnone, hwritten⟩ :=
      runs_rest (c := { c with outbound := rest }) bodies o.ticket hphase (Nat.zero_add _)
    rw [hsame] at hrun
    refine ⟨_, (Run.start.move hprepared).append hrun, ?_, ?_, ?_⟩
    · exact List.forall_mem_append.mpr ⟨List.forall_mem_singleton.mpr rfl, hkind⟩
    · rw [List.nil_append, dequeued_append, hdequeued, hnone]
      rfl
    · rw [List.nil_append, accepted, written_append, dequeued_append, hdequeued, hnone, hwritten,
        hsilent, List.append_nil, List.filterMap_cons_some hbodies]
      simp

/-- While the link is up and nothing is on its way, whatever is queued is dealt
    with. -/
theorem exists_drained {since : Nat} {handing : Option Envelope} {messages : List Outgoing}
    (hphase : c.phase = .serving since handing) (hflight : c.inFlight = none)
    (hout : c.outbound = messages) :
    ∃ trace, Drains c messages trace { c with outbound := [] } := by
  induction messages generalizing c with
  | nil =>
    have hsame : { c with outbound := [] } = c := by rw [← hout]
    rw [hsame]
    exact ⟨[], .start, fun _ hst => absurd hst List.not_mem_nil, rfl, rfl⟩
  | cons o rest ih =>
    obtain ⟨trace, hnext⟩ := drains_next hphase hflight hout
    obtain ⟨trace', hrest⟩ := ih (c := { c with outbound := rest }) hphase hflight rfl
    exact ⟨trace ++ trace', hnext.trans hrest⟩

end MessageBus.Connection
