import MessageBus.Proofs.Connection.Ledger

/-! # When a reopened link is served

    After a link is reopened, a signal goes into the inbound queue before the
    link is served.  The queue is bounded, so a caller that does not take its
    envelopes can hold up what it sends itself.

    * `inbound_le_capacity`, `delivered_eq_taken_append_inbound`: the inbound
      queue is bounded, and it is what was delivered and not yet taken.
    * `heldUp_iff_inbound_full`: a reopened link waits for the caller exactly
      when the inbound queue is full.
    * `reopened_link_held_up`: a run in which that happens while a message
      waits to be sent. -/

namespace MessageBus.Connection

/-! ## The inbound queue -/

/-- The envelope that an event puts into the inbound queue. -/
def Event.delivered? : Event → Option Envelope
  | .delivered e => some e
  | _ => none

/-- The envelope that an event hands to a caller. -/
def Event.taken? : Event → Option Envelope
  | .took e => some e
  | _ => none

/-- The envelopes that were put into the inbound queue. -/
def delivered (trace : Trace) : List Envelope := (eventsOf trace).filterMap Event.delivered?

/-- The envelopes that callers took. -/
def taken (trace : Trace) : List Envelope := (eventsOf trace).filterMap Event.taken?

@[simp] theorem delivered_snoc (trace : Trace) (st : Stage Connection (Nat × Action) Event) :
    delivered (trace ++ [st]) = delivered trace ++ st.events.filterMap Event.delivered? := by
  simp [delivered]

@[simp] theorem taken_snoc (trace : Trace) (st : Stage Connection (Nat × Action) Event) :
    taken (trace ++ [st]) = taken trace ++ st.events.filterMap Event.taken? := by
  simp [taken]

variable {codec : Codec} {keys : KeySet} {trace : Trace} {c c' : Connection}
  {capacity delay now : Nat}

/-- The size of the queues never changes. -/
theorem capacity_eq {c₀ : Connection} (h : Runs c₀ trace c) : c.capacity = c₀.capacity := by
  refine Run.invariant (P := fun c => c.capacity = c₀.capacity) h
    (fun c m c' events hc hstep => ?_) rfl
  obtain ⟨now, a⟩ := m
  cases moves_of_step hstep <;> exact hc

/-- A move puts at most as much into the inbound queue as there is room for. -/
theorem inbound_le_moves {a : Action} {events : List Event} (hm : Moves now c a c' events)
    (h : c.inbound.length ≤ c.capacity) : c'.inbound.length ≤ c'.capacity := by
  cases hm with
  | @took e rest hin =>
    rw [hin, List.length_cons] at h
    show rest.length ≤ c.capacity
    omega
  | delivered _ hroom | announced _ hroom =>
    have hlt : c.inbound.length < c.capacity := by simpa [hasInboundRoom] using hroom
    show (c.inbound ++ [_]).length ≤ c.capacity
    rw [List.length_append]
    exact hlt
  | _ => exact h

theorem inbound_le_capacity (h : Runs (start codec capacity delay keys now) trace c) :
    c.inbound.length ≤ capacity := by
  have hle : c.inbound.length ≤ c.capacity := by
    refine Run.invariant (P := fun c => c.inbound.length ≤ c.capacity) h
      (fun c m c' events hc hstep => ?_) (Nat.zero_le _)
    obtain ⟨now, a⟩ := m
    exact inbound_le_moves (moves_of_step hstep) hc
  rwa [capacity_eq h] at hle

/-- What came is what was taken, and then what waits in the inbound queue. -/
theorem received_eq_taken_append_inbound {c₀ : Connection} (h : Runs c₀ trace c) :
    c₀.inbound ++ delivered trace = taken trace ++ c.inbound := by
  induction h with
  | start => exact List.append_nil _
  | @move trace c c' m events _ hstep ih =>
    obtain ⟨now, a⟩ := m
    rw [delivered_snoc, taken_snoc, ← List.append_assoc, ih]
    cases moves_of_step hstep with
    | took hin => simp [hin, List.filterMap_cons, Event.delivered?, Event.taken?]
    | delivered | announced => simp [List.filterMap_cons, Event.delivered?, Event.taken?]
    | cancelled =>
      rw [filterMap_abandoned (fun _ => rfl), filterMap_abandoned (fun _ => rfl)]
      simp
    | _ => simp [List.filterMap_cons, Event.delivered?, Event.taken?]

/-- What waits in the inbound queue is what was delivered and not yet taken. -/
theorem delivered_eq_taken_append_inbound
    (h : Runs (start codec capacity delay keys now) trace c) :
    delivered trace = taken trace ++ c.inbound := by
  rw [← received_eq_taken_append_inbound h]
  rfl

/-! ## Serving waits for the caller -/

/-- Unless the caller takes an envelope first, the link is never served and
    nothing is written, whatever else happens. -/
def HeldUp (c : Connection) : Prop :=
  ∀ (trace : Trace) (c' : Connection), Runs c trace c' →
    (∀ st ∈ trace, st.move.2 ≠ .take) → c'.isServing = false ∧ written trace = []

/-- What holds a reopened link up: the signal finds no room.  It stays so until
    an envelope is taken or the connection is shut down. -/
def SignalBlocked (c : Connection) : Prop :=
  c.phase = .stopped ∨ c.phase = .announcing ∧ c.hasInboundRoom = false

theorem signalBlocked_moves {a : Action} {events : List Event} (h : SignalBlocked c)
    (hm : Moves now c a c' events) (ha : a ≠ .take) :
    SignalBlocked c' ∧ events.filterMap Event.written? = [] := by
  cases hm with
  | queued | rekeyed => exact ⟨h, rfl⟩
  | took => exact absurd rfl ha
  | announced hphase hroom =>
    obtain hstop | ⟨_, hfull⟩ := h
    · rw [hstop] at hphase
      cases hphase
    · rw [hfull] at hroom
      cases hroom
  | cancelled =>
    exact ⟨.inl rfl, filterMap_abandoned (fun _ => rfl) _⟩
  | prepared hphase | rejected hphase | wrote hphase | writeFailed hphase | finished hphase
  | arrived hphase | delivered hphase | lost hphase | resumed hphase | opened hphase
  | refused hphase =>
    -- these need the link to be up, awaited or being opened
    obtain hstop | ⟨hann, _⟩ := h <;> simp_all

theorem heldUp_of_signalBlocked (h : SignalBlocked c) : HeldUp c := by
  intro trace c' hrun hno
  have hblocked : SignalBlocked c' ∧ written trace = [] := by
    induction hrun with
    | start => exact ⟨h, rfl⟩
    | @move trace c₁ c₂ m events _ hstep ih =>
      obtain ⟨now, a⟩ := m
      obtain ⟨hb, hw⟩ := ih fun st hst => hno st (List.mem_append_left _ hst)
      -- the moves before it take nothing either, so the link was held up until now
      have ha : a ≠ .take := hno ⟨c₁, (now, a), events⟩ (by simp)
      obtain ⟨hb', hw'⟩ := signalBlocked_moves hb (moves_of_step hstep) ha
      exact ⟨hb', by rw [written_snoc, hw, hw']; rfl⟩
  refine ⟨?_, hblocked.2⟩
  obtain hstop | ⟨hann, _⟩ := hblocked.1
  · simp [isServing, hstop]
  · simp [isServing, hann]

/-- With room for the signal, a reopened link is served by the next move. -/
theorem not_heldUp_of_room (hphase : c.phase = .announcing) (hroom : c.hasInboundRoom = true) :
    ¬ HeldUp c := by
  intro hheld
  have hstep : c.timedStep (0, .announce) =
      some ({ c with inbound := c.inbound ++ [.reconnected], phase := .serving 0 none },
        [.delivered .reconnected]) := by
    simp [timedStep, step, announceLink, hphase, hroom]
  have hserved := (hheld _ _ (Run.start.move hstep) (by simp)).1
  simp [isServing] at hserved

/-! ## Sending does not wait for the caller while the link is served -/

/-- The moves that bring a message on its way. -/
def Action.isOutbound : Action → Bool
  | .prepare _ | .write true | .finish => true
  | _ => false

/-- While the link is served, a message that waits can be brought on, whether
    or not the inbound queue has room. -/
theorem exists_outbound_move (hserving : c.isServing = true)
    (hwaiting : c.outbound ≠ [] ∨ c.inFlight.isSome = true) :
    ∃ a : Action, a.isOutbound = true ∧ ∀ now, (c.step now a).isSome = true := by
  obtain ⟨since, handing, hphase⟩ := exists_phase_of_isServing hserving
  cases hflight : c.inFlight with
  | none =>
    cases hout : c.outbound with
    | nil => simp [hout, hflight] at hwaiting
    | cons o rest =>
      refine ⟨.prepare default, rfl, fun now => ?_⟩
      simp only [step, prepareNext, hphase, hflight, hout]
      split <;> rfl
  | some f =>
    cases hbody : f.bodies[f.sent]? with
    | none =>
      refine ⟨.finish, rfl, fun now => ?_⟩
      simp [step, finishMessage, hphase, hflight, List.getElem?_eq_none_iff.1 hbody]
    | some body =>
      refine ⟨.write true, rfl, fun now => ?_⟩
      simp [step, writeNext, hphase, hflight, hbody]

/-! ## Main theorem -/

/-- A reopened link waits for the caller to take an envelope exactly when as
    many envelopes are delivered and not taken as the inbound queue holds.
    Once the link is served, what waits to be sent depends on it no longer. -/
theorem heldUp_iff_inbound_full (h : Runs (start codec capacity delay keys now) trace c) :
    (c.phase = .announcing → (HeldUp c ↔ c.inbound.length = capacity)) ∧
      (c.isServing = true → c.outbound ≠ [] ∨ c.inFlight.isSome = true →
        ∃ a : Action, a.isOutbound = true ∧ ∀ now, (c.step now a).isSome = true) ∧
      delivered trace = taken trace ++ c.inbound := by
  refine ⟨fun hopen => ?_, exists_outbound_move, delivered_eq_taken_append_inbound h⟩
  have hle := inbound_le_capacity h
  have hcap : c.capacity = capacity := capacity_eq h
  constructor
  · intro hheld
    rcases Nat.lt_or_eq_of_le hle with hlt | heq
    · exact absurd hheld (not_heldUp_of_room hopen (by simpa [hasInboundRoom, hcap] using hlt))
    · exact heq
  · intro hfull
    refine heldUp_of_signalBlocked (.inr ⟨hopen, ?_⟩)
    simp [hasInboundRoom, hcap, hfull]

/-- A connection with room for one envelope loses its link twice and gets it
    back twice.  Nobody takes the first signal, and a message waits. -/
theorem runs_reopened_twice :
    ∃ (trace : Trace) (c : Connection),
      Runs (start ⟨"a", ⟨none, none⟩⟩ 1 0 .empty 0) trace c ∧
      c.phase = .announcing ∧ c.outbound = [⟨[], none⟩] ∧ c.inbound = [.reconnected] ∧
      c.capacity = 1 := by
  have hstart : Runs (start ⟨"a", ⟨none, none⟩⟩ 1 0 .empty 0) [] _ := .start
  have hfirst := (hstart.move (m := (0, .loseLink)) rfl).move (m := (0, .opened true)) rfl
  have hserved := (hfirst.move (m := (0, .announce)) rfl).move (m := (0, .queue ⟨[], none⟩)) rfl
  have hsecond := (hserved.move (m := (0, .loseLink)) rfl).move (m := (0, .opened true)) rfl
  exact ⟨_, _, hsecond, rfl, rfl, rfl, rfl⟩

/-- There the condition holds: one envelope waits and the queue holds one. -/
theorem heldUp_iff_inbound_full_reopened_twice :
    ∃ (trace : Trace) (c : Connection),
      Runs (start ⟨"a", ⟨none, none⟩⟩ 1 0 .empty 0) trace c ∧ c.phase = .announcing ∧
      c.inbound.length = 1 ∧ (HeldUp c ↔ c.inbound.length = 1) := by
  obtain ⟨trace, c, hrun, hphase, _, hin, _⟩ := runs_reopened_twice
  exact ⟨trace, c, hrun, hphase, by rw [hin]; rfl, (heldUp_iff_inbound_full hrun).1 hphase⟩

/-- A caller that only sends is held up: the link is open again, its message
    waits, and nothing is sent until it takes an envelope. -/
theorem reopened_link_held_up :
    ∃ (trace : Trace) (c : Connection),
      Runs (start ⟨"a", ⟨none, none⟩⟩ 1 0 .empty 0) trace c ∧ c.phase = .announcing ∧
      c.outbound ≠ [] ∧ HeldUp c := by
  obtain ⟨trace, c, hrun, hphase, hout, hin, hcap⟩ := runs_reopened_twice
  refine ⟨trace, c, hrun, hphase, by rw [hout]; exact List.cons_ne_nil _ _, ?_⟩
  refine heldUp_of_signalBlocked (.inr ⟨hphase, ?_⟩)
  simp [hasInboundRoom, hin, hcap]

end MessageBus.Connection
