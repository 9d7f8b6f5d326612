import MessageBus.Proofs.Connection.Flushes
import MessageBus.Proofs.Connection.Listening

/-! # Callers that come to their end

    A caller may have to wait: for a message, for room in the outbound queue, or
    until a message is written.  A connection that is shut down keeps nobody
    waiting.  What is not written is given up, nothing is queued any more, and
    who waits for a message goes through what is left.  So every caller can come
    to its end, wherever it is.

    * `leads_done_of_isStopped`: every program ends over a connection that is shut down.
    * `leads_done`: every run can come to its end. -/

namespace MessageBus

/-- Only a shutdown stops a connection, and it leaves no ticket open. -/
theorem Connection.isStopped_of_openTickets {c c' : Connection} {m : Nat × Action}
    {events : List Event} {ticket : Option Nat} (h : timedStep c m = some (c', events))
    (hopen : c.isStopped = false) (hticket : ticket ∈ c'.openTickets) : c'.isStopped = false := by
  obtain ⟨now, a⟩ := m
  cases moves_of_step h with
  | cancelled => cases hticket
  | queued | rekeyed | took | prepared | rejected | wrote | finished => exact hopen
  | @writeFailed since | @lost since =>
    unfold afterFailure
    by_cases hbrief : now - since < c.delay <;> simp [isStopped, hbrief]
  | _ => rfl

namespace Caller

variable {α : Type} {p p' : Caller α} {c : Connection} {program : Program α} {journal : Journal α}
  {m : Nat × Move} {events : List Connection.Event}

/-- The message that is to be seen written is not dealt with, and the connection is not shut
down. -/
def IsOpenFor (c : Connection) (flush : Flush) : Prop :=
  ∀ ticket, flush = .waiting ticket → c.isStopped = false ∧ some ticket ∈ c.openTickets

/-- Whatever happens, a message that is dealt with is not waited for. -/
theorem isOpenFor_act {c c' : Connection} {now : Nat} {action? : Option Connection.Action}
    {flush : Flush} (h : IsOpenFor c flush) (hact : c.act now action? = some (c', events)) :
    IsOpenFor c' (events.foldl Flush.heed flush) := by
  rcases act_cases hact with ⟨-, rfl, rfl⟩ | ⟨a, -, hmove⟩
  · exact h
  · intro ticket hwaiting
    rcases Desk.foldl_heed_cases flush events with ⟨hsame, hnone⟩ | ⟨other, r, -, hended, -⟩
    · rw [hsame] at hwaiting
      obtain ⟨hopen, hticket⟩ := h ticket hwaiting
      -- there is no receipt for it, so its ticket is still open
      have hmem := List.mem_append_left
        ((Connection.queue? ⟨c, (now, a), events⟩).toList.map (·.ticket)) hticket
      rw [Connection.openTickets_step hmove] at hmem
      rcases List.mem_append.mp hmem with hreceipt | hstill
      · obtain ⟨⟨_, r⟩, hr, rfl⟩ := List.mem_map.mp hreceipt
        exact absurd hr (hnone ticket hwaiting r)
      · exact ⟨Connection.isStopped_of_openTickets hmove hopen hstill, hstill⟩
    · rw [hended] at hwaiting
      cases hwaiting

theorem isOpenFor_step (h : IsOpenFor p.connection p.flush) (hstep : p.step m = some (p', events)) :
    IsOpenFor p'.connection p'.flush := by
  obtain ⟨turn, _, hturn, -, hact, hflush⟩ := step_eq_some_iff.mp hstep
  rw [← hflush]
  have hturns := turns_of_turn hturn
  generalize m.2 = move at hturns
  generalize p'.connection = c' at hact
  cases hturns with
  | @post contents _ ticket hprogram hidle =>
    have hmove : p.connection.step m.1 (.queue ⟨contents, some ticket⟩) = some (c', events) := hact
    cases Connection.moves_of_step hmove with
    | queued hopen =>
      intro other hwaiting
      obtain rfl : ticket = other := by simpa using hwaiting
      exact ⟨hopen, by simp [Connection.openTickets]⟩
  | refuseFlush | settle =>
    refine isOpenFor_act ?_ hact
    intro ticket hwaiting
    cases hwaiting
  | _ => exact isOpenFor_act h hact

theorem isOpenFor_of_run (h : Runs (.start c program) journal p) :
    IsOpenFor p.connection p.flush := by
  refine Run.invariant (P := fun p : Caller α => IsOpenFor p.connection p.flush) h
    (fun p m p' events hp hstep => isOpenFor_step hp hstep) ?_
  intro ticket hwaiting
  cases hwaiting

/-! ## Coming to an end -/

/-- What brings a caller to its end: it goes on, what it asks of others comes, and its connection is
shut down. -/
inductive Concludes : Nat × Move → Prop where
  | proceed (now : Nat) : Concludes (now, .proceed)
  | reply (now : Nat) (r : Reply) : Concludes (now, .reply r)
  | shutDown (now : Nat) : Concludes (now, .work .cancel)

section leads
variable {next : Program α} {ticket : Nat} {call? : Option Call}

/-- A move that brings the program on and does not concern the connection. -/
theorem leads_turn {move : Move} {r : Reply} (hmove : Concludes (0, move))
    (hturn : turn? ⟨c, program, .idle ticket⟩ move = some ⟨none, some r, .idle ticket⟩)
    (hafter : program.after r = some (call?, next)) :
    Leads step Concludes ⟨c, program, .idle ticket⟩ ⟨c, next, .idle ticket⟩ := by
  have hplay := Program.play_singleton_iff.mpr ⟨call?, hafter, rfl⟩
  exact .single hmove (step_eq_some_iff.mpr ⟨_, _, hturn, hplay, rfl, rfl⟩)

/-- A reply that may come brings a program on. -/
theorem leads_reply {r : Reply} (houtside : r.isFromOutside = true)
    (hafter : program.after r = some (call?, next)) :
    Leads step Concludes ⟨c, program, .idle ticket⟩ ⟨c, next, .idle ticket⟩ :=
  leads_turn (.reply 0 r) (if_pos houtside) hafter

/-- Who waits goes through what is left, and then learns that nothing comes any more. -/
theorem leads_await (limit : Option Nat) (accepts : Message → Bool) (next : Awaited → Program α)
    (ticket : Nat) (hstopped : c.isStopped = true) :
    ∃ c' w, c'.isStopped = true ∧ Leads step Concludes
      ⟨c, .await limit accepts next, .idle ticket⟩ ⟨c', next w, .idle ticket⟩ := by
  have hkind : ∀ m, Proceeds 0 m → Concludes m := by
    intro m hm
    rw [hm]
    exact .proceed 0
  cases hfirst : firstMatch accepts c.inbound with
  | some found =>
    obtain ⟨m, rest⟩ := found
    exact ⟨{ c with inbound := rest }, .matched m, hstopped, (leads_matched hfirst).mono hkind⟩
  | none =>
    refine ⟨{ c with inbound := [] }, .closed, hstopped, Leads.mono hkind ?_⟩
    exact (leads_unmatched hfirst).trans (leads_closed hstopped rfl)

/-- Every program comes to its end over a connection that is shut down. -/
theorem leads_done_of_isStopped (program : Program α) (ticket : Nat) {c : Connection}
    (hstopped : c.isStopped = true) :
    ∃ c' a, Leads step Concludes ⟨c, program, .idle ticket⟩ ⟨c', .done a, .idle ticket⟩ := by
  induction program generalizing c with
  | done a => exact ⟨c, a, .refl _⟩
  | queue contents next ih | flush contents next ih =>
    obtain ⟨c', a, hrest⟩ := ih (.error .closed) hstopped
    refine ⟨c', a, (leads_turn (r := .closed) (.proceed 0) ?_ rfl).trans hrest⟩
    simp [turn?, hstopped]
  | await limit accepts next ih =>
    obtain ⟨c₁, w, hstopped', hwait⟩ := leads_await limit accepts next ticket hstopped
    obtain ⟨c', a, hrest⟩ := ih w hstopped'
    exact ⟨c', a, hwait.trans hrest⟩
  | setKeys keys next ih =>
    obtain ⟨c', a, hrest⟩ := ih (c := { c with keys := keys }) hstopped
    have hmove : step ⟨c, .setKeys keys next, .idle ticket⟩ (0, .proceed) =
        some (⟨{ c with keys := keys }, next, .idle ticket⟩, []) := rfl
    exact ⟨c', a, (Leads.single (.proceed 0) hmove).trans hrest⟩
  | sleep ms next ih =>
    obtain ⟨c', a, hrest⟩ := ih hstopped
    exact ⟨c', a, (leads_reply (r := .rested) rfl rfl).trans hrest⟩
  | ask answer next ih =>
    obtain ⟨c', a, hrest⟩ := ih (.error .closed) hstopped
    have hafter : (Program.ask answer next).after (.entered (.error .closed)) =
        some (none, next (.error .closed)) := by
      cases answer <;> rfl
    exact ⟨c', a, (leads_reply rfl hafter).trans hrest⟩
  | execute command next ih =>
    obtain ⟨c', a, hrest⟩ := ih (.exited 0) hstopped
    exact ⟨c', a, (leads_reply (r := .exited (.exited 0)) rfl rfl).trans hrest⟩
  | freshId head next ih =>
    obtain ⟨c', a, hrest⟩ := ih "" hstopped
    exact ⟨c', a, (leads_reply (r := .drawn "") rfl rfl).trans hrest⟩

end leads

/-- Every connection can be shut down. -/
theorem leads_isStopped (p : Caller α) :
    ∃ p', Leads step Concludes p p' ∧ p'.connection.isStopped = true := by
  cases hopen : p.connection.isStopped with
  | true => exact ⟨p, .refl p, hopen⟩
  | false =>
    obtain ⟨c, program, flush⟩ := p
    have hcancel : ∃ c' events, c.act 0 (some .cancel) = some (c', events) ∧
        c'.isStopped = true :=
      ⟨{ c with outbound := [], inFlight := none, phase := .stopped }, _,
        if_neg (by simpa using hopen), rfl⟩
    obtain ⟨c', events, hact, hstopped⟩ := hcancel
    have hmove : step ⟨c, program, flush⟩ (0, .work .cancel) =
        some (⟨c', program, events.foldl Flush.heed flush⟩, events) :=
      step_eq_some_iff.mpr ⟨⟨some .cancel, none, flush⟩, [], rfl, rfl, hact, rfl⟩
    exact ⟨_, .single (.shutDown 0) hmove, hstopped⟩

/-- Every run can come to its end. -/
theorem leads_done (h : Runs (.start c program) journal p) :
    ∃ p' a, Leads step Concludes p p' ∧ p'.program = .done a := by
  obtain ⟨p₁, hleads, hstopped⟩ := leads_isStopped p
  obtain ⟨trace, -, hrun⟩ := id hleads
  have hrun₁ := h.append hrun
  have hinOrder := (play_of_run hrun₁ rfl).1
  have hflush := isOpenFor_of_run hrun₁
  obtain ⟨c', program', flush⟩ := p₁
  cases flush with
  | idle ticket =>
    obtain ⟨c'', a, hrest⟩ := leads_done_of_isStopped program' ticket hstopped
    exact ⟨_, a, hleads.trans hrest, rfl⟩
  | waiting ticket =>
    rw [(hflush ticket rfl).1] at hstopped
    cases hstopped
  | ended ticket r =>
    -- the program is still at the request whose message was given up
    obtain ⟨contents, next, rfl⟩ := hinOrder.resolve_left fun hidle => nomatch hidle
    have hsettle : step ⟨c', .flush contents next, .ended ticket r⟩ (0, .proceed) =
        some (⟨c', next r, .idle (ticket + 1)⟩, []) := rfl
    obtain ⟨c'', a, hrest⟩ := leads_done_of_isStopped (next r) (ticket + 1) hstopped
    exact ⟨_, a, (hleads.trans (.single (.proceed 0) hsettle)).trans hrest, rfl⟩

end Caller

end MessageBus
