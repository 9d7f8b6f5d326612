import MessageBus.Connection.Requests
import MessageBus.Proofs.Connection.Caller

/-! # Waiting for the first message

    Who waits takes one envelope after the other until a message is accepted.
    The envelopes before it are gone, whether or not they can be read, and those
    after it stay in the queue; only a connection that is shut down and has handed
    out everything ends the wait without a message.

    * `await_step`: what one move does to a caller that waits.
    * `listening_of_run`: how far a wait without limit is, along every run.
    * `takes_of_run`: waiting ends with the first message that is accepted.
    * `takesLines_of_run`: lines of a stream that are waited for one by one. -/

namespace MessageBus

theorem firstMatch_eq_none_iff {accepts : Message → Bool} {es : List Envelope} :
    firstMatch accepts es = none ↔ ∀ e ∈ es, e.isAccepted accepts = false := by
  induction es with
  | nil => simp [firstMatch]
  | cons e es ih =>
    unfold firstMatch
    rw [List.forall_mem_cons, ← ih]
    cases hmessage : e.message with
    | error err => simp [Envelope.isAccepted, hmessage]
    | ok m => cases haccepts : accepts m <;> simp [Envelope.isAccepted, hmessage, haccepts]

/-- A wait does not stop before an envelope that is accepted. -/
theorem firstMatch_append {accepts : Message → Bool} {es es' : List Envelope}
    (h : ∀ e ∈ es, e.isAccepted accepts = false) :
    firstMatch accepts (es ++ es') = firstMatch accepts es' := by
  induction es with
  | nil => rfl
  | cons e es ih =>
    obtain ⟨he, hes⟩ := List.forall_mem_cons.mp h
    rw [List.cons_append, firstMatch, ih hes]
    cases hmessage : e.message <;> simp_all [Envelope.isAccepted]

namespace Caller

variable {α : Type} {p p' p₀ : Caller α} {m : Nat × Move} {events : List Connection.Event}
  {journal : Journal α} {limit : Option Nat} {accepts : Message → Bool}
  {next : Awaited → Program α}

/-! ## What comes to a caller -/

/-- What comes to a caller: what its inbound queue holds at first, and what is delivered since. -/
def received (c : Connection) (journal : Journal α) : List Envelope :=
  c.inbound ++ Connection.delivered (link journal)

/-- What came was taken, or waits in the queue. -/
theorem received_eq (h : Runs p₀ journal p) :
    received p₀.connection journal = heard journal ++ p.connection.inbound :=
  Connection.received_eq_taken_append_inbound (runs_link h)

theorem delivered_move (journal : Journal α) (hstep : p.step m = some (p', events)) :
    Connection.delivered (link (journal ++ [⟨p, m, events⟩]))
      = Connection.delivered (link journal) ++ events.filterMap Connection.Event.delivered? := by
  rw [link_snoc]
  rcases act_of_step hstep with ⟨hnone, -, rfl⟩ | ⟨a, hsome, -⟩
  · simp [hnone]
  · rw [hsome]
    exact Connection.delivered_snoc ..

theorem heard_move (h : Runs p₀ journal p) (hstep : p.step m = some (p', events)) :
    heard (journal ++ [⟨p, m, events⟩])
      = heard journal ++ (reply? ⟨p, m, events⟩).toList.filterMap Reply.envelope? := by
  rw [heard_eq (h.move hstep), heard_eq h, replies_snoc, List.filterMap_append]

/-- The connection is shut down and has handed out everything. -/
def IsOver (p : Caller α) : Prop := p.connection.isStopped = true ∧ p.connection.inbound = []

theorem isOver_step (h : p.step m = some (p', events)) (hover : p.IsOver) : p'.IsOver := by
  obtain ⟨hstopped, hin⟩ := hover
  refine ⟨isStopped_step h hstopped, ?_⟩
  rcases act_of_step h with ⟨-, hsame, -⟩ | ⟨a, -, hmove⟩
  · rwa [hsame]
  · have hmoves := Connection.moves_of_step hmove
    -- after the shutdown the keys may still be replaced, and envelopes be taken
    obtain ⟨keys, rfl⟩ | rfl := (Connection.isStopped_moves hstopped hmoves).2
    · generalize p'.connection = c' at hmoves
      cases hmoves with
      | rekeyed => exact hin
    · generalize p'.connection = c' at hmoves
      cases hmoves with
      | took hin' =>
        rw [hin] at hin'
        cases hin'

/-! ## One move of a caller -/

/-- What one move does to a caller that waits, by the reply that it gets. -/
inductive Heeds (p : Caller α) (limit : Option Nat) (accepts : Message → Bool)
    (next : Awaited → Program α) : Option Reply → Caller α → Prop where
  | idle {p' : Caller α} : p'.program = p.program → Heeds p limit accepts next none p'
  /-- An envelope that is not accepted is gone. -/
  | skipped {p' : Caller α} {e : Envelope} :
      e.isAccepted accepts = false → p.connection.inbound = e :: p'.connection.inbound →
      p'.program = p.program → Heeds p limit accepts next (some (.heard e)) p'
  | matched {p' : Caller α} {e : Envelope} {m : Message} :
      e.message = .ok m → accepts m = true →
      p.connection.inbound = e :: p'.connection.inbound → p'.program = next (.matched m) →
      Heeds p limit accepts next (some (.heard e)) p'
  | closed {p' : Caller α} :
      p.IsOver → p'.connection = p.connection → p'.program = next .closed →
      Heeds p limit accepts next (some .closed) p'
  | timedOut {p' : Caller α} :
      limit.isSome = true → p'.connection = p.connection → p'.program = next .timedOut →
      Heeds p limit accepts next (some .expired) p'

theorem await_step (hprogram : p.program = .await limit accepts next)
    (h : p.step m = some (p', events)) :
    Heeds p limit accepts next (reply? ⟨p, m, events⟩) p' := by
  obtain ⟨turn, calls, hturn, hplay, hact, -⟩ := step_eq_some_iff.mp h
  rw [reply_of_turn hturn]
  have hturns := turns_of_turn hturn
  generalize m.2 = move at hturns
  cases hturns with
  | rekey h' | send h' | refuse h' | post h' | refuseFlush h' | settle h' =>
    rw [hprogram] at h'
    cases h'
  | @take _ _ _ e rest h' hin =>
    have hrest : p'.connection.inbound = rest := by
      have hmove : p.connection.step m.1 .take = some (p'.connection, events) := hact
      generalize p'.connection = c' at hmove
      cases Connection.moves_of_step hmove with
      | took hin' =>
        rw [hin] at hin'
        exact (List.cons.inj hin').2.symm
    obtain ⟨call?, hafter, -⟩ := Program.play_singleton_iff.mp hplay
    rw [hprogram] at hafter
    obtain ⟨-, hnext⟩ := Prod.mk.inj (Option.some.inj hafter)
    rw [← hrest] at hin
    cases haccepted : e.isAccepted accepts with
    | false =>
      rw [Program.afterEnvelope_of_not_accepted haccepted, ← hprogram] at hnext
      exact .skipped haccepted hin hnext.symm
    | true =>
      obtain ⟨m', hmessage, haccepts⟩ := Envelope.isAccepted_iff.mp haccepted
      rw [Program.afterEnvelope_of_accepted hmessage haccepts] at hnext
      exact .matched hmessage haccepts hin hnext.symm
  | endWait h' hstopped hin =>
    obtain ⟨call?, hafter, -⟩ := Program.play_singleton_iff.mp hplay
    rw [hprogram] at hafter
    have hsame := (Prod.mk.inj (Option.some.inj hact)).1.symm
    cases limit <;>
      exact .closed ⟨hstopped, hin⟩ hsame (Prod.mk.inj (Option.some.inj hafter)).2.symm
  | @reply r houtside =>
    obtain ⟨call?, hafter, -⟩ := Program.play_singleton_iff.mp hplay
    rw [hprogram] at hafter
    cases r with
    | expired =>
      cases limit with
      | none => cases hafter
      | some ms =>
        have hsame := (Prod.mk.inj (Option.some.inj hact)).1.symm
        exact .timedOut rfl hsame (Prod.mk.inj (Option.some.inj hafter)).2.symm
    | rekeyed | queued | flushed | heard | closed => cases houtside
    | _ => cases limit <;> cases hafter
  | work hown =>
    obtain ⟨-, hsame⟩ := Prod.mk.inj (Option.some.inj hplay)
    exact .idle hsame.symm

/-- What one move does to a caller that queues a message, by the reply that it gets. -/
inductive Posts (p : Caller α) (next : BusResult Unit → Program α) :
    Option Reply → Caller α → Prop where
  | idle {p' : Caller α} : p'.program = p.program → Posts p next none p'
  | queued {p' : Caller α} : p'.program = next (.ok ()) → Posts p next (some .queued) p'
  | refused {p' : Caller α} :
      p'.connection.isStopped = true → p'.program = next (.error .closed) →
      Posts p next (some .closed) p'

theorem queue_step {contents : Fields} {next : BusResult Unit → Program α}
    (hprogram : p.program = .queue contents next) (h : p.step m = some (p', events)) :
    Posts p next (reply? ⟨p, m, events⟩) p' := by
  obtain ⟨turn, calls, hturn, hplay, hact, -⟩ := step_eq_some_iff.mp h
  rw [reply_of_turn hturn]
  have hturns := turns_of_turn hturn
  generalize m.2 = move at hturns
  cases hturns with
  | rekey h' | post h' | refuseFlush h' | settle h' | take h' | endWait h' =>
    rw [hprogram] at h'
    cases h'
  | send h' =>
    obtain ⟨call?, hafter, -⟩ := Program.play_singleton_iff.mp hplay
    rw [hprogram] at hafter
    exact .queued (Prod.mk.inj (Option.some.inj hafter)).2.symm
  | refuse h' hstopped =>
    obtain ⟨call?, hafter, -⟩ := Program.play_singleton_iff.mp hplay
    rw [hprogram] at hafter
    refine .refused ?_ (Prod.mk.inj (Option.some.inj hafter)).2.symm
    rwa [← (Prod.mk.inj (Option.some.inj hact)).1]
  | @reply r houtside =>
    obtain ⟨call?, hafter, -⟩ := Program.play_singleton_iff.mp hplay
    rw [hprogram] at hafter
    cases r with
    | expired | rested | entered | exited | drawn => cases hafter
    | _ => cases houtside
  | work hown =>
    obtain ⟨-, hsame⟩ := Prod.mk.inj (Option.some.inj hplay)
    exact .idle hsame.symm

/-- A program that ended gets no reply any more. -/
theorem done_step {a : α} (hdone : p.program = .done a) (h : p.step m = some (p', events)) :
    p'.program = .done a ∧ reply? ⟨p, m, events⟩ = none := by
  obtain ⟨turn, calls, hturn, hplay, -, -⟩ := step_eq_some_iff.mp h
  rw [reply_of_turn hturn]
  cases hreply : turn.reply? with
  | none =>
    rw [hreply] at hplay
    obtain ⟨-, hsame⟩ := Prod.mk.inj (Option.some.inj hplay)
    exact ⟨by rw [← hsame, hdone], rfl⟩
  | some r =>
    rw [hreply, hdone] at hplay
    obtain ⟨call?, hafter, -⟩ := Program.play_singleton_iff.mp hplay
    cases hafter

/-- A program that does not flush has no message to see written. -/
theorem exists_idle {c : Connection} {program : Program α} (h : Runs (.start c program) journal p)
    (hne : ∀ contents next, p.program ≠ .flush contents next) :
    ∃ ticket, p.flush = .idle ticket := by
  have hidle : p.flush.isIdle = true :=
    (play_of_run h rfl).1.resolve_right fun ⟨contents, next, hflush⟩ => hne contents next hflush
  cases hflush : p.flush with
  | idle ticket => exact ⟨ticket, rfl⟩
  | waiting | ended =>
    rw [hflush] at hidle
    cases hidle

/-! ## A wait that is over -/

/-- Where everything is handed out, nothing is heard any more. -/
theorem envelope_of_isOver (h : p.step m = some (p', events)) (hover : p.IsOver) :
    (reply? ⟨p, m, events⟩).toList.filterMap Reply.envelope? = [] := by
  obtain ⟨turn, _, hturn, -⟩ := step_eq_some_iff.mp h
  rw [reply_of_turn hturn]
  have hturns := turns_of_turn hturn
  generalize m.2 = move at hturns
  cases hturns with
  | take _ hin =>
    rw [hover.2] at hin
    cases hin
  | @reply r houtside => cases r <;> first | rfl | cases houtside
  | _ => rfl

/-- A wait that ended without a message took everything that ever came. -/
theorem isOver_of_closed {before : List Envelope} {rest : List Reply}
    (h : Runs (.start c (.await limit accepts next)) journal p)
    (hnone : ∀ b ∈ before, b.isAccepted accepts = false)
    (heq : replies journal = before.map .heard ++ .closed :: rest) :
    p.IsOver ∧ heard journal = before := by
  induction h generalizing rest with
  | start => simp [replies] at heq
  | @move journal p p' m events hrun hstep ih =>
    have hheard := heard_move hrun hstep
    rw [replies_snoc] at heq
    -- once it is over, nothing is heard any more
    have hlater : p.IsOver ∧ heard journal = before →
        p'.IsOver ∧ heard (journal ++ [⟨p, m, events⟩]) = before := by
      intro hend
      refine ⟨isOver_step hstep hend.1, ?_⟩
      rw [hheard, envelope_of_isOver hstep hend.1, List.append_nil, hend.2]
    cases hreply : reply? ⟨p, m, events⟩ with
    | none =>
      rw [hreply, Option.toList_none, List.append_nil] at heq
      exact hlater (ih heq)
    | some r =>
      rw [hreply, Option.toList_some] at heq
      rcases List.eq_nil_or_concat rest with rfl | ⟨rest, last, rfl⟩
      · -- up to here the wait went on, and now it ends
        obtain ⟨hreplies, hlast⟩ := List.append_inj' heq rfl
        obtain rfl := List.singleton_inj.mp hlast
        obtain ⟨-, calls, hplay, -⟩ := play_of_run hrun rfl
        have hwaits := (Program.play_heard hnone).symm.trans (hreplies ▸ hplay)
        have hprogram := (Prod.mk.inj (Option.some.inj hwaits)).2
        have hheeds := await_step hprogram.symm hstep
        rw [hreply] at hheeds
        cases hheeds with
        | closed hover =>
          refine hlater ⟨hover, ?_⟩
          rw [heard_eq hrun, hreplies]
          simp [Reply.envelope?]
      · rw [List.concat_eq_append, ← List.cons_append, ← List.append_assoc] at heq
        exact hlater (ih (List.append_inj' heq rfl).1)

/-- What ended a wait at the beginning of a program is the first message that is accepted. -/
theorem firstMatch_of_waits {front rest : List Reply} {m : Message}
    {c : Connection} {program : Program α}
    (h : Runs (.start c program) journal p)
    (hwaits : Program.Waits limit accepts front (.matched m))
    (heq : replies journal = front ++ rest) :
    ∃ tail, firstMatch accepts (received c journal) = some (m, tail) := by
  cases hwaits with
  | @matched before e _ hnone hmessage haccepts =>
    refine ⟨rest.filterMap Reply.envelope? ++ p.connection.inbound,
      (firstMatch_eq_some_iff ..).mpr ⟨before, e, ?_, ?_, hmessage, haccepts⟩⟩
    · have hall : received c journal = heard journal ++ p.connection.inbound := received_eq h
      rw [hall, heard_eq h, heq]
      simp [Reply.envelope?]
    · simpa using hnone

theorem firstMatch_of_waits_closed {front rest : List Reply} {c : Connection}
    (h : Runs (.start c (.await limit accepts next)) journal p)
    (hwaits : Program.Waits limit accepts front .closed) (heq : replies journal = front ++ rest) :
    firstMatch accepts (received c journal) = none := by
  cases hwaits with
  | @closed before hnone =>
    rw [List.append_assoc] at heq
    obtain ⟨hover, hheard⟩ := isOver_of_closed h hnone heq
    have hall : received c journal = heard journal ++ p.connection.inbound := received_eq h
    rw [hall, hheard, hover.2, List.append_nil]
    exact firstMatch_eq_none_iff.mpr hnone

/-! ## Taking what waits -/

/-- At a moment the caller does what its program requests next. -/
abbrev Proceeds (now : Nat) (m : Nat × Move) : Prop := m = (now, .proceed)

section leads
variable {c : Connection} {now ticket : Nat} {rest : List Envelope}

/-- Who waits can take the next envelope at any moment. -/
theorem leads_heard (limit : Option Nat) (accepts : Message → Bool) (next : Awaited → Program α)
    (now ticket : Nat) {e : Envelope} (hin : c.inbound = e :: rest) :
    Leads step (Proceeds now) ⟨c, .await limit accepts next, .idle ticket⟩
      ⟨{ c with inbound := rest }, (Program.await limit accepts next).afterEnvelope e,
        .idle ticket⟩ := by
  have hturn : turn? ⟨c, .await limit accepts next, .idle ticket⟩ .proceed =
      some ⟨some .take, some (.heard e), .idle ticket⟩ := by
    simp [turn?, hin]
  have hplay := Program.play_singleton_iff.mpr
    ⟨none, (rfl : (Program.await limit accepts next).after (.heard e) = some _), rfl⟩
  have hact : c.act now (some .take) = some ({ c with inbound := rest }, [.took e]) := by
    simp [Connection.act, Connection.step, hin]
  exact .single rfl
    (step_eq_some_iff.mpr ⟨_, _, hturn, hplay, hact, Flush.foldl_heed_idle ..⟩)

/-- The wait ends once the connection is shut down and has handed out everything. -/
theorem leads_closed (hstopped : c.isStopped = true) (hin : c.inbound = []) :
    Leads step (Proceeds now) ⟨c, .await limit accepts next, .idle ticket⟩
      ⟨c, next .closed, .idle ticket⟩ := by
  have hturn : turn? ⟨c, .await limit accepts next, .idle ticket⟩ .proceed =
      some ⟨none, some .closed, .idle ticket⟩ := by
    simp [turn?, hin, hstopped]
  have hplay : (Program.await limit accepts next).play [.closed] = some ([], next .closed) := by
    cases limit <;> rfl
  exact .single rfl
    (step_eq_some_iff.mpr ⟨_, _, hturn, hplay, rfl, rfl⟩)

/-- What waits in the queue is gone through up to the first message that is accepted. -/
theorem leads_matched {m : Message} (h : firstMatch accepts c.inbound = some (m, rest)) :
    Leads step (Proceeds now) ⟨c, .await limit accepts next, .idle ticket⟩
      ⟨{ c with inbound := rest }, next (.matched m), .idle ticket⟩ := by
  generalize hin : c.inbound = es at h
  induction es generalizing c with
  | nil => cases h
  | cons e es ih =>
    have hfirst := leads_heard limit accepts next now ticket hin
    cases haccepted : e.isAccepted accepts with
    | false =>
      rw [Program.afterEnvelope_of_not_accepted haccepted] at hfirst
      have hrest : firstMatch accepts es = some (m, rest) := by
        rw [firstMatch] at h
        cases hmessage : e.message <;> simp_all [Envelope.isAccepted]
      exact hfirst.trans (ih rfl hrest)
    | true =>
      obtain ⟨m', hmessage, haccepts⟩ := Envelope.isAccepted_iff.mp haccepted
      rw [firstMatch, hmessage] at h
      simp only [haccepts, if_true, Option.some.injEq, Prod.mk.injEq] at h
      obtain ⟨rfl, rfl⟩ := h
      rwa [Program.afterEnvelope_of_accepted hmessage haccepts] at hfirst

/-- A queue in which no message is accepted is gone through to its end. -/
theorem leads_unmatched (h : firstMatch accepts c.inbound = none) :
    Leads step (Proceeds now) ⟨c, .await limit accepts next, .idle ticket⟩
      ⟨{ c with inbound := [] }, .await limit accepts next, .idle ticket⟩ := by
  rw [firstMatch_eq_none_iff] at h
  generalize hin : c.inbound = es at h
  induction es generalizing c with
  | nil =>
    rw [← hin]
    exact .refl _
  | cons e es ih =>
    obtain ⟨he, hes⟩ := List.forall_mem_cons.mp h
    have hfirst := leads_heard limit accepts next now ticket hin
    rw [Program.afterEnvelope_of_not_accepted he] at hfirst
    exact hfirst.trans (ih rfl hes)

end leads

/-! ## Waiting without limit -/

section listen
variable {β : Type} {c : Connection} {give : Message → BusResult β} {form : β → Message}
  {journal : Journal (BusResult β)} {p : Caller (BusResult β)}

/-- Waits without limit and makes a result of the message. -/
def listen (accepts : Message → Bool) (give : Message → BusResult β) : Program (BusResult β) :=
  .await none accepts fun
    | .matched m => .done (give m)
    | _ => .done (.error .closed)

/-- How far a wait without limit is. -/
inductive Listening (accepts : Message → Bool) (give : Message → BusResult β)
    (taken : List Envelope) (p : Caller (BusResult β)) : Prop where
  | waiting :
      p.program = listen accepts give → (∀ e ∈ taken, e.isAccepted accepts = false) →
      Listening accepts give taken p
  | matched {before : List Envelope} {e : Envelope} {m : Message} :
      p.program = .done (give m) → taken = before ++ [e] →
      (∀ b ∈ before, b.isAccepted accepts = false) → e.message = .ok m → accepts m = true →
      Listening accepts give taken p
  | closed :
      p.program = .done (.error .closed) → (∀ e ∈ taken, e.isAccepted accepts = false) →
      p.IsOver → Listening accepts give taken p

/-- One move brings a wait on by at most one envelope. -/
theorem listening_step {p' : Caller (BusResult β)} {taken : List Envelope}
    (h : Listening accepts give taken p) (hstep : p.step m = some (p', events)) :
    Listening accepts give
      (taken ++ (reply? ⟨p, m, events⟩).toList.filterMap Reply.envelope?) p' := by
  cases h with
  | waiting hprogram hnone =>
    have hheeds := await_step hprogram hstep
    generalize reply? ⟨p, m, events⟩ = reply? at hheeds ⊢
    cases hheeds with
    | idle hsame =>
      refine .waiting (hsame.trans hprogram) ?_
      simpa using hnone
    | skipped he hin hsame =>
      refine .waiting (hsame.trans hprogram) ?_
      simpa [Reply.envelope?, or_imp, forall_and] using ⟨hnone, he⟩
    | matched hmessage haccepts hin hnext => exact .matched hnext rfl hnone hmessage haccepts
    | closed hover hsame hnext =>
      refine .closed hnext ?_ (by rwa [IsOver, hsame])
      simpa [Reply.envelope?] using hnone
    | timedOut hlimit => cases hlimit
  | matched hdone htaken hnone hmessage haccepts =>
    obtain ⟨hdone', hreply⟩ := done_step hdone hstep
    rw [hreply]
    exact .matched hdone' (by simpa using htaken) hnone hmessage haccepts
  | closed hdone hnone hover =>
    obtain ⟨hdone', hreply⟩ := done_step hdone hstep
    rw [hreply]
    exact .closed hdone' (by simpa using hnone) (isOver_step hstep hover)

theorem listening_of_run (h : Runs (.start c (listen accepts give)) journal p) :
    Listening accepts give (heard journal) p := by
  induction h with
  | start => exact .waiting rfl fun _ he => nomatch he
  | move hrun hstep ih =>
    rw [heard_move hrun hstep]
    exact listening_step ih hstep

/-- What a wait without limit comes to, for messages that each carry a value. -/
structure Takes (accepts : Message → Bool) (form : β → Message) (c : Connection)
    (journal : Journal (BusResult β)) (p : Caller (BusResult β)) : Prop where
  /-- What came was taken, or is still in the queue. -/
  kept : received c journal = heard journal ++ p.connection.inbound
  /-- The wait ends with the first message that is accepted, and leaves what came after it. -/
  matched : ∀ b, p.program = .done (.ok b) →
    firstMatch accepts (received c journal) = some (form b, p.connection.inbound)
  /-- It fails when everything that will ever come was taken and no message was accepted. -/
  closed : ∀ e, p.program = .done (.error e) → e = .closed ∧
    firstMatch accepts (received c journal) = none ∧ p.IsOver
  /-- It can end as soon as a message came that is accepted. -/
  succeeds : ∀ now b rest, firstMatch accepts (received c journal) = some (form b, rest) →
    ∃ p', Leads step (Proceeds now) p p' ∧ p'.program = .done (.ok b) ∧ p'.connection.inbound = rest
  /-- It can end when the connection is shut down and no such message came. -/
  ends : ∀ now, firstMatch accepts (received c journal) = none → p.connection.isStopped = true →
    ∃ p', Leads step (Proceeds now) p p' ∧ p'.program = .done (.error .closed)

/-- Waiting takes what comes up to the first message that is accepted. -/
theorem takes_of_run (hform : ∀ m, accepts m = true → ∃ b, m = form b)
    (hgive : ∀ b, give (form b) = .ok b)
    (h : Runs (.start c (listen accepts give)) journal p) : Takes accepts form c journal p := by
  have hkept : received c journal = heard journal ++ p.connection.inbound := received_eq h
  have hidle := exists_idle h
  obtain ⟨c', program, flush⟩ := p
  cases listening_of_run h with
  | waiting hprogram hnone =>
    obtain rfl : program = listen accepts give := hprogram
    obtain ⟨ticket, rfl⟩ : ∃ ticket, flush = .idle ticket := hidle fun _ _ hflush => nomatch hflush
    have hfirst : firstMatch accepts (received c journal) = firstMatch accepts c'.inbound := by
      rw [hkept, firstMatch_append hnone]
    refine ⟨hkept, (fun _ hdone => nomatch hdone), (fun _ hdone => nomatch hdone), ?_, ?_⟩
    · intro _ b rest hmatch
      refine ⟨_, leads_matched (hfirst ▸ hmatch), ?_, rfl⟩
      simp only [hgive]
    · intro now hnomatch hstopped
      exact ⟨_, (leads_unmatched (hfirst ▸ hnomatch)).trans (leads_closed hstopped rfl), rfl⟩
  | @matched before e m hdone htaken hnone hmessage haccepts =>
    obtain ⟨b, rfl⟩ := hform m haccepts
    rw [hgive] at hdone
    have hfirst : firstMatch accepts (received c journal) = some (form b, c'.inbound) := by
      refine (firstMatch_eq_some_iff ..).mpr ⟨before, e, ?_, ?_, hmessage, haccepts⟩
      · rw [hkept, htaken, List.append_assoc]
        rfl
      · simpa using hnone
    refine ⟨hkept, ?_, ?_, ?_, ?_⟩
    · intro b' hdone'
      obtain rfl := Except.ok.inj (Program.done.inj (hdone.symm.trans hdone'))
      exact hfirst
    · intro err herror
      cases Program.done.inj (hdone.symm.trans herror)
    · intro now b' rest hmatch
      obtain ⟨hsame, rfl⟩ := Prod.mk.inj (Option.some.inj (hfirst.symm.trans hmatch))
      have hvalue : b = b' := Except.ok.inj ((hgive b).symm.trans (hsame ▸ hgive b'))
      exact ⟨_, .refl _, hvalue ▸ hdone, rfl⟩
    · intro _ hnomatch
      rw [hfirst] at hnomatch
      cases hnomatch
  | closed hdone hnone hover =>
    have hfirst : firstMatch accepts (received c journal) = none := by
      rw [hkept, firstMatch_append hnone, hover.2]
      rfl
    refine ⟨hkept, ?_, ?_, ?_, ?_⟩
    · intro b hdone'
      cases Program.done.inj (hdone.symm.trans hdone')
    · intro err herror
      obtain rfl := Except.error.inj (Program.done.inj (hdone.symm.trans herror))
      exact ⟨rfl, hfirst, hover⟩
    · intro _ b rest hmatch
      rw [hfirst] at hmatch
      cases hmatch
    · intro _ _ _
      exact ⟨_, .refl _, hdone⟩

end listen

/-! ## Lines of a stream -/

section lines
variable {c : Connection}

/-- Waits for a number of lines, one by one, and adds them to what was waited for before. -/
def nextLines (results : List (BusResult (String × String))) :
    Nat → Program (List (BusResult (String × String)))
  | 0 => .done results
  | n + 1 => Request.nextLine.run.bind fun result => nextLines (results ++ [result]) n

/-- The line of a stream that an envelope holds. -/
def line? (e : Envelope) : Option (String × String) :=
  match e.message with
  | .ok (.stream identifier data) => some (identifier, data)
  | _ => none

/-- What becomes of a message that is waited for as a line. -/
def lineOf : Message → BusResult (String × String)
  | .stream identifier data => .ok (identifier, data)
  | _ => .error .closed

theorem nextLine_eq : Request.nextLine.run = listen Request.isLine lineOf := by
  apply Program.await_congr
  · intro m
    cases m <;> rfl
  · rfl
  · rfl

theorem nextLines_succ (results : List (BusResult (String × String))) (n : Nat) :
    nextLines results (n + 1) = .await none Request.isLine fun
      | .matched m => nextLines (results ++ [lineOf m]) n
      | _ => nextLines (results ++ [.error .closed]) n := by
  rw [nextLines, nextLine_eq]
  exact Program.await_congr (fun _ => rfl) rfl rfl

theorem line_of_accepted {e : Envelope} {m : Message} (hmessage : e.message = .ok m)
    (h : Request.isLine m = true) : ∃ line, lineOf m = .ok line ∧ line? e = some line := by
  cases m with
  | stream identifier data => exact ⟨(identifier, data), rfl, by simp [line?, hmessage]⟩
  | _ => cases h

theorem line_of_not_accepted {e : Envelope} (h : e.isAccepted Request.isLine = false) :
    line? e = none := by
  unfold line?
  split
  · next hmessage => simp [Envelope.isAccepted, hmessage, Request.isLine] at h
  · rfl

/-- The lines that were taken, and then failures. -/
def resultsOf (taken : List Envelope) (failed : Nat) : List (BusResult (String × String)) :=
  (taken.filterMap line?).map .ok ++ List.replicate failed (.error .closed)

/-- How far the lines are. -/
structure Reading (n : Nat) (taken : List Envelope)
    (p : Caller (List (BusResult (String × String)))) (failed left : Nat) : Prop where
  program : p.program = nextLines (resultsOf taken failed) left
  counted : (taken.filterMap line?).length + failed + left = n
  isOver : 0 < failed → p.IsOver

/-- One move ends at most one of the waits. -/
theorem reading_step {n failed left : Nat} {taken : List Envelope}
    {p p' : Caller (List (BusResult (String × String)))} (h : Reading n taken p failed left)
    (hstep : p.step m = some (p', events)) :
    ∃ failed left, Reading n
      (taken ++ (reply? ⟨p, m, events⟩).toList.filterMap Reply.envelope?) p' failed left := by
  have hover : 0 < failed → p'.IsOver := fun hfailed => isOver_step hstep (h.isOver hfailed)
  cases left with
  | zero =>
    obtain ⟨hdone, hreply⟩ := done_step h.program hstep
    rw [hreply, Option.toList_none, List.filterMap_nil, List.append_nil]
    exact ⟨failed, 0, hdone, h.counted, hover⟩
  | succ left =>
    have hprogram := h.program.trans (nextLines_succ _ _)
    have hcounted := h.counted
    have hheeds := await_step hprogram hstep
    generalize reply? ⟨p, m, events⟩ = reply? at hheeds ⊢
    cases hheeds with
    | idle hsame =>
      refine ⟨failed, left + 1, ?_, ?_, hover⟩
      · simpa using hsame.trans h.program
      · simpa using h.counted
    | @skipped _ e he hin hsame =>
      have hnone := line_of_not_accepted he
      refine ⟨failed, left + 1, ?_, ?_, hover⟩
      · simpa [resultsOf, Reply.envelope?, hnone] using hsame.trans h.program
      · simpa [Reply.envelope?, hnone] using h.counted
    | @matched _ e m' hmessage haccepts hin hnext =>
      -- after a failure nothing is heard any more
      obtain rfl : failed = 0 := by
        by_contra hfailed
        rw [(h.isOver (Nat.pos_of_ne_zero hfailed)).2] at hin
        cases hin
      obtain ⟨line, hvalue, hline⟩ := line_of_accepted hmessage haccepts
      refine ⟨0, left, ?_, ?_, fun hfailed => absurd hfailed (Nat.lt_irrefl 0)⟩
      · simpa [resultsOf, Reply.envelope?, hline, hvalue] using hnext
      · simp [Reply.envelope?, hline]
        omega
    | closed hended hsame hnext =>
      rw [show (some Reply.closed).toList.filterMap Reply.envelope? = [] from rfl,
        List.append_nil]
      refine ⟨failed + 1, left, ?_, by omega, fun _ => by rwa [IsOver, hsame]⟩
      rw [hnext, resultsOf, resultsOf, List.replicate_succ', List.append_assoc]
    | timedOut hlimit => cases hlimit

theorem reading_of_run {n : Nat} {journal : Journal (List (BusResult (String × String)))}
    {p : Caller (List (BusResult (String × String)))}
    (h : Runs (.start c (nextLines [] n)) journal p) :
    ∃ failed left, Reading n (heard journal) p failed left := by
  induction h with
  | start => exact ⟨0, n, rfl, by simp [heard, link, Connection.taken], fun h => absurd h (by simp)⟩
  | move hrun hstep ih =>
    obtain ⟨failed, left, hreading⟩ := ih
    rw [heard_move hrun hstep]
    exact reading_step hreading hstep

theorem lines_of_firstMatch {es rest : List Envelope} {m : Message}
    (h : firstMatch Request.isLine es = some (m, rest)) :
    (es.filterMap line?).length = (rest.filterMap line?).length + 1 := by
  obtain ⟨before, e, rfl, hbefore, hmessage, haccepts⟩ := (firstMatch_eq_some_iff ..).mp h
  obtain ⟨line, -, hline⟩ := line_of_accepted hmessage haccepts
  have hnone : before.filterMap line? = [] := by
    apply List.filterMap_eq_nil_iff.mpr
    intro b hb
    exact line_of_not_accepted (by simpa using List.all_eq_true.mp hbefore b hb)
  rw [List.filterMap_append, hnone, List.nil_append, List.filterMap_cons_some hline,
    List.length_cons]

theorem lines_of_no_match {es : List Envelope} (h : firstMatch Request.isLine es = none) :
    es.filterMap line? = [] := by
  rw [firstMatch_eq_none_iff] at h
  exact List.filterMap_eq_nil_iff.mpr fun e he => line_of_not_accepted (h e he)

/-- The waits end once enough lines wait in the queue, or the connection is shut down. -/
theorem leads_nextLines {now left ticket : Nat} {results : List (BusResult (String × String))}
    (h : left ≤ (c.inbound.filterMap line?).length ∨ c.isStopped = true) :
    ∃ c' results', Leads step (Proceeds now) ⟨c, nextLines results left, .idle ticket⟩
      ⟨c', .done results', .idle ticket⟩ := by
  induction left generalizing c results with
  | zero => exact ⟨c, results, .refl _⟩
  | succ left ih =>
    rw [nextLines_succ]
    cases hfirst : firstMatch Request.isLine c.inbound with
    | some found =>
      obtain ⟨m, rest⟩ := found
      have hlines := lines_of_firstMatch hfirst
      have hrest : left ≤ (rest.filterMap line?).length ∨ c.isStopped = true :=
        h.imp_left fun hle => by omega
      obtain ⟨c', results', hleads⟩ := ih (c := { c with inbound := rest }) hrest
      exact ⟨c', results', (leads_matched hfirst).trans hleads⟩
    | none =>
      have hstopped : c.isStopped = true := by
        refine h.resolve_left ?_
        rw [lines_of_no_match hfirst]
        simp
      obtain ⟨c', results', hleads⟩ := ih (c := { c with inbound := [] }) (.inr hstopped)
      refine ⟨c', results', ?_⟩
      exact ((leads_unmatched hfirst).trans (leads_closed hstopped rfl)).trans hleads

/-- What waiting for a number of lines comes to. -/
structure TakesLines (n : Nat) (c : Connection)
    (journal : Journal (List (BusResult (String × String))))
    (p : Caller (List (BusResult (String × String)))) : Prop where
  /-- What came was taken, or is still in the queue. -/
  kept : received c journal = heard journal ++ p.connection.inbound
  /-- The lines are those that came, in that order; where they are too few, nothing comes any
  more. -/
  results : ∀ results, p.program = .done results →
    results = (((received c journal).filterMap line?).take n).map .ok ++
      List.replicate (n - ((received c journal).filterMap line?).length) (.error .closed) ∧
    (((received c journal).filterMap line?).length < n → p.IsOver)
  /-- The waits can end when enough lines came, or the connection is shut down. -/
  ends : ∀ now, n ≤ ((received c journal).filterMap line?).length ∨ p.connection.isStopped = true →
    ∃ p' results, Leads step (Proceeds now) p p' ∧ p'.program = .done results

theorem takesLines_of_run {n : Nat} {journal : Journal (List (BusResult (String × String)))}
    {p : Caller (List (BusResult (String × String)))}
    (h : Runs (.start c (nextLines [] n)) journal p) : TakesLines n c journal p := by
  have hkept : received c journal = heard journal ++ p.connection.inbound := received_eq h
  obtain ⟨failed, left, hprogram, hcounted, hover⟩ := reading_of_run h
  have hlines : (received c journal).filterMap line? =
      (heard journal).filterMap line? ++ p.connection.inbound.filterMap line? := by
    rw [hkept, List.filterMap_append]
  refine ⟨hkept, ?_, ?_⟩
  · intro results hdone
    obtain rfl : left = 0 := by
      cases left with
      | zero => rfl
      | succ left =>
        rw [hprogram, nextLines_succ] at hdone
        cases hdone
    obtain rfl := Program.done.inj (hprogram.symm.trans hdone)
    rw [hlines, resultsOf, List.length_append]
    cases failed with
    | zero =>
      rw [List.take_append_of_le_length (by omega), List.take_of_length_le (by omega)]
      refine ⟨?_, fun hfew => absurd hfew (by omega)⟩
      rw [show n - (_ + _) = 0 by omega]
    | succ failed =>
      have hended := hover (Nat.succ_pos failed)
      rw [hended.2, List.filterMap_nil, List.append_nil, List.length_nil,
        List.take_of_length_le (by omega)]
      refine ⟨?_, fun _ => hended⟩
      rw [show n - (_ + 0) = failed + 1 by omega]
  · intro now henough
    obtain ⟨ticket, hflush⟩ : ∃ ticket, p.flush = .idle ticket := by
      refine exists_idle h ?_
      rw [hprogram]
      cases left with
      | zero => exact fun _ _ hne => nomatch hne
      | succ left =>
        rw [nextLines_succ]
        exact fun _ _ hne => nomatch hne
    have hleft : left ≤ (p.connection.inbound.filterMap line?).length ∨
        p.connection.isStopped = true := by
      rcases Nat.eq_zero_or_pos failed with rfl | hfailed
      · refine henough.imp_left fun hle => ?_
        rw [hlines, List.length_append] at hle
        omega
      · exact .inr (hover hfailed).1
    obtain ⟨c', program, flush⟩ := p
    obtain rfl : program = _ := hprogram
    obtain rfl : flush = _ := hflush
    obtain ⟨c'', results, hleads⟩ := leads_nextLines hleft
    exact ⟨_, results, hleads, rfl⟩

end lines

end Caller

end MessageBus
