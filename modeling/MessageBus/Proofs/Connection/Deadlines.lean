import MessageBus.Proofs.Connection.Confirmations
import MessageBus.Proofs.Connection.Listening

/-! # Requests that are answered in time

    A request waits for its answer up to a limit.  The clock does not pass over
    the end of a wait, and what has come by then is looked at before the wait runs
    out.  So a request that is given up was not answered within its limit, and one
    that is answered within its limit is not given up.

    * `Timed.step`: a caller with a clock.
    * `exchanging_of_run`: how far a request is.
    * `answers_of_run`: a request succeeds just when it is answered in time.
    * `first_match_taken`: what waiting takes, with a limit and without. -/

namespace MessageBus

/-- The moment up to which a program waits if it waits from a moment on. -/
def Program.due {α : Type} (now : Nat) : Program α → Option Nat
  | .await (some limit) _ _ => some (now + limit)
  | _ => none

/-- Whether a program is still at the same request after a move, by the reply that it got. -/
def Program.staysOn {α : Type} : Program α → Option Reply → Bool
  | _, none => true
  | .await _ accepts _, some (.heard e) => !e.isAccepted accepts
  | _, some _ => false

/-- Whether a program has ended. -/
def Program.isDone {α : Type} : Program α → Bool
  | .done _ => true
  | _ => false

/-- A caller, the time, and the moment up to which it waits. -/
structure Timed (α : Type) where
  caller : Caller α
  now : Nat
  due : Option Nat

namespace Timed

variable {α : Type}

/-- A caller that begins at a moment. -/
def start (c : Connection) (program : Program α) (now : Nat) : Timed α :=
  ⟨.start c program, now, program.due now⟩

/-- What happens to a caller with a clock. -/
inductive Move where
  /-- Time passes. -/
  | pass (duration : Nat)
  /-- The caller or its connection does something. -/
  | act (m : Caller.Move)

/-- Whether a wait runs out now: its end is reached, and nothing is left to look at. -/
def isRunOut (s : Timed α) : Bool :=
  s.due.any (· ≤ s.now) && s.caller.connection.inbound.isEmpty && !s.caller.connection.isStopped

/-- Whether a move is that a wait runs out. -/
def isExpiry : Caller.Move → Bool
  | .reply .expired => true
  | _ => false

/-- The reply that a program gets in a move. -/
def replyTo (s : Timed α) (m : Caller.Move) : Option Reply :=
  Caller.reply? ⟨s.caller, (s.now, m), []⟩

/-- The moment up to which a caller waits after a move. -/
def dueAfter (s : Timed α) (m : Caller.Move) (caller : Caller α) : Option Nat :=
  if s.caller.program.staysOn (s.replyTo m) then s.due else caller.program.due s.now

/-- The transition for a move. -/
def step (s : Timed α) : Move → Option (Timed α × List Connection.Event)
  | .pass duration =>
    -- the time does not pass over the end of a wait
    if s.due.all (s.now + duration ≤ ·) then some ({ s with now := s.now + duration }, [])
    else none
  | .act m =>
    if isExpiry m && !s.isRunOut then none
    else (s.caller.step (s.now, m)).map fun (caller, events) =>
      (⟨caller, s.now, s.dueAfter m caller⟩, events)

/-- A trace of a caller with a clock. -/
abbrev Trace (α : Type) := List (Stage (Timed α) Move Connection.Event)

/-- A run of a caller with a clock. -/
abbrev Runs (s₀ : Timed α) (trace : Trace α) (s : Timed α) : Prop := Run step s₀ trace s

variable {s s' s₀ : Timed α} {trace : Trace α} {m : Move} {events : List Connection.Event}

theorem reply_eq (s : Timed α) (a : Caller.Move) (events : List Connection.Event) :
    Caller.reply? ⟨s.caller, (s.now, a), events⟩ = s.replyTo a := rfl

/-- What a move of a caller with a clock comes down to. -/
theorem step_cases (h : s.step m = some (s', events)) :
    (∃ duration, m = .pass duration ∧ (∀ due, s.due = some due → s.now + duration ≤ due) ∧
      s' = { s with now := s.now + duration } ∧ events = []) ∨
    ∃ a caller, m = .act a ∧ (isExpiry a = true → s.isRunOut = true) ∧
      s.caller.step (s.now, a) = some (caller, events) ∧
        s' = ⟨caller, s.now, s.dueAfter a caller⟩ := by
  cases m with
  | pass duration =>
    simp only [step, Option.ite_none_right_eq_some] at h
    obtain ⟨hdue, h⟩ := h
    cases h
    refine .inl ⟨duration, rfl, ?_, rfl, rfl⟩
    intro due hsome
    simpa [hsome] using hdue
  | act a =>
    simp only [step, Option.ite_none_left_eq_some] at h
    obtain ⟨hexpiry, h⟩ := h
    obtain ⟨⟨caller, events'⟩, hstep, heq⟩ := Option.map_eq_some_iff.mp h
    cases heq
    refine .inr ⟨a, caller, rfl, ?_, hstep, rfl⟩
    intro ha
    simpa [ha] using hexpiry

theorem step_act {a : Caller.Move} {caller : Caller α}
    (hcaller : s.caller.step (s.now, a) = some (caller, events))
    (hexpiry : isExpiry a = true → s.isRunOut = true) :
    s.step (.act a) = some (⟨caller, s.now, s.dueAfter a caller⟩, events) := by
  have hguard : (isExpiry a && !s.isRunOut) = false := by
    cases ha : isExpiry a with
    | false => rfl
    | true => rw [hexpiry ha]; rfl
  simp only [step, hguard, Bool.false_eq_true, if_false, hcaller, Option.map_some]

/-! ## What happened, and when -/

/-- What a stage is for the caller, if anything. -/
def stage? (st : Stage (Timed α) Move Connection.Event) :
    Option (Stage (Caller α) (Nat × Caller.Move) Connection.Event) :=
  match st.move with
  | .pass _ => none
  | .act m => some ⟨st.before.caller, (st.before.now, m), st.events⟩

/-- What happened to the caller. -/
def journal (trace : Trace α) : Caller.Journal α := trace.filterMap stage?

/-- What came while the program was under way, and when. -/
def arrivals (trace : Trace α) : List (Nat × Envelope) :=
  trace.flatMap fun st =>
    if st.before.caller.program.isDone then []
    else (st.events.filterMap Connection.Event.delivered?).map (st.before.now, ·)

/-- The moment at which a message of the caller is put into the outbound queue. -/
def queuedAt? (st : Stage (Timed α) Move Connection.Event) : Option Nat :=
  match st.move with
  | .pass _ => none
  | .act m =>
    match st.before.replyTo m with
    | some .queued => some st.before.now
    | _ => none

/-- The moments at which messages of the caller were put into the outbound queue. -/
def queuedAt (trace : Trace α) : List Nat := trace.filterMap queuedAt?

section snoc
variable (trace : Trace α) (st : Stage (Timed α) Move Connection.Event)

theorem journal_snoc : journal (trace ++ [st]) = journal trace ++ (stage? st).toList := by
  cases h : stage? st <;> simp [journal, h]

theorem queuedAt_snoc : queuedAt (trace ++ [st]) = queuedAt trace ++ (queuedAt? st).toList := by
  cases h : queuedAt? st <;> simp [queuedAt, h]

theorem arrivals_snoc :
    arrivals (trace ++ [st]) = arrivals trace ++
      if st.before.caller.program.isDone then []
      else (st.events.filterMap Connection.Event.delivered?).map (st.before.now, ·) := by
  simp [arrivals]

end snoc

/-- What happened to the caller is a run of it. -/
theorem runs_journal (h : Runs s₀ trace s) : Caller.Runs s₀.caller (journal trace) s.caller := by
  induction h with
  | start => exact .start
  | @move trace s s' m events _ hstep ih =>
    rw [journal_snoc]
    obtain ⟨duration, rfl, -, rfl, rfl⟩ | ⟨a, caller, rfl, -, hcaller, rfl⟩ := step_cases hstep
    · simpa [stage?] using ih
    · exact ih.move hcaller

/-- What came is never later than now. -/
theorem arrivals_le (h : Runs s₀ trace s) : ∀ a ∈ arrivals trace, a.1 ≤ s.now := by
  induction h with
  | start => exact fun a ha => nomatch ha
  | @move trace s s' m events _ hstep ih =>
    have hle : s.now ≤ s'.now := by
      obtain ⟨duration, -, -, rfl, -⟩ | ⟨a, caller, -, -, -, rfl⟩ := step_cases hstep
      · exact Nat.le_add_right ..
      · exact Nat.le_refl _
    intro a ha
    rw [arrivals_snoc, List.mem_append] at ha
    rcases ha with hbefore | hnow
    · exact (ih a hbefore).trans hle
    · have hmoment : a.1 = s.now := by
        split at hnow
        · cases hnow
        · obtain ⟨e, -, rfl⟩ := List.mem_map.mp hnow
          rfl
      omega

/-- As long as a program is under way, all that comes counts. -/
theorem arrivals_move {a : Caller.Move} {caller : Caller α}
    (h : (arrivals trace).map (·.2) = Connection.delivered (Caller.link (journal trace)))
    (hopen : s.caller.program.isDone = false)
    (hcaller : s.caller.step (s.now, a) = some (caller, events)) :
    (arrivals (trace ++ [⟨s, .act a, events⟩])).map (·.2)
      = Connection.delivered (Caller.link (journal (trace ++ [⟨s, .act a, events⟩]))) := by
  rw [arrivals_snoc, journal_snoc, List.map_append, h]
  refine Eq.trans ?_ (Caller.delivered_move (journal trace) hcaller).symm
  simp [hopen, Function.comp_def]

theorem arrivals_eq (h : Runs s₀ trace s) (hopen : s.caller.program.isDone = false) :
    (arrivals trace).map (·.2) = Connection.delivered (Caller.link (journal trace)) := by
  induction h with
  | start => rfl
  | @move trace s s' m events _ hstep ih =>
    obtain ⟨duration, rfl, -, rfl, rfl⟩ | ⟨a, caller, rfl, -, hcaller, rfl⟩ := step_cases hstep
    · rw [arrivals_snoc, journal_snoc, List.map_append]
      simpa [stage?] using ih hopen
    · -- a program that had ended before would have stayed so
      have hbefore : s.caller.program.isDone = false := by
        cases hprogram : s.caller.program with
        | done r =>
          rw [(Caller.done_step hprogram hcaller).1] at hopen
          cases hopen
        | _ => rfl
      exact arrivals_move (ih hbefore) hbefore hcaller

/-- A wait runs out by a reply from outside. -/
theorem isExpiry_of_expired {a : Caller.Move} (h : s.replyTo a = some .expired) :
    isExpiry a = true := by
  simp only [replyTo, Caller.reply?] at h
  obtain ⟨turn, hturn, hreply⟩ := Option.bind_eq_some_iff.mp h
  cases Caller.turns_of_turn hturn with
  | @reply r houtside =>
    cases hreply
    rfl
  | _ => cases hreply

/-! ## Exchanges with a clock -/

section exchange
variable {β : Type} {c : Connection} {message : Message} {limit : Nat} {what : String}
  {confirms : Message → Bool} {result : β} {s s' : Timed (BusResult β)}
  {trace : Trace (BusResult β)}
  {began now : Nat}

/-- The failure of an exchange that is not confirmed in time. -/
def lateness (what : String) (limit : Nat) : BusError :=
  .timeout ("no " ++ what ++ " within " ++ Text.duration limit)

/-- What is done when the wait for a confirmation is over. -/
def afterWait (what : String) (limit : Nat) (result : β) : Awaited → Program (BusResult β)
  | .matched _ => .done (.ok result)
  | .timedOut => .done (.error (lateness what limit))
  | .closed => .done (.error .closed)

/-- What comes to an exchange while it is under way, and what its queue holds at first. -/
def comes (c : Connection) (trace : Trace (BusResult β)) : List Envelope :=
  c.inbound ++ (arrivals trace).map (·.2)

/-- How far an exchange is. -/
inductive Exchanging (c : Connection) (message : Message) (limit : Nat) (what : String)
    (confirms : Message → Bool) (result : β) (trace : Trace (BusResult β))
    (s : Timed (BusResult β)) : Prop where
  | queueing :
      s.caller.program = (Request.exchange message limit what confirms result).run →
      s.due = none → queuedAt trace = [] → Caller.heard (journal trace) = [] →
      Exchanging c message limit what confirms result trace s
  | waiting {began : Nat} :
      s.caller.program = .await (some limit) confirms (afterWait what limit result) →
      s.due = some (began + limit) → queuedAt trace = [began] → s.now ≤ began + limit →
      (∀ e ∈ Caller.heard (journal trace), e.isAccepted confirms = false) →
      Exchanging c message limit what confirms result trace s
  | succeeded {began : Nat} :
      s.caller.program = .done (.ok result) → queuedAt trace = [began] →
      (∀ a ∈ arrivals trace, a.1 ≤ began + limit) →
      (∃ e ∈ comes c trace, e.isAccepted confirms = true) →
      Exchanging c message limit what confirms result trace s
  | gaveUp {began : Nat} :
      s.caller.program = .done (.error (lateness what limit)) → queuedAt trace = [began] →
      (∀ a ∈ arrivals trace, a.1 ≤ began + limit) → began + limit ≤ s.now →
      (∀ e ∈ comes c trace, e.isAccepted confirms = false) →
      Exchanging c message limit what confirms result trace s
  | closed :
      s.caller.program = .done (.error .closed) → s.caller.connection.isStopped = true →
      Exchanging c message limit what confirms result trace s

theorem run_exchange_eq : (Request.exchange message limit what confirms result).run =
    .queue message.toFields fun
      | .ok _ => .await (some limit) confirms (afterWait what limit result)
      | .error e => .done (.error e) := by
  rw [Request.run_exchange]
  apply Program.queue_congr
  · exact Program.await_congr (fun _ => rfl) rfl rfl
  · exact fun _ => rfl

/-- What becomes of an exchange when time passes. -/
theorem exchanging_pass (hx : Exchanging c message limit what confirms result trace s)
    {duration : Nat} (hdue : ∀ due, s.due = some due → s.now + duration ≤ due) :
    Exchanging c message limit what confirms result (trace ++ [⟨s, .pass duration, []⟩])
      { s with now := s.now + duration } := by
  have hqueued : queuedAt (trace ++ [⟨s, .pass duration, []⟩]) = queuedAt trace := by
    rw [queuedAt_snoc]
    exact List.append_nil _
  have harrivals : arrivals (trace ++ [⟨s, .pass duration, []⟩]) = arrivals trace := by
    rw [arrivals_snoc]
    simp
  have hcomes : comes c (trace ++ [⟨s, .pass duration, []⟩]) = comes c trace := by
    rw [comes, harrivals, comes]
  have hjournal : journal (trace ++ [⟨s, .pass duration, []⟩]) = journal trace := by
    rw [journal_snoc]
    exact List.append_nil _
  cases hx with
  | queueing hprogram hnone hbegan hheard =>
    exact .queueing hprogram hnone (hqueued.trans hbegan) (hjournal ▸ hheard)
  | waiting hprogram hsome hbegan hnow hheard =>
    exact .waiting hprogram hsome (hqueued.trans hbegan) (hdue _ hsome) (hjournal ▸ hheard)
  | succeeded hdone hbegan hwithin hfound =>
    exact .succeeded hdone (hqueued.trans hbegan) (harrivals ▸ hwithin) (hcomes ▸ hfound)
  | gaveUp hdone hbegan hwithin hlate hnone =>
    have hlater := hlate.trans (Nat.le_add_right s.now duration)
    exact .gaveUp hdone (hqueued.trans hbegan) (harrivals ▸ hwithin) hlater
      (hcomes ▸ hnone)
  | closed hdone hstopped => exact .closed hdone hstopped

section act
variable {a : Caller.Move} {caller : Caller (BusResult β)} {events : List Connection.Event}

theorem heard_act {s₀ : Timed (BusResult β)} (h : Runs s₀ trace s)
    (hcaller : s.caller.step (s.now, a) = some (caller, events)) :
    Caller.heard (journal (trace ++ [⟨s, .act a, events⟩])) =
      Caller.heard (journal trace) ++ (s.replyTo a).toList.filterMap Reply.envelope? := by
  rw [journal_snoc]
  exact Caller.heard_move (runs_journal h) hcaller

/-- Until a program has ended, what came was taken or waits in the queue. -/
theorem comes_act {program : Program (BusResult β)} (h : Runs (start c program now) trace s)
    (hopen : s.caller.program.isDone = false)
    (hcaller : s.caller.step (s.now, a) = some (caller, events)) :
    comes c (trace ++ [⟨s, .act a, events⟩]) =
      Caller.heard (journal (trace ++ [⟨s, .act a, events⟩])) ++ caller.connection.inbound := by
  rw [comes, arrivals_move (arrivals_eq h hopen) hopen hcaller, journal_snoc]
  exact Caller.received_eq ((runs_journal h).move hcaller)

/-- What becomes of an exchange whose message is not queued yet. -/
theorem exchanging_queueing
    (h : Runs (start c (Request.exchange message limit what confirms result).run now) trace s)
    (hprogram : s.caller.program = (Request.exchange message limit what confirms result).run)
    (hnone : s.due = none) (hbegan : queuedAt trace = [])
    (hheardNone : Caller.heard (journal trace) = [])
    (hcaller : s.caller.step (s.now, a) = some (caller, events)) :
    Exchanging c message limit what confirms result (trace ++ [⟨s, .act a, events⟩])
      ⟨caller, s.now, s.dueAfter a caller⟩ := by
  have hheard := heard_act h hcaller
  have hqueued := queuedAt_snoc trace ⟨s, .act a, events⟩
  have hposts := Caller.queue_step (hprogram.trans run_exchange_eq) hcaller
  rw [reply_eq] at hposts
  simp only [queuedAt?] at hqueued
  rw [dueAfter]
  generalize s.replyTo a = reply? at hposts hheard hqueued ⊢
  rw [hbegan, List.nil_append] at hqueued
  rw [hheardNone, List.nil_append] at hheard
  cases hposts with
  | idle hsame => exact .queueing (hsame.trans hprogram) hnone hqueued hheard
  | queued hnext =>
    have hdue : (if s.caller.program.staysOn (some .queued) then s.due
        else caller.program.due s.now) = some (s.now + limit) := by
      rw [hprogram, run_exchange_eq, hnext]
      rfl
    rw [hdue]
    refine .waiting hnext rfl hqueued (Nat.le_add_right ..) ?_
    rw [hheard]
    exact fun e he => nomatch he
  | refused hstopped hnext => exact .closed hnext hstopped

/-- What becomes of an exchange that waits. -/
theorem exchanging_waiting {began : Nat}
    (h : Runs (start c (Request.exchange message limit what confirms result).run now) trace s)
    (hprogram : s.caller.program = .await (some limit) confirms (afterWait what limit result))
    (hsome : s.due = some (began + limit)) (hbegan : queuedAt trace = [began])
    (hnow : s.now ≤ began + limit)
    (hheardNone : ∀ e ∈ Caller.heard (journal trace), e.isAccepted confirms = false)
    (hexpiry : isExpiry a = true → s.isRunOut = true)
    (hcaller : s.caller.step (s.now, a) = some (caller, events))
    (hwithin : ∀ x ∈ arrivals (trace ++ [⟨s, .act a, events⟩]), x.1 ≤ s.now) :
    Exchanging c message limit what confirms result (trace ++ [⟨s, .act a, events⟩])
      ⟨caller, s.now, s.dueAfter a caller⟩ := by
  have hopen : s.caller.program.isDone = false := by
    rw [hprogram]
    rfl
  have hcame := comes_act h hopen hcaller
  have hheard := heard_act h hcaller
  have hqueued := queuedAt_snoc trace ⟨s, .act a, events⟩
  have hheeds := Caller.await_step hprogram hcaller
  rw [reply_eq] at hheeds
  have hexpired := isExpiry_of_expired (s := s) (a := a)
  simp only [queuedAt?] at hqueued
  rw [dueAfter]
  generalize s.replyTo a = reply? at hheeds hheard hqueued hexpired ⊢
  rw [hbegan] at hqueued
  cases hheeds with
  | idle hsame =>
    rw [Program.staysOn, if_pos rfl]
    refine .waiting (hsame.trans hprogram) hsome hqueued hnow ?_
    rw [hheard]
    simpa using hheardNone
  | @skipped _ e he hin hsame =>
    rw [hprogram, Program.staysOn, he, Bool.not_false, if_pos rfl]
    refine .waiting (hsame.trans hprogram) hsome hqueued hnow ?_
    rw [hheard]
    simpa [Reply.envelope?, or_imp, forall_and] using ⟨hheardNone, he⟩
  | @matched _ e m hmessage hconfirms hin hnext =>
    refine .succeeded hnext hqueued (fun x hx => (hwithin x hx).trans hnow) ⟨e, ?_, ?_⟩
    · rw [hcame, hheard]
      simp [Reply.envelope?]
    · exact Envelope.isAccepted_iff.mpr ⟨m, hmessage, hconfirms⟩
  | closed hover hsame hnext => exact .closed hnext (hsame ▸ hover.1)
  | timedOut hlimit hsame hnext =>
    -- the wait runs out at its end, when nothing is left to look at
    have hrunOut := hexpiry (hexpired rfl)
    simp only [isRunOut, hsome, Option.any_some, Bool.and_eq_true, decide_eq_true_eq,
      List.isEmpty_iff] at hrunOut
    obtain ⟨⟨hdue, hin⟩, -⟩ := hrunOut
    refine .gaveUp hnext hqueued (fun x hx => (hwithin x hx).trans hnow) hdue ?_
    rw [hcame, hheard, hsame, hin]
    simpa [Reply.envelope?] using hheardNone

/-- A program that has ended queues nothing, and what comes then does not count. -/
theorem same_of_done (trace : Trace (BusResult β)) {r : BusResult β}
    (hdone : s.caller.program = .done r)
    (hcaller : s.caller.step (s.now, a) = some (caller, events)) :
    caller.program = .done r ∧ queuedAt (trace ++ [⟨s, .act a, events⟩]) = queuedAt trace ∧
      arrivals (trace ++ [⟨s, .act a, events⟩]) = arrivals trace := by
  obtain ⟨hdone', hquiet⟩ := Caller.done_step hdone hcaller
  have hreply : s.replyTo a = none := hquiet
  refine ⟨hdone', ?_, ?_⟩
  · rw [queuedAt_snoc]
    simp [queuedAt?, hreply]
  · rw [arrivals_snoc, hdone]
    exact List.append_nil _

/-- What becomes of an exchange when the caller or its connection does something. -/
theorem exchanging_act
    (h : Runs (start c (Request.exchange message limit what confirms result).run now) trace s)
    (hx : Exchanging c message limit what confirms result trace s)
    (hexpiry : isExpiry a = true → s.isRunOut = true)
    (hcaller : s.caller.step (s.now, a) = some (caller, events))
    (hwithin : ∀ x ∈ arrivals (trace ++ [⟨s, .act a, events⟩]), x.1 ≤ s.now) :
    Exchanging c message limit what confirms result (trace ++ [⟨s, .act a, events⟩])
      ⟨caller, s.now, s.dueAfter a caller⟩ := by
  cases hx with
  | queueing hprogram hnone hbegan hheard =>
    exact exchanging_queueing h hprogram hnone hbegan hheard hcaller
  | waiting hprogram hsome hbegan hnow hheard =>
    exact exchanging_waiting h hprogram hsome hbegan hnow hheard hexpiry hcaller hwithin
  | succeeded hdone hbegan hbefore hfound =>
    obtain ⟨hdone', hqueued, harrivals⟩ := same_of_done trace hdone hcaller
    refine .succeeded hdone' (hqueued.trans hbegan) (harrivals ▸ hbefore) ?_
    rwa [comes, harrivals]
  | gaveUp hdone hbegan hbefore hlate hnone =>
    obtain ⟨hdone', hqueued, harrivals⟩ := same_of_done trace hdone hcaller
    refine .gaveUp hdone' (hqueued.trans hbegan) (harrivals ▸ hbefore) hlate ?_
    rwa [comes, harrivals]
  | closed hdone hstopped =>
    exact .closed (Caller.done_step hdone hcaller).1 (Caller.isStopped_step hcaller hstopped)

end act

theorem exchanging_of_run
    (h : Runs (start c (Request.exchange message limit what confirms result).run now) trace s) :
    Exchanging c message limit what confirms result trace s := by
  induction h with
  | start => exact .queueing rfl rfl rfl rfl
  | @move trace s s' m events hrun hstep ih =>
    have hwithin := arrivals_le (hrun.move hstep)
    obtain ⟨duration, rfl, hdue, rfl, rfl⟩ | ⟨a, caller, rfl, hexpiry, hcaller, rfl⟩ :=
      step_cases hstep
    · exact exchanging_pass ih hdue
    · exact exchanging_act hrun ih hexpiry hcaller hwithin

/-! ## How an exchange can end -/

/-- Moves in which nothing new comes: time passes, the caller goes on, a wait runs out. -/
def Move.Settles : Move → Prop
  | .pass _ | .act .proceed | .act (.reply .expired) => True
  | _ => False

/-- What a caller does by itself it does at any moment. -/
theorem leads_of_proceeds {caller : Caller α} {s : Timed α}
    (h : Leads Caller.step (Caller.Proceeds s.now) s.caller caller) :
    ∃ due, Leads step Move.Settles s ⟨caller, s.now, due⟩ := by
  obtain ⟨trace, hkind, hrun⟩ := h
  induction hrun with
  | start => exact ⟨s.due, .refl s⟩
  | @move trace p p' m events _ hstep ih =>
    obtain ⟨due, hleads⟩ := ih fun st hst => hkind st (List.mem_append_left _ hst)
    obtain rfl : m = (s.now, .proceed) := hkind ⟨p, m, events⟩ (by simp)
    have hmove := step_act (s := ⟨p, s.now, due⟩) hstep fun hexpiry => nomatch hexpiry
    exact ⟨_, hleads.trans (.single (m := .act .proceed) trivial hmove)⟩

/-- A wait that has nothing left to look at goes on to its end and runs out there. -/
theorem leads_gaveUp {c : Connection} {ticket due : Nat} {accepts : Message → Bool}
    {next : Awaited → Program α} (hin : c.inbound = []) (hopen : c.isStopped = false)
    (hnow : now ≤ due) :
    ∃ s' : Timed α, Leads step Move.Settles
      ⟨⟨c, .await (some limit) accepts next, .idle ticket⟩, now, some due⟩ s' ∧
      s'.caller.connection = c ∧ s'.caller.program = next .timedOut := by
  let waiting : Caller α := ⟨c, .await (some limit) accepts next, .idle ticket⟩
  have hpass : step ⟨waiting, now, some due⟩ (.pass (due - now)) =
      some (⟨waiting, due, some due⟩, []) := by
    have hdue : now + (due - now) = due := by omega
    simp [step, hdue]
  have hexpire : waiting.step (due, .reply .expired) =
      some (⟨c, next .timedOut, .idle ticket⟩, []) :=
    Caller.step_eq_some_iff.mpr ⟨_, _, rfl, rfl, rfl, rfl⟩
  have hrunOut : isRunOut ⟨waiting, due, some due⟩ = true := by
    simp [isRunOut, waiting, hin, hopen]
  have hmove := step_act (s := ⟨waiting, due, some due⟩) hexpire fun _ => hrunOut
  have hwait : Leads step Move.Settles _ _ := .single (m := .pass (due - now)) trivial hpass
  exact ⟨_, hwait.trans (.single (m := .act (.reply .expired)) trivial hmove), rfl, rfl⟩

/-- An exchange whose message is queued can end, without anything else that comes, and how it ends
is settled by what has come. -/
theorem settles_of_run
    (h : Runs (start c (Request.exchange message limit what confirms result).run now) trace s)
    (hqueued : queuedAt trace ≠ []) (hrunning : s.caller.program.isDone = false)
    (hopen : s.caller.connection.isStopped = false) :
    ∃ s', Leads step Move.Settles s s' ∧ s'.caller.connection.isStopped = false ∧
      s'.caller.program = .done (if (comes c trace).any (·.isAccepted confirms) then .ok result
        else .error (lateness what limit)) := by
  have hcaller := runs_journal h
  have hcomes : comes c trace = Caller.heard (journal trace) ++ s.caller.connection.inbound := by
    rw [comes, arrivals_eq h hrunning]
    exact Caller.received_eq hcaller
  cases exchanging_of_run h with
  | queueing _ _ hnone => exact absurd hnone hqueued
  | succeeded hdone | gaveUp hdone | closed hdone =>
    rw [hdone] at hrunning
    cases hrunning
  | waiting hprogram hsome hbegan hnow hnone =>
    obtain ⟨ticket, hflush⟩ : ∃ ticket, s.caller.flush = .idle ticket := by
      refine Caller.exists_idle hcaller ?_
      rw [hprogram]
      exact fun _ _ hne => nomatch hne
    obtain ⟨⟨c', program, flush⟩, time, due⟩ := s
    obtain rfl : program = _ := hprogram
    obtain rfl : flush = _ := hflush
    have hheard : (Caller.heard (journal trace)).any (·.isAccepted confirms) = false := by
      simpa using hnone
    rw [hcomes, List.any_append, hheard, Bool.false_or]
    cases hfirst : firstMatch confirms c'.inbound with
    | some found =>
      obtain ⟨m, rest⟩ := found
      obtain ⟨before, e, hin, -, hmessage, hconfirms⟩ := (firstMatch_eq_some_iff ..).mp hfirst
      have hany : c'.inbound.any (·.isAccepted confirms) = true :=
        List.any_eq_true.mpr
          ⟨e, by simp [hin], Envelope.isAccepted_iff.mpr ⟨m, hmessage, hconfirms⟩⟩
      obtain ⟨due', hleads⟩ := leads_of_proceeds (s := ⟨⟨c', _, .idle ticket⟩, time, due⟩)
        (Caller.leads_matched hfirst)
      exact ⟨_, hleads, hopen, by rw [if_pos hany]; rfl⟩
    | none =>
      have hany : c'.inbound.any (·.isAccepted confirms) = false := by
        simpa using firstMatch_eq_none_iff.mp hfirst
      have htaken : Leads Caller.step (Caller.Proceeds time)
          ⟨c', .await (some limit) confirms (afterWait what limit result), .idle ticket⟩ _ :=
        Caller.leads_unmatched hfirst
      obtain ⟨due', hleads⟩ := leads_of_proceeds (s := ⟨⟨c', _, .idle ticket⟩, time, due⟩) htaken
      -- the exchange is still under way there, so its end has not been reached
      obtain ⟨trace', -, hrun'⟩ := id hleads
      cases exchanging_of_run (h.append hrun') with
      | waiting _ hsome' _ hnow' _ =>
        obtain rfl : due' = _ := hsome'
        obtain ⟨s', hend, hconnection, hdone⟩ :=
          leads_gaveUp (c := { c' with inbound := [] }) rfl hopen hnow'
        exact ⟨s', hleads.trans hend, hconnection ▸ hopen, hdone.trans (by rw [hany]; rfl)⟩
      | queueing hprogram => cases hprogram.trans run_exchange_eq
      | succeeded hdone | gaveUp hdone | closed hdone => cases hdone

/-- An exchange that is not refused sends its message once. -/
theorem calls_of_play {replies : List Reply} {calls : List Call} {r : BusResult β}
    (h : (Request.exchange message limit what confirms result).run.play replies
      = some (calls, .done r)) (hopen : .closed ∉ replies) : calls = [.send message.toFields] := by
  rw [run_exchange_eq, Program.play_queue_iff] at h
  obtain ⟨replies', calls', rfl, hplay, rfl⟩ | ⟨replies', rfl, -⟩ := h
  · obtain ⟨front, w, rest, -, -, hrest⟩ := Program.play_await_iff.mp hplay
    cases w <;> rw [(Program.play_done_iff.mp hrest).2.1]
  · exact absurd List.mem_cons_self hopen

/-- An exchange that ended on an open connection was confirmed, or its limit has passed. -/
theorem ended_of_run {r : BusResult β}
    (h : Runs (start c (Request.exchange message limit what confirms result).run now) trace s)
    (hopen : s.caller.connection.isStopped = false) (hdone : s.caller.program = .done r) :
    ∃ began, queuedAt trace = [began] ∧ (∀ a ∈ arrivals trace, a.1 ≤ began + limit) ∧
      ((r = .ok result ∧ ∃ e ∈ comes c trace, e.isAccepted confirms = true) ∨
        r = .error (lateness what limit) ∧ began + limit ≤ s.now ∧
          ∀ e ∈ comes c trace, e.isAccepted confirms = false) := by
  cases exchanging_of_run h with
  | queueing hprogram => cases (hdone.symm.trans hprogram).trans run_exchange_eq
  | waiting hprogram => cases hdone.symm.trans hprogram
  | closed _ hstopped =>
    rw [hstopped] at hopen
    cases hopen
  | @succeeded began hok hbegan hwithin hfound =>
    have hr := Program.done.inj (hdone.symm.trans hok)
    exact ⟨began, hbegan, hwithin, .inl ⟨hr, hfound⟩⟩
  | @gaveUp began hlate hbegan hwithin hnow hnone =>
    have hr := Program.done.inj (hdone.symm.trans hlate)
    exact ⟨began, hbegan, hwithin, .inr ⟨hr, hnow, hnone⟩⟩

/-- How a request with one message that confirms it ends on an open connection. -/
structure Answers (c : Connection) (message confirmation : Message) (limit : Nat) (what : String)
    (trace : Trace (BusResult Unit)) (s : Timed (BusResult Unit)) : Prop where
  /-- Its message goes out once. -/
  asked : ∀ r, s.caller.program = .done r →
    Caller.calls (journal trace) = [.send message.toFields]
  /-- It succeeds just when it is confirmed while it is under way. -/
  succeeded : ∀ r, s.caller.program = .done r →
    (r = .ok () ↔ ∃ e ∈ comes c trace, e.message = .ok confirmation)
  /-- It is under way up to its limit at most, and no less if it fails. -/
  within : ∀ r, s.caller.program = .done r → ∃ began, queuedAt trace = [began] ∧
    (∀ a ∈ arrivals trace, a.1 ≤ began + limit) ∧
    ∀ e, r = .error e → e = lateness what limit ∧ began + limit ≤ s.now
  /-- Once its message is queued it can end without anything else that comes, and how it ends is
  settled by what has come. -/
  settled : queuedAt trace ≠ [] → s.caller.program.isDone = false →
    ∃ s' r, Leads step Move.Settles s s' ∧ s'.caller.connection.isStopped = false ∧
      s'.caller.program = .done r ∧
      (r = .ok () ↔ ∃ e ∈ comes c trace, e.message = .ok confirmation)

theorem answers_of_run {s : Timed (BusResult Unit)} {trace : Trace (BusResult Unit)}
    {confirmation : Message} (hconfirms : ∀ m, confirms m = true ↔ m = confirmation)
    (h : Runs (start c (Request.exchange message limit what confirms ()).run now) trace s)
    (hopen : s.caller.connection.isStopped = false) :
    Answers c message confirmation limit what trace s := by
  have haccepted : ∀ e : Envelope, e.isAccepted confirms = true ↔ e.message = .ok confirmation := by
    intro e
    rw [Envelope.isAccepted_iff]
    simp [hconfirms]
  have hcaller := runs_journal h
  refine ⟨?_, ?_, ?_, ?_⟩
  · intro r hdone
    refine calls_of_play (Caller.play_of_done hcaller rfl hdone) fun hclosed => ?_
    rw [Caller.isStopped_of_closed hcaller hclosed] at hopen
    cases hopen
  · intro r hdone
    obtain ⟨began, -, -, ⟨rfl, hfound⟩ | ⟨rfl, -, hnone⟩⟩ := ended_of_run h hopen hdone
    · simpa [haccepted] using hfound
    · refine iff_of_false (fun hok => nomatch hok) ?_
      intro ⟨e, he, hmessage⟩
      rw [← haccepted, hnone e he] at hmessage
      cases hmessage
  · intro r hdone
    obtain ⟨began, hbegan, hwithin, ⟨rfl, -⟩ | ⟨rfl, hnow, -⟩⟩ := ended_of_run h hopen hdone
    · exact ⟨began, hbegan, hwithin, fun e he => nomatch he⟩
    · exact ⟨began, hbegan, hwithin, fun e he => ⟨(Except.error.inj he).symm, hnow⟩⟩
  · intro hqueued hrunning
    obtain ⟨s', hleads, hopen', hdone⟩ := settles_of_run h hqueued hrunning hopen
    refine ⟨s', _, hleads, hopen', hdone, ?_⟩
    simp only [← haccepted, ← List.any_eq_true]
    cases (comes c trace).any (·.isAccepted confirms) <;> simp

end exchange

end Timed

namespace Request

theorem isCopied_iff {id : String} {m : Message} : isCopied id m = true ↔ m = .dataCopied id := by
  cases m <;> simp [isCopied]

theorem isOpened_iff {id : String} {m : Message} : isOpened id m = true ↔ m = .urlOpened id := by
  cases m <;> simp [isOpened]

theorem isTrigger_iff {name : String} {m : Message} :
    isTrigger name m = true ↔ ∃ success, m = .trigger name "run" success := by
  show _ ↔ ∃ success, m = .trigger name triggerSender success
  cases m <;> simp [isTrigger]

theorem waitUntil_eq (accepts : Message → Bool) :
    (Task.waitUntil accepts).run = Caller.listen accepts .ok :=
  Program.await_congr (fun _ => rfl) rfl rfl

theorem waitForTrigger_eq (name : String) :
    (waitForTrigger name).run = Caller.listen (isTrigger name) fun
      | .trigger _ _ success => .ok success
      | _ => .ok false := by
  apply Program.await_congr
  · intro m
    cases m <;> rfl
  · rfl
  · rfl

/-- Waiting takes the first message that is accepted, and leaves what came after it.  So do the
requests that wait: for a trigger, for the lines of a stream one by one, and, within a limit, for
the confirmation that names the participant. -/
theorem first_match_taken (c : Connection) :
    (∀ accepts journal p, Caller.Runs (.start c (Task.waitUntil accepts).run) journal p →
      Caller.Takes accepts id c journal p) ∧
    (∀ name journal p, Caller.Runs (.start c (waitForTrigger name).run) journal p →
      Caller.Takes (isTrigger name) (.trigger name "run" ·) c journal p) ∧
    (∀ n journal p, Caller.Runs (.start c (Caller.nextLines [] n)) journal p →
      Caller.TakesLines n c journal p) ∧
    (∀ data now trace s, Timed.Runs (.start c (remoteCopy c.codec.id data).run now) trace s →
      s.caller.connection.isStopped = false →
      Timed.Answers c (.copyData data) (.dataCopied c.codec.id) 5000 "DataCopied" trace s) ∧
    (∀ url now trace s, Timed.Runs (.start c (openUrl c.codec.id url).run now) trace s →
      s.caller.connection.isStopped = false →
      Timed.Answers c (.openUrl url) (.urlOpened c.codec.id) 5000 "URLOpened" trace s) := by
  refine ⟨?_, ?_, fun n journal p => Caller.takesLines_of_run, ?_, ?_⟩
  · intro accepts journal p h
    rw [waitUntil_eq] at h
    exact Caller.takes_of_run (fun m _ => ⟨m, rfl⟩) (fun _ => rfl) h
  · intro name journal p h
    rw [waitForTrigger_eq] at h
    exact Caller.takes_of_run (fun m hm => isTrigger_iff.mp hm) (fun _ => rfl) h
  · intro data now trace s h hopen
    rw [remoteCopy_eq_exchange] at h
    exact Timed.answers_of_run (fun _ => isCopied_iff) h hopen
  · intro url now trace s h hopen
    rw [openUrl_eq_exchange] at h
    exact Timed.answers_of_run (fun _ => isOpened_iff) h hopen

/-- What an introducer says. -/
def said (m : Message) : Envelope :=
  let contents := (⟨"i", ⟨none, none⟩⟩ : Codec).tag default m.toFields
  .received contents contents.write

theorem message_said {m : Message} (hlevel : m.HasFiniteLevel) : (said m).message = .ok m :=
  Envelope.message_eq_ok_iff.mpr (Message.ofFields_tag hlevel _ default)

theorem isAccepted_said {m : Message} (hlevel : m.HasFiniteLevel) (accepts : Message → Bool) :
    (said m).isAccepted accepts = accepts m := by
  rw [Envelope.isAccepted, message_said hlevel]

/-- What cannot be read and what is meant for others is passed over. -/
theorem first_match_taken_tea :
    let rest := [said (.trigger "tea" "run" true), said (.dataCopied "c")]
    let c : Connection := { Connection.start ⟨"c", ⟨none, none⟩⟩ 8 0 .empty 0 with
      inbound := .received [] "" :: said (.trigger "tea" "kettle" true) ::
        said (.trigger "tea" "run" false) :: rest }
    (∃ journal p, Caller.Runs (.start c (waitForTrigger "tea").run) journal p ∧
      p.program = .done (.ok false) ∧ p.connection.inbound = rest) ∧
    ∃ trace s, Timed.Runs (.start c (remoteCopy "c" "milk").run 0) trace s ∧
      s.caller.program = .done (.ok ()) := by
  intro rest c
  obtain ⟨-, htrigger, -, hcopy, -⟩ := first_match_taken c
  have hlevel : ∀ sender success, (Message.trigger "tea" sender success).HasFiniteLevel :=
    fun _ _ => Message.hasFiniteLevel_of_none rfl
  constructor
  · have hfirst : firstMatch (isTrigger "tea") c.inbound
        = some (.trigger "tea" "run" false, rest) := by
      refine (firstMatch_eq_some_iff ..).mpr
        ⟨[.received [] "", said (.trigger "tea" "kettle" true)], said (.trigger "tea" "run" false),
          rfl, ?_, message_said (hlevel _ _), rfl⟩
      simp only [List.all_cons, List.all_nil, isAccepted_said (hlevel _ _)]
      rfl
    have htakes := htrigger "tea" [] _ .start
    obtain ⟨p, ⟨journal, -, hrun⟩, hdone, hrest⟩ := htakes.succeeds 0 false rest
      (by simpa [Caller.received, Caller.link, Connection.delivered] using hfirst)
    exact ⟨journal, p, hrun, hdone, hrest⟩
  · -- once the request is queued, the confirmation that is at hand settles it
    have hqueue := Timed.step_act (s := .start c (remoteCopy "c" "milk").run 0) (a := .proceed) rfl
      (by rintro ⟨⟩)
    have hrun := Run.start.move hqueue
    obtain ⟨s, r, ⟨trace, -, htrace⟩, -, hdone, hok⟩ :=
      (hcopy "milk" 0 _ _ hrun rfl).settled (by rintro ⟨⟩) rfl
    refine ⟨_, s, hrun.append htrace, ?_⟩
    have hconfirmed : r = .ok () := hok.mpr ⟨said (.dataCopied "c"), by simp [Timed.comes, c, rest],
      message_said (Message.hasFiniteLevel_of_none rfl)⟩
    rw [hdone, hconfirmed]

end Request

end MessageBus
