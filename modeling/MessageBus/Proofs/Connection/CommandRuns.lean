import MessageBus.Connection.RunCommand
import MessageBus.Proofs.Connection.Deadlines
import MessageBus.Proofs.Connection.Demands
import MessageBus.Proofs.Connection.Endings

/-! # Commands between triggers

    A command may wait for a trigger, and may fire one of its own when it is over.
    What a run asks for on the way is its script: a notification that the trigger
    came, the command, a notification that it is over, and the trigger.  A run
    goes through its script from the beginning, and stops early only if what came
    keeps the command from being run.  Whether its notifications are acknowledged
    changes how it ends, but not what it asks for.

    * `hears_of_plays`: how a run gets to its command, or does not.
    * `plays_report`: what follows once nothing keeps the command from being run.
    * `ends_of_plays`: the two together.
    * `triggers_chained`: what holds of every run of a caller. -/

namespace MessageBus.RunCommand

open Request (Notification)

variable {id name text : String} {o : Options} {command : List String} {n : Notification}
  {replies rest : List Reply} {ds : List Demand}

/-! ## Notifications -/

/-- A notification is to be sent. -/
def shows (n : Notification) (note : String) : Demand :=
  .send (Message.notification note n.text n.level n.url).toFields

/-- The replies begin with those to a notification that is acknowledged. -/
def IsAcknowledged (id : String) (replies : List Reply) : Prop :=
  ∃ note front m rest, replies = .drawn note :: .queued :: (front ++ rest) ∧
    Program.Waits (some Request.notifyLimit) (Request.isDisplayed id) front (.matched m)

theorem plays_notify {r : BusResult String} (h : (Request.notify id n).run.Plays replies ds r)
    (rest : List Reply) :
    (∃ note, ds = [shows n note]) ∧
      ((∃ note, r = .ok note) ↔ IsAcknowledged id (replies ++ rest)) := by
  rw [Request.run_notify] at h
  obtain ⟨note, replies', rfl, hsent⟩ := Program.plays_freshId_iff.mp h
  rw [Request.run_exchange] at hsent
  obtain ⟨replies'', later, rfl, ⟨rfl, hqueued⟩ | ⟨rfl, hrefused⟩⟩ :=
    Program.plays_queue_iff.mp hsent
  · obtain ⟨front, w, tail, hwaits, rfl, hended⟩ := Program.plays_await_iff.mp hqueued
    -- what ends the wait is settled by the replies
    have hacknowledged : IsAcknowledged id (.drawn note :: .queued :: (front ++ tail) ++ rest) ↔
        ∃ m, w = .matched m := by
      constructor
      · intro ⟨note', front', m, tail', heq, hmatched⟩
        simp only [List.cons_append, List.cons.injEq, true_and, List.append_assoc] at heq
        exact ⟨m, (hwaits.unique hmatched heq.2).2⟩
      · intro ⟨m, hm⟩
        exact ⟨note, front, m, tail ++ rest, by simp, hm ▸ hwaits⟩
    rw [hacknowledged]
    cases w with
    | matched m =>
      obtain ⟨rfl, rfl, rfl⟩ := Program.plays_done_iff.mp hended
      exact ⟨⟨note, rfl⟩, iff_of_true ⟨note, rfl⟩ ⟨m, rfl⟩⟩
    | timedOut | closed =>
      obtain ⟨rfl, rfl, rfl⟩ := Program.plays_done_iff.mp hended
      exact ⟨⟨note, rfl⟩, iff_of_false (fun ⟨_, hok⟩ => nomatch hok) fun ⟨_, hm⟩ => nomatch hm⟩
  · obtain ⟨rfl, rfl, rfl⟩ := Program.plays_done_iff.mp hrefused
    refine ⟨⟨note, rfl⟩, iff_of_false (fun ⟨_, hok⟩ => nomatch hok) ?_⟩
    intro ⟨note', front, m, tail, heq, _⟩
    cases heq

theorem plays_note {r : Except Failure Unit} (h : (note id text).run.Plays replies ds r) :
    r = .ok () ∧ ∃ note, ds = [shows ⟨text, "", triggerLevel⟩ note] := by
  obtain ⟨front, made, first, rest, later, rfl, rfl, hfirst, h⟩ := Task.plays_bind_iff.mp h
  obtain ⟨result, hnotify, rfl⟩ := Task.plays_outcome_iff.mp hfirst
  obtain ⟨rfl, rfl, rfl⟩ := Program.plays_done_iff.mp h
  obtain ⟨⟨note, rfl⟩, -⟩ := plays_notify hnotify []
  exact ⟨rfl, note, rfl⟩

theorem plays_lift_iff {α : Type} {t : Task BusError α} {r : Except Failure α} :
    (lift t).run.Plays replies ds r ↔
      ∃ result, t.run.Plays replies ds result ∧ result.mapError .bus = r := by
  refine Program.plays_map_iff.trans (exists_congr fun result => and_congr_right fun _ => ?_)
  cases result <;> exact Iff.rfl

/-! ## Up to the command -/

/-- Who waits without limit comes to what ended the wait. -/
theorem plays_listen {β : Type} {accepts : Message → Bool} {give : Message → BusResult β}
    {r : BusResult β} (h : (Caller.listen accepts give).Plays replies ds r) :
    ds = [] ∧ (Program.Waits none accepts replies .closed ∧ r = .error .closed ∨
      ∃ m, Program.Waits none accepts replies (.matched m) ∧ r = give m) := by
  obtain ⟨front, w, rest, hwaits, rfl, h⟩ := Program.plays_await_iff.mp h
  cases w with
  | matched m =>
    obtain ⟨rfl, rfl, rfl⟩ := Program.plays_done_iff.mp h
    rw [List.append_nil]
    exact ⟨rfl, .inr ⟨m, hwaits, rfl⟩⟩
  | timedOut =>
    cases hwaits with
    | timedOut _ hlimit => cases hlimit
  | closed =>
    obtain ⟨rfl, rfl, rfl⟩ := Program.plays_done_iff.mp h
    rw [List.append_nil]
    exact ⟨rfl, .inl ⟨hwaits, rfl⟩⟩

/-- How a run gets to its command. -/
inductive Hears (o : Options) : List Reply → List Demand → Except Failure Unit → Prop
  | free : o.waitTrigger = none → Hears o [] [] (.ok ())
  | unheard {name : String} {front : List Reply} :
      o.waitTrigger = some name →
      Program.Waits none (Request.isTrigger name) front .closed →
      Hears o front [] (.error (.bus .closed))
  | heard {name note : String} {front rest : List Reply} {success : Bool} :
      o.waitTrigger = some name →
      Program.Waits none (Request.isTrigger name) front (.matched (.trigger name "run" success)) →
      Hears o (front ++ rest) [shows ⟨"Received trigger " ++ name, "", triggerLevel⟩ note]
        (if o.always = false ∧ success = false then .error .previousFailed else .ok ())

theorem hears_of_plays {r : Except Failure Unit} (h : (awaitTrigger id o).run.Plays replies ds r) :
    Hears o replies ds r := by
  unfold awaitTrigger at h
  cases hwait : o.waitTrigger with
  | none =>
    simp only [hwait] at h
    obtain ⟨rfl, rfl, rfl⟩ := Program.plays_done_iff.mp h
    exact .free hwait
  | some name =>
    simp only [hwait] at h
    obtain ⟨front, made, first, rest, later, rfl, rfl, hfirst, h⟩ := Task.plays_bind_iff.mp h
    obtain ⟨result, hwaited, rfl⟩ := plays_lift_iff.mp hfirst
    rw [Request.waitForTrigger_eq] at hwaited
    obtain ⟨rfl, ⟨hwaits, rfl⟩ | ⟨m, hwaits, hresult⟩⟩ := plays_listen hwaited
    · -- the stream ended first, and nothing follows the failure
      obtain ⟨rfl, rfl, rfl⟩ := h
      rw [List.append_nil]
      exact .unheard hwait hwaits
    · obtain ⟨success, rfl⟩ : ∃ success, m = .trigger name "run" success := by
        cases hwaits with
        | matched _ _ haccepts => exact Request.isTrigger_iff.mp haccepts
      subst hresult
      obtain ⟨noting, noted, first, last, later, rfl, rfl, hnote, hlast⟩ := Task.plays_bind_iff.mp h
      obtain ⟨rfl, note, rfl⟩ := plays_note hnote
      obtain ⟨rfl, rfl, rfl⟩ : last = [] ∧ later = [] ∧
          (if o.always = false ∧ success = false then .error .previousFailed else .ok ()) = r := by
        dsimp only at hlast
        split at hlast
        · next hrefused =>
          rw [if_pos hrefused]
          exact Program.plays_done_iff.mp hlast
        · next hcleared =>
          rw [if_neg hcleared]
          exact Program.plays_done_iff.mp hlast
      exact .heard hwait hwaits

/-! ## From the command on -/

/-- The notification that a command is over. -/
def completion (o : Options) (command : List String) (outcome : CommandOutcome) : Notification :=
  ⟨completionMessage (String.intercalate " " command) o.message outcome.description, "", o.level⟩

/-- What a run fails with if its notification is not shown. -/
def conclude : BusResult String → Task Failure Unit
  | .ok _ => pure ()
  | .error e => throw (.bus e)

/-- What is done once the notification is shown, or is not: the trigger is fired. -/
def fire (id : String) (o : Options) (outcome : CommandOutcome) (notified : BusResult String) :
    Task Failure Unit :=
  match o.sendTrigger with
  | none => conclude notified
  | some name => do
    note id ("Sending trigger " ++ name)
    lift (Request.trigger name outcome.isSuccess)
    conclude notified

/-- What is done once nothing keeps the command from being run. -/
def report (id : String) (o : Options) (command : List String) : Task Failure Unit := do
  let outcome ← Task.execute command
  let notified ← Task.outcome (Request.notify id (completion o command outcome))
  fire id o outcome notified

theorem run_eq (h : command ≠ []) :
    run id o command = (do
      awaitTrigger id o
      report id o command) := by
  unfold run report fire
  rw [if_neg (by simpa using h)]
  cases o.sendTrigger <;> rfl

theorem plays_conclude {notified : BusResult String} {r : Except Failure Unit}
    (h : (conclude notified).run.Plays replies ds r) :
    replies = [] ∧ ds = [] ∧ (r = .ok () ↔ ∃ note, notified = .ok note) := by
  cases notified with
  | ok note =>
    obtain ⟨rfl, rfl, rfl⟩ := Program.plays_done_iff.mp h
    exact ⟨rfl, rfl, iff_of_true rfl ⟨note, rfl⟩⟩
  | error e =>
    obtain ⟨rfl, rfl, rfl⟩ := Program.plays_done_iff.mp h
    exact ⟨rfl, rfl, iff_of_false (fun hok => nomatch hok) fun ⟨_, hok⟩ => nomatch hok⟩

theorem plays_trigger {success : Bool} {r : BusResult Unit}
    (h : (Request.trigger name success).run.Plays replies ds r) :
    ds = [.flush (Message.trigger name "run" success).toFields] ∧
      (r = .ok () ↔ .ok () ∈ replies.filterMap Reply.receipt?) := by
  obtain ⟨replies', later, rfl, ⟨written, rfl, hdone⟩ | ⟨rfl, hdone⟩⟩ :=
    Program.plays_flush_iff.mp h
  · obtain ⟨rfl, rfl, rfl⟩ := Program.plays_done_iff.mp hdone
    exact ⟨rfl, by simp [Reply.receipt?, eq_comm]⟩
  · obtain ⟨rfl, rfl, rfl⟩ := Program.plays_done_iff.mp hdone
    exact ⟨rfl, by simp [Reply.receipt?]⟩

/-- The trigger that a run fires, and the notification before it. -/
def firing (o : Options) (outcome : CommandOutcome) (sending : String) : List Demand :=
  o.sendTrigger.toList.flatMap fun name =>
    [shows ⟨"Sending trigger " ++ name, "", triggerLevel⟩ sending,
      .flush (Message.trigger name "run" outcome.isSuccess).toFields]

/-- The trigger goes out whether or not the notification was shown. -/
theorem plays_fire {outcome : CommandOutcome} {notified : BusResult String}
    {r : Except Failure Unit} (h : (fire id o outcome notified).run.Plays replies ds r) :
    (∃ sending, ds = firing o outcome sending) ∧
      (r = .ok () ↔ (∃ note, notified = .ok note) ∧
        (o.sendTrigger.isSome = true → .ok () ∈ replies.filterMap Reply.receipt?)) := by
  unfold fire at h
  cases hsend : o.sendTrigger with
  | none =>
    simp only [hsend] at h
    obtain ⟨rfl, rfl, hr⟩ := plays_conclude h
    exact ⟨⟨"", by simp [firing, hsend]⟩, by simpa using hr⟩
  | some name =>
    simp only [hsend] at h
    obtain ⟨noting, noted, first, rest, later, rfl, rfl, hnote, hrest⟩ := Task.plays_bind_iff.mp h
    obtain ⟨rfl, sending, rfl⟩ := plays_note hnote
    -- a notification is not seen written, so every receipt is the one of the trigger
    have hquiet : noting.filterMap Reply.receipt? = [] :=
      Program.no_answer Program.flushed_of_after hnote rfl
    obtain ⟨sent, made, first, last, later, rfl, rfl, hfirst, hlast⟩ :=
      Task.plays_bind_iff.mp hrest
    obtain ⟨written, htrigger, rfl⟩ := plays_lift_iff.mp hfirst
    obtain ⟨rfl, hwritten⟩ := plays_trigger htrigger
    cases written with
    | ok =>
      obtain ⟨rfl, rfl, hr⟩ := plays_conclude hlast
      refine ⟨⟨sending, by simp [firing, hsend]⟩, ?_⟩
      simpa [hquiet, hwritten.mp rfl] using hr
    | error e =>
      obtain ⟨rfl, rfl, rfl⟩ := hlast
      have hfailed : .ok () ∉ sent.filterMap Reply.receipt? := fun hok => nomatch hwritten.mpr hok
      refine ⟨⟨sending, by simp [firing, hsend]⟩, iff_of_false (fun hok => nomatch hok) ?_⟩
      intro ⟨_, hok⟩
      simp [hquiet, hfailed] at hok

/-! ## The script of a run -/

/-- The notification that the trigger came. -/
def heeding (o : Options) (received : String) : List Demand :=
  o.waitTrigger.toList.map fun name =>
    shows ⟨"Received trigger " ++ name, "", triggerLevel⟩ received

/-- What a run asks for, by how its command ends and by the ids of its notifications. -/
def script (o : Options) (command : List String) (outcome : CommandOutcome)
    (received completed sending : String) : List Demand :=
  heeding o received ++
    .execute command :: shows (completion o command outcome) completed :: firing o outcome sending

theorem Hears.demands {r : Except Failure Unit} (h : Hears o replies ds r) :
    ∃ received, ds <+: heeding o received ∧ (r = .ok () → ds = heeding o received) := by
  cases h with
  | free hwait => exact ⟨"", by simp [heeding, hwait]⟩
  | unheard hwait => exact ⟨"", List.nil_prefix, fun hok => nomatch hok⟩
  | @heard name note _ _ success hwait =>
    have hall : heeding o note = [shows ⟨"Received trigger " ++ name, "", triggerLevel⟩ note] := by
      simp [heeding, hwait]
    exact ⟨note, hall ▸ List.prefix_refl _, fun _ => hall.symm⟩

theorem commands_heeding (o : Options) (received : String) :
    (heeding o received).filterMap Demand.command? = [] := by
  unfold heeding
  cases o.waitTrigger <;> rfl

theorem flushed_heeding (o : Options) (received : String) :
    (heeding o received).filterMap Demand.flushed? = [] := by
  unfold heeding
  cases o.waitTrigger <;> rfl

/-- Before the command no command is asked for. -/
theorem Hears.commands {r : Except Failure Unit} (h : Hears o replies ds r) :
    ds.filterMap Demand.command? = [] := by
  obtain ⟨received, hprefix, -⟩ := h.demands
  have hnone := hprefix.filterMap Demand.command?
  rw [commands_heeding] at hnone
  exact List.prefix_nil.mp hnone

theorem commands_firing (o : Options) (outcome : CommandOutcome) (sending : String) :
    (firing o outcome sending).filterMap Demand.command? = [] := by
  unfold firing
  cases o.sendTrigger <;> rfl

theorem flushed_firing (o : Options) (outcome : CommandOutcome) (sending : String) :
    (firing o outcome sending).filterMap Demand.flushed? =
      o.sendTrigger.toList.map fun name =>
        (Message.trigger name "run" outcome.isSuccess).toFields := by
  unfold firing
  cases o.sendTrigger <;> rfl

theorem commands_script (o : Options) (command : List String) (outcome : CommandOutcome)
    (received completed sending : String) :
    (script o command outcome received completed sending).filterMap Demand.command? =
      [command] := by
  rw [script, List.filterMap_append, commands_heeding]
  exact congrArg (command :: ·) (commands_firing ..)

theorem flushed_script (o : Options) (command : List String) (outcome : CommandOutcome)
    (received completed sending : String) :
    (script o command outcome received completed sending).filterMap Demand.flushed? =
      o.sendTrigger.toList.map fun name =>
        (Message.trigger name "run" outcome.isSuccess).toFields := by
  rw [script, List.filterMap_append, flushed_heeding]
  exact flushed_firing ..

/-- How a run ends. -/
inductive Ends (id : String) (o : Options) (command : List String) :
    List Reply → List Demand → Except Failure Unit → Prop
  | refused {replies : List Reply} {ds : List Demand} {e : Failure} :
      Hears o replies ds (.error e) → Ends id o command replies ds (.error e)
  | ran {front rest : List Reply} {outcome : CommandOutcome}
      {received completed sending : String} {r : Except Failure Unit} :
      front.filterMap Reply.outcome? = [] → rest.filterMap Reply.outcome? = [] →
      (r = .ok () ↔ IsAcknowledged id rest ∧ (o.sendTrigger.isSome = true →
        .ok () ∈ (front ++ .exited outcome :: rest).filterMap Reply.receipt?)) →
      Ends id o command (front ++ .exited outcome :: rest)
        (script o command outcome received completed sending) r

theorem plays_report {r : Except Failure Unit} (h : (report id o command).run.Plays replies ds r) :
    ∃ outcome rest completed sending, replies = .exited outcome :: rest ∧
      ds = .execute command :: shows (completion o command outcome) completed ::
        firing o outcome sending ∧
      rest.filterMap Reply.outcome? = [] ∧
      (r = .ok () ↔ IsAcknowledged id rest ∧
        (o.sendTrigger.isSome = true → .ok () ∈ rest.filterMap Reply.receipt?)) := by
  obtain ⟨executing, executed, first, after, later, rfl, rfl, hexecute, hafter⟩ :=
    Task.plays_bind_iff.mp h
  obtain ⟨outcome, none, nothing, rfl, rfl, hdone⟩ := Program.plays_execute_iff.mp hexecute
  obtain ⟨rfl, rfl, rfl⟩ := Program.plays_done_iff.mp hdone
  obtain ⟨showing, shown, first, rest, last, rfl, rfl, hshow, hfire⟩ :=
    Task.plays_bind_iff.mp hafter
  obtain ⟨notified, hnotify, rfl⟩ := Task.plays_outcome_iff.mp hshow
  obtain ⟨⟨completed, rfl⟩, hacknowledged⟩ := plays_notify hnotify rest
  obtain ⟨⟨sending, rfl⟩, hr⟩ := plays_fire hfire
  -- neither the notification nor what follows runs a command, and only the latter flushes
  have hshowing : showing.filterMap Reply.outcome? = [] :=
    Program.no_answer Program.command_of_after hnotify rfl
  have hunwritten : showing.filterMap Reply.receipt? = [] :=
    Program.no_answer Program.flushed_of_after hnotify rfl
  have hrest : rest.filterMap Reply.outcome? = [] :=
    Program.no_answer Program.command_of_after hfire (commands_firing ..)
  refine ⟨outcome, showing ++ rest, completed, sending, rfl, rfl, ?_, ?_⟩
  · rw [List.filterMap_append, hshowing, hrest, List.append_nil]
  · rwa [List.filterMap_append, hunwritten, List.nil_append, ← hacknowledged]

theorem ends_of_plays {r : Except Failure Unit} (hne : command ≠ [])
    (h : (run id o command).run.Plays replies ds r) : Ends id o command replies ds r := by
  rw [run_eq hne] at h
  obtain ⟨front, waited, first, rest, later, rfl, rfl, hawait, hreport⟩ := Task.plays_bind_iff.mp h
  have hhears := hears_of_plays hawait
  cases first with
  | error e =>
    obtain ⟨rfl, rfl, rfl⟩ := hreport
    rw [List.append_nil, List.append_nil]
    exact .refused hhears
  | ok =>
    obtain ⟨received, -, hall⟩ := hhears.demands
    obtain rfl := hall rfl
    obtain ⟨outcome, rest, completed, sending, rfl, rfl, hrest, hr⟩ := plays_report hreport
    have hfront : front.filterMap Reply.outcome? = [] :=
      Program.no_answer Program.command_of_after hawait (commands_heeding ..)
    have hunwritten : front.filterMap Reply.receipt? = [] :=
      Program.no_answer Program.flushed_of_after hawait (flushed_heeding ..)
    refine .ran hfront hrest ?_
    rwa [List.filterMap_append, hunwritten, List.nil_append]

/-! ## Runs of a caller -/

/-- The replies once the command has ended. -/
def afterCommand (replies : List Reply) : List Reply :=
  (replies.dropWhile (·.outcome?.isNone)).tail

theorem afterCommand_eq {front : List Reply} {outcome : CommandOutcome}
    (h : front.filterMap Reply.outcome? = []) :
    afterCommand (front ++ .exited outcome :: rest) = rest := by
  have hfront : ∀ r ∈ front, r.outcome?.isNone = true := by
    intro r hr
    rw [List.filterMap_eq_nil_iff.mp h r hr]
    rfl
  rw [afterCommand, List.dropWhile_append_of_pos hfront]
  rfl

/-- What came keeps the command from being run: no trigger that is waited for, or a first one that
tells of a failure that counts. -/
def Refuses (o : Options) (es : List Envelope) : Prop :=
  ∃ name, o.waitTrigger = some name ∧
    (firstMatch (Request.isTrigger name) es = none ∨
      o.always = false ∧
        ∃ rest, firstMatch (Request.isTrigger name) es = some (.trigger name "run" false, rest))

/-- What a run has asked for. -/
def asked (id : String) (o : Options) (command : List String)
    (journal : Caller.Journal (Except Failure Unit)) : List Demand :=
  (run id o command).run.demands (Caller.replies journal)

/-- The commands that it has asked for. -/
def commands (id : String) (o : Options) (command : List String)
    (journal : Caller.Journal (Except Failure Unit)) : List (List String) :=
  (asked id o command journal).filterMap Demand.command?

/-- The messages that it has to see written. -/
def flushes (id : String) (o : Options) (command : List String)
    (journal : Caller.Journal (Except Failure Unit)) : List Fields :=
  (asked id o command journal).filterMap Demand.flushed?

/-- How the commands ended. -/
def outcomes (journal : Caller.Journal (Except Failure Unit)) : List CommandOutcome :=
  (Caller.replies journal).filterMap Reply.outcome?

section run
variable {c : Connection} {journal : Caller.Journal (Except Failure Unit)}
  {p : Caller (Except Failure Unit)}

theorem run_awaits (hne : command ≠ []) (hwait : o.waitTrigger = some name) :
    ∃ next, (run id o command).run = .await none (Request.isTrigger name) next := by
  rw [run_eq hne]
  unfold awaitTrigger
  rw [hwait]
  exact ⟨_, rfl⟩

/-- A run fails before its command just when what came keeps the command from being run. -/
theorem Hears.error_iff {front : List Reply} {r : Except Failure Unit} (h : Hears o front ds r)
    (hne : command ≠ []) (hrun : Caller.Runs (.start c (run id o command).run) journal p)
    (heq : Caller.replies journal = front ++ rest) :
    (∃ e, r = .error e) ↔ Refuses o (Caller.received c journal) := by
  cases h with
  | free hwait =>
    refine iff_of_false (fun ⟨_, he⟩ => nomatch he) ?_
    intro ⟨name, hsome, _⟩
    rw [hwait] at hsome
    cases hsome
  | @unheard name front hwait hwaits =>
    obtain ⟨next, hprogram⟩ : ∃ next, (run id o command).run = .await none _ next :=
      run_awaits hne hwait
    rw [hprogram] at hrun
    have hnone := Caller.firstMatch_of_waits_closed hrun hwaits heq
    exact iff_of_true ⟨_, rfl⟩ ⟨name, hwait, .inl hnone⟩
  | @heard name note front last success hwait hwaits =>
    rw [List.append_assoc] at heq
    obtain ⟨tail, hfirst⟩ := Caller.firstMatch_of_waits hrun hwaits heq
    constructor
    · intro ⟨e, he⟩
      split at he
      · next hfailed =>
        obtain ⟨halways, rfl⟩ := hfailed
        exact ⟨name, hwait, .inr ⟨halways, tail, hfirst⟩⟩
      · cases he
    · intro ⟨name', hwait', hrefused⟩
      obtain rfl := Option.some.inj (hwait.symm.trans hwait')
      rw [hfirst] at hrefused
      rcases hrefused with hnone | ⟨halways, rest', hfailed⟩
      · cases hnone
      · cases hfailed
        exact ⟨.previousFailed, if_pos ⟨halways, rfl⟩⟩

/-- How the triggers and the command of a run belong together. -/
structure Chains (id : String) (o : Options) (command : List String) (c : Connection)
    (journal : Caller.Journal (Except Failure Unit)) (p : Caller (Except Failure Unit)) : Prop where
  /-- A run asks for what its script says, in that order. -/
  scripted : ∃ outcome received completed sending,
    asked id o command journal <+: script o command outcome received completed sending ∧
      outcomes journal <+: [outcome]
  /-- The command is run at most once. -/
  once : commands id o command journal <+: [command]
  /-- It is not run if what came keeps it from being run. -/
  permitted : commands id o command journal ≠ [] → ¬ Refuses o (Caller.received c journal)
  /-- If it is not run by the end, what came kept it from being run. -/
  refused : ∀ r, p.program = .done r →
    (commands id o command journal = [] ↔ Refuses o (Caller.received c journal))
  /-- No trigger is fired before the command is run. -/
  silent : commands id o command journal = [] → flushes id o command journal = []
  /-- If it is run, the script is gone through, and the trigger tells how it ended. -/
  reported : ∀ r, p.program = .done r → commands id o command journal ≠ [] →
    ∃ outcome received completed sending, outcomes journal = [outcome] ∧
      asked id o command journal = script o command outcome received completed sending ∧
      flushes id o command journal =
        o.sendTrigger.toList.map fun name => (Message.trigger name "run" outcome.isSuccess).toFields
  /-- A run succeeds if the command was run, its notification was acknowledged, and the trigger that
  it fires was written. -/
  succeeded : ∀ r, p.program = .done r →
    (r = .ok () ↔ commands id o command journal = [command] ∧
      IsAcknowledged id (afterCommand (Caller.replies journal)) ∧
      (o.sendTrigger.isSome = true → .ok () ∈ (Caller.replies journal).filterMap Reply.receipt?))
  /-- A run can always come to its end. -/
  ends : ∃ p' r, Leads Caller.step Caller.Concludes p p' ∧ p'.program = .done r

/-- A run that did not get to its command has no trigger fired. -/
theorem flushed_of_prefix {outcome : CommandOutcome} {received completed sending : String}
    (h : ds <+: script o command outcome received completed sending)
    (hnone : ds.filterMap Demand.command? = []) : ds.filterMap Demand.flushed? = [] := by
  rcases List.prefix_or_prefix_of_prefix h (List.prefix_append _ _) with hshort | ⟨later, rfl⟩
  · have hflushed := hshort.filterMap Demand.flushed?
    rw [flushed_heeding] at hflushed
    exact List.prefix_nil.mp hflushed
  · have hlater := (List.prefix_append_right_inj _).mp h
    cases later with
    | nil => rw [List.append_nil, flushed_heeding]
    | cons d later =>
      obtain ⟨rfl, -⟩ := List.cons_prefix_cons.mp hlater
      simp [Demand.command?] at hnone

theorem scripted_of_run (hne : command ≠ [])
    (h : Caller.Runs (.start c (run id o command).run) journal p) :
    ∃ outcome received completed sending,
      asked id o command journal <+: script o command outcome received completed sending ∧
        outcomes journal <+: [outcome] := by
  obtain ⟨-, calls, hplay, -⟩ := Caller.play_of_run h rfl
  obtain ⟨rest, ds, r, hplays, hprefix⟩ := Program.demands_prefix hplay
  have houtcomes : outcomes journal <+:
      (Caller.replies journal ++ rest).filterMap Reply.outcome? := by
    rw [List.filterMap_append]
    exact List.prefix_append ..
  have hends := ends_of_plays hne hplays
  generalize Caller.replies journal ++ rest = replies at hplays hends houtcomes
  -- the run is compared with a play that goes on from it to some end
  cases hends with
  | refused hhears =>
    obtain ⟨received, hheeding, -⟩ := hhears.demands
    rw [Program.no_answer Program.command_of_after hplays hhears.commands] at houtcomes
    refine ⟨.exited 0, received, "", "", ?_, houtcomes.trans List.nil_prefix⟩
    exact hprefix.trans (hheeding.trans (List.prefix_append ..))
  | @ran front rest outcome received completed sending _ hfront hrest =>
    refine ⟨outcome, received, completed, sending, hprefix, ?_⟩
    rw [List.filterMap_append, hfront] at houtcomes
    simpa [Reply.outcome?, hrest] using houtcomes

theorem permitted_of_run (hne : command ≠ [])
    (h : Caller.Runs (.start c (run id o command).run) journal p)
    (hcommands : commands id o command journal ≠ []) :
    ¬ Refuses o (Caller.received c journal) := by
  obtain ⟨-, calls, hplay, -⟩ := Caller.play_of_run h rfl
  rw [run_eq hne] at hplay
  intro hrefuses
  obtain ⟨front, ds, r, hplays, hprefix⟩ | ⟨front, waited, u, rest, heq, hplays⟩ :=
    Task.demands_bind_cases hplay
  · -- before that it asks for no command
    have hnone := hprefix.filterMap Demand.command?
    rw [(hears_of_plays hplays).commands, ← run_eq hne] at hnone
    exact hcommands (List.prefix_nil.mp hnone)
  · obtain ⟨e, he⟩ := ((hears_of_plays hplays).error_iff hne h heq).mpr hrefuses
    cases he

/-- Once a run has ended, its command was run unless what came kept it from being run. -/
theorem refused_of_done (hne : command ≠ []) {r : Except Failure Unit}
    (h : Caller.Runs (.start c (run id o command).run) journal p)
    (hends : Ends id o command (Caller.replies journal) (asked id o command journal) r) :
    commands id o command journal = [] ↔ Refuses o (Caller.received c journal) := by
  constructor
  · intro hnone
    unfold commands at hnone
    generalize heq : Caller.replies journal = replies, asked id o command journal = ds
      at hends hnone
    cases hends with
    | refused hhears =>
      have hall : Caller.replies journal = replies ++ [] := by rw [heq, List.append_nil]
      exact (hhears.error_iff hne h hall).mp ⟨_, rfl⟩
    | ran =>
      rw [commands_script] at hnone
      cases hnone
  · intro hrefuses
    by_contra hcommands
    exact permitted_of_run hne h hcommands hrefuses

theorem reported_of_done {r : Except Failure Unit} {ds : List Demand}
    (h : Ends id o command replies ds r) (hcommands : ds.filterMap Demand.command? ≠ []) :
    ∃ outcome received completed sending, replies.filterMap Reply.outcome? = [outcome] ∧
      ds = script o command outcome received completed sending := by
  cases h with
  | refused hhears => exact absurd hhears.commands hcommands
  | @ran front rest outcome received completed sending _ hfront hrest =>
    refine ⟨outcome, received, completed, sending, ?_, rfl⟩
    simp [Reply.outcome?, hfront, hrest]

theorem succeeded_of_done {r : Except Failure Unit} {ds : List Demand}
    (h : Ends id o command replies ds r) :
    r = .ok () ↔ ds.filterMap Demand.command? = [command] ∧
      IsAcknowledged id (afterCommand replies) ∧
      (o.sendTrigger.isSome = true → .ok () ∈ replies.filterMap Reply.receipt?) := by
  cases h with
  | refused hhears =>
    refine iff_of_false (fun hok => nomatch hok) ?_
    intro ⟨hcommands, _⟩
    rw [hhears.commands] at hcommands
    cases hcommands
  | ran hfront _ hr =>
    rw [afterCommand_eq hfront, commands_script]
    simpa using hr

end run

/-- A command is run at most once, and not at all just when the trigger that is waited for does not
come or tells of a failure that counts.  If it is run, its notification is tried, and then the
trigger that is asked for is fired once, telling how the command ended.  The run succeeds if all of
that did. -/
theorem triggers_chained (c : Connection) (id : String) (o : Options) (command : List String)
    (hne : command ≠ []) (journal : Caller.Journal (Except Failure Unit))
    (p : Caller (Except Failure Unit))
    (h : Caller.Runs (.start c (run id o command).run) journal p) :
    Chains id o command c journal p := by
  have hscripted := scripted_of_run hne h
  have hends : ∀ r, p.program = .done r →
      Ends id o command (Caller.replies journal) (asked id o command journal) r :=
    fun r hdone => ends_of_plays hne ⟨⟨_, Caller.play_of_done h rfl hdone⟩, rfl⟩
  refine ⟨hscripted, ?_, permitted_of_run hne h, ?_, ?_, ?_, ?_, Caller.leads_done h⟩
  · obtain ⟨outcome, received, completed, sending, hprefix, -⟩ := hscripted
    rw [← commands_script o command outcome received completed sending]
    exact hprefix.filterMap _
  · exact fun r hdone => refused_of_done hne h (hends r hdone)
  · intro hnone
    obtain ⟨outcome, received, completed, sending, hprefix, -⟩ := hscripted
    exact flushed_of_prefix hprefix hnone
  · intro r hdone hcommands
    obtain ⟨outcome, received, completed, sending, houtcome, hall⟩ :=
      reported_of_done (hends r hdone) hcommands
    refine ⟨outcome, received, completed, sending, houtcome, hall, ?_⟩
    rw [flushes, hall, flushed_script]
  · exact fun r hdone => succeeded_of_done (hends r hdone)

/-- A trigger that told of a failure is followed by one that tells how the command ended, and a
command that no trigger belongs to is run at once. -/
theorem triggers_chained_boil :
    let c : Connection := { Connection.start ⟨"c", ⟨none, none⟩⟩ 8 0 .empty 0 with
      inbound := [Request.said (.trigger "tea" "run" false)] }
    let o : Options := ⟨none, some "milk", some "tea", true, .zero⟩
    let free : Options := ⟨none, none, none, false, .zero⟩
    (∃ journal p outcome, Caller.Runs (.start c (run "c" o ["boil"]).run) journal p ∧
      outcomes journal = [outcome] ∧ flushes "c" o ["boil"] journal =
        [(Message.trigger "milk" "run" outcome.isSuccess).toFields]) ∧
    ∃ journal p, Caller.Runs (.start (Request.holding (Request.acknowledgement "c" "n"))
        (run "c" free ["boil"]).run) journal p ∧
      p.program = .done (.ok ()) ∧ commands "c" free ["boil"] journal = [["boil"]] := by
  intro c o free
  constructor
  · obtain ⟨p, r, ⟨journal, -, hrun⟩, hdone⟩ :=
      (triggers_chained c "c" o ["boil"] (by simp) [] _ .start).ends
    have hchains := triggers_chained c "c" o ["boil"] (by simp) journal p hrun
    have hfirst : firstMatch (Request.isTrigger "tea") (Caller.received c journal) =
        some (.trigger "tea" "run" false, Connection.delivered (Caller.link journal)) := by
      have hsaid : (Request.said (.trigger "tea" "run" false)).message =
          .ok (.trigger "tea" "run" false) :=
        Request.message_said (Message.hasFiniteLevel_of_none rfl)
      exact (firstMatch_eq_some_iff ..).mpr ⟨[], _, rfl, rfl, hsaid, rfl⟩
    have hcommands : commands "c" o ["boil"] journal ≠ [] := by
      intro hnone
      obtain ⟨name, hname, hrefused⟩ := (hchains.refused r hdone).mp hnone
      obtain rfl : "tea" = name := Option.some.inj hname
      rw [hfirst] at hrefused
      rcases hrefused with hrefused | ⟨halways, -⟩
      · cases hrefused
      · cases halways
    obtain ⟨outcome, -, -, -, houtcome, -, hflushes⟩ := hchains.reported r hdone hcommands
    exact ⟨journal, p, outcome, hrun, houtcome, hflushes⟩
  · -- the command ends, the id is made, the notification is queued, the acknowledgement is taken
    have hrun : ∃ journal p, Caller.Runs (.start (Request.holding (Request.acknowledgement "c" "n"))
        (run "c" free ["boil"]).run) journal p ∧ p.program = .done (.ok ()) := by
      have hstart : Caller.Runs (.start (Request.holding (Request.acknowledgement "c" "n"))
          (run "c" free ["boil"]).run) [] _ := .start
      have hexited := hstart.move (m := (0, Caller.Move.reply (.exited (.exited 0)))) rfl
      have hdrawn := hexited.move (m := (0, Caller.Move.reply (.drawn "n"))) rfl
      have hqueued := hdrawn.move (m := (0, Caller.Move.proceed)) rfl
      have hfirst : firstMatch (Request.isDisplayed "c") [Request.acknowledgement "c" "n"] =
          some (.notificationDisplayed "c" "n" .zero, []) :=
        (firstMatch_eq_some_iff ..).mpr
          ⟨[], _, rfl, rfl, Request.message_acknowledgement "c" "n", rfl⟩
      obtain ⟨journal, htaken⟩ := hqueued.leads
        (Caller.leads_matched hfirst : Leads Caller.step (Caller.Proceeds 0) _ _)
      exact ⟨journal, _, htaken, rfl⟩
    obtain ⟨journal, p, hrun, hdone⟩ := hrun
    have hchains := triggers_chained _ "c" free ["boil"] (by simp) journal p hrun
    exact ⟨journal, p, hrun, hdone, ((hchains.succeeded _ hdone).mp rfl).1⟩

end MessageBus.RunCommand
