import Mathlib.Data.List.DropRight
import MessageBus.Election

/-! # What a history makes of an election

    Some events put an introducer into office whatever was before, and the presence
    of a greater level takes it out of office.  So of a history only what came after
    the last event of the first kind counts: an introducer is in office unless a
    greater level was present since.

    This also says what an introducer broadcasts along a history, for silence is the
    one event whose answer depends on the office, and so on all that was before it.

    * `isOutbid_concat`, `isActive_next`: the same rule for a history and for a state.
    * `answer_eq_outputs`: what an event makes an introducer broadcast after a history.
    * `run_by_history`: the state after a history and the broadcasts along it. -/

namespace MessageBus.Election

/-! ## Reading a history -/

namespace Event

/-- Whether an introducer is in office after the event, whatever was before. -/
def reinstates : Event → Bool
  | startup | reconnected | silence => true
  | presence _ | rollCall => false

/-- Whether the event is the presence of a level greater than `own`. -/
def outbids (own : Binary64) : Event → Bool
  | presence level => own < level
  | startup | rollCall | reconnected | silence => false

/-- Whether an introducer announces itself at the event. -/
def asksForPresence : Event → Bool
  | startup | rollCall => true
  | presence _ | reconnected | silence => false

end Event

/-- What came after the last event that reinstates; everything if there is none. -/
def sinceReinstated (history : List Event) : List Event := history.rtakeWhile (!·.reinstates)

/-- Whether a level greater than `own` was present since the last event that reinstates. -/
def isOutbid (own : Binary64) (history : List Event) : Bool :=
  (sinceReinstated history).any (·.outbids own)

/-- Whether an introducer calls the roll at an event that it meets after a history. -/
def callsRollAt (own : Binary64) (history : List Event) : Event → Bool
  | .startup | .reconnected => true
  | .silence => isOutbid own history
  | .presence _ | .rollCall => false

/-- What an introducer broadcasts at an event that it meets after a history. -/
def answer (own : Binary64) (history : List Event) (event : Event) : List Output :=
  (if event.asksForPresence then [.announce own] else []) ++
    (if callsRollAt own history event then [.callRoll] else [])

/-- What an introducer broadcasts along a history, event by event. -/
def answers (own : Binary64) (history : List Event) : List Output :=
  (history.mapIdx fun i event => answer own (history.take i) event).flatten

variable {own : Binary64} {history : List Event} {e : Election}

theorem isOutbid_iff :
    isOutbid own history = true ↔
      ∃ level, .presence level ∈ sinceReinstated history ∧ own < level := by
  rw [isOutbid, List.any_eq_true]
  constructor
  · rintro ⟨event, hmem, hbid⟩
    cases event with
    | presence level => exact ⟨level, hmem, by simpa [Event.outbids] using hbid⟩
    | startup | rollCall | reconnected | silence => cases hbid
  · rintro ⟨level, hmem, hlt⟩
    exact ⟨.presence level, hmem, by simpa [Event.outbids] using hlt⟩

/-! ## One more event -/

/-- An event that reinstates makes what was before it not count any more. -/
theorem isOutbid_concat (own : Binary64) (history : List Event) (event : Event) :
    isOutbid own (history ++ [event]) =
      (!event.reinstates && (isOutbid own history || event.outbids own)) := by
  unfold isOutbid sinceReinstated
  rw [List.rtakeWhile_concat]
  cases event.reinstates <;> simp

theorem isActive_next (e : Election) (event : Event) :
    (e.next event).isActive = (event.reinstates || (e.isActive && !event.outbids e.level)) := by
  cases event with
  | presence level =>
    by_cases hlt : e.level < level <;> simp [next, Event.reinstates, Event.outbids, hlt]
  | startup | rollCall | reconnected | silence =>
    simp [next, Event.reinstates, Event.outbids]

theorem answers_concat (own : Binary64) (history : List Event) (event : Event) :
    answers own (history ++ [event]) = answers own history ++ answer own history event := by
  have hearlier : (history.mapIdx fun i event' => answer own ((history ++ [event]).take i) event')
      = history.mapIdx fun i event' => answer own (history.take i) event' := by
    refine List.mapIdx_eq_mapIdx_iff.mpr fun i hi => ?_
    rw [List.take_append_of_le_length (Nat.le_of_lt hi)]
  rw [answers, List.mapIdx_concat, hearlier, List.flatten_append, List.flatten_singleton,
    List.take_left, answers]

theorem run_concat (e : Election) (history : List Event) (event : Event) :
    e.run (history ++ [event]) =
      ((e.run history).1.next event, (e.run history).2 ++ (e.run history).1.outputs event) := by
  induction history generalizing e with
  | nil => simp [run, step]
  | cons first rest ih => simp [run, step, ih]

/-! ## The state as the history has it -/

/-- The state after a history: the level is the own one, and the introducer is in
    office unless it was outbid. -/
def Reflects (e : Election) (own : Binary64) (history : List Event) : Prop :=
  e.level = own ∧ e.isActive = !isOutbid own history

theorem reflects_start (own : Binary64) : (start own).Reflects own [] := ⟨rfl, rfl⟩

theorem Reflects.next (h : e.Reflects own history) (event : Event) :
    (e.next event).Reflects own (history ++ [event]) := by
  obtain ⟨rfl, hactive⟩ := h
  refine ⟨level_step e event, ?_⟩
  rw [isActive_next, isOutbid_concat, hactive]
  cases event.reinstates <;> simp

/-- The answer of a state is that of the history it reflects. -/
theorem answer_eq_outputs (h : e.Reflects own history) (event : Event) :
    e.outputs event = answer own history event := by
  obtain ⟨rfl, hactive⟩ := h
  cases event with
  | silence =>
    rw [outputs, hactive]
    cases hbid : isOutbid e.level history <;>
      simp [answer, callsRollAt, Event.asksForPresence, hbid]
  | startup | presence level | rollCall | reconnected => rfl

/-- Every history is reflected by the state it leads to, and answered event by event. -/
theorem reflects_run (own : Binary64) (history : List Event) :
    ((start own).run history).1.Reflects own history ∧
      ((start own).run history).2 = answers own history := by
  induction history using List.reverseRecOn with
  | nil => exact ⟨reflects_start own, rfl⟩
  | append_singleton history event ih =>
    obtain ⟨hreflects, hanswers⟩ := ih
    rw [run_concat, answers_concat]
    exact ⟨hreflects.next event, by rw [hanswers, answer_eq_outputs hreflects]⟩

/-! ## Main theorem -/

/-- After every history an introducer that was new has its own level still, and it is in
    office just when no greater level was present after the last event that reinstates,
    which are startups, reconnections and silences.  Along the history it announced its own
    level once at each startup and roll call, and called the roll once at each startup, at
    each reconnection and at each silence that it met while it was outbid, all in the order of
    the events. -/
theorem run_by_history (own : Binary64) (history : List Event) :
    ((start own).run history).1.level = own ∧
    (((start own).run history).1.isActive = true ↔
      ∀ level, .presence level ∈ sinceReinstated history → ¬ own < level) ∧
    ((start own).run history).2 = answers own history := by
  obtain ⟨⟨hlevel, hactive⟩, hanswers⟩ := reflects_run own history
  refine ⟨hlevel, ?_, hanswers⟩
  rw [hactive, Bool.not_eq_true', ← Bool.not_eq_true, isOutbid_iff]
  simp only [not_exists, not_and]

-- what was heard before a silence counts no more, and only the second silence is met in office
example : (start (.ofInt 3)).run [.presence (.ofInt 5), .rollCall, .silence, .silence] =
    (⟨true, .ofInt 3⟩, [.announce (.ofInt 3), .callRoll]) := by
  decide

end MessageBus.Election
