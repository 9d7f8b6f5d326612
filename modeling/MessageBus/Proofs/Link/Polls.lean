import Mathlib.Data.List.Chain
import MessageBus.Link.Polling
import MessageBus.Proofs.Run

/-! # When polls follow each other

    A receiver of a polled link is called for a body and returns when it has one.
    In between it polls: after a poll that failed it pauses, after a poll that
    brought nothing it polls again in the same moment.  The clock does not pass
    over the end of a pause.

    What a receiver does leaves marks: a call, a poll that goes out, a poll that
    ends, a return.  Which mark may follow which, and when, is the whole law of a
    receiver, and `Follows` carries it along a run: the last mark says what the
    receiver is doing.

    * `paced_step`, `paced_of_run`: how the marks follow each other.
    * `results_of_run`: what the calls return, by the outcomes of the polls.
    * `exists_run_of_outcomes`: polls may end in any way, one after the other. -/

namespace MessageBus.Polling

/-- Only an answer with the one status, and with a body, brings that body. -/
theorem PollOutcome.body?_eq_some_iff {o : PollOutcome} {body : Bytes} :
    o.body? = some body ↔ o = .answered 200 body ∧ body ≠ [] := by
  constructor
  · intro h
    rcases react_cases o with ⟨body', rfl, hne, hbody, -⟩ | ⟨-, hnone, -⟩ | ⟨-, hnone, -⟩
    · cases h.symm.trans hbody
      exact ⟨rfl, hne⟩
    all_goals cases h.symm.trans hnone
  · rintro ⟨rfl, hne⟩
    exact if_neg hne

/-- What a receiver is doing. -/
inductive Stance where
  /-- It is not called. -/
  | idle
  /-- It waits for the end of a poll. -/
  | polling
  /-- It pauses up to a moment. -/
  | pausing (due : Nat)

/-- A receiver and the time. -/
structure Receiver where
  /-- The pause after a poll that failed. -/
  delay : Nat
  now : Nat
  stance : Stance

/-- Something that a receiver did, and when. -/
inductive Mark where
  /-- It is called for a body. -/
  | called (moment : Nat)
  /-- A poll goes out. -/
  | asked (moment : Nat)
  /-- A poll ends. -/
  | ended (moment : Nat) (o : PollOutcome)
  /-- The call returns. -/
  | returned (moment : Nat) (result : BusResult Bytes)

namespace Receiver

/-- What happens to a receiver. -/
inductive Move where
  /-- Time passes. -/
  | pass (duration : Nat)
  /-- The receiver is called for a body. -/
  | call
  /-- The poll that went out ends. -/
  | answer (o : PollOutcome)
  /-- The pause is over. -/
  | wake

/-- A receiver that was not called yet. -/
def start (delay first : Nat) : Receiver := ⟨delay, first, .idle⟩

/-- Whether no pause ends before a moment. -/
def Stance.lastsUntil (moment : Nat) : Stance → Bool
  | .pausing due => moment ≤ due
  | .idle | .polling => true

/-- What a receiver does after a poll. -/
def afterPoll (r : Receiver) (o : PollOutcome) : Receiver × List Mark :=
  match react o with
  | .finish result => ({ r with stance := .idle }, [.returned r.now result])
  | .pollAgain => (r, [.asked r.now])
  | .pause => ({ r with stance := .pausing (r.now + r.delay) }, [])

/-- The transition for a move. -/
def step (r : Receiver) (m : Move) : Option (Receiver × List Mark) :=
  match m, r.stance with
  | .pass duration, stance =>
    -- the time does not pass over the end of a pause
    if Stance.lastsUntil (r.now + duration) stance then
      some ({ r with now := r.now + duration }, [])
    else none
  | .call, .idle => some ({ r with stance := .polling }, [.called r.now, .asked r.now])
  | .answer o, .polling =>
    let (r', marks) := r.afterPoll o
    some (r', .ended r.now o :: marks)
  | .wake, .pausing due =>
    if due ≤ r.now then some ({ r with stance := .polling }, [.asked r.now]) else none
  | _, _ => none

/-- A trace of a receiver. -/
abbrev Trace := List (Stage Receiver Move Mark)

/-- A run of a receiver. -/
abbrev Runs (r₀ : Receiver) (trace : Trace) (r : Receiver) : Prop := Run step r₀ trace r

/-- The moves of a receiver, one constructor for each outcome. -/
inductive Moves (r : Receiver) : Move → Receiver → List Mark → Prop where
  | passed {duration : Nat} :
      Stance.lastsUntil (r.now + duration) r.stance = true →
      Moves r (.pass duration) { r with now := r.now + duration } []
  | called : r.stance = .idle →
      Moves r .call { r with stance := .polling } [.called r.now, .asked r.now]
  | brought {body : Bytes} : r.stance = .polling → body ≠ [] →
      Moves r (.answer (.answered 200 body)) { r with stance := .idle }
        [.ended r.now (.answered 200 body), .returned r.now (.ok body)]
  | empty {o : PollOutcome} : r.stance = .polling → o.isEmpty = true → o.body? = none →
      Moves r (.answer o) r [.ended r.now o, .asked r.now]
  | failed {o : PollOutcome} : r.stance = .polling → o.fails = true → o.body? = none →
      Moves r (.answer o) { r with stance := .pausing (r.now + r.delay) } [.ended r.now o]
  | woke {due : Nat} : r.stance = .pausing due → due ≤ r.now →
      Moves r .wake { r with stance := .polling } [.asked r.now]

variable {r r' : Receiver} {m : Move} {marks : List Mark} {trace : Trace}

/-- Every possible move is one of the listed ones. -/
theorem moves_of_step (h : r.step m = some (r', marks)) : Moves r m r' marks := by
  unfold step at h
  split at h
  · split at h
    · next hlasts =>
      cases h
      exact .passed hlasts
    · cases h
  · next hidle =>
    cases h
    exact .called hidle
  · next o hpolling =>
    rcases react_cases o with ⟨body, rfl, hbody, -, hreact⟩ | ⟨hempty, hbody, hreact⟩ |
      ⟨hfails, hbody, hreact⟩
    · simp only [afterPoll, hreact] at h
      cases h
      exact .brought hpolling hbody
    · simp only [afterPoll, hreact] at h
      cases h
      exact .empty hpolling hempty hbody
    · simp only [afterPoll, hreact] at h
      cases h
      exact .failed hpolling hfails hbody
  · next hpausing =>
    split at h
    · next hdue =>
      cases h
      exact .woke hpausing hdue
    · cases h
  · cases h

end Receiver

/-! ## How marks follow each other -/

/-- What may follow what.  A call polls at once.  A poll that brings a body ends the call with that
body.  After a poll that brought nothing the next one goes out in the same moment, and after one
that failed it goes out when the pause is over, no sooner and no later. -/
def Paced (delay : Nat) : Mark → Mark → Prop
  | .called t, .asked t' => t' = t
  | .asked t, .ended t' _ => t ≤ t'
  | .ended t o, .asked t' =>
    (o.isEmpty = true ∧ t' = t) ∨ (o.fails = true ∧ t' = t + delay)
  | .ended t o, .returned t' result =>
    t' = t ∧ ∃ body, o = .answered 200 body ∧ body ≠ [] ∧ result = .ok body
  | .returned t _, .called t' => t ≤ t'
  | _, _ => False

/-- How a stance follows the last mark, if there is one. -/
def Follows (delay now : Nat) : Option Mark → Stance → Prop
  | none, .idle => True
  | some (.returned t _), .idle => t ≤ now
  | some (.asked t), .polling => t ≤ now
  | some (.ended t o), .pausing due => o.fails = true ∧ due = t + delay ∧ now ≤ due
  | _, _ => False

/-- Whether a list goes on as it may is seen from its last element. -/
theorem isChain_append_of_last {α : Type} {R : α → α → Prop} {l added : List α} (h : l.IsChain R)
    (hadded : (l.getLast?.toList ++ added).IsChain R) : (l ++ added).IsChain R := by
  refine h.append hadded.right_of_append ?_
  intro x hx y hy
  rw [Option.mem_def.mp hx] at hadded
  exact (List.isChain_append.mp hadded).2.2 x rfl y hy

namespace Receiver

variable {r r' : Receiver} {m : Move} {marks : List Mark} {trace : Trace} {last : Option Mark}
  {first delay : Nat}

theorem delay_step (h : r.step m = some (r', marks)) : r'.delay = r.delay := by
  cases moves_of_step h <;> rfl

/-- The last mark when time has passed. -/
theorem follows_pass {now duration : Nat} {stance : Stance}
    (h : Follows delay now last stance)
    (hlasts : Stance.lastsUntil (now + duration) stance = true) :
    Follows delay (now + duration) last stance := by
  match last, stance, h with
  | none, .idle, _ => trivial
  | some (.returned t _), .idle, h => exact Nat.le_add_right_of_le h
  | some (.asked t), .polling, h => exact Nat.le_add_right_of_le h
  | some (.ended t o), .pausing due, h =>
    obtain ⟨hfails, hdue, -⟩ := h
    exact ⟨hfails, hdue, of_decide_eq_true hlasts⟩

/-- What a move adds follows the last mark, and the receiver goes on from what it adds. -/
theorem paced_step (h : r.step m = some (r', marks)) (hlast : Follows r.delay r.now last r.stance) :
    (last.toList ++ marks).IsChain (Paced r.delay) ∧
      Follows r.delay r'.now (marks.getLast?.or last) r'.stance := by
  cases moves_of_step h with
  | passed hlasts =>
    refine ⟨?_, follows_pass hlast hlasts⟩
    cases last <;> simp
  | called hidle =>
    rw [hidle] at hlast
    match last, hlast with
    | none, _ => exact ⟨by simp [Paced], Nat.le_refl _⟩
    | some (.returned t result), hlast =>
      have hafter : t ≤ r.now := hlast
      exact ⟨by simp [Paced, hafter], Nat.le_refl _⟩
  | @brought body hpolling hbody =>
    rw [hpolling] at hlast
    match last, hlast with
    | some (.asked t), hlast =>
      have hafter : t ≤ r.now := hlast
      exact ⟨by simp [Paced, hafter, hbody], Nat.le_refl _⟩
  | empty hpolling hempty =>
    rw [hpolling] at hlast
    match last, hlast with
    | some (.asked t), hlast =>
      have hafter : t ≤ r.now := hlast
      refine ⟨by simp [Paced, hafter, hempty], ?_⟩
      rw [hpolling]
      exact Nat.le_refl _
  | failed hpolling hfails =>
    rw [hpolling] at hlast
    match last, hlast with
    | some (.asked t), hlast =>
      have hafter : t ≤ r.now := hlast
      exact ⟨by simp [Paced, hafter], hfails, rfl, Nat.le_add_right ..⟩
  | @woke due hpausing hdue =>
    rw [hpausing] at hlast
    match last, hlast with
    | some (.ended t o), hlast =>
      obtain ⟨hfails, rfl, hnow⟩ := hlast
      -- the clock did not pass over the end of the pause, so it is there just now
      have hnow : r.now = t + r.delay := Nat.le_antisymm hnow hdue
      exact ⟨by simp [Paced, hfails, hnow], Nat.le_refl _⟩

/-- Along every run the marks follow each other as they may. -/
theorem paced_of_run (h : Runs (start delay first) trace r) :
    (eventsOf trace).IsChain (Paced delay) ∧ r.delay = delay ∧
      Follows delay r.now (eventsOf trace).getLast? r.stance := by
  induction h with
  | start => exact ⟨.nil, rfl, trivial⟩
  | @move trace r r' m marks _ hstep ih =>
    obtain ⟨hchain, rfl, hlast⟩ := ih
    obtain ⟨hadded, hfollows⟩ := paced_step hstep hlast
    rw [eventsOf_snoc, List.getLast?_append]
    exact ⟨isChain_append_of_last hchain hadded, delay_step hstep, hfollows⟩

end Receiver

/-! ## What calls return -/

/-- How a poll ended. -/
def Mark.outcome? : Mark → Option PollOutcome
  | ended _ o => some o
  | _ => none

/-- What a call returned. -/
def Mark.result? : Mark → Option (BusResult Bytes)
  | returned _ result => some result
  | _ => none

/-- How the polls ended, one after the other. -/
def outcomes (marks : List Mark) : List PollOutcome := marks.filterMap Mark.outcome?

/-- What the calls returned, one after the other. -/
def results (marks : List Mark) : List (BusResult Bytes) := marks.filterMap Mark.result?

theorem outcomes_append (marks₁ marks₂ : List Mark) :
    outcomes (marks₁ ++ marks₂) = outcomes marks₁ ++ outcomes marks₂ := List.filterMap_append

theorem results_append (marks₁ marks₂ : List Mark) :
    results (marks₁ ++ marks₂) = results marks₁ ++ results marks₂ := List.filterMap_append

namespace Receiver

variable {r r' : Receiver} {m : Move} {marks : List Mark} {trace : Trace}

/-- How the poll ends that a move ends. -/
def Move.outcome? : Move → Option PollOutcome
  | answer o => some o
  | pass _ | call | wake => none

theorem outcomes_step (h : r.step m = some (r', marks)) : outcomes marks = m.outcome?.toList := by
  cases moves_of_step h <;> rfl

/-- The end of a poll and the return of a call with its body are one move. -/
theorem results_step (h : r.step m = some (r', marks)) :
    results marks = ((outcomes marks).filterMap (·.body?)).map .ok := by
  cases moves_of_step h with
  | passed | called | woke => rfl
  | @brought body _ hbody =>
    have hbrought := PollOutcome.body?_eq_some_iff.mpr ⟨rfl, hbody⟩
    simp [results, outcomes, Mark.result?, Mark.outcome?, List.filterMap_cons, hbrought]
  | empty _ _ hbody | failed _ _ hbody =>
    simp [results, outcomes, Mark.result?, Mark.outcome?, List.filterMap_cons, hbody]

/-- The calls return the bodies that polls brought. -/
theorem results_of_run {r₀ : Receiver} (h : Runs r₀ trace r) :
    results (eventsOf trace) = ((outcomes (eventsOf trace)).filterMap (·.body?)).map .ok := by
  induction h with
  | start => rfl
  | move _ hstep ih =>
    rw [eventsOf_snoc, results_append, outcomes_append, ih, results_step hstep,
      List.filterMap_append, List.map_append]

/-! ## Polls may end in any way -/

/-- A receiver comes to its next poll, from whatever it is doing. -/
theorem exists_polling (r : Receiver) :
    ∃ trace r', Runs r trace r' ∧ r'.stance = .polling ∧ outcomes (eventsOf trace) = [] := by
  obtain ⟨delay, now, stance⟩ := r
  have hwake : ∀ due moment, due ≤ moment → step ⟨delay, moment, .pausing due⟩ .wake =
      some (⟨delay, moment, .polling⟩, [.asked moment]) := fun due moment hdue => if_pos hdue
  cases stance with
  | idle => exact ⟨_, _, Run.start.move (m := .call) rfl, rfl, rfl⟩
  | polling => exact ⟨[], _, .start, rfl, rfl⟩
  | pausing due =>
    rcases Nat.le_total due now with hover | hahead
    · exact ⟨_, _, Run.start.move (hwake due now hover), rfl, rfl⟩
    · have hpass : step ⟨delay, now, .pausing due⟩ (.pass (due - now)) =
          some (⟨delay, due, .pausing due⟩, []) := by
        simp [step, Stance.lastsUntil, Nat.add_sub_cancel' hahead]
      exact ⟨_, _, (Run.start.move hpass).move (hwake due due (Nat.le_refl _)), rfl, rfl⟩

theorem outcomes_afterPoll (r : Receiver) (o : PollOutcome) :
    outcomes (r.afterPoll o).2 = [] := by
  unfold afterPoll
  split <;> rfl

/-- However polls end, one after the other, a receiver goes on with the next one. -/
theorem exists_run_of_outcomes (os : List PollOutcome) (r : Receiver) :
    ∃ trace r', Runs r trace r' ∧ outcomes (eventsOf trace) = os := by
  induction os generalizing r with
  | nil => exact ⟨[], r, .start, rfl⟩
  | cons o os ih =>
    obtain ⟨trace, r₁, hrun, hpolling, hnone⟩ := exists_polling r
    have hanswer : r₁.step (.answer o) =
        some ((r₁.afterPoll o).1, [.ended r₁.now o] ++ (r₁.afterPoll o).2) := by
      simp only [step, hpolling, List.singleton_append]
    obtain ⟨trace', r', hrun', hos⟩ := ih (r₁.afterPoll o).1
    refine ⟨_, r', (hrun.move hanswer).append hrun', ?_⟩
    rw [eventsOf_append, eventsOf_snoc, outcomes_append, outcomes_append, outcomes_append, hnone,
      outcomes_afterPoll, hos]
    rfl

end Receiver

end MessageBus.Polling
