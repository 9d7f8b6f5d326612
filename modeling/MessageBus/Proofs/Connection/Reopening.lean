import Mathlib.Data.List.Chain
import MessageBus.Proofs.Connection.Moves

/-! # How often links are opened

    A link that fails is opened anew, again and again until an attempt succeeds,
    whatever the attempts before it failed with.  Two attempts are never closer
    together than the pause of the connection, measured from where the first of
    them returned to where the second begins; and this is so across everything
    that may lie between them: other attempts that fail, a link that was up for a
    moment or for long, and a signal that waited for room.

    What carries the argument is how the phase of a connection follows the last
    attempt: a link is up, or announced, after an attempt has returned, a pause is
    over a whole pause after that, and while a link is opened an attempt has begun.

    * `Follows`, `follows_moves`: how the phase follows the last attempt.
    * `spaced_marks`: the attempts along a run.
    * `reopening_run`: what ends the attempts.
    * `exists_attempts`: any attempts may fail before one succeeds.
    * `attempts_spaced`: all of it together. -/

namespace MessageBus.Connection

/-! ## Connections with a clock -/

/-- A connection and the time. -/
structure Clocked where
  connection : Connection
  now : Nat

/-- Where an attempt to open a link begins and where it has returned. -/
inductive Mark where
  | began (moment : Nat)
  | ended (moment : Nat)

/-- Whether a link is being opened. -/
def isOpening (c : Connection) : Bool :=
  match c.phase with
  | .opening => true
  | _ => false

/-- Whether a link that failed has not been replaced yet. -/
def isDown (c : Connection) : Bool :=
  match c.phase with
  | .pausing _ | .opening => true
  | _ => false

/-- Whether a move is an attempt that returns. -/
def Action.isReturn : Action → Bool
  | .opened _ => true
  | _ => false

/-- The attempt that begins with a move of a connection, if one does. -/
def beginnings (now : Nat) (c c' : Connection) : List Mark :=
  if !c.isOpening && c'.isOpening then [.began now] else []

namespace Clocked

/-- What happens to a connection with a clock. -/
inductive Move where
  /-- Time passes. -/
  | pass (duration : Nat)
  /-- The attempt to open a link returns, with the link or with a failure of any kind. -/
  | attempt (result : BusResult Nat)
  /-- Anything else that the connection, its link or a caller does. -/
  | work (a : Action)

/-- The transition for a move. -/
def step (s : Clocked) : Move → Option (Clocked × List Mark)
  | .pass duration => some ({ s with now := s.now + duration }, [])
  | .attempt result =>
    (s.connection.step s.now (.opened result.isOk)).map fun (c, _) =>
      ({ s with connection := c }, [.ended s.now])
  | .work a =>
    if a.isReturn then none
    else (s.connection.step s.now a).map fun (c, _) =>
      ({ s with connection := c }, beginnings s.now s.connection c)

/-- A new connection at the moment at which its first link came up. -/
def start (codec : Codec) (capacity delay : Nat) (keys : KeySet) (first : Nat) : Clocked :=
  ⟨Connection.start codec capacity delay keys first, first⟩

/-- A trace of a connection with a clock. -/
abbrev Trace := List (Stage Clocked Move Mark)

/-- A run of a connection with a clock. -/
abbrev Runs (s₀ : Clocked) (trace : Trace) (s : Clocked) : Prop := Run step s₀ trace s

variable {s s' : Clocked} {trace : Trace} {marks : List Mark}

theorem work_cases {a : Action} (h : step s (.work a) = some (s', marks)) :
    ∃ c events, a.isReturn = false ∧ Moves s.now s.connection a c events ∧
      s' = { s with connection := c } ∧ marks = beginnings s.now s.connection c := by
  simp only [step] at h
  split at h
  · cases h
  · next hreturn =>
    obtain ⟨⟨c, events⟩, hstep, heq⟩ := Option.map_eq_some_iff.mp h
    cases heq
    exact ⟨c, events, by simpa using hreturn, moves_of_step hstep, rfl, rfl⟩

/-- What a move of a connection with a clock comes down to. -/
theorem step_cases {m : Move} (h : step s m = some (s', marks)) :
    (∃ duration, m = .pass duration ∧ s' = { s with now := s.now + duration } ∧ marks = []) ∨
    (∃ link, m = .attempt (.ok link) ∧ s.connection.phase = .opening ∧
      s' = { s with connection := { s.connection with phase := .announcing } } ∧
      marks = [.ended s.now]) ∨
    (∃ err, m = .attempt (.error err) ∧ s.connection.phase = .opening ∧
      s' = { s with connection :=
        { s.connection with phase := .pausing (s.now + s.connection.delay) } } ∧
      marks = [.ended s.now]) ∨
    ∃ a c events, m = .work a ∧ a.isReturn = false ∧ Moves s.now s.connection a c events ∧
      s' = { s with connection := c } ∧ marks = beginnings s.now s.connection c := by
  cases m with
  | pass duration =>
    cases h
    exact .inl ⟨_, rfl, rfl, rfl⟩
  | attempt result =>
    obtain ⟨⟨c, events⟩, hstep, heq⟩ := Option.map_eq_some_iff.mp h
    cases heq
    cases result with
    | ok link =>
      cases moves_of_step hstep with
      | opened hphase => exact .inr (.inl ⟨link, rfl, hphase, rfl, rfl⟩)
    | error err =>
      cases moves_of_step hstep with
      | refused hphase => exact .inr (.inr (.inl ⟨err, rfl, hphase, rfl, rfl⟩))
  | work a =>
    obtain ⟨c, events, hmove⟩ := work_cases h
    exact .inr (.inr (.inr ⟨a, c, events, rfl, hmove⟩))

end Clocked

/-! ## How the phase follows the last attempt -/

/-- What may follow what: an attempt begins a pause after the one before it has
    returned, and returns after it has begun. -/
def Spaced (delay : Nat) : Mark → Mark → Prop
  | .ended returned, .began moment => returned + delay ≤ moment
  | .began moment, .ended returned => moment ≤ returned
  | _, _ => False

/-- How a phase follows the last attempt. -/
def Follows (delay now : Nat) (last : Mark) : Phase → Prop
  | .serving since _ => ∃ returned ≤ since, since ≤ now ∧ last = .ended returned
  | .pausing due => ∃ returned, returned + delay ≤ due ∧ last = .ended returned
  | .opening => ∃ moment ≤ now, last = .began moment
  | .announcing => ∃ returned ≤ now, last = .ended returned
  | .stopped => True

variable {c c' : Connection} {a : Action} {events : List Event} {delay now later : Nat}
  {last : Mark} {phase : Phase}

theorem Follows.mono (h : Follows delay now last phase) (hlater : now ≤ later) :
    Follows delay later last phase := by
  cases phase with
  | serving since handing =>
    obtain ⟨returned, hserved, hnow, rfl⟩ := h
    exact ⟨returned, hserved, Nat.le_trans hnow hlater, rfl⟩
  | pausing due => exact h
  | opening =>
    obtain ⟨moment, hnow, rfl⟩ := h
    exact ⟨moment, Nat.le_trans hnow hlater, rfl⟩
  | announcing =>
    obtain ⟨returned, hnow, rfl⟩ := h
    exact ⟨returned, Nat.le_trans hnow hlater, rfl⟩
  | stopped => trivial

/-- A move goes on with the attempts: no attempt begins and the phase follows the
    last one still, or one begins that keeps the distance. -/
def GoesOn (delay now : Nat) (last : Mark) (marks : List Mark) (phase : Phase) : Prop :=
  (marks = [] ∧ Follows delay now last phase) ∨
    ∃ mark, marks = [mark] ∧ Spaced delay last mark ∧ Follows delay now mark phase

theorem beginnings_of_not_opening (h : c'.isOpening = false) : beginnings now c c' = [] := by
  simp [beginnings, h]

theorem beginnings_of_same_phase (h : c'.phase = c.phase) : beginnings now c c' = [] := by
  simp [beginnings, isOpening, h]

/-- After a failure the first attempt begins at once unless the link was
    short-lived. -/
theorem goesOn_afterFailure {since : Nat} {handing : Option Envelope}
    (hphase : c.phase = .serving since handing) (h : Follows c.delay now last c.phase) :
    GoesOn c.delay now last (beginnings now c { c with phase := c.afterFailure now since })
      (c.afterFailure now since) := by
  rw [hphase] at h
  obtain ⟨returned, hserved, hnow, rfl⟩ := h
  by_cases hshort : now - since < c.delay
  · rw [afterFailure, if_pos hshort]
    exact .inl ⟨beginnings_of_not_opening rfl, returned, by omega, rfl⟩
  · -- the link came up after the last attempt had returned, so its life is the pause
    rw [afterFailure, if_neg hshort]
    refine .inr ⟨.began now, ?_, ?_, now, Nat.le_refl _, rfl⟩
    · simp [beginnings, isOpening, hphase]
    · show returned + c.delay ≤ now
      omega

/-- Whatever a connection does, its phase follows the last attempt. -/
theorem follows_moves (hm : Moves now c a c' events) (ha : a.isReturn = false)
    (h : Follows c.delay now last c.phase) :
    GoesOn c.delay now last (beginnings now c c') c'.phase := by
  cases hm with
  | queued | rekeyed | took | prepared | rejected | wrote | finished =>
    exact .inl ⟨beginnings_of_same_phase rfl, h⟩
  | writeFailed hphase => exact goesOn_afterFailure hphase h
  | lost hphase => exact goesOn_afterFailure hphase h
  | arrived hphase =>
    rw [hphase] at h
    exact .inl ⟨beginnings_of_not_opening rfl, h⟩
  | delivered hphase =>
    rw [hphase] at h
    exact .inl ⟨beginnings_of_not_opening rfl, h⟩
  | resumed hphase hdue =>
    rw [hphase] at h
    obtain ⟨returned, hpause, rfl⟩ := h
    refine .inr ⟨.began now, ?_, Nat.le_trans hpause hdue, now, Nat.le_refl _, rfl⟩
    simp [beginnings, isOpening, hphase]
  | opened | refused => cases ha
  | announced hphase =>
    rw [hphase] at h
    obtain ⟨returned, hnow, rfl⟩ := h
    exact .inl ⟨beginnings_of_not_opening rfl, returned, hnow, Nat.le_refl _, rfl⟩
  | cancelled => exact .inl ⟨beginnings_of_not_opening rfl, trivial⟩

/-- The pause of a connection never changes. -/
theorem delay_moves (hm : Moves now c a c' events) : c'.delay = c.delay := by
  cases hm <;> rfl

namespace Clocked

variable {s s' : Clocked} {trace : Trace} {marks : List Mark} {codec : Codec}
  {capacity first : Nat} {keys : KeySet}

theorem goesOn_step {m : Move} (hm : step s m = some (s', marks))
    (h : Follows s.connection.delay s.now last s.connection.phase) :
    s'.connection.delay = s.connection.delay ∧
      GoesOn s.connection.delay s'.now last marks s'.connection.phase := by
  rcases step_cases hm with ⟨duration, -, rfl, rfl⟩ | ⟨link, -, hphase, rfl, rfl⟩ |
    ⟨err, -, hphase, rfl, rfl⟩ | ⟨a, c, events, -, ha, hmove, rfl, rfl⟩
  · exact ⟨rfl, .inl ⟨rfl, h.mono (Nat.le_add_right ..)⟩⟩
  · rw [hphase] at h
    obtain ⟨moment, hnow, rfl⟩ := h
    exact ⟨rfl, .inr ⟨_, rfl, hnow, s.now, Nat.le_refl _, rfl⟩⟩
  · rw [hphase] at h
    obtain ⟨moment, hnow, rfl⟩ := h
    exact ⟨rfl, .inr ⟨_, rfl, hnow, s.now, Nat.le_refl _, rfl⟩⟩
  · exact ⟨delay_moves hmove, follows_moves hmove ha h⟩

/-- Along every run the attempts keep their distance, and the phase follows the
    last of them. -/
theorem spaced_marks (h : Runs (start codec capacity delay keys first) trace s) :
    (Mark.ended first :: eventsOf trace).IsChain (Spaced delay) ∧
      s.connection.delay = delay ∧
      ∃ last ∈ (Mark.ended first :: eventsOf trace).getLast?,
        Follows delay s.now last s.connection.phase := by
  induction h with
  | start =>
    refine ⟨List.isChain_singleton _, rfl, _, rfl, ?_⟩
    exact ⟨first, Nat.le_refl _, Nat.le_refl _, rfl⟩
  | @move trace s s' m marks _ hstep ih =>
    obtain ⟨hchain, rfl, last, hlast, hfollows⟩ := ih
    obtain ⟨hdelay, hgoes⟩ := goesOn_step hstep hfollows
    rw [eventsOf_snoc, ← List.cons_append]
    rcases hgoes with ⟨rfl, hfollows⟩ | ⟨mark, rfl, hspaced, hfollows⟩
    · rw [List.append_nil]
      exact ⟨hchain, hdelay, last, hlast, hfollows⟩
    · refine ⟨hchain.append (List.isChain_singleton _) ?_, hdelay, mark, ?_, hfollows⟩
      · intro x hx y hy
        obtain rfl := Option.mem_unique hx hlast
        obtain rfl := Option.some.inj hy
        exact hspaced
      · exact List.getLast?_concat

end Clocked

/-! ## How long a link was up -/

/-- A link that is up was announced just now, or was up already. -/
theorem serving_moves {since : Nat} {handing : Option Envelope} (hm : Moves now c a c' events)
    (h : c'.phase = .serving since handing) :
    (a = .announce ∧ since = now) ∨
      (a ≠ .announce ∧ ∃ handing', c.phase = .serving since handing') := by
  have hfailed : ∀ since', c.afterFailure now since' ≠ .serving since handing := by
    intro since'
    unfold afterFailure
    split
    · nofun
    · nofun
  cases hm with
  | queued | rekeyed | took | prepared | rejected | wrote | finished => exact .inr ⟨nofun, _, h⟩
  | arrived hphase =>
    cases h
    exact .inr ⟨nofun, _, hphase⟩
  | delivered hphase =>
    cases h
    exact .inr ⟨nofun, _, hphase⟩
  | announced hphase =>
    cases h
    exact .inl ⟨rfl, rfl⟩
  | writeFailed hphase => exact absurd h (hfailed _)
  | lost hphase => exact absurd h (hfailed _)
  | resumed hphase => cases h
  | opened hphase => cases h
  | refused hphase => cases h
  | cancelled => cases h

namespace Clocked

variable {s s' : Clocked} {trace : Trace} {marks : List Mark} {codec : Codec}
  {capacity first : Nat} {keys : KeySet}

/-- The moment at which a move announces a link. -/
def announced? (st : Stage Clocked Move Mark) : Option Nat :=
  match st.move with
  | .work .announce => some st.before.now
  | _ => none

/-- The moment since which the last link was up. -/
def servedSince (first : Nat) (trace : Trace) : Nat :=
  ((trace.filterMap announced?).getLast?).getD first

theorem servedSince_snoc_none {st : Stage Clocked Move Mark} (h : announced? st = none) :
    servedSince first (trace ++ [st]) = servedSince first trace := by
  simp [servedSince, h]

theorem servedSince_snoc_some {st : Stage Clocked Move Mark} {moment : Nat}
    (h : announced? st = some moment) : servedSince first (trace ++ [st]) = moment := by
  simp [servedSince, h]

/-- A connection knows since when its link is up. -/
theorem since_eq (h : Runs (start codec capacity delay keys first) trace s) {since : Nat}
    {handing : Option Envelope} (hphase : s.connection.phase = .serving since handing) :
    since = servedSince first trace := by
  induction h generalizing since handing with
  | start =>
    cases hphase
    rfl
  | move _ hstep ih =>
    rcases step_cases hstep with ⟨duration, rfl, rfl, rfl⟩ | ⟨link, rfl, -, rfl, rfl⟩ |
      ⟨err, rfl, -, rfl, rfl⟩ | ⟨a, c, events, rfl, -, hmove, rfl, rfl⟩
    · rw [servedSince_snoc_none rfl]
      exact ih hphase
    · cases hphase
    · cases hphase
    · rcases serving_moves hmove hphase with ⟨rfl, rfl⟩ | ⟨hother, handing', hphase⟩
      · rw [servedSince_snoc_some rfl]
      · rw [servedSince_snoc_none (by simp [announced?, hother])]
        exact ih hphase

end Clocked

/-- What becomes of a connection whose link fails. -/
theorem failed_moves (hm : Moves now c a c' events) (ha : a = .loseLink ∨ a = .write false) :
    ∃ since handing, c.phase = .serving since handing ∧
      c'.phase = c.afterFailure now since := by
  rcases ha with rfl | rfl
  · cases hm with
    | lost hphase => exact ⟨_, _, hphase, rfl⟩
  · cases hm with
    | writeFailed hphase => exact ⟨_, _, hphase, rfl⟩

namespace Clocked

variable {s s' : Clocked} {trace : Trace} {marks : List Mark} {codec : Codec}
  {capacity first : Nat} {keys : KeySet}

/-- After a link that was up for the length of a pause an attempt begins at once,
    after any other link there is a pause first. -/
theorem failed_step (h : Runs (start codec capacity delay keys first) trace s)
    (ha : a = .loseLink ∨ a = .write false) (hm : step s (.work a) = some (s', marks)) :
    (servedSince first trace + delay ≤ s.now →
      s'.connection.phase = .opening ∧ marks = [.began s.now]) ∧
    (s.now < servedSince first trace + delay →
      s'.connection.phase = .pausing (s.now + delay) ∧ marks = []) := by
  obtain ⟨-, hdelay, last, -, hfollows⟩ := spaced_marks h
  obtain ⟨c, events, -, hmove, rfl, rfl⟩ := work_cases hm
  obtain ⟨since, handing, hphase, hafter⟩ := failed_moves hmove ha
  have hup : s.connection.isOpening = false := by simp [isOpening, hphase]
  rw [hphase] at hfollows
  obtain ⟨returned, -, hnow, -⟩ := hfollows
  rw [← since_eq h hphase]
  refine ⟨fun hlong => ?_, fun hshort => ?_⟩
  · have hopening : c.phase = .opening := by
      rw [hafter, afterFailure, hdelay, if_neg (by omega)]
    have hbegun : c.isOpening = true := by simp [isOpening, hopening]
    exact ⟨hopening, by simp [beginnings, hup, hbegun]⟩
  · have hpausing : c.phase = .pausing (s.now + delay) := by
      rw [hafter, afterFailure, hdelay, if_pos (by omega)]
    exact ⟨hpausing, by simp [beginnings, isOpening, hpausing]⟩

end Clocked

/-! ## What ends the attempts -/

/-- A connection whose link is down stays so, until an attempt succeeds or the
    connection is shut down. -/
theorem isDown_moves (hm : Moves now c a c' events) (h : c.isDown = true) :
    c'.isDown = true ∨ a = .opened true ∨ a = .cancel := by
  cases hm with
  | queued | rekeyed | took => exact .inl h
  | resumed | refused => exact .inl rfl
  | opened => exact .inr (.inl rfl)
  | cancelled => exact .inr (.inr rfl)
  | prepared hphase | rejected hphase | wrote hphase | writeFailed hphase | finished hphase
  | arrived hphase | delivered hphase | lost hphase | announced hphase =>
    simp [isDown, hphase] at h

/-- Only a shutdown stops a connection. -/
theorem not_isStopped_moves (hm : Moves now c a c' events) (h : c.isStopped = false)
    (ha : a ≠ .cancel) : c'.isStopped = false := by
  cases hm with
  | queued | rekeyed | took | prepared | rejected | wrote | finished => exact h
  | arrived | delivered | resumed | opened | refused | announced => rfl
  | writeFailed | lost =>
    simp only [isStopped, afterFailure]
    split
    · next hphase => split at hphase <;> cases hphase
    · rfl
  | cancelled => exact absurd rfl ha

namespace Clocked

variable {s s' : Clocked} {trace : Trace} {codec : Codec} {capacity first : Nat} {keys : KeySet}

/-- Nothing but a link ends the attempts to open one. -/
theorem isDown_run (h : Runs s trace s') (hdown : s.connection.isDown = true)
    (hkept : ∀ st ∈ trace, st.move ≠ .work .cancel) :
    s'.connection.isDown = true ∨ ∃ st ∈ trace, ∃ link, st.move = .attempt (.ok link) := by
  induction h with
  | start => exact .inl hdown
  | @move trace s₁ s₂ m marks _ hstep ih =>
    rcases ih fun st hst => hkept st (List.mem_append_left _ hst) with hdown | ⟨st, hst, hlink⟩
    · have hm : m ≠ .work .cancel := hkept ⟨s₁, m, marks⟩ (by simp)
      rcases step_cases hstep with ⟨duration, rfl, rfl, -⟩ | ⟨link, rfl, -, -, -⟩ |
        ⟨err, rfl, -, rfl, -⟩ | ⟨a, c, events, rfl, ha, hmove, rfl, -⟩
      · exact .inl hdown
      · exact .inr ⟨⟨s₁, .attempt (.ok link), marks⟩, by simp, link, rfl⟩
      · exact .inl rfl
      · rcases isDown_moves hmove hdown with hdown | rfl | rfl
        · exact .inl hdown
        · cases ha
        · exact absurd rfl hm
    · exact .inr ⟨st, List.mem_append_left _ hst, hlink⟩

theorem not_isStopped_run (h : Runs s trace s') (hs : s.connection.isStopped = false)
    (hkept : ∀ st ∈ trace, st.move ≠ .work .cancel) : s'.connection.isStopped = false := by
  induction h with
  | start => exact hs
  | @move trace s₁ s₂ m marks _ hstep ih =>
    have hs₁ := ih fun st hst => hkept st (List.mem_append_left _ hst)
    have hm : m ≠ .work .cancel := hkept ⟨s₁, m, marks⟩ (by simp)
    rcases step_cases hstep with ⟨duration, rfl, rfl, -⟩ | ⟨link, rfl, -, rfl, -⟩ |
      ⟨err, rfl, -, rfl, -⟩ | ⟨a, c, events, rfl, -, hmove, rfl, -⟩
    · exact hs₁
    · rfl
    · rfl
    · refine not_isStopped_moves hmove hs₁ ?_
      rintro rfl
      exact hm rfl

/-! ## Attempts may fail any number of times -/

/-- What the attempts of a trace returned. -/
def results (trace : Trace) : List (BusResult Nat) :=
  trace.filterMap fun st =>
    match st.move with
    | .attempt result => some result
    | _ => none

/-- Whether a move is one that a connection, whose link is down, makes of its own:
    time passes, a pause is over, an attempt returns. -/
def Move.isWaiting : Move → Bool
  | .pass _ | .attempt _ | .work .resume => true
  | _ => false

theorem results_append (trace₁ trace₂ : Trace) :
    results (trace₁ ++ trace₂) = results trace₁ ++ results trace₂ :=
  List.filterMap_append

/-- The next attempt comes when the pause is over. -/
theorem exists_opening (h : s.connection.isDown = true) :
    ∃ trace s', Runs s trace s' ∧ s'.connection.phase = .opening ∧ results trace = [] ∧
      ∀ st ∈ trace, st.move.isWaiting = true := by
  unfold isDown at h
  split at h
  · next due hphase =>
    have hpass : step s (.pass due) = some ({ s with now := s.now + due }, []) := rfl
    have hresume : step { s with now := s.now + due } (.work .resume) =
        some ({ connection := { s.connection with phase := .opening }, now := s.now + due },
          beginnings (s.now + due) s.connection { s.connection with phase := .opening }) := by
      simp [step, Action.isReturn, Connection.step, resume, hphase]
    exact ⟨_, _, (Run.start.move hpass).move hresume, rfl, rfl, by simp [Move.isWaiting]⟩
  · next hphase => exact ⟨[], s, .start, hphase, rfl, by simp⟩
  · cases h

/-- What an attempt returns decides what comes next. -/
theorem step_attempt (h : s.connection.phase = .opening) (result : BusResult Nat) :
    ∃ s', step s (.attempt result) = some (s', [.ended s.now]) ∧
      s'.connection.phase =
        if result.isOk then .announcing else .pausing (s.now + s.connection.delay) := by
  refine ⟨⟨{ s.connection with phase :=
    if result.isOk then .announcing else .pausing (s.now + s.connection.delay) }, s.now⟩, ?_, rfl⟩
  simp [step, Connection.step, linkOpened, h]

/-- Whatever one attempt after the other fails with, there is a further attempt,
    and it may succeed. -/
theorem exists_attempts (h : s.connection.isDown = true) (failures : List BusError) (link : Nat) :
    ∃ trace s', Runs s trace s' ∧ s'.connection.phase = .announcing ∧
      results trace = failures.map .error ++ [.ok link] ∧
      ∀ st ∈ trace, st.move.isWaiting = true := by
  -- after a failed attempt the connection is where it was before it
  induction failures generalizing s with
  | nil =>
    obtain ⟨trace, s₁, hrun, hopening, hresults, hwaiting⟩ := exists_opening h
    obtain ⟨s₂, hstep, hphase⟩ := step_attempt hopening (.ok link)
    refine ⟨_, s₂, hrun.move hstep, hphase, ?_, ?_⟩
    · rw [results_append, hresults]
      rfl
    · exact List.forall_mem_append.mpr ⟨hwaiting, List.forall_mem_singleton.mpr rfl⟩
  | cons failure failures ih =>
    obtain ⟨trace, s₁, hrun, hopening, hresults, hwaiting⟩ := exists_opening h
    obtain ⟨s₂, hstep, hphase⟩ := step_attempt hopening (.error failure)
    have hdown : s₂.connection.isDown = true := by
      rw [isDown, hphase]
      rfl
    obtain ⟨trace', s', hrun', hphase', hresults', hwaiting'⟩ := ih hdown
    refine ⟨_, s', (hrun.move hstep).append hrun', hphase', ?_, ?_⟩
    · rw [results_append, results_append, hresults, hresults']
      rfl
    · exact List.forall_mem_append.mpr
        ⟨List.forall_mem_append.mpr ⟨hwaiting, List.forall_mem_singleton.mpr rfl⟩, hwaiting'⟩

/-! ## Main theorem -/

/-- Along every run of a connection, whatever its links do, whatever the attempts
    to open one return and however the time passes: each attempt begins no sooner
    than a pause after the one before it has returned, the one that gave the first
    link included; a link that was up for the length of a pause is followed by an
    attempt at once, any other link by a pause; and unless it is shut down the
    connection goes on with its attempts until one of them succeeds, however many
    fail before and whatever they fail with. -/
theorem attempts_spaced (h : Runs (start codec capacity delay keys first) trace s) :
    (Mark.ended first :: eventsOf trace).IsChain (Spaced delay) ∧
    ((∀ st ∈ trace, st.move ≠ .work .cancel) → s.connection.isStopped = false) ∧
    (s.connection.isDown = true →
      (∀ later s', Runs s later s' → (∀ st ∈ later, st.move ≠ .work .cancel) →
        s'.connection.isDown = true ∨ ∃ st ∈ later, ∃ link, st.move = .attempt (.ok link)) ∧
      ∀ (failures : List BusError) (link : Nat), ∃ later s', Runs s later s' ∧
        s'.connection.phase = .announcing ∧
        results later = failures.map .error ++ [.ok link] ∧
        ∀ st ∈ later, st.move.isWaiting = true) ∧
    ∀ a s' marks, a = .loseLink ∨ a = .write false → step s (.work a) = some (s', marks) →
      (servedSince first trace + delay ≤ s.now →
        s'.connection.phase = .opening ∧ marks = [.began s.now]) ∧
      (s.now < servedSince first trace + delay →
        s'.connection.phase = .pausing (s.now + delay) ∧ marks = []) := by
  refine ⟨(spaced_marks h).1, not_isStopped_run h rfl, fun hdown => ⟨?_, ?_⟩, ?_⟩
  · intro later s' hlater hkept
    exact isDown_run hlater hdown hkept
  · exact exists_attempts hdown
  · intro a s' marks ha hm
    exact failed_step h ha hm

/-- With a pause of two, the first link fails after a moment, the pause is one too
    long, and the first attempt fails for good reason: the failure is fatal.  The
    attempt after that succeeds, and its link is up for as long as a pause. -/
theorem attempts_spaced_twice :
    ∃ (trace : Trace) (s failed : Clocked) (marks : List Mark),
      (Runs (start ⟨"a", default⟩ 1 2 .empty 0) trace s ∧
        (∀ st ∈ trace, st.move ≠ .work .cancel) ∧
        servedSince 0 trace + 2 ≤ s.now ∧ step s (.work .loseLink) = some (failed, marks) ∧
        failed.connection.isDown = true) ∧
      BusError.missingUri.isFatal = true ∧
      results trace = [.error .missingUri, .ok 1] ∧
      eventsOf trace = [.began 4, .ended 5, .began 7, .ended 8] ∧
      (Mark.ended 0 :: eventsOf trace).IsChain (Spaced 2) ∧ s.connection.isStopped = false ∧
      s.now = 11 ∧ marks = [.began 11] ∧
      ∃ later s', Runs failed later s' ∧ s'.connection.phase = .announcing ∧
        results later = [.error .closed, .error .missingUri, .ok 2] := by
  have hstart : Runs (start ⟨"a", default⟩ 1 2 .empty 0) [] _ := .start
  have hlost := (hstart.move (m := .pass 1) rfl).move (m := .work .loseLink) rfl
  have hfirst := (hlost.move (m := .pass 3) rfl).move (m := .work .resume) rfl
  have hrefused := (hfirst.move (m := .pass 1) rfl).move (m := .attempt (.error .missingUri)) rfl
  have hsecond := (hrefused.move (m := .pass 2) rfl).move (m := .work .resume) rfl
  have hopened := (hsecond.move (m := .pass 1) rfl).move (m := .attempt (.ok 1)) rfl
  have hannounced := (hopened.move (m := .pass 1) rfl).move (m := .work .announce) rfl
  have hserved := hannounced.move (m := .pass 2) rfl
  have hfailed := hserved.move (m := .work .loseLink) rfl
  obtain ⟨hchain, hrunning, -, hfails⟩ := attempts_spaced hserved
  obtain ⟨-, -, hdown, -⟩ := attempts_spaced hfailed
  have hkept := hrunning (by simp)
  have hlong : 9 + 2 ≤ 11 := by omega
  have hatOnce := (hfails .loseLink _ _ (.inl rfl) rfl).1 hlong
  obtain ⟨later, s', hlater, hphase, hresults, -⟩ := (hdown rfl).2 [.closed, .missingUri] 2
  exact ⟨_, _, _, _, ⟨hserved, by simp, hlong, rfl, rfl⟩, rfl, rfl, rfl, hchain, hkept, rfl,
    hatOnce.2, later, s', hlater, hphase, hresults⟩

end Clocked

end MessageBus.Connection
