import MessageBus.Proofs.Connection.InboundStream
import MessageBus.Proofs.Link.Polls

/-! # A connection on a polled link

    A connection cannot tell a polled link from another one: it learns of a
    request only what a call for a body returns and what a send returns.  These
    never say that a request failed.  So the link that a connection starts with is
    up until the connection is shut down, whatever happens to the requests; what
    it reads are the bodies that polls brought, and each body of a message is
    posted once.

    * `Polled.step`: a connection, its receiver and the time.
    * `attached_step`, `attached_of_run`: the first link stays up.
    * `paced_of_run`, `arrived_of_run`: when bodies are asked for, and which come.
    * `posted_eq_written`: what goes out over it.
    * `requests_absorbed`: all of it together. -/

namespace MessageBus

namespace Connection

/-- Whether a move ends a link, or is on the way to the next one. -/
def Action.changesLink : Action → Bool
  | .write ok => !ok
  | .loseLink | .resume | .opened _ | .announce => true
  | _ => false

/-- Whether a move is how a send or a call for a body returns. -/
def Action.isReport : Action → Bool
  | .write _ | .arrive _ | .loseLink => true
  | _ => false

variable {now first : Nat} {c c' : Connection} {a : Action} {events : List Event}
  {handing : Option Envelope}

/-- A link of which no failure is reported stays up until the shutdown. -/
theorem serving_unharmed (hphase : c.phase = .serving first handing) (hm : Moves now c a c' events)
    (hlose : a ≠ .loseLink) (hwrite : a ≠ .write false) :
    a.changesLink = false ∧
      ((a = .cancel ∧ c'.isStopped = true) ∨
        ∃ handing', c'.phase = .serving first handing' ∧
          (handing' = none ∨ handing' = handing ∨ ∃ body, a = .arrive body)) := by
  cases hm with
  | queued | rekeyed | took | prepared | rejected | wrote | finished =>
    exact ⟨rfl, .inr ⟨handing, hphase, .inr (.inl rfl)⟩⟩
  | arrived hserving =>
    rw [hphase] at hserving
    cases hserving
    exact ⟨rfl, .inr ⟨_, rfl, .inr (.inr ⟨_, rfl⟩)⟩⟩
  | delivered hserving =>
    rw [hphase] at hserving
    cases hserving
    exact ⟨rfl, .inr ⟨_, rfl, .inl rfl⟩⟩
  | cancelled => exact ⟨rfl, .inl ⟨rfl, rfl⟩⟩
  | writeFailed => exact absurd rfl hwrite
  | lost => exact absurd rfl hlose
  | resumed hother | opened hother | refused hother | announced hother =>
    rw [hphase] at hother
    cases hother

theorem isServing_of_isStopped (h : c.isStopped = true) : c.isServing = false := by
  cases hserving : c.isServing with
  | false => rfl
  | true =>
    rw [isStopped_of_isServing hserving] at h
    cases h

/-- Only a write puts a body on the wire. -/
theorem written_moves (hm : Moves now c a c' events) (ha : ∀ ok, a ≠ .write ok) :
    events.filterMap Event.written? = [] := by
  cases hm with
  | wrote | writeFailed => exact absurd rfl (ha _)
  | cancelled => exact filterMap_abandoned (fun _ => rfl) _
  | queued | rekeyed | took | prepared | rejected | finished | arrived | delivered | lost
  | resumed | opened | refused | announced => rfl

end Connection

/-- A connection, the receiver of its link, and the time. -/
structure Polled where
  connection : Connection
  receiver : Polling.Receiver

namespace Polled

open Polling (Mark Paced Follows PollOutcome PostOutcome Receiver outcomes results react_cases
  receiveAll send)

/-- What happens to a connection on a polled link. -/
inductive Move where
  /-- Something happens to the receiver. -/
  | hear (m : Receiver.Move)
  /-- The post of the next body ends. -/
  | post (o : PostOutcome)
  /-- Anything else that the connection or a caller does. -/
  | work (a : Connection.Action)

/-- What a move made happen. -/
inductive Event where
  /-- The receiver did something. -/
  | mark (m : Mark)
  /-- The connection did something. -/
  | made (e : Connection.Event)

/-- What the return of a call is for a connection. -/
def report : BusResult Bytes → Connection.Action
  | .ok body => .arrive body
  | .error _ => .loseLink

/-- What a move is for the connection, if anything. -/
def Move.action? : Move → Option Connection.Action
  | .hear (.answer o) =>
    match Polling.react o with
    | .finish result => some (report result)
    | .pollAgain | .pause => none
  | .hear _ => none
  | .post o => some (.write (send o).isOk)
  | .work a => some a

/-- What a connection lets happen: nobody listens to a link that is not up, and the next body is
asked for when the last one is dealt with. -/
def allows (s : Polled) : Move → Bool
  | .hear (.pass _) | .post _ => true
  | .hear .call => s.connection.isServing && s.connection.waiting.isEmpty
  | .hear (.answer _) | .hear .wake => s.connection.isServing
  -- what is reported of the link comes from requests and from nowhere else
  | .work a => !a.isReport

/-- The receiver's part in a move. -/
def receiverStep (s : Polled) : Move → Option (Receiver × List Mark)
  | .hear m => s.receiver.step m
  | .post _ | .work _ => some (s.receiver, [])

/-- The connection's part in a move. -/
def connectionStep (s : Polled) (m : Move) : Option (Connection × List Connection.Event) :=
  match m.action? with
  | some a => s.connection.step s.receiver.now a
  | none => some (s.connection, [])

/-- The receiver that is left: one whose link is not up any more is not called any more. -/
def held (c : Connection) (r : Receiver) : Receiver :=
  if c.isServing then r else { r with stance := .idle }

/-- The transition for a move. -/
def step (s : Polled) (m : Move) : Option (Polled × List Event) :=
  if s.allows m then
    (s.receiverStep m).bind fun (r, marks) =>
      (s.connectionStep m).map fun (c, made) =>
        (⟨c, held c r⟩, marks.map .mark ++ made.map .made)
  else none

/-- A new connection at the moment at which its link came up. -/
def start (codec : Codec) (capacity delay : Nat) (keys : KeySet) (retry first : Nat) : Polled :=
  ⟨Connection.start codec capacity delay keys first, Receiver.start retry first⟩

/-- A trace of a connection on a polled link. -/
abbrev Trace := List (Stage Polled Move Event)

/-- A run of a connection on a polled link. -/
abbrev Runs (s₀ : Polled) (trace : Trace) (s : Polled) : Prop := Run step s₀ trace s

variable {s s' s₀ : Polled} {m : Move} {events : List Event} {trace : Trace}
  {codec : Codec} {capacity delay retry first : Nat} {keys : KeySet}

/-! ## What happened -/

/-- What an event is for the receiver. -/
def Event.mark? : Event → Option Mark
  | mark m => some m
  | made _ => none

/-- What an event is for the connection. -/
def Event.made? : Event → Option Connection.Event
  | mark _ => none
  | made e => some e

/-- What a stage is for the connection, if anything. -/
def stage? (st : Stage Polled Move Event) :
    Option (Stage Connection (Nat × Connection.Action) Connection.Event) :=
  st.move.action?.map fun a =>
    ⟨st.before.connection, (st.before.receiver.now, a), st.events.filterMap Event.made?⟩

/-- The body whose post ends with a move. -/
def posted? (st : Stage Polled Move Event) : Option String :=
  match st.move with
  | .post _ => st.before.connection.nextBody?
  | .hear _ | .work _ => none

/-- What the receiver did. -/
def marks (trace : Trace) : List Mark := (eventsOf trace).filterMap Event.mark?

/-- What happened to the connection. -/
def journal (trace : Trace) : Connection.Trace := trace.filterMap stage?

/-- The bodies that the connection read from its link. -/
def arrived (trace : Trace) : List Bytes :=
  ((journal trace).filterMap Connection.reading?).map (·.body)

/-- The bodies that were posted, however their posts ended. -/
def posted (trace : Trace) : List String := trace.filterMap posted?

section snoc
variable (trace : Trace) (st : Stage Polled Move Event)

theorem marks_snoc : marks (trace ++ [st]) = marks trace ++ st.events.filterMap Event.mark? := by
  simp [marks]

theorem journal_snoc : journal (trace ++ [st]) = journal trace ++ (stage? st).toList := by
  cases h : stage? st <;> simp [journal, h]

theorem posted_snoc : posted (trace ++ [st]) = posted trace ++ (posted? st).toList := by
  cases h : posted? st <;> simp [posted, h]

theorem arrived_snoc : arrived (trace ++ [st]) =
    arrived trace ++ (((stage? st).bind Connection.reading?).map (·.body)).toList := by
  unfold arrived
  rw [journal_snoc, List.filterMap_append, List.map_append]
  cases h : stage? st with
  | none => rfl
  | some done => cases hr : Connection.reading? done <;> simp [hr]

end snoc

/-! ## Moves -/

theorem filterMap_mark (marks : List Mark) (made : List Connection.Event) :
    (marks.map Event.mark ++ made.map Event.made).filterMap Event.mark? = marks := by
  simp [Function.comp_def, Event.mark?]

theorem filterMap_made (marks : List Mark) (made : List Connection.Event) :
    (marks.map Event.mark ++ made.map Event.made).filterMap Event.made? = made := by
  simp [Function.comp_def, Event.made?]

/-- A move is what its two parts make of it. -/
theorem step_parts (h : s.step m = some (s', events)) :
    s.allows m = true ∧
      (∃ r, s.receiverStep m = some (r, events.filterMap Event.mark?) ∧
        s'.receiver = held s'.connection r) ∧
      s.connectionStep m = some (s'.connection, events.filterMap Event.made?) := by
  unfold step at h
  split at h
  · next hallows =>
    obtain ⟨⟨r, marks⟩, hreceiver, h⟩ := Option.bind_eq_some_iff.mp h
    obtain ⟨⟨c, made⟩, hconnection, heq⟩ := Option.map_eq_some_iff.mp h
    cases heq
    rw [filterMap_mark, filterMap_made]
    exact ⟨hallows, ⟨r, hreceiver, rfl⟩, hconnection⟩
  · cases h

/-- The connection makes a move of its own, or is not concerned. -/
theorem connection_cases {c : Connection} {made : List Connection.Event}
    (h : s.connectionStep m = some (c, made)) :
    (∃ a, m.action? = some a ∧ s.connection.step s.receiver.now a = some (c, made)) ∨
      (m.action? = none ∧ c = s.connection ∧ made = []) := by
  unfold connectionStep at h
  split at h
  · next a ha => exact .inl ⟨a, ha, h⟩
  · next ha =>
    cases h
    exact .inr ⟨ha, rfl, rfl⟩

/-- All that a connection learns of a poll is the body that it brings. -/
theorem action_answer (o : PollOutcome) :
    (Move.hear (.answer o)).action? = o.body?.map .arrive := by
  rcases react_cases o with ⟨body, -, -, hbody, hreact⟩ | ⟨-, hbody, hreact⟩ | ⟨-, hbody, hreact⟩
  all_goals
    rw [Move.action?, hreact, hbody]
    rfl

/-- What a request comes to for the connection is never that it failed: a body is there, or a body
is gone. -/
theorem action_cases {a : Connection.Action} (ha : m.action? = some a)
    (hallows : s.allows m = true) :
    (∃ body, m = .hear (.answer (.answered 200 body)) ∧ body ≠ [] ∧ a = .arrive body) ∨
    (∃ o, m = .post o ∧ a = .write true) ∨
    (m = .work a ∧ a.isReport = false) := by
  cases m with
  | hear hm =>
    cases hm with
    | answer o =>
      rw [action_answer] at ha
      obtain ⟨body, hbody, rfl⟩ := Option.map_eq_some_iff.mp ha
      obtain ⟨rfl, hne⟩ := PollOutcome.body?_eq_some_iff.mp hbody
      exact .inl ⟨body, rfl, hne, rfl⟩
    | pass | call | wake => cases ha
  | post o =>
    rw [Move.action?, Polling.send_ok] at ha
    cases ha
    exact .inr (.inl ⟨o, rfl, rfl⟩)
  | work a' =>
    cases ha
    exact .inr (.inr ⟨rfl, by simpa [allows] using hallows⟩)

/-- No failure of the link is reported. -/
theorem action_unharmed {a : Connection.Action} (ha : m.action? = some a)
    (hallows : s.allows m = true) : a ≠ .loseLink ∧ a ≠ .write false := by
  rcases action_cases ha hallows with ⟨body, -, -, rfl⟩ | ⟨o, -, rfl⟩ | ⟨-, hreport⟩
  · exact ⟨nofun, nofun⟩
  · exact ⟨nofun, nofun⟩
  · constructor
    · rintro rfl
      cases hreport
    · rintro rfl
      cases hreport

/-- What happened to the connection is a run of it. -/
theorem runs_journal (h : Runs s₀ trace s) :
    Connection.Runs s₀.connection (journal trace) s.connection := by
  induction h with
  | start => exact .start
  | @move trace s s' m events _ hstep ih =>
    obtain ⟨-, -, hconnection⟩ := step_parts hstep
    rw [journal_snoc]
    rcases connection_cases hconnection with ⟨a, ha, hconnected⟩ | ⟨ha, hsame, -⟩
    · simp only [stage?, ha, Option.map_some, Option.toList_some]
      exact ih.move hconnected
    · simp only [stage?, ha, Option.map_none, Option.toList_none, List.append_nil]
      rwa [hsame]

/-! ## The link stays up -/

/-- The first link is up, and a body is asked for only when nothing waits for room. -/
def Attached (first : Nat) (s : Polled) : Prop :=
  ∃ handing, s.connection.phase = .serving first handing ∧
    (s.receiver.stance = .idle ∨ handing = none)

theorem Attached.isServing (h : Attached first s) : s.connection.isServing = true := by
  obtain ⟨handing, hphase, -⟩ := h
  simp only [Connection.isServing, hphase]

theorem held_of_isServing {c : Connection} {r : Receiver} (h : c.isServing = true) :
    held c r = r := if_pos h

theorem held_of_phase {c : Connection} {r : Receiver} {since : Nat} {handing : Option Envelope}
    (h : c.phase = .serving since handing) : held c r = r :=
  held_of_isServing (by simp only [Connection.isServing, h])

/-- A receiver that is not called waits for a call. -/
theorem idle_step {r r' : Receiver} {hm : Receiver.Move} {marks : List Mark}
    (h : r.step hm = some (r', marks)) (hidle : r.stance = .idle) :
    r'.stance = .idle ∨ hm = .call := by
  cases Receiver.moves_of_step h with
  | passed => exact .inl hidle
  | called => exact .inr rfl
  | brought hother | empty hother | failed hother | woke hother =>
    rw [hidle] at hother
    cases hother

/-- A receiver is not called any more when a poll has brought a body. -/
theorem brought_step {r r' : Receiver} {body : Bytes} {marks : List Mark}
    (h : r.step (.answer (.answered 200 body)) = some (r', marks)) (hbody : body ≠ []) :
    r'.stance = .idle := by
  have hbrought := PollOutcome.body?_eq_some_iff.mpr ⟨rfl, hbody⟩
  cases Receiver.moves_of_step h with
  | brought => rfl
  | empty _ _ hnone | failed _ _ hnone =>
    rw [hbrought] at hnone
    cases hnone

/-- When the connection is not concerned, only the receiver does something, and nobody asks for a
body as long as an envelope waits. -/
theorem ready_of_quiet {handing : Option Envelope} {r : Receiver} {marks : List Mark}
    (ha : m.action? = none) (hallows : s.allows m = true)
    (hreceiver : s.receiverStep m = some (r, marks))
    (hphase : s.connection.phase = .serving first handing)
    (hready : s.receiver.stance = .idle ∨ handing = none) :
    r.stance = .idle ∨ handing = none := by
  rcases hready with hidle | hnone
  · cases m with
    | hear hm =>
      rcases idle_step hreceiver hidle with hidle' | rfl
      · exact .inl hidle'
      · simp only [allows, Connection.waiting, hphase, Bool.and_eq_true, List.isEmpty_iff,
          Option.toList_eq_nil_iff] at hallows
        exact .inr hallows.2
    | post | work => cases ha
  · exact .inr hnone

/-- When the connection is concerned, the receiver has just returned a body, or does nothing. -/
theorem receiver_of_action {a : Connection.Action} {r : Receiver} {marks : List Mark}
    (ha : m.action? = some a) (hallows : s.allows m = true)
    (hreceiver : s.receiverStep m = some (r, marks)) :
    r.stance = .idle ∨ (r = s.receiver ∧ ∀ body, a ≠ .arrive body) := by
  rcases action_cases ha hallows with ⟨body, rfl, hbody, rfl⟩ | ⟨o, rfl, rfl⟩ | ⟨rfl, hreport⟩
  · exact .inl (brought_step hreceiver hbody)
  · cases hreceiver
    exact .inr ⟨rfl, nofun⟩
  · cases hreceiver
    refine .inr ⟨rfl, ?_⟩
    rintro body rfl
    cases hreport

/-- The first link stays up until the shutdown. -/
theorem attached_step (h : Attached first s) (hstep : s.step m = some (s', events)) :
    Attached first s' ∨ (m = .work .cancel ∧ s'.connection.isStopped = true) := by
  obtain ⟨hallows, ⟨r, hreceiver, hheld⟩, hconnection⟩ := step_parts hstep
  obtain ⟨handing, hphase, hready⟩ := h
  rcases connection_cases hconnection with ⟨a, ha, hconnected⟩ | ⟨ha, hsame, -⟩
  · obtain ⟨hlose, hwrite⟩ := action_unharmed ha hallows
    obtain ⟨-, ⟨rfl, hstopped⟩ | ⟨handing', hphase', hhanding⟩⟩ :=
      Connection.serving_unharmed hphase (Connection.moves_of_step hconnected) hlose hwrite
    · -- no request comes to a shutdown, so it was the move of somebody else
      rcases action_cases ha hallows with ⟨_, -, -, hother⟩ | ⟨_, -, hother⟩ | ⟨rfl, -⟩
      · cases hother
      · cases hother
      · exact .inr ⟨rfl, hstopped⟩
    · refine .inl ⟨handing', hphase', ?_⟩
      rw [hheld, held_of_phase hphase']
      rcases receiver_of_action ha hallows hreceiver with hidle | ⟨rfl, hnone⟩
      · exact .inl hidle
      · rcases hhanding with hempty | rfl | ⟨body, rfl⟩
        · exact .inr hempty
        · exact hready
        · exact absurd rfl (hnone body)
  · have hphase' : s'.connection.phase = .serving first handing := hsame ▸ hphase
    refine .inl ⟨handing, hphase', ?_⟩
    rw [hheld, held_of_phase hphase']
    exact ready_of_quiet ha hallows hreceiver hphase hready

/-- Whoever is shut down stays so. -/
theorem stopped_step (h : s.connection.isStopped = true) (hstep : s.step m = some (s', events)) :
    s'.connection.isStopped = true := by
  obtain ⟨-, -, hconnection⟩ := step_parts hstep
  rcases connection_cases hconnection with ⟨a, -, hconnected⟩ | ⟨-, hsame, -⟩
  · exact (Connection.isStopped_moves h (Connection.moves_of_step hconnected)).1
  · exact hsame ▸ h

/-- No move changes the link. -/
theorem link_step (h : Attached first s ∨ s.connection.isStopped = true)
    (hstep : s.step m = some (s', events)) :
    ∀ a, m.action? = some a → a.changesLink = false := by
  intro a ha
  obtain ⟨hallows, -, hconnection⟩ := step_parts hstep
  rcases connection_cases hconnection with ⟨a', ha', hconnected⟩ | ⟨hnone, -, -⟩
  · obtain rfl := Option.some.inj (ha.symm.trans ha')
    have hmove := Connection.moves_of_step hconnected
    rcases h with ⟨handing, hphase, -⟩ | hstopped
    · obtain ⟨hlose, hwrite⟩ := action_unharmed ha hallows
      exact (Connection.serving_unharmed hphase hmove hlose hwrite).1
    · obtain ⟨keys, rfl⟩ | rfl := (Connection.isStopped_moves hstopped hmove).2
      · rfl
      · rfl
  · cases hnone.symm.trans ha

/-- Along every run the first link stays up until the shutdown. -/
theorem attached_of_run (h : Runs (start codec capacity delay keys retry first) trace s) :
    Attached first s ∨
      (s.connection.isStopped = true ∧ Move.work .cancel ∈ trace.map (·.move)) := by
  induction h with
  | start => exact .inl ⟨none, rfl, .inr rfl⟩
  | @move trace s s' m events _ hstep ih =>
    rw [List.map_append, List.map_singleton, List.mem_append, List.mem_singleton]
    rcases ih with hup | ⟨hstopped, hcancel⟩
    · rcases attached_step hup hstep with hup' | ⟨rfl, hstopped⟩
      · exact .inl hup'
      · exact .inr ⟨hstopped, .inr rfl⟩
    · exact .inr ⟨stopped_step hstopped hstep, .inl hcancel⟩

/-- Along every run no move changes the link. -/
theorem link_of_run (h : Runs (start codec capacity delay keys retry first) trace s) :
    ∀ st ∈ journal trace, st.move.2.changesLink = false := by
  induction h with
  | start => exact fun _ hst => nomatch hst
  | @move trace s s' m events hrun hstep ih =>
    intro st hst
    rw [journal_snoc, List.mem_append, Option.mem_toList] at hst
    rcases hst with hbefore | hnow
    · exact ih st hbefore
    · obtain ⟨a, ha, rfl⟩ := Option.map_eq_some_iff.mp hnow
      exact link_step ((attached_of_run hrun).imp_right And.left) hstep a ha

/-! ## What comes over the link -/

theorem held_delay (c : Connection) (r : Receiver) : (held c r).delay = r.delay := by
  unfold held
  split <;> rfl

theorem delay_receiverStep {r : Receiver} {marks : List Mark}
    (h : s.receiverStep m = some (r, marks)) : r.delay = s.receiver.delay := by
  cases m with
  | hear hm => exact Receiver.delay_step h
  | post | work =>
    cases h
    rfl

/-- Nothing is marked when the link is not up. -/
theorem unmarked_of_not_serving {r : Receiver} {marks : List Mark}
    (hdown : s.connection.isServing = false) (hallows : s.allows m = true)
    (h : s.receiverStep m = some (r, marks)) : marks = [] := by
  cases m with
  | hear hm =>
    cases hm with
    | pass duration =>
      have hpass : s.receiver.step (.pass duration) = some (r, marks) := h
      cases Receiver.moves_of_step hpass with
      | passed => rfl
    | call | answer | wake => simp [allows, hdown] at hallows
  | post | work =>
    cases h
    rfl

/-- What a move adds follows the last mark. -/
theorem paced_receiverStep {r : Receiver} {marks : List Mark} {last : Option Mark}
    (h : s.receiverStep m = some (r, marks))
    (hlast : Follows s.receiver.delay s.receiver.now last s.receiver.stance) :
    (last.toList ++ marks).IsChain (Paced s.receiver.delay) ∧
      Follows s.receiver.delay r.now (marks.getLast?.or last) r.stance := by
  cases m with
  | hear hm => exact Receiver.paced_step h hlast
  | post | work =>
    cases h
    refine ⟨?_, hlast⟩
    cases last <;> simp

/-- Along every run the marks follow each other as they may; while the link is up, the receiver goes
on from the last one. -/
theorem paced_of_run (h : Runs (start codec capacity delay keys retry first) trace s) :
    (marks trace).IsChain (Paced retry) ∧ s.receiver.delay = retry ∧
      (s.connection.isServing = true →
        Follows retry s.receiver.now (marks trace).getLast? s.receiver.stance) := by
  induction h with
  | start => exact ⟨.nil, rfl, fun _ => trivial⟩
  | @move trace s s' m events hrun hstep ih =>
    obtain ⟨hchain, rfl, hfollows⟩ := ih
    obtain ⟨hallows, ⟨r, hreceiver, hheld⟩, -⟩ := step_parts hstep
    have hdelay : s'.receiver.delay = s.receiver.delay := by
      rw [hheld, held_delay, delay_receiverStep hreceiver]
    rw [marks_snoc, List.getLast?_append]
    rcases attached_of_run hrun with hup | ⟨hstopped, -⟩
    · obtain ⟨hadded, hfollows'⟩ := paced_receiverStep hreceiver (hfollows hup.isServing)
      refine ⟨Polling.isChain_append_of_last hchain hadded, hdelay, ?_⟩
      intro hserving
      rw [hheld, held_of_isServing hserving]
      exact hfollows'
    · -- after the shutdown no link is up, and nothing is marked
      have hdown := Connection.isServing_of_isStopped hstopped
      have hdown' := Connection.isServing_of_isStopped (stopped_step hstopped hstep)
      rw [unmarked_of_not_serving hdown hallows hreceiver, List.append_nil]
      refine ⟨hchain, hdelay, ?_⟩
      intro hserving
      rw [hdown'] at hserving
      cases hserving

/-- What a call returns with a move is the body that its poll brought. -/
theorem results_receiverStep {r : Receiver} {marks : List Mark}
    (h : s.receiverStep m = some (r, marks)) :
    results marks = ((outcomes marks).filterMap (·.body?)).map .ok := by
  cases m with
  | hear hm => exact Receiver.results_step h
  | post | work =>
    cases h
    rfl

/-- The calls return the bodies that polls brought. -/
theorem results_of_run (h : Runs s₀ trace s) :
    results (marks trace) = ((outcomes (marks trace)).filterMap (·.body?)).map .ok := by
  induction h with
  | start => rfl
  | move _ hstep ih =>
    obtain ⟨-, ⟨r, hreceiver, -⟩, -⟩ := step_parts hstep
    rw [marks_snoc, Polling.results_append, Polling.outcomes_append, ih,
      results_receiverStep hreceiver, List.filterMap_append, List.map_append]

/-- How the poll ends that a move ends. -/
def Move.outcome? : Move → Option PollOutcome
  | .hear hm => hm.outcome?
  | .post _ | .work _ => none

theorem outcomes_receiverStep {r : Receiver} {marks : List Mark}
    (h : s.receiverStep m = some (r, marks)) : outcomes marks = m.outcome?.toList := by
  cases m with
  | hear hm => exact Receiver.outcomes_step h
  | post | work =>
    cases h
    rfl

/-- A body that a poll brings is read by the connection in the same move. -/
theorem arrived_step (hstep : s.step m = some (s', events)) :
    (((stage? ⟨s, m, events⟩).bind Connection.reading?).map (·.body)).toList =
      (outcomes (events.filterMap Event.mark?)).filterMap (·.body?) := by
  obtain ⟨hallows, ⟨r, hreceiver, -⟩, -⟩ := step_parts hstep
  rw [outcomes_receiverStep hreceiver]
  cases m with
  | hear hm =>
    cases hm with
    | answer o =>
      simp only [stage?, action_answer]
      cases hbody : o.body? <;>
        simp [Move.outcome?, Receiver.Move.outcome?, hbody, Connection.reading?]
    | pass | call | wake => rfl
  | post o => rfl
  | work a =>
    cases a with
    | arrive => cases hallows
    | _ => rfl

/-- What the connection reads are the bodies that polls brought. -/
theorem arrived_of_run (h : Runs s₀ trace s) :
    arrived trace = (outcomes (marks trace)).filterMap (·.body?) := by
  induction h with
  | start => rfl
  | move _ hstep ih =>
    rw [arrived_snoc, marks_snoc, Polling.outcomes_append, List.filterMap_append, ih,
      arrived_step hstep]

/-! ## What goes out over the link -/

/-- A body is on the wire when its post has ended, in whatever way. -/
theorem posted_step (hstep : s.step m = some (s', events)) :
    (posted? ⟨s, m, events⟩).toList =
      (events.filterMap Event.made?).filterMap Connection.Event.written? := by
  obtain ⟨hallows, -, hconnection⟩ := step_parts hstep
  rcases connection_cases hconnection with ⟨a, ha, hconnected⟩ | ⟨ha, -, hmade⟩
  · have hmove := Connection.moves_of_step hconnected
    rcases action_cases ha hallows with ⟨body, rfl, -, rfl⟩ | ⟨o, rfl, rfl⟩ | ⟨rfl, hreport⟩
    · rw [Connection.written_moves hmove nofun]
      rfl
    · generalize s'.connection = c, events.filterMap Event.made? = made at hmove ⊢
      cases hmove with
      | wrote _ hflight hbody =>
        simp [posted?, Connection.nextBody?, hflight, hbody, Connection.Event.written?]
    · rw [Connection.written_moves hmove]
      · rfl
      · rintro ok rfl
        cases hreport
  · rw [hmade]
    cases m with
    | hear => rfl
    | post | work => cases ha

/-- What was posted is what is on the wire. -/
theorem posted_eq_written (h : Runs s₀ trace s) :
    posted trace = Connection.written (journal trace) := by
  induction h with
  | start => rfl
  | @move trace s s' m events _ hstep ih =>
    rw [posted_snoc, posted_step hstep, journal_snoc, ih]
    obtain ⟨-, -, hconnection⟩ := step_parts hstep
    rcases connection_cases hconnection with ⟨a, ha, -⟩ | ⟨ha, -, hmade⟩
    · simp only [stage?, ha, Option.map_some, Option.toList_some, Connection.written_snoc]
    · rw [hmade]
      simp only [stage?, ha, Option.map_none, Option.toList_none, List.append_nil,
        List.filterMap_nil]

/-- Each body is posted once: what was posted is the first part of the bodies of the messages, in
order, and the rest is what is left of the message on its way. -/
theorem posted_of_run (h : Runs (start codec capacity delay keys retry first) trace s) :
    ∃ flight : Option InFlight,
      (s.connection.isStopped = false → flight = s.connection.inFlight) ∧
      (Connection.accepted codec (journal trace)).flatten =
        posted trace ++ flight.toList.flatMap fun f => f.bodies.drop f.sent := by
  obtain ⟨flight, waiting, hlive, hledger⟩ := Connection.exists_ledger (runs_journal h)
  refine ⟨flight, fun hrunning => (hlive hrunning).1, ?_⟩
  rw [posted_eq_written h, hledger.wire, hledger.accepts, List.flatten_append, List.append_assoc]
  -- of the message on its way one part is posted and the other is left
  cases flight <;> simp

/-! ## Requests may end in any way -/

/-- A move is possible where its parts are. -/
theorem step_of_parts {r : Receiver} {marks : List Mark} {c : Connection}
    {made : List Connection.Event} (hallows : s.allows m = true)
    (hreceiver : s.receiverStep m = some (r, marks))
    (hconnection : s.connectionStep m = some (c, made)) :
    s.step m = some (⟨c, held c r⟩, marks.map .mark ++ made.map .made) := by
  simp only [step, hallows, if_true, hreceiver, hconnection, Option.bind_some, Option.map_some]

/-- A poll that went out may end in any way. -/
theorem answer_possible (h : Attached first s) (hpolling : s.receiver.stance = .polling)
    (o : PollOutcome) : ∃ s' events, s.step (.hear (.answer o)) = some (s', events) := by
  have hserving : s.connection.isServing = true := h.isServing
  obtain ⟨handing, hphase, hready⟩ := h
  -- nothing was asked for while an envelope waited, so there is room for a body
  obtain rfl : handing = none := by
    rcases hready with hidle | hnone
    · cases hidle.symm.trans hpolling
    · exact hnone
  have hreceiver : s.receiverStep (.hear (.answer o)) =
      some ((s.receiver.afterPoll o).1, .ended s.receiver.now o :: (s.receiver.afterPoll o).2) := by
    simp only [receiverStep, Receiver.step, hpolling]
  cases hbody : o.body? with
  | none =>
    have hconnection : s.connectionStep (.hear (.answer o)) = some (s.connection, []) := by
      simp only [connectionStep, action_answer, hbody, Option.map_none]
    exact ⟨_, _, step_of_parts hserving hreceiver hconnection⟩
  | some body =>
    have hconnection : s.connectionStep (.hear (.answer o)) = some ({ s.connection with
        phase := .serving first (s.connection.codec.parse body s.connection.keys) }, []) := by
      simp only [connectionStep, action_answer, hbody, Option.map_some, Connection.step,
        Connection.receiveBody, hphase]
    exact ⟨_, _, step_of_parts hserving hreceiver hconnection⟩

/-- The post of a body may end in any way, and it makes no difference. -/
theorem post_possible {body : String} (hserving : s.connection.isServing = true)
    (hbody : s.connection.nextBody? = some body) (o : PostOutcome) :
    ∃ f : InFlight, s.connection.inFlight = some f ∧
      s.step (.post o) =
        some (⟨{ s.connection with inFlight := some { f with sent := f.sent + 1 } }, s.receiver⟩,
          [.made (.wrote body)]) := by
  obtain ⟨since, handing, hphase⟩ := Connection.exists_phase_of_isServing hserving
  obtain ⟨f, hflight, hnext⟩ := Option.bind_eq_some_iff.mp hbody
  refine ⟨f, hflight, ?_⟩
  have hconnection : s.connectionStep (.post o) =
      some ({ s.connection with inFlight := some { f with sent := f.sent + 1 } },
        [.wrote body]) := by
    simp [connectionStep, Move.action?, Polling.send_ok, Except.isOk, Except.toBool,
      Connection.step, Connection.writeNext, hphase, hflight, hnext]
  have hserving' : Connection.isServing
      { s.connection with inFlight := some { f with sent := f.sent + 1 } } = true := hserving
  rw [step_of_parts rfl rfl hconnection, held_of_isServing hserving']
  rfl

/-! ## Main theorem -/

/-- What there is to say of a run: whatever happens to a request stays with the link. -/
structure Absorbed (codec : Codec) (retry first : Nat) (trace : Trace) (s : Polled) : Prop where
  /-- A call polls at once.  The next poll goes out at once after one that brought nothing, and a
  pause later after one that failed; a call returns with the first body, and never otherwise. -/
  paced : (marks trace).IsChain (Paced retry)
  /-- What the calls return are the bodies of the answers that bring one. -/
  returned : results (marks trace) = ((outcomes (marks trace)).filterMap (·.body?)).map .ok
  /-- These are the bodies that the connection reads. -/
  read : arrived trace = (outcomes (marks trace)).filterMap (·.body?)
  /-- Every body of a message is posted once and in its order. -/
  posts : ∃ flight : Option InFlight,
    (s.connection.isStopped = false → flight = s.connection.inFlight) ∧
    (Connection.accepted codec (journal trace)).flatten =
      posted trace ++ flight.toList.flatMap fun f => f.bodies.drop f.sent
  /-- No link is given up, and none is opened. -/
  kept : ∀ st ∈ journal trace, st.move.2.changesLink = false
  /-- The first link is up until somebody shuts the connection down. -/
  up : (∃ handing, s.connection.phase = .serving first handing) ∨
    (s.connection.isStopped = true ∧ Move.work .cancel ∈ trace.map (·.move))
  /-- A poll that went out may end in any way. -/
  answers : s.connection.isServing = true → s.receiver.stance = .polling →
    ∀ o, ∃ s' events, s.step (.hear (.answer o)) = some (s', events)
  /-- So may a post, and the next body is due after it in any case. -/
  goesOn : s.connection.isServing = true → ∀ body, s.connection.nextBody? = some body →
    ∀ o, ∃ f : InFlight, s.connection.inFlight = some f ∧
      s.step (.post o) =
        some (⟨{ s.connection with inFlight := some { f with sent := f.sent + 1 } }, s.receiver⟩,
          [.made (.wrote body)])

/-- Nothing that happens to a request ends a polled link or holds up what goes over it.  Calls for a
body return what polls brought, however polls end one after the other, and a send never fails. -/
theorem requests_absorbed (h : Runs (start codec capacity delay keys retry first) trace s) :
    Absorbed codec retry first trace s ∧
      Connection.Runs (Connection.start codec capacity delay keys first) (journal trace)
        s.connection ∧
      (∀ os : List PollOutcome, receiveAll os = (os.filterMap (·.body?)).map .ok ∧
        ∃ heard r, Receiver.Runs (Receiver.start retry first) heard r ∧
          outcomes (eventsOf heard) = os ∧ (eventsOf heard).IsChain (Paced retry) ∧
          results (eventsOf heard) = receiveAll os) ∧
      ∀ o, send o = .ok () := by
  have hattached := attached_of_run h
  refine ⟨?_, runs_journal h, ?_, Polling.send_ok⟩
  · refine ⟨(paced_of_run h).1, results_of_run h, arrived_of_run h, posted_of_run h, link_of_run h,
      ?_, ?_, ?_⟩
    · exact hattached.imp_left fun ⟨handing, hphase, _⟩ => ⟨handing, hphase⟩
    · intro hserving hpolling
      rcases hattached with hup | ⟨hstopped, -⟩
      · exact answer_possible hup hpolling
      · rw [Connection.isServing_of_isStopped hstopped] at hserving
        cases hserving
    · intro hserving body hbody
      exact post_possible hserving hbody
  · intro os
    obtain ⟨heard, r, hrun, hos⟩ := Receiver.exists_run_of_outcomes os (Receiver.start retry first)
    refine ⟨Polling.receiveAll_eq os, heard, r, hrun, hos, (Receiver.paced_of_run hrun).1, ?_⟩
    rw [Receiver.results_of_run hrun, hos, Polling.receiveAll_eq]

/-- A poll gets no answer and the next one goes out after the pause; it brings nothing, and the one
after it brings a body.  The post of a message is refused, and the message is done with. -/
theorem requests_absorbed_refused_post :
    ∃ (trace : Trace) (s : Polled),
      trace.map (·.move) =
        [.hear .call, .hear (.answer .unanswered), .hear (.pass 3), .hear .wake,
          .hear (.answer (.answered 204 [])), .work (.queue ⟨[], none⟩),
          .work (.prepare ⟨default, []⟩), .post (.answered 500), .work .finish,
          .hear (.answer (.answered 200 [104]))] ∧
      Runs (start ⟨"a", ⟨none, none⟩⟩ 1 0 ⟨["0123456789abcdef"]⟩ 3 0) trace s ∧
      Absorbed ⟨"a", ⟨none, none⟩⟩ 3 0 trace s := by
  have hstart : Runs (start ⟨"a", ⟨none, none⟩⟩ 1 0 ⟨["0123456789abcdef"]⟩ 3 0) [] _ := .start
  have hfailed := (hstart.move (m := .hear .call) rfl).move
    (m := .hear (.answer .unanswered)) rfl
  have hasked := (hfailed.move (m := .hear (.pass 3)) rfl).move (m := .hear .wake) rfl
  have hempty := hasked.move (m := .hear (.answer (.answered 204 []))) rfl
  have hqueued := (hempty.move (m := .work (.queue ⟨[], none⟩)) rfl).move
    (m := .work (.prepare ⟨default, []⟩)) rfl
  have hposted := (hqueued.move (m := .post (.answered 500)) rfl).move (m := .work .finish) rfl
  have hbrought := hposted.move (m := .hear (.answer (.answered 200 [104]))) rfl
  exact ⟨_, _, rfl, hbrought, (requests_absorbed hbrought).1⟩

end Polled

end MessageBus
