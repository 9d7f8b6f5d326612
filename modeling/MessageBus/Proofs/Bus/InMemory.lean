import Mathlib.Logic.Function.Basic
import MessageBus.Link.MemoryBus
import MessageBus.Proofs.Codec.Sealing
import MessageBus.Proofs.Connection.Moves

/-! # Connections on a bus in memory

    Any number of participants attach to one bus in memory, each by a connection
    of its own.  A connection hands the bodies of its messages to its link and
    takes what the link buffered; every link gets every body.  A link that cannot
    take a body is cut off, and its connection opens another one.

    * `step_cases`, `effect_cases`: what a move does, one constructor for each
      outcome.
    * `runs_traceOf`: what a participant does is a run of its connection. -/

namespace MessageBus

namespace Connection

/-- Whether a move leaves the link and the keys alone. -/
def Action.isLocal : Action → Bool
  | queue _ | take | prepare _ | finish | deliver | resume | announce => true
  | _ => false

end Connection

/-! ## The system -/

/-- Those who may take part, with distinct ids and the same keys, of which there is one at most. -/
structure Participants (ι : Type) where
  codec : ι → Codec
  /-- How many messages either queue of a connection holds. -/
  capacity : ι → Nat
  /-- The pause between two attempts to open a link. -/
  delay : ι → Nat
  keys : KeySet
  distinct : ∀ i j, (codec i).id = (codec j).id → i = j
  single : keys.IsSingle
  room : ∀ i, 0 < capacity i

/-- A connection with the number of its link. -/
structure Member where
  link : Nat
  connection : Connection

/-- A bus in memory with those who are attached to it. -/
structure Gathering (ι : Type) where
  bus : MemoryBus
  member? : ι → Option Member

namespace Gathering

variable {ι : Type}

/-- What a participant does. -/
inductive Act where
  | attach
  /-- A caller queues a message. -/
  | queue (o : Outgoing)
  /-- A caller takes the next envelope. -/
  | take
  /-- The next message is made into bodies. -/
  | prepare (occasion : Occasion)
  /-- The next body is handed to the link. -/
  | write
  /-- The message on its way is written completely. -/
  | finish
  /-- The next body is taken from the link. -/
  | arrive
  /-- The envelope that was read is put into the inbound queue. -/
  | deliver
  /-- The pause before the next attempt to open a link is over. -/
  | resume
  /-- A link is opened in place of the one that failed. -/
  | reopen
  /-- The signal of the new link is put into the inbound queue. -/
  | announce

/-- An act of a participant at a moment. -/
structure Move (ι : Type) where
  now : Nat
  who : ι
  act : Act

/-- Nobody is attached, and the first attempts to open a link fail. -/
def start (name : String) (refusals : Nat) : Gathering ι :=
  ⟨(MemoryBus.create name).failNextOpens refusals, fun _ => none⟩

/-- The gathering with another bus, after one member has changed or has joined. -/
def put [DecidableEq ι] (s : Gathering ι) (bus : MemoryBus) (i : ι) (p : Member) : Gathering ι :=
  ⟨bus, Function.update s.member? i (some p)⟩

section put
variable [DecidableEq ι] (s : Gathering ι) (bus : MemoryBus) (p : Member) {i j : ι}

@[simp] theorem bus_put : (s.put bus i p).bus = bus := rfl

@[simp] theorem member_put_self : (s.put bus i p).member? i = some p :=
  Function.update_self ..

@[simp] theorem member_put_of_ne (h : j ≠ i) : (s.put bus i p).member? j = s.member? j :=
  Function.update_of_ne h ..

theorem member_put_cases {p q : Member} (h : (s.put bus i p).member? j = some q) :
    j = i ∧ q = p ∨ j ≠ i ∧ s.member? j = some q := by
  by_cases hj : j = i
  · rw [hj, member_put_self] at h
    exact .inl ⟨hj, (Option.some.inj h).symm⟩
  · rw [member_put_of_ne _ _ _ hj] at h
    exact .inr ⟨hj, h⟩

end put

/-- What an act does to the bus, the link that the member has then, and what the act is for its
connection; `none` for an act that is not possible. -/
def effect? (bus : MemoryBus) (p : Member) : Act → Option (MemoryBus × Nat × Connection.Action)
  | .attach => none
  | .queue o => some (bus, p.link, .queue o)
  | .take => some (bus, p.link, .take)
  | .prepare occasion =>
    if occasion.fits p.connection.keys then some (bus, p.link, .prepare occasion) else none
  | .write => p.connection.nextBody?.map fun body =>
    match bus.send p.link body with
    | (.ok _, bus) => (bus, p.link, .write true)
    -- the rest of what this link received is gone with it
    | (.error _, bus) => (bus.drop p.link, p.link, .write false)
  | .finish => some (bus, p.link, .finish)
  | .arrive =>
    match bus.receive p.link with
    | (.body body, bus) => some (bus, p.link, .arrive (utf8 body))
    | (.severed, bus) => some (bus.drop p.link, p.link, .loseLink)
    | (.waiting, _) => none
  | .deliver => some (bus, p.link, .deliver)
  | .resume => some (bus, p.link, .resume)
  | .reopen =>
    match bus.openLink with
    | (.ok link, bus) => some (bus, link, .opened true)
    | (.error _, bus) => some (bus, p.link, .opened false)
  | .announce => some (bus, p.link, .announce)

end Gathering

namespace Participants

variable {ι : Type} [DecidableEq ι] (ps : Participants ι)

omit [DecidableEq ι] in
/-- The connection of a participant that attaches. -/
def connect (i : ι) (now : Nat) : Connection :=
  .start (ps.codec i) (ps.capacity i) (ps.delay i) ps.keys now

/-- The next state, and what happened to the connection of the participant; `none` for a move that
is not possible. -/
def step (s : Gathering ι) (m : Gathering.Move ι) :
    Option (Gathering ι × List Connection.Event) :=
  match s.member? m.who, m.act with
  | none, .attach =>
    match s.bus.openLink with
    | (.ok link, bus) => some (s.put bus m.who ⟨link, ps.connect m.who m.now⟩, [])
    | (.error _, bus) => some ({ s with bus := bus }, [])
  | none, _ => none
  | some p, act => do
    let (bus, link, action) ← Gathering.effect? s.bus p act
    let (c, events) ← p.connection.step m.now action
    return (s.put bus m.who ⟨link, c⟩, events)

end Participants

namespace Gathering

variable {ι : Type} [DecidableEq ι] {ps : Participants ι} {s s' : Gathering ι} {m : Move ι}
  {events : List Connection.Event}

/-- A trace of a gathering. -/
abbrev Trace (ι : Type) := List (Stage (Gathering ι) (Move ι) Connection.Event)

/-! ## Moves as a relation -/

/-- The moves of the participants, one constructor for each outcome. -/
inductive Moves (ps : Participants ι) (s : Gathering ι) (m : Move ι) :
    Gathering ι → List Connection.Event → Prop where
  | attached {link : Nat} {bus : MemoryBus} :
      s.member? m.who = none → m.act = .attach → s.bus.openLink = (.ok link, bus) →
      Moves ps s m (s.put bus m.who ⟨link, ps.connect m.who m.now⟩) []
  | refused {e : BusError} {bus : MemoryBus} :
      s.member? m.who = none → m.act = .attach → s.bus.openLink = (.error e, bus) →
      Moves ps s m { s with bus := bus } []
  | acted {p : Member} {bus : MemoryBus} {link : Nat} {a : Connection.Action} {c : Connection}
      {events : List Connection.Event} :
      s.member? m.who = some p → effect? s.bus p m.act = some (bus, link, a) →
      p.connection.step m.now a = some (c, events) →
      Moves ps s m (s.put bus m.who ⟨link, c⟩) events

/-- Every possible move is one of the listed ones. -/
theorem step_cases (h : ps.step s m = some (s', events)) : Moves ps s m s' events := by
  unfold Participants.step at h
  split at h
  · next hnone hact =>
    split at h
    · next hopen =>
      cases h
      exact .attached hnone hact hopen
    · next hopen =>
      cases h
      exact .refused hnone hact hopen
  · cases h
  · next p hsome =>
    simp only [Option.bind_eq_bind, Option.bind_eq_some_iff, Prod.exists] at h
    obtain ⟨bus, link, a, heffect, c, events', hstep, hreturn⟩ := h
    cases hreturn
    exact .acted hsome heffect hstep

theorem step_of_member {p : Member} {bus : MemoryBus} {link : Nat} {a : Connection.Action}
    {c : Connection} (hp : s.member? m.who = some p)
    (heffect : effect? s.bus p m.act = some (bus, link, a))
    (hc : p.connection.step m.now a = some (c, events)) :
    ps.step s m = some (s.put bus m.who ⟨link, c⟩, events) := by
  simp [Participants.step, hp, heffect, hc]

/-- The acts with what they do, one constructor for each outcome. -/
inductive Effect (bus : MemoryBus) (p : Member) :
    Act → MemoryBus → Nat → Connection.Action → Prop where
  | kept {act : Act} {a : Connection.Action} :
      act ≠ .write → a.isLocal = true →
      (∀ occasion, a = .prepare occasion → occasion.fits p.connection.keys = true) →
      Effect bus p act bus p.link a
  | sent {body : String} :
      p.connection.nextBody? = some body → bus.isAttached p.link = true →
      Effect bus p .write { bus with links := bus.links.map (MemoryBus.offer body) } p.link
        (.write true)
  | cutOff : bus.isAttached p.link = false →
      Effect bus p .write (bus.drop p.link) p.link (.write false)
  | received {l : MemoryLink} {body : String} {rest : List String} :
      bus.find? p.link = some l → l.buffer = body :: rest →
      Effect bus p .arrive (bus.modify p.link fun l => { l with buffer := rest }) p.link
        (.arrive (utf8 body))
  | lost : (∀ l, bus.find? p.link = some l → l.attached = false) →
      Effect bus p .arrive (bus.drop p.link) p.link .loseLink
  | opened {bus' : MemoryBus} {link : Nat} : bus.openLink = (.ok link, bus') →
      Effect bus p .reopen bus' link (.opened true)
  | refused {bus' : MemoryBus} {e : BusError} : bus.openLink = (.error e, bus') →
      Effect bus p .reopen bus' p.link (.opened false)

theorem effect_cases {bus bus' : MemoryBus} {p : Member} {act : Act} {link : Nat}
    {a : Connection.Action} (h : effect? bus p act = some (bus', link, a)) :
    Effect bus p act bus' link a := by
  cases act with
  | attach => cases h
  | prepare occasion =>
    simp only [effect?] at h
    split at h
    · next hfits =>
      cases h
      refine .kept (by simp) rfl fun other heq => ?_
      cases heq
      exact hfits
    · cases h
  | write =>
    simp only [effect?] at h
    obtain ⟨body, hbody, heq⟩ := Option.map_eq_some_iff.mp h
    cases hattached : bus.isAttached p.link with
    | true =>
      simp only [MemoryBus.send, hattached, if_true] at heq
      cases heq
      exact .sent hbody hattached
    | false =>
      rw [MemoryBus.send_severed _ _ _ hattached] at heq
      cases heq
      exact .cutOff hattached
  | arrive =>
    simp only [effect?, MemoryBus.receive] at h
    cases hfind : bus.find? p.link with
    | none =>
      simp only [hfind] at h
      cases h
      refine .lost fun l hl => ?_
      rw [hfind] at hl
      cases hl
    | some l =>
      cases hbuffer : l.buffer with
      | cons body rest =>
        simp only [hfind, hbuffer] at h
        cases h
        exact .received hfind hbuffer
      | nil =>
        cases hattached : l.attached with
        | true => simp [hfind, hbuffer, hattached] at h
        | false =>
          simp only [hfind, hbuffer, hattached] at h
          cases h
          refine .lost fun l' hl' => ?_
          rw [hfind] at hl'
          rwa [← Option.some.inj hl']
  | reopen =>
    simp only [effect?] at h
    split at h
    · next hopen => cases h; exact .opened hopen
    · next hopen => cases h; exact .refused hopen
  | queue | take | finish | deliver | resume | announce =>
    cases h
    exact .kept (by simp) rfl (by simp)

/-! ## What a participant does -/

/-- What a move is for the connection of a participant. -/
def stage? (i : ι) (st : Stage (Gathering ι) (Move ι) Connection.Event) :
    Option (Stage Connection (Nat × Connection.Action) Connection.Event) :=
  if st.move.who = i then
    (st.before.member? i).bind fun p => (effect? st.before.bus p st.move.act).map
      fun (_, _, a) => ⟨p.connection, (st.move.now, a), st.events⟩
  else none

/-- The part of a trace that is up to the connection of a participant. -/
def traceOf (i : ι) (trace : Trace ι) : Connection.Trace := trace.filterMap (stage? i)

section snoc
variable (trace : Trace ι) (m : Move ι) (events : List Connection.Event) {i : ι} {p : Member}

theorem stage_of_member {bus : MemoryBus} {link : Nat} {a : Connection.Action}
    (hp : s.member? m.who = some p) (heffect : effect? s.bus p m.act = some (bus, link, a)) :
    stage? m.who ⟨s, m, events⟩ = some ⟨p.connection, (m.now, a), events⟩ := by
  simp [stage?, hp, heffect]

/-- What others do is no move of the connection. -/
theorem traceOf_snoc_of_ne (h : i ≠ m.who) :
    traceOf i (trace ++ [⟨s, m, events⟩]) = traceOf i trace := by
  simp [traceOf, stage?, h.symm]

/-- Who is not attached has no connection that could move. -/
theorem traceOf_snoc_of_none (h : s.member? m.who = none) (i : ι) :
    traceOf i (trace ++ [⟨s, m, events⟩]) = traceOf i trace := by
  by_cases hi : i = m.who
  · subst hi
    simp [traceOf, stage?, h]
  · exact traceOf_snoc_of_ne trace m events hi

theorem traceOf_snoc {bus : MemoryBus} {link : Nat} {a : Connection.Action}
    (hp : s.member? m.who = some p) (heffect : effect? s.bus p m.act = some (bus, link, a)) :
    traceOf m.who (trace ++ [⟨s, m, events⟩])
      = traceOf m.who trace ++ [⟨p.connection, (m.now, a), events⟩] := by
  simp [traceOf, stage_of_member m events hp heffect]

end snoc

/-- What a participant does is a run of its connection. -/
theorem runs_traceOf {name : String} {refusals : Nat} {trace : Trace ι}
    (h : Run ps.step (start name refusals) trace s) (i : ι) :
    (s.member? i = none → traceOf i trace = []) ∧
      ∀ p, s.member? i = some p →
        ∃ now, Connection.Runs (ps.connect i now) (traceOf i trace) p.connection := by
  induction h with
  | start => exact ⟨fun _ => rfl, fun p hp => nomatch hp⟩
  | @move trace s s' m events hrun hstep ih =>
    cases step_cases hstep with
    | attached hnone hact hopen =>
      rw [traceOf_snoc_of_none trace m [] hnone]
      by_cases hi : i = m.who
      · subst hi
        refine ⟨fun h => by simp at h, fun p hp => ?_⟩
        rw [member_put_self] at hp
        obtain rfl := Option.some.inj hp
        rw [ih.1 hnone]
        exact ⟨m.now, .start⟩
      · simpa only [member_put_of_ne _ _ _ hi] using ih
    | refused hnone =>
      rw [traceOf_snoc_of_none trace m [] hnone]
      exact ih
    | @acted p bus link a c events hp heffect hc =>
      by_cases hi : i = m.who
      · subst hi
        refine ⟨fun h => by simp at h, fun q hq => ?_⟩
        rw [member_put_self] at hq
        obtain rfl := Option.some.inj hq
        obtain ⟨now, hruns⟩ := ih.2 p hp
        rw [traceOf_snoc trace m events hp heffect]
        exact ⟨now, hruns.move hc⟩
      · rw [traceOf_snoc_of_ne trace m events hi]
        simpa only [member_put_of_ne _ _ _ hi] using ih

end Gathering

end MessageBus
