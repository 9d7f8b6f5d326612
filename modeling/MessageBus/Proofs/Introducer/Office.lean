import MessageBus.Proofs.Connection.InboundStream
import MessageBus.Proofs.Introducer.Network

/-! # How an introducer comes into office

    Whatever comes over the bus, it never puts an introducer in office and never
    makes it call the roll.  A body can only take it out of office, and only as
    the presence of a greater level.  A body that claims to be the signal of a
    new link is no signal: that one is made by the connection alone, once for
    each link that it opened again.

    An introducer at its post takes what its connection received, reacts, and
    has the connection send its reaction, while the link delivers any bodies,
    fails and comes back at any time.

    * `hear_outbid`, `hear_not_outbid`: what a body does to the election.
    * `signalled_moves`: the signals in the inbound queue, counted.
    * `office_by_silence_or_signal`: how an introducer on standby comes into
      office, along every run. -/

namespace MessageBus

/-! ## Signals in the inbound queue -/

namespace Connection

/-- No envelope counts as a signal but the one that the connection itself makes. -/
structure OnlyOwnSignals (c : Connection) : Prop where
  handing : ∀ since e, c.phase = .serving since (some e) → e.isReconnected = false
  inbound : ∀ e ∈ c.inbound, e.isReconnected = true → e = .reconnected

/-- How many signals wait in the inbound queue. -/
def signals (c : Connection) : Nat := c.inbound.countP (·.isReconnected)

/-- Whether a move takes a signal from the inbound queue. -/
def takesSignal (c : Connection) : Action → Bool
  | .take => c.inbound.head?.any (·.isReconnected)
  | _ => false

/-- Whether a move puts the signal of a new link into the inbound queue. -/
def Action.isAnnounce : Action → Bool
  | announce => true
  | _ => false

variable {now : Nat} {c c' : Connection} {a : Action} {events : List Event}

theorem onlyOwnSignals_start (codec : Codec) (capacity delay : Nat) (keys : KeySet) (now : Nat) :
    OnlyOwnSignals (start codec capacity delay keys now) := by
  constructor
  · intro since e hphase
    cases hphase
  · intro e he
    cases he

theorem afterFailure_ne_serving (c : Connection) (now since since' : Nat)
    (handing : Option Envelope) : c.afterFailure now since ≠ .serving since' handing := by
  unfold afterFailure
  split <;> nofun

/-- Every move keeps it so. -/
theorem onlyOwnSignals_moves (h : OnlyOwnSignals c) (hm : Moves now c a c' events) :
    OnlyOwnSignals c' := by
  cases hm with
  | queued | rekeyed | prepared | rejected | wrote | finished => exact ⟨h.handing, h.inbound⟩
  | took hin => exact ⟨h.handing, fun e he => h.inbound e (hin ▸ List.mem_cons_of_mem _ he)⟩
  | writeFailed | lost =>
    exact ⟨fun _ _ hphase => absurd hphase (afterFailure_ne_serving _ _ _ _ _), h.inbound⟩
  | @arrived since body hphase =>
    refine ⟨fun since' e hphase' => ?_, h.inbound⟩
    exact Codec.isReconnected_parse (Phase.serving.inj hphase').2
  | @delivered since e hphase =>
    refine ⟨nofun, fun e' he' hsignal => ?_⟩
    rcases List.mem_append.mp he' with he' | he'
    · exact h.inbound e' he' hsignal
    · rw [List.mem_singleton.mp he', h.handing since e hphase] at hsignal
      cases hsignal
  | resumed | opened | refused | cancelled => exact ⟨nofun, h.inbound⟩
  -- The signal that is put in here is made by the connection itself.
  | announced =>
    refine ⟨nofun, fun e' he' hsignal => ?_⟩
    rcases List.mem_append.mp he' with he' | he'
    · exact h.inbound e' he' hsignal
    · exact List.mem_singleton.mp he'

/-- A signal is put into the inbound queue for each new link, and nothing else puts one there. -/
theorem signalled_moves (h : OnlyOwnSignals c) (hm : Moves now c a c' events) :
    c'.signals + (c.takesSignal a).toNat = c.signals + a.isAnnounce.toNat := by
  cases hm with
  | @took e rest hin =>
    simp only [signals, takesSignal, hin, List.head?_cons, Option.any_some, List.countP_cons,
      Action.isAnnounce]
    cases e.isReconnected <;> rfl
  | @delivered since e hphase =>
    simp [signals, takesSignal, Action.isAnnounce, h.handing since e hphase]
  | announced =>
    simp [signals, takesSignal, Action.isAnnounce, Envelope.isReconnected_reconnected]
  | _ => rfl

end Connection

namespace Introducer

/-! ## What a body does to the election -/

/-- A body is read as the presence of a greater level. -/
def Outbids (codec : Codec) (keys : KeySet) (e : Election) (body : Bytes) : Prop :=
  ∃ envelope level, codec.parse body keys = some envelope ∧
    envelope.message = .ok (.introducerPresent level) ∧ e.level < level

variable {codec : Codec} {keys : KeySet} {succeeds : Deed → Bool} {e : Election} {body : Bytes}
  {envelope : Envelope}

theorem rollCall_notMem_perform (deed : Deed) {reply : Option Message}
    (h : reply ≠ some .introducerRollCall) :
    .send .introducerRollCall ∉ perform succeeds deed reply := by
  unfold perform
  cases reply with
  | none => cases succeeds deed <;> simp
  | some m =>
    have hm : .introducerRollCall ≠ m := fun heq => h (by rw [heq])
    cases succeeds deed <;> simp [hm]

/-- Nobody is served with a roll call. -/
theorem rollCall_notMem_serve (origin : String) (m : Message) :
    .send .introducerRollCall ∉ serve keys succeeds origin m := by
  cases m with
  | copyData | openUrl | notification => exact rollCall_notMem_perform _ nofun
  | testAuth => simp [serve]
  | requestAuth =>
    simp only [serve]
    by_cases hkeys : keys.isEmpty = true
    · rw [if_pos hkeys]
      exact List.not_mem_nil
    · rw [if_neg hkeys]
      exact rollCall_notMem_perform _ nofun
  | _ => exact List.not_mem_nil

/-- An envelope that is no signal makes nobody call the roll. -/
theorem rollCall_notMem_receive (h : envelope.isReconnected = false) :
    .send .introducerRollCall ∉ (receive keys succeeds e envelope).2 := by
  unfold receive
  rw [if_neg (by simp [h])]
  split
  · exact List.not_mem_nil
  · exact List.not_mem_nil
  · simp [observe, Election.step, Election.outputs, broadcast]
  · split
    · exact List.not_mem_nil
    · split
      · exact List.not_mem_nil
      · exact rollCall_notMem_serve _ _

/-- Only the presence of a greater level changes the election. -/
theorem election_receive (keys : KeySet) (succeeds : Deed → Bool) (e : Election)
    (h : envelope.isReconnected = false) :
    (receive keys succeeds e envelope).1 = e ∨
      ∃ level, envelope.message = .ok (.introducerPresent level) ∧ e.level < level := by
  unfold receive
  rw [if_neg (by simp [h])]
  split
  · exact .inl rfl
  · next level hmessage =>
    -- A presence that does not outbid changes nothing, an equal level included.
    by_cases hlt : e.level < level
    · exact .inr ⟨level, hmessage, hlt⟩
    · exact .inl (by simp [observe, Election.step, Election.next, hlt])
  · exact .inl rfl
  · split
    · exact .inl rfl
    · split <;> exact .inl rfl

/-- An envelope that is no signal puts nobody in office. -/
theorem standby_receive (keys : KeySet) (succeeds : Deed → Bool)
    (h : envelope.isReconnected = false) (hstandby : e.isActive = false) :
    (receive keys succeeds e envelope).1.isActive = false := by
  rcases election_receive keys succeeds e h with heq | ⟨level, hmessage, hlt⟩
  · rw [heq, hstandby]
  · simp [receive, h, hmessage, observe, Election.step, Election.next, hlt]

/-- The presence of a greater level takes an introducer out of office. -/
theorem hear_outbid (h : Outbids codec keys e body) :
    (hear codec keys succeeds e body).1 = { e with isActive := false } := by
  obtain ⟨envelope, level, hparse, hmessage, hlt⟩ := h
  simp only [hear, hparse, receive, Codec.isReconnected_parse hparse, hmessage]
  simp [observe, Election.step, Election.next, hlt]

/-- Nothing else changes the election. -/
theorem hear_not_outbid (h : ¬ Outbids codec keys e body) :
    (hear codec keys succeeds e body).1 = e := by
  unfold hear
  split
  · next envelope hparse =>
    rcases election_receive keys succeeds e (Codec.isReconnected_parse hparse) with
      heq | ⟨level, hmessage, hlt⟩
    · exact heq
    · exact absurd ⟨envelope, level, hparse, hmessage, hlt⟩ h
  · rfl

theorem rollCall_notMem_hear :
    .send .introducerRollCall ∉ (hear codec keys succeeds e body).2 := by
  unfold hear
  split
  · next envelope hparse => exact rollCall_notMem_receive (Codec.isReconnected_parse hparse)
  · exact List.not_mem_nil

/-! ## An introducer at its connection -/

/-- An introducer with its connection and what it has yet to send. -/
structure Post where
  connection : Connection
  election : Election
  pending : List Message

namespace Post

/-- What can happen at a post. -/
inductive Move where
  /-- The introducer takes an envelope; its deeds succeed or fail. -/
  | handle (succeeds : Deed → Bool)
  /-- The introducer notices that nothing has come for a while. -/
  | silence
  /-- The introducer queues its next message. -/
  | send
  /-- The connection or its link does something. -/
  | work (a : Connection.Action)

/-- The post after a reaction; what it sends is yet to be queued. -/
def react (p : Post) (reaction : Election × List Effect) : Post :=
  { p with election := reaction.1, pending := reaction.2.filterMap Effect.message? }

/-- An introducer that starts on a new connection. -/
def start (codec : Codec) (capacity delay : Nat) (keys : KeySet) (now : Nat) (level : Binary64) :
    Post :=
  Post.react ⟨.start codec capacity delay keys now, .start level, []⟩
    (observe (.start level) .startup)

/-- The post after a move of the connection, and what its introducer goes on with. -/
def act (p : Post) (now : Nat) (a : Connection.Action) (next : Post → Post) :
    Option (Post × List Connection.Event) :=
  (p.connection.step now a).map fun (c, events) => (next { p with connection := c }, events)

/-- The next state for a move at a moment, and what happened on the connection; `none` for a move
that is not possible. -/
def step (p : Post) : Nat × Move → Option (Post × List Connection.Event)
  | (now, .handle succeeds) =>
    match p.pending, p.connection.inbound with
    | [], envelope :: _ =>
      p.act now .take fun p =>
        p.react (receive p.connection.keys succeeds p.election envelope)
    | _, _ => none
  | (_, .silence) =>
    match p.pending, p.connection.inbound with
    | [], [] => some (p.react (observe p.election .silence), [])
    | _, _ => none
  | (now, .send) =>
    match p.pending with
    | m :: rest => p.act now (.queue ⟨m.toFields, none⟩) fun p => { p with pending := rest }
    | [] => none
  | (now, .work a) => if a.isByCaller then none else p.act now a id

/-- An introducer with nothing left to send reacts to the first envelope that waits. -/
theorem step_handle (now : Nat) (c : Connection) (e : Election) (envelope : Envelope)
    (rest : List Envelope) (succeeds : Deed → Bool) :
    step ⟨{ c with inbound := envelope :: rest }, e, []⟩ (now, .handle succeeds) =
      some (react ⟨{ c with inbound := rest }, e, []⟩ (receive c.keys succeeds e envelope),
        [.took envelope]) := rfl

/-- What happened at a post, move by move. -/
abbrev Record := List (Stage Post (Nat × Move) Connection.Event)

/-- The runs of a post: whatever is possible may happen, at any moments. -/
abbrev Runs (p₀ : Post) (record : Record) (p : Post) : Prop := Run step p₀ record p

/-- The moves, one constructor for each outcome. -/
inductive Moves (now : Nat) (p : Post) : Move → Post → List Connection.Event → Prop where
  | handled {succeeds : Deed → Bool} {envelope : Envelope} {rest : List Envelope}
      {c : Connection} {events : List Connection.Event} :
      p.connection.inbound = envelope :: rest → Connection.Moves now p.connection .take c events →
      Moves now p (.handle succeeds)
        (Post.react { p with connection := c } (receive c.keys succeeds p.election envelope)) events
  | idled : Moves now p .silence (p.react (observe p.election .silence)) []
  | sent {m : Message} {rest : List Message} {c : Connection} {events : List Connection.Event} :
      p.pending = m :: rest →
      Connection.Moves now p.connection (.queue ⟨m.toFields, none⟩) c events →
      Moves now p .send { p with connection := c, pending := rest } events
  | worked {a : Connection.Action} {c : Connection} {events : List Connection.Event} :
      a.isByCaller = false → Connection.Moves now p.connection a c events →
      Moves now p (.work a) { p with connection := c } events

variable {p p' : Post} {now : Nat} {move : Move} {events : List Connection.Event}
  {record : Record}

theorem moves_of_act {a : Connection.Action} {next : Post → Post}
    (h : p.act now a next = some (p', events)) :
    ∃ c, Connection.Moves now p.connection a c events ∧ p' = next { p with connection := c } := by
  obtain ⟨⟨c, events'⟩, hstep, heq⟩ := Option.map_eq_some_iff.mp h
  cases heq
  exact ⟨c, Connection.moves_of_step hstep, rfl⟩

/-- Every possible move is one of the listed ones. -/
theorem moves_of_step (h : p.step (now, move) = some (p', events)) :
    Moves now p move p' events := by
  cases move with
  | handle succeeds =>
    simp only [step] at h
    split at h
    · next envelope rest _ hin =>
      obtain ⟨c, hc, rfl⟩ := moves_of_act h
      exact .handled hin hc
    · cases h
  | silence =>
    simp only [step] at h
    split at h
    · cases h
      exact .idled
    · cases h
  | send =>
    simp only [step] at h
    split at h
    · next m rest hpending =>
      obtain ⟨c, hc, rfl⟩ := moves_of_act h
      exact .sent hpending hc
    · cases h
  | work a =>
    simp only [step] at h
    split at h
    · cases h
    · next hown =>
      obtain ⟨c, hc, rfl⟩ := moves_of_act h
      exact .worked (by simpa using hown) hc

/-! ## Counting signals -/

/-- Whether a move hands the introducer the signal of a new link. -/
def handlesSignal (st : Stage Post (Nat × Move) Connection.Event) : Bool :=
  match st.move.2 with
  | .handle _ => st.before.connection.inbound.head?.any (·.isReconnected)
  | _ => false

/-- Whether a move makes the signal of a new link. -/
def opensAgain (st : Stage Post (Nat × Move) Connection.Event) : Bool :=
  match st.move.2 with
  | .work a => a.isAnnounce
  | _ => false

/-- A move makes, hands over and keeps signals, and loses none. -/
theorem signals_moves (h : p.connection.OnlyOwnSignals) (hm : Moves now p move p' events) :
    p'.connection.OnlyOwnSignals ∧
      p'.connection.signals + (handlesSignal ⟨p, (now, move), events⟩).toNat =
        p.connection.signals + (opensAgain ⟨p, (now, move), events⟩).toNat := by
  cases hm with
  | handled _ hmoves | sent _ hmoves =>
    exact ⟨Connection.onlyOwnSignals_moves h hmoves, Connection.signalled_moves h hmoves⟩
  | idled => exact ⟨h, rfl⟩
  | @worked a c _ hown hmoves =>
    -- Only the introducer takes from its inbound queue.
    have htakes : p.connection.takesSignal a = false := by
      cases a with
      | take => cases hown
      | _ => rfl
    have hsignals := Connection.signalled_moves h hmoves
    rw [htakes] at hsignals
    exact ⟨Connection.onlyOwnSignals_moves h hmoves, hsignals⟩

/-- Every signal that waits or was handled was made when a link was opened again. -/
structure Accounted (record : Record) (p : Post) : Prop where
  own : p.connection.OnlyOwnSignals
  count : record.countP handlesSignal + p.connection.signals = record.countP opensAgain

theorem countP_snoc {α : Type} (f : α → Bool) (l : List α) (a : α) :
    (l ++ [a]).countP f = l.countP f + (f a).toNat := by
  rw [List.countP_append, List.countP_singleton]
  cases f a <;> rfl

variable {codec : Codec} {capacity delay : Nat} {keys : KeySet} {began : Nat} {level : Binary64}

/-- Along every run the signals are accounted for. -/
theorem accounted (h : Runs (start codec capacity delay keys began level) record p) :
    Accounted record p := by
  induction h with
  | start => exact ⟨Connection.onlyOwnSignals_start .., rfl⟩
  | @move record p p' m events _ hstep ih =>
    obtain ⟨now, move⟩ := m
    obtain ⟨hown, hsignals⟩ := signals_moves ih.own (moves_of_step hstep)
    refine ⟨hown, ?_⟩
    have hcount := ih.count
    rw [countP_snoc, countP_snoc]
    omega

/-! ## How an introducer comes into office -/

/-- A move that puts an introducer in office is a timeout or hands over a signal. -/
theorem promoted_moves (hm : Moves now p move p' events) (hstandby : p.election.isActive = false)
    (hactive : p'.election.isActive = true) :
    move = .silence ∨ ∃ succeeds envelope rest, move = .handle succeeds ∧
      p.connection.inbound = envelope :: rest ∧ envelope.isReconnected = true := by
  cases hm with
  | @handled succeeds envelope rest c _ hin hmoves =>
    cases hsignal : envelope.isReconnected with
    | true => exact .inr ⟨succeeds, envelope, rest, rfl, hin, hsignal⟩
    | false =>
      have hstill := standby_receive c.keys succeeds hsignal hstandby
      exact absurd (hactive.symm.trans hstill) nofun
  | idled => exact .inl rfl
  | sent | worked => exact absurd (hactive.symm.trans hstandby) nofun

/-- Nothing on the bus puts an introducer in office.

    A body leaves an introducer on standby where it is, makes nobody call the
    roll, and changes the election only as the presence of a greater level.
    Along every run an introducer on standby comes into office by a timeout, or
    by a signal that its own connection made: fewer signals were handled before
    than links were opened again. -/
theorem office_by_silence_or_signal :
    (∀ (codec : Codec) (keys : KeySet) (succeeds : Deed → Bool) (e : Election) (body : Bytes),
      (e.isActive = false → (hear codec keys succeeds e body).1.isActive = false) ∧
      .send .introducerRollCall ∉ (hear codec keys succeeds e body).2 ∧
      (Outbids codec keys e body →
        (hear codec keys succeeds e body).1 = { e with isActive := false }) ∧
      (¬ Outbids codec keys e body → (hear codec keys succeeds e body).1 = e)) ∧
    ∀ (codec : Codec) (capacity delay : Nat) (keys : KeySet) (began : Nat) (level : Binary64)
      (record before after : Record) (st : Stage Post (Nat × Move) Connection.Event)
      (p p' : Post),
      Runs (start codec capacity delay keys began level) record p →
      record = before ++ st :: after → st.before.step st.move = some (p', st.events) →
      st.before.election.isActive = false → p'.election.isActive = true →
      st.move.2 = .silence ∨
        ∃ succeeds rest, st.move.2 = .handle succeeds ∧
          st.before.connection.inbound = .reconnected :: rest ∧
          before.countP handlesSignal < before.countP opensAgain := by
  constructor
  · intro codec keys succeeds e body
    refine ⟨fun hstandby => ?_, rollCall_notMem_hear, hear_outbid, hear_not_outbid⟩
    by_cases h : Outbids codec keys e body
    · rw [hear_outbid h]
    · rw [hear_not_outbid h, hstandby]
  · intro codec capacity delay keys began level record before after st p p' hrun hsplit hstep
      hstandby hactive
    rcases promoted_moves (moves_of_step hstep) hstandby hactive with hsilence |
      ⟨succeeds, envelope, rest, hmove, hin, hsignal⟩
    · exact .inl hsilence
    · obtain ⟨hown, hcount⟩ := accounted (hrun.split hsplit).1
      have henvelope := hown.inbound envelope (hin ▸ List.mem_cons_self) hsignal
      -- The signal still waits, so more were made than have been handled.
      have hwaits : 0 < st.before.connection.signals :=
        List.countP_pos_iff.mpr ⟨envelope, hin ▸ List.mem_cons_self, hsignal⟩
      exact .inr ⟨succeeds, rest, hmove, henvelope ▸ hin, by omega⟩

/-- The presence of a greater level than that of an introducer which just started, as it comes over
the bus. -/
def greaterPresence : Bytes := utf8 "\x7b\"type\":\"IntroducerPresent\",\"level\":5\x7d"

/-- An introducer hears of a greater level.  Then its link fails and is opened again, and the signal
of the new link puts it back in office. -/
theorem office_by_signal_after_outage :
    ∃ (record before after : Record) (st : Stage Post (Nat × Move) Connection.Event) (p p' : Post),
      Outbids ⟨"a", ⟨none, none⟩⟩ .empty ⟨true, Binary64.zero⟩ greaterPresence ∧
      (hear ⟨"a", ⟨none, none⟩⟩ .empty (fun _ => true) ⟨true, Binary64.zero⟩ greaterPresence).1 =
        ⟨false, Binary64.zero⟩ ∧
      Runs (start ⟨"a", ⟨none, none⟩⟩ 4 0 .empty 0 Binary64.zero) record p ∧
      record = before ++ st :: after ∧ st.before.step st.move = some (p', st.events) ∧
      st.before.election.isActive = false ∧ p'.election.isActive = true ∧
      (st.move.2 = .silence ∨
        ∃ succeeds rest, st.move.2 = .handle succeeds ∧
          st.before.connection.inbound = .reconnected :: rest ∧
          before.countP handlesSignal < before.countP opensAgain) := by
  have hpresence : ((⟨"a", ⟨none, none⟩⟩ : Codec).parse greaterPresence .empty).bind
      (·.message.toOption) = some (.introducerPresent (.ofInt 5)) := by decide +kernel
  obtain ⟨envelope, hparse, hsome⟩ := Option.bind_eq_some_iff.mp hpresence
  have hmessage : envelope.message = .ok (.introducerPresent (.ofInt 5)) := by
    cases hm : envelope.message <;> simp_all [Except.toOption]
  have houtbid : Outbids ⟨"a", ⟨none, none⟩⟩ .empty ⟨true, Binary64.zero⟩ greaterPresence :=
    ⟨envelope, _, hparse, hmessage, by decide +kernel⟩
  have hheard := (office_by_silence_or_signal.1 ⟨"a", ⟨none, none⟩⟩ .empty (fun _ => true)
    ⟨true, Binary64.zero⟩ greaterPresence).2.2.1 houtbid
  have hreceive : receive .empty (fun _ => true) ⟨true, Binary64.zero⟩ envelope =
      (⟨false, Binary64.zero⟩, []) := by
    simp only [receive, Codec.isReconnected_parse hparse, hmessage]
    decide +kernel
  have hsignal : receive .empty (fun _ => true) ⟨false, Binary64.zero⟩ .reconnected =
      (⟨true, Binary64.zero⟩, [.send .introducerRollCall]) := by decide +kernel
  let sent (m : Message) : Outgoing := ⟨m.toFields, none⟩
  let c : Connection := ⟨⟨"a", ⟨none, none⟩⟩, 4, 0, .empty, [sent (.introducerPresent .zero),
    sent .introducerRollCall], none, [], .serving 0 none⟩
  have harrive : step ⟨c, .start .zero, []⟩ (0, .work (.arrive greaterPresence)) =
      some (⟨{ c with phase := .serving 0 (some envelope) }, .start .zero, []⟩, []) :=
    hparse ▸ rfl
  have hhear : step ⟨{ c with inbound := [envelope] }, .start .zero, []⟩
      (0, .handle fun _ => true) = some (⟨c, ⟨false, .zero⟩, []⟩, [.took envelope]) :=
    (step_handle ..).trans (by rw [show c.keys = .empty from rfl, Election.start, hreceive]; rfl)
  have hreturn : step ⟨{ c with inbound := [.reconnected] }, ⟨false, .zero⟩, []⟩
      (0, .handle fun _ => true) =
      some (⟨c, ⟨true, .zero⟩, [.introducerRollCall]⟩, [.took .reconnected]) :=
    (step_handle ..).trans (by rw [show c.keys = .empty from rfl, hsignal]; rfl)
  have hbefore : Runs (start ⟨"a", ⟨none, none⟩⟩ 4 0 .empty 0 .zero) _
      ⟨{ c with inbound := [.reconnected] }, ⟨false, .zero⟩, []⟩ :=
    (((((((Run.start.move (m := (0, .send)) rfl).move (m := (0, .send)) rfl).move harrive).move
      (m := (0, .work .deliver)) rfl).move hhear).move (m := (0, .work .loseLink)) rfl).move
      (m := (0, .work (.opened true))) rfl).move (m := (0, .work .announce)) rfl
  exact ⟨_, _, [], ⟨_, _, _⟩, _, _, houtbid, hheard, hbefore.move hreturn, rfl, hreturn, rfl, rfl,
    office_by_silence_or_signal.2 _ _ _ _ _ _ _ _ [] _ _ _ (hbefore.move hreturn) rfl hreturn rfl
      rfl⟩

end Post

end Introducer

end MessageBus
