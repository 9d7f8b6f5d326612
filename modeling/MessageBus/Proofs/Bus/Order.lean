import MessageBus.Proofs.Bus.StableLinks
import MessageBus.Proofs.Codec.RoundTrip

/-! # Messages arrive in order

    On a bus in memory whose links last, with one key or none, a participant
    receives of every other one the messages that were queued there: from the
    first one on, in the order of the queue, each of them once and as it was
    queued but for the marks of the sender.  When nothing is left to do it has
    received all of them.

    A message has one body, so what is on the wire from a participant is a list of
    messages.  It is followed through the queue, over the wire, through the buffer
    of the link and into the inbound queue.

    * `written_prefix`: the bodies of a participant are those of its messages.
    * `parse_body`: what everyone reads of a message.
    * `stream_eq`: what is received, buffered or in hand is what was written.
    * `received_in_order`: the messages of one participant at another. -/

namespace MessageBus

open Json

/-! ## The body of a message -/

namespace Connection

/-- The first body of a message. -/
def Dequeue.body (codec : Codec) (d : Dequeue) : String := ((d.bodies? codec).getD []).headD ""

/-- A message as others receive it. -/
def Dequeue.envelope (codec : Codec) (d : Dequeue) : Envelope :=
  let tagged := codec.tag d.occasion.sent d.message.contents
  .received tagged tagged.write

theorem sender_envelope (codec : Codec) (d : Dequeue) :
    (d.envelope codec).sender? = some codec.id := Codec.id_tag ..

/-- If every message has one body, a running connection has written the first of the bodies, and all
of them once no message is on its way. -/
theorem written_prefix {codec : Codec} {capacity delay now : Nat} {keys : KeySet} {trace : Trace}
    {c : Connection} (h : Runs (start codec capacity delay keys now) trace c)
    (hsingle : ∀ d ∈ dequeued trace, d.bodies? codec = some [d.body codec])
    (hrun : c.isStopped = false) :
    written trace <+: (dequeued trace).map (·.body codec) ∧
      (c.inFlight = none → written trace = (dequeued trace).map (·.body codec)) ∧
      queued trace = (dequeued trace).map (·.message) ++ c.outbound := by
  obtain ⟨flight, waiting, hlive, hledger⟩ := exists_ledger h
  obtain ⟨rfl, rfl⟩ := hlive hrun
  have haccepted : accepted codec trace = (dequeued trace).map fun d => [d.body codec] := by
    rw [accepted, List.filterMap_congr hsingle]
    exact congrFun List.filterMap_eq_map _
  have hbodies : (accepted codec trace).flatten = (dequeued trace).map (·.body codec) := by
    rw [haccepted, ← List.flatMap_def]
    exact List.flatMap_pure_eq_map ..
  rw [← hbodies, hledger.accepts, hledger.wire, List.flatten_append]
  refine ⟨?_, ?_, hledger.queue⟩
  · rw [List.prefix_append_right_inj]
    cases c.inFlight with
    | none => exact List.prefix_rfl
    | some f => simpa using List.take_prefix f.sent f.bodies
  · intro hnone
    simp [hnone]

/-- What a connection read from the only link that it had is in its inbound queue, or waits for room
there. -/
theorem parsed_of_isServing {codec : Codec} {capacity delay now : Nat} {keys : KeySet}
    {trace : Trace} {c : Connection} (h : Runs (start codec capacity delay keys now) trace c)
    (hserving : c.isServing = true) (hone : ∀ st ∈ trace, isReopening st = false) :
    parsed codec trace = delivered trace ++ c.waiting := by
  have hrun := isStopped_of_isServing hserving
  obtain ⟨since, handing, hphase⟩ := exists_phase_of_isServing hserving
  obtain ⟨earlier, current, hlinks, -, hat⟩ := streamed_of_running h hrun
  rw [links, List.splitOnP_eq_singleton hone] at hlinks
  have hsplit : [] ++ [trace] = earlier ++ [current] := hlinks
  obtain ⟨rfl, hcurrent⟩ := List.append_inj' hsplit rfl
  obtain rfl := List.singleton_inj.mp hcurrent
  obtain ⟨-, hsettled⟩ := hat.settled hrun
  have hlost : trace.flatMap lost = [] := by
    rw [hphase] at hat
    exact hat.1
  rw [hsettled, surfaced_of_nothing_lost hlost]
  rfl

end Connection

namespace Participants

variable {ι : Type} (ps : Participants ι)

/-- A message as it is taken from the queue of a participant. -/
structure Posts (d : Connection.Dequeue) : Prop where
  keys : d.keys = ps.keys
  fits : d.occasion.fits ps.keys = true
  exact : Exact (.obj d.message.contents)
  shallow : (Json.obj d.message.contents).depth ≤ Reader.maxDepth

variable {ps} {d : Connection.Dequeue}

theorem Posts.bodies_eq (h : ps.Posts d) (i : ι) :
    d.bodies? (ps.codec i) = some [d.body (ps.codec i)] ∧
      Codec.isLegible ps.keys ((ps.codec i).tag d.occasion.sent d.message.contents).write
        (d.body (ps.codec i)) = true := by
  obtain ⟨body, hprepare, hlegible⟩ :=
    Codec.prepare_single (ps.codec i) ps.single h.fits d.message.contents
  have hbodies : d.bodies? (ps.codec i) = some [body] := by
    rw [Connection.Dequeue.bodies?, h.keys, hprepare]
    rfl
  have hbody : d.body (ps.codec i) = body := by
    rw [Connection.Dequeue.body, hbodies]
    rfl
  rw [hbody]
  exact ⟨hbodies, hlegible⟩

/-- Everyone reads the message but its sender. -/
theorem Posts.parse_body [DecidableEq ι] (h : ps.Posts d) (i j : ι) :
    (ps.codec j).parse (utf8 (d.body (ps.codec i))) ps.keys
      = if i = j then none else some (d.envelope (ps.codec i)) := by
  rw [Codec.parse, Codec.decode_of_isLegible (h.bodies_eq i).2,
    Codec.decode_exact _ _ _ h.exact h.shallow]
  simp only [Codec.id_tag, Option.some.injEq]
  by_cases hij : i = j
  · subst hij
    simp
  · rw [if_neg hij, if_neg fun hid => hij (ps.distinct i j hid)]
    rfl

end Participants

namespace Gathering

variable {ι : Type} [DecidableEq ι] {ps : Participants ι} {s s' : Gathering ι} {trace : Trace ι}
  {name : String} {refusals : Nat}

/-! ## What a participant puts on the wire -/

/-- On a stable bus a connection keeps its keys and its link, and seals with fitting vectors. -/
theorem calm_of_mem_traceOf (h : Run ps.step (start name refusals) trace s)
    (hstable : s.bus.IsStable) {i : ι}
    {st : Stage Connection (Nat × Connection.Action) Connection.Event}
    (hst : st ∈ traceOf i trace) :
    st.before.keys = ps.keys ∧ Connection.isReopening st = false ∧
      ∀ occasion, st.move.2 = .prepare occasion → occasion.fits ps.keys = true := by
  obtain ⟨whole, hwhole, hstage⟩ := List.mem_filterMap.mp hst
  obtain ⟨⟨earlier, -, hrun⟩, s', hstep⟩ := h.stage_reached hwhole
  have hbefore := isStable_of_mem h hstable hwhole
  have horderly := orderly_of_run hrun hbefore
  obtain ⟨s₁, m, events⟩ := whole
  unfold stage? at hstage
  split at hstage
  · next hwho =>
    subst hwho
    obtain ⟨p, hp, hmap⟩ := Option.bind_eq_some_iff.mp hstage
    obtain ⟨⟨bus, link, a⟩, heffect, rfl⟩ := Option.map_eq_some_iff.mp hmap
    have hkeys := horderly.keys _ p hp
    cases step_cases hstep with
    | attached hnone | refused hnone =>
      rw [hnone] at hp
      cases hp
    | acted hp' heffect' hc =>
      obtain rfl := Option.some.inj (hp.symm.trans hp')
      cases heffect.symm.trans heffect'
      obtain ⟨-, hcalm⟩ := horderly.calm hbefore hp heffect hc
      generalize m.act = act at hcalm
      cases hcalm with
      | kept _ hlocal hfits =>
        refine ⟨hkeys, ?_, fun occasion ha => ?_⟩
        · cases a <;> first | rfl | cases hlocal
        · rw [← hkeys]
          exact hfits occasion ha
      | sent | received => exact ⟨hkeys, rfl, by simp⟩
  · cases hstage

/-- The messages of a participant, as they are taken from its queue. -/
theorem posts_of_mem_dequeued (h : Run ps.step (start name refusals) trace s)
    (hstable : s.bus.IsStable) {i : ι}
    (hexact : ∀ o ∈ Connection.queued (traceOf i trace),
      Exact (.obj o.contents) ∧ (Json.obj o.contents).depth ≤ Reader.maxDepth)
    {d : Connection.Dequeue} (hd : d ∈ Connection.dequeued (traceOf i trace)) : ps.Posts d := by
  have hqueued : d.message ∈ Connection.queued (traceOf i trace) := by
    obtain ⟨hnone, hsome⟩ := runs_traceOf h i
    cases hp : s.member? i with
    | none =>
      rw [hnone hp] at hd
      cases hd
    | some p =>
      obtain ⟨now, hruns⟩ := hsome p hp
      obtain ⟨flight, waiting, -, hledger⟩ := Connection.exists_ledger hruns
      rw [hledger.queue]
      exact List.mem_append_left _ (List.mem_map_of_mem hd)
  obtain ⟨st, hst, hdequeue⟩ := List.mem_filterMap.mp hd
  obtain ⟨hkeys, -, hfits⟩ := calm_of_mem_traceOf h hstable hst
  unfold Connection.dequeue? at hdequeue
  split at hdequeue
  · next occasion o rest hact hout =>
    cases hdequeue
    exact ⟨hkeys, hfits occasion hact, (hexact _ hqueued).1, (hexact _ hqueued).2⟩
  · cases hdequeue

/-- Among the bodies that were written since `j` attached, those of `i` are all that `i` wrote, if
`j` was there before. -/
theorem written_traceOf (h : Run ps.step (start name refusals) trace s) {i j : ι}
    (hearly : ∀ st ∈ trace, st.move.who = i → st.move.act = .write →
      (st.before.member? j).isSome = true) :
    ((carriedTo j trace).filter (·.1 = i)).map (·.2) = Connection.written (traceOf i trace) := by
  induction h with
  | start => rfl
  | @move trace s s' m events hrun hstep ih =>
    have ih := ih fun st hst => hearly st (List.mem_append_left _ hst)
    rw [carriedTo_snoc, List.filter_append, List.map_append, ih]
    cases step_cases hstep with
    | attached hnone | refused hnone =>
      rw [traceOf_snoc_of_none trace m [] hnone, carried_of_unwritten rfl]
      simp
    | @acted p bus link a c events hp heffect hc =>
      by_cases hi : i = m.who
      · subst hi
        rw [traceOf_snoc trace m events hp heffect, Connection.written_snoc]
        congr 1
        by_cases ha : a = .write true
        · subst ha
          have hact : m.act = .write := by
            generalize m.act = act at heffect
            cases effect_cases heffect with
            | kept _ hlocal => cases hlocal
            | sent => rfl
          have hsome := hearly ⟨s, m, events⟩ (by simp) rfl hact
          simp [carried, hsome, List.filter_map, Function.comp_def]
        · have hwritten := Connection.written_of_ne_write (Connection.moves_of_step hc) ha
          rw [carried_of_unwritten hwritten, hwritten]
          rfl
      · rw [traceOf_snoc_of_ne trace m events hi]
        have hnone : (carried j ⟨s, m, events⟩).filter (·.1 = i) = [] := by
          rw [List.filter_eq_nil_iff]
          intro x hx
          unfold carried at hx
          split at hx
          · obtain ⟨body, -, rfl⟩ := List.mem_map.mp hx
            simp [Ne.symm hi]
          · cases hx
        simp [hnone]

/-- What was carried was written by the one who is told to have written it. -/
theorem mem_written_of_mem_carriedTo (h : Run ps.step (start name refusals) trace s) {j : ι}
    {x : ι × String} (hx : x ∈ carriedTo j trace) :
    x.2 ∈ Connection.written (traceOf x.1 trace) := by
  obtain ⟨⟨s₁, m, events⟩, hst, hcarried⟩ := List.mem_flatMap.mp hx
  obtain ⟨-, s', hstep⟩ := h.stage_reached hst
  unfold carried at hcarried
  split at hcarried
  · obtain ⟨body, hbody, rfl⟩ := List.mem_map.mp hcarried
    cases step_cases hstep with
    | attached | refused => cases hbody
    | @acted p bus link a c events hp heffect =>
      have hstage := stage_of_member m events hp heffect
      obtain ⟨event, hevent, hwrote⟩ := List.mem_filterMap.mp hbody
      exact List.mem_filterMap.mpr ⟨event,
        List.mem_flatMap.mpr ⟨_, List.mem_filterMap.mpr ⟨_, hst, hstage⟩, hevent⟩, hwrote⟩
  · cases hcarried

/-- A participant writes the bodies of its messages, one for each, in the order of its queue. -/
theorem wire (h : Run ps.step (start name refusals) trace s) (hstable : s.bus.IsStable) {i : ι}
    (hposts : ∀ d ∈ Connection.dequeued (traceOf i trace), ps.Posts d) :
    Connection.written (traceOf i trace)
        <+: (Connection.dequeued (traceOf i trace)).map (·.body (ps.codec i)) ∧
      (Connection.dequeued (traceOf i trace)).map (·.message)
        <+: Connection.queued (traceOf i trace) ∧
      ((∀ p, s.member? i = some p → p.connection.inFlight = none ∧ p.connection.outbound = []) →
        Connection.written (traceOf i trace)
            = (Connection.dequeued (traceOf i trace)).map (·.body (ps.codec i)) ∧
          (Connection.dequeued (traceOf i trace)).map (·.message)
            = Connection.queued (traceOf i trace)) := by
  obtain ⟨hnone, hsome⟩ := runs_traceOf h i
  cases hp : s.member? i with
  | none =>
    rw [hnone hp]
    exact ⟨List.prefix_rfl, List.prefix_rfl, fun _ => ⟨rfl, rfl⟩⟩
  | some p =>
    obtain ⟨now, hruns⟩ := hsome p hp
    have hrun := Connection.isStopped_of_isServing ((orderly_of_run h hstable).serving i p hp)
    obtain ⟨hwritten, hall, hqueued⟩ := Connection.written_prefix hruns
      (fun d hd => ((hposts d hd).bodies_eq i).1) hrun
    rw [hqueued]
    refine ⟨hwritten, List.prefix_append .., fun hidle => ?_⟩
    obtain ⟨hflight, hout⟩ := hidle p rfl
    exact ⟨hall hflight, by rw [hout, List.append_nil]⟩

/-! ## What a participant gets to see -/

/-- The envelope that waits for room in the inbound queue of a participant. -/
def waiting (s : Gathering ι) (i : ι) : List Envelope :=
  (s.member? i).elim [] (·.connection.waiting)

/-- What is in the inbound queue, waits for room, or is in the buffer of the link is what was
written since the participant attached, as the participant reads it. -/
theorem stream_eq (h : Run ps.step (start name refusals) trace s) (hstable : s.bus.IsStable)
    (j : ι) :
    (carriedTo j trace).filterMap (fun x => (ps.codec j).parse (utf8 x.2) ps.keys)
      = Connection.delivered (traceOf j trace) ++ waiting s j
        ++ (buffered s j).filterMap fun body => (ps.codec j).parse (utf8 body) ps.keys := by
  have hparsed : Connection.parsed (ps.codec j) (traceOf j trace)
      = Connection.delivered (traceOf j trace) ++ waiting s j := by
    obtain ⟨hnone, hsome⟩ := runs_traceOf h j
    cases hp : s.member? j with
    | none =>
      rw [hnone hp, waiting, hp]
      rfl
    | some p =>
      obtain ⟨now, hruns⟩ := hsome p hp
      have hparsed := Connection.parsed_of_isServing hruns
        ((orderly_of_run h hstable).serving j p hp)
        fun st hst => (calm_of_mem_traceOf h hstable hst).2.1
      rw [hparsed, waiting, hp]
      rfl
  have hflow := congrArg (List.filterMap (Connection.Reading.envelope? (ps.codec j)))
    (flows_of_run h hstable j)
  rw [List.filterMap_append, List.filterMap_map, List.filterMap_map] at hflow
  rw [← hparsed]
  exact hflow.symm

/-- What `j` reads comes from whoever wrote it. -/
theorem sender_of_mem_carriedTo (h : Run ps.step (start name refusals) trace s)
    (hstable : s.bus.IsStable)
    (hposts : ∀ i, ∀ d ∈ Connection.dequeued (traceOf i trace), ps.Posts d) {j : ι}
    {x : ι × String} (hx : x ∈ carriedTo j trace) {e : Envelope}
    (he : (ps.codec j).parse (utf8 x.2) ps.keys = some e) :
    e.sender? = some (ps.codec x.1).id := by
  have hwritten := (wire h hstable (hposts x.1)).1.subset (mem_written_of_mem_carriedTo h hx)
  obtain ⟨d, hd, hbody⟩ := List.mem_map.mp hwritten
  rw [← hbody, (hposts x.1 d hd).parse_body] at he
  split at he
  · cases he
  · obtain rfl := Option.some.inj he
    exact Connection.sender_envelope _ d

/-! ## When nothing is left to do -/

/-- Whether an act is made by the bus and the connections themselves, or by a caller that takes what
is there for it. -/
def Act.isDue : Act → Bool
  | .attach | .queue _ => false
  | _ => true

/-- Nothing is left to do but to attach and to queue. -/
def Quiet (ps : Participants ι) (s : Gathering ι) : Prop :=
  ∀ m : Move ι, m.act.isDue = true → ps.step s m = none

/-- Nothing that is due is possible for a connection. -/
theorem Quiet.step_eq_none (h : Quiet ps s) {i : ι} {p : Member} (hp : s.member? i = some p)
    (act : Act) (hact : act.isDue = true) {bus : MemoryBus} {link : Nat} {a : Connection.Action}
    (heffect : effect? s.bus p act = some (bus, link, a)) : p.connection.step 0 a = none := by
  cases hc : p.connection.step 0 a with
  | none => rfl
  | some next =>
    have hstep := h ⟨0, i, act⟩ hact
    rw [step_of_member hp heffect hc] at hstep
    cases hstep

/-- In a quiet gathering a participant has nothing left to write. -/
theorem Quiet.outgoing (h : Quiet ps s) (horderly : Orderly ps s) (hstable : s.bus.IsStable)
    {i : ι} {p : Member} (hp : s.member? i = some p) :
    p.connection.inFlight = none ∧ p.connection.outbound = [] := by
  obtain ⟨l, hl⟩ := horderly.linked i p hp
  have hattached : s.bus.isAttached p.link = true :=
    MemoryBus.isAttached_of_find hl (hstable l (MemoryBus.mem_of_find hl).1)
  obtain ⟨since, handing, hphase⟩ :=
    Connection.exists_phase_of_isServing (horderly.serving i p hp)
  have hflight : p.connection.inFlight = none := by
    cases hflight : p.connection.inFlight with
    | none => rfl
    | some f =>
      cases hbody : f.bodies[f.sent]? with
      | none =>
        have hstep := h.step_eq_none hp .finish rfl rfl
        simp [Connection.step, Connection.finishMessage, hphase, hflight,
          List.getElem?_eq_none_iff.mp hbody] at hstep
      | some body =>
        have hnext : p.connection.nextBody? = some body := by
          rw [Connection.nextBody?, hflight, Option.bind_some, hbody]
        have heffect : effect? s.bus p .write = some
            ({ s.bus with links := s.bus.links.map (MemoryBus.offer body) }, p.link,
              .write true) := by
          simp [effect?, hnext, MemoryBus.send, hattached]
        have hstep := h.step_eq_none hp _ rfl heffect
        simp [Connection.step, Connection.writeNext, hphase, hflight, hbody] at hstep
  have hout : p.connection.outbound = [] := by
    cases hout : p.connection.outbound with
    | nil => rfl
    | cons o rest =>
      obtain ⟨occasion, hfits⟩ := Occasion.exists_fits p.connection.keys
      have heffect : effect? s.bus p (.prepare occasion)
          = some (s.bus, p.link, .prepare occasion) := by
        simp [effect?, hfits]
      have hstep := h.step_eq_none hp _ rfl heffect
      simp only [Connection.step, Connection.prepareNext, hphase, hflight, hout] at hstep
      split at hstep <;> cases hstep
  exact ⟨hflight, hout⟩

/-- In a quiet gathering a participant has nothing left to read or to take. -/
theorem Quiet.incoming (h : Quiet ps s) (horderly : Orderly ps s) {i : ι} {p : Member}
    (hp : s.member? i = some p) (hroom : 0 < p.connection.capacity) :
    waiting s i = [] ∧ buffered s i = [] := by
  obtain ⟨l, hl⟩ := horderly.linked i p hp
  obtain ⟨since, handing, hphase⟩ :=
    Connection.exists_phase_of_isServing (horderly.serving i p hp)
  have hin : p.connection.inbound = [] := by
    cases hin : p.connection.inbound with
    | nil => rfl
    | cons e rest =>
      have hstep := h.step_eq_none hp .take rfl rfl
      simp [Connection.step, hin] at hstep
  -- the inbound queue is empty, so an envelope that waits for room would find it
  have hhanding : handing = none := by
    cases handing with
    | none => rfl
    | some e =>
      have hstep := h.step_eq_none hp .deliver rfl rfl
      simp [Connection.step, Connection.deliverEnvelope, hphase, Connection.hasInboundRoom, hin,
        hroom] at hstep
  subst hhanding
  have hbuffer : l.buffer = [] := by
    cases hbuffer : l.buffer with
    | nil => rfl
    | cons body rest =>
      have heffect : effect? s.bus p .arrive = some
          (s.bus.modify p.link fun l => { l with buffer := rest }, p.link,
            .arrive (utf8 body)) := by
        simp [effect?, MemoryBus.receive, hl, hbuffer]
      have hstep := h.step_eq_none hp _ rfl heffect
      simp [Connection.step, Connection.receiveBody, hphase] at hstep
  refine ⟨?_, ?_⟩
  · simp [waiting, hp, Connection.waiting, hphase]
  · rw [buffered_of_find hp hl, hbuffer]

/-- In a quiet gathering a participant has written all that was queued, and has received all that
was carried to it. -/
theorem Quiet.drained (h : Quiet ps s) (hrun : Run ps.step (start name refusals) trace s)
    (hstable : s.bus.IsStable) (i : ι) :
    (∀ p, s.member? i = some p →
        p.connection.inFlight = none ∧ p.connection.outbound = []) ∧
      waiting s i = [] ∧ buffered s i = [] := by
  have horderly := orderly_of_run hrun hstable
  cases hp : s.member? i with
  | none => exact ⟨fun p hp => (nomatch hp), by simp [waiting, hp], buffered_of_none hp⟩
  | some p =>
    obtain ⟨now, hruns⟩ := (runs_traceOf hrun i).2 p hp
    have hcapacity : p.connection.capacity = ps.capacity i := Connection.capacity_eq hruns
    refine ⟨fun q hq => ?_, h.incoming horderly hp (hcapacity ▸ ps.room i)⟩
    obtain rfl := Option.some.inj hq
    exact h.outgoing horderly hstable hp

/-! ## Main theorem -/

/-- Reading some of the entries, or picking what was read from them. -/
theorem filter_filterMap_of_mem {α β : Type} {f : α → Option β} {p : β → Bool} {q : α → Bool}
    {xs : List α} (h : ∀ x ∈ xs, ∀ y, f x = some y → p y = q x) :
    (xs.filterMap f).filter p = (xs.filter q).filterMap f := by
  rw [List.filter_filterMap, List.filterMap_filter]
  refine List.filterMap_congr fun x hx => ?_
  cases hf : f x with
  | none => simp
  | some y => cases hq : q x <;> simp [h x hx y hf, hq]

/-- What comes from `i` in what `j` reads is what `j` reads of what `i` wrote. -/
theorem filter_stream_eq (h : Run ps.step (start name refusals) trace s)
    (hstable : s.bus.IsStable)
    (hposts : ∀ i, ∀ d ∈ Connection.dequeued (traceOf i trace), ps.Posts d) {i j : ι}
    (hearly : ∀ st ∈ trace, st.move.who = i → st.move.act = .write →
      (st.before.member? j).isSome = true) :
    (Connection.delivered (traceOf j trace) ++ waiting s j
          ++ (buffered s j).filterMap fun body => (ps.codec j).parse (utf8 body) ps.keys).filter
        (·.sender? = some (ps.codec i).id)
      = (Connection.written (traceOf i trace)).filterMap
          fun body => (ps.codec j).parse (utf8 body) ps.keys := by
  have hsender : ∀ x ∈ carriedTo j trace, ∀ e,
      (ps.codec j).parse (utf8 x.2) ps.keys = some e →
      decide (e.sender? = some (ps.codec i).id) = decide (x.1 = i) := by
    intro x hx e he
    rw [sender_of_mem_carriedTo h hstable hposts hx he, decide_eq_decide, Option.some.injEq]
    exact ⟨ps.distinct _ _, fun heq => by rw [heq]⟩
  rw [← stream_eq h hstable j, filter_filterMap_of_mem hsender, ← written_traceOf h hearly,
    List.filterMap_map]
  rfl

/-- On a bus whose links last, and with one key or none, the envelopes from `i` in the inbound queue
of `j` are the first messages of the outbound queue of `i`, in its order, once each, with the marks
of `i`, if `j` was attached before `i` wrote anything.  They are all of them when nothing is left to
do. -/
theorem received_in_order (h : Run ps.step (start name refusals) trace s)
    (hstable : s.bus.IsStable)
    (hexact : ∀ i, ∀ o ∈ Connection.queued (traceOf i trace),
      Exact (.obj o.contents) ∧ (Json.obj o.contents).depth ≤ 127)
    {i j : ι} (hij : i ≠ j)
    (hearly : ∀ st ∈ trace, st.move.who = i → st.move.act = .write →
      (st.before.member? j).isSome = true) :
    ∃ sent : List Connection.Dequeue,
      (Connection.delivered (traceOf j trace)).filter (·.sender? = some (ps.codec i).id)
          = sent.map (·.envelope (ps.codec i)) ∧
        sent.map (·.message) <+: Connection.queued (traceOf i trace) ∧
        (Quiet ps s → sent.map (·.message) = Connection.queued (traceOf i trace)) := by
  have hposts : ∀ i, ∀ d ∈ Connection.dequeued (traceOf i trace), ps.Posts d :=
    fun i d hd => posts_of_mem_dequeued h hstable (hexact i) hd
  obtain ⟨hwritten, hqueued, hall⟩ := wire h hstable (hposts i)
  have hstream := filter_stream_eq h hstable hposts hearly
  have hread : ((Connection.dequeued (traceOf i trace)).map (·.body (ps.codec i))).filterMap
        (fun body => (ps.codec j).parse (utf8 body) ps.keys)
      = (Connection.dequeued (traceOf i trace)).map (·.envelope (ps.codec i)) := by
    rw [List.filterMap_map, ← List.filterMap_eq_map]
    refine List.filterMap_congr fun d hd => ?_
    simp only [Function.comp_apply, (hposts i d hd).parse_body, if_neg hij]
  -- what is not yet in the queue comes after what is
  have hreceived : (Connection.delivered (traceOf j trace)).filter
        (·.sender? = some (ps.codec i).id)
      <+: (Connection.dequeued (traceOf i trace)).map (·.envelope (ps.codec i)) := by
    rw [← hread]
    refine List.IsPrefix.trans ?_ (hwritten.filterMap _)
    rw [← hstream, List.append_assoc, List.filter_append]
    exact List.prefix_append ..
  obtain ⟨sent, hsent, heq⟩ := List.prefix_map_iff.mp hreceived
  refine ⟨sent, heq, (hsent.map _).trans hqueued, fun hquiet => ?_⟩
  obtain ⟨hidle, -, -⟩ := hquiet.drained h hstable i
  obtain ⟨-, hwaiting, hbuffered⟩ := hquiet.drained h hstable j
  obtain ⟨hwritten, hqueued⟩ := hall hidle
  rw [hwaiting, hbuffered, List.filterMap_nil, List.append_nil, List.append_nil, hwritten, hread,
    heq] at hstream
  have hlength := congrArg List.length hstream
  rw [← hqueued, hsent.eq_of_length (by simpa using hlength)]

/-- Two participants without keys, with room for one message in either queue. -/
def pair : Participants Bool where
  codec i := ⟨if i then "a" else "b", ⟨none, none⟩⟩
  capacity _ := 1
  delay _ := 0
  keys := .empty
  distinct := by decide
  single := .inl rfl
  room _ := Nat.one_pos

/-- A message with a text, as it is taken from the queue. -/
def greeting (text : String) : Connection.Dequeue :=
  ⟨⟨[("data", .str text)], none⟩, .empty, ⟨default, []⟩⟩

theorem posts_greeting (text : String) : pair.Posts (greeting text) where
  keys := rfl
  fits := rfl
  exact := by simp [greeting, Exact, ExactMembers, Table.Sorted]
  shallow := by simp [greeting, Json.depth, Json.membersDepth, Reader.maxDepth]

/-- The second participant reads what the first one wrote, and the first one does not. -/
theorem step_arrive_greeting (text : String) (i : Bool) (c : Connection)
    (hcodec : c.codec = pair.codec i) (hkeys : c.keys = pair.keys)
    (hphase : c.phase = .serving 0 none) :
    c.step 0 (.arrive (utf8 ((greeting text).body (pair.codec true)))) = some ({ c with
      phase := .serving 0
        (if true = i then none else some ((greeting text).envelope (pair.codec true))) }, []) := by
  simp only [Connection.step, Connection.receiveBody, hphase, hcodec, hkeys,
    (posts_greeting text).parse_body]

/-- Whether the second participant has its link when something is written. -/
def heard (st : Stage (Gathering Bool) (Move Bool) Connection.Event) : Bool :=
  match st.move.act with
  | .write => (st.before.member? false).isSome
  | _ => true

/-- Both messages of the first participant are written before the second one reads any. -/
theorem runs_greeting :
    ∃ (trace : Trace Bool) (s : Gathering Bool),
      trace.map (fun st => (st.move.who, st.move.act)) =
        [(true, .attach), (false, .attach),
          (true, .queue (greeting "hello").message), (true, .prepare ⟨default, []⟩),
          (true, .write), (true, .finish),
          (true, .queue (greeting "again").message), (true, .prepare ⟨default, []⟩),
          (true, .write), (true, .finish),
          (false, .arrive), (false, .deliver), (false, .take),
          (false, .arrive), (false, .deliver), (false, .take), (true, .arrive), (true, .arrive)] ∧
      Run pair.step (start "m" 0) trace s ∧ s.bus.IsStable ∧ Quiet pair s ∧
      (∀ i, Connection.queued (traceOf i trace) =
        if i then [(greeting "hello").message, (greeting "again").message] else []) ∧
      (∀ st ∈ trace, st.move.who = true → st.move.act = .write →
        (st.before.member? false).isSome = true) ∧
      Connection.delivered (traceOf false trace) =
        [(greeting "hello").envelope (pair.codec true),
          (greeting "again").envelope (pair.codec true)] := by
  have hstart : Run pair.step (start "m" 0) [] _ := .start
  have hattached := (hstart.move (m := ⟨0, true, .attach⟩) rfl).move
    (m := ⟨0, false, .attach⟩) rfl
  -- the outbound queue holds one message, so the second one is queued after the first is taken
  have hfirst := (((hattached.move (m := ⟨0, true, .queue (greeting "hello").message⟩) rfl).move
    (m := ⟨0, true, .prepare ⟨default, []⟩⟩) rfl).move (m := ⟨0, true, .write⟩) rfl).move
    (m := ⟨0, true, .finish⟩) rfl
  have hsecond := (((hfirst.move (m := ⟨0, true, .queue (greeting "again").message⟩) rfl).move
    (m := ⟨0, true, .prepare ⟨default, []⟩⟩) rfl).move (m := ⟨0, true, .write⟩) rfl).move
    (m := ⟨0, true, .finish⟩) rfl
  have htaken := ((hsecond.move (m := ⟨0, false, .arrive⟩)
    (step_of_member rfl rfl (step_arrive_greeting "hello" false _ rfl rfl rfl))).move
    (m := ⟨0, false, .deliver⟩) rfl).move (m := ⟨0, false, .take⟩) rfl
  have hall := ((htaken.move (m := ⟨0, false, .arrive⟩)
    (step_of_member rfl rfl (step_arrive_greeting "again" false _ rfl rfl rfl))).move
    (m := ⟨0, false, .deliver⟩) rfl).move (m := ⟨0, false, .take⟩) rfl
  -- the first participant ignores its own messages
  have hquiet := (hall.move (m := ⟨0, true, .arrive⟩)
    (step_of_member rfl rfl (step_arrive_greeting "hello" true _ rfl rfl rfl))).move
    (m := ⟨0, true, .arrive⟩)
    (step_of_member rfl rfl (step_arrive_greeting "again" true _ rfl rfl rfl))
  refine ⟨_, _, rfl, hquiet, ?_, ?_, ?_, ?_, rfl⟩
  · show ∀ l ∈ ([⟨0, true, true, []⟩, ⟨1, true, true, []⟩] : List MemoryLink), l.attached = true
    decide
  · rintro ⟨now, who, act⟩ hact
    cases who <;> cases act with
    | attach | queue => cases hact
    | prepare occasion =>
      show Option.bind (if occasion.fits .empty then some _ else none) _ = none
      split <;> rfl
    | _ => rfl
  · intro i
    cases i <;> rfl
  · intro st hst _ hact
    have hthere := List.all_eq_true.mp (show List.all _ heard = true from rfl) st hst
    rwa [heard, hact] at hthere

/-- Both messages of the first participant are received by the second one, in order, and nothing is
left to do. -/
theorem received_in_order_greeting :
    ∃ (trace : Trace Bool) (s : Gathering Bool),
      Run pair.step (start "m" 0) trace s ∧ s.bus.IsStable ∧ Quiet pair s ∧
      Connection.delivered (traceOf false trace) =
        [(greeting "hello").envelope (pair.codec true),
          (greeting "again").envelope (pair.codec true)] ∧
      ∃ sent : List Connection.Dequeue,
        (Connection.delivered (traceOf false trace)).filter
            (·.sender? = some (pair.codec true).id) = sent.map (·.envelope (pair.codec true)) ∧
          sent.map (·.message) = [(greeting "hello").message, (greeting "again").message] := by
  obtain ⟨trace, s, -, hrun, hstable, hquiet, hqueued, hearly, hdelivered⟩ := runs_greeting
  have hexact : ∀ i, ∀ o ∈ Connection.queued (traceOf i trace),
      Exact (.obj o.contents) ∧ (Json.obj o.contents).depth ≤ 127 := by
    intro i o ho
    rw [hqueued] at ho
    cases i with
    | false => cases ho
    | true =>
      rcases List.mem_pair.mp ho with rfl | rfl <;>
        exact ⟨(posts_greeting _).exact, (posts_greeting _).shallow⟩
  obtain ⟨sent, hsent, -, hall⟩ :=
    received_in_order hrun hstable hexact (by decide : true ≠ false) hearly
  exact ⟨trace, s, hrun, hstable, hquiet, hdelivered, sent, hsent,
    (hall hquiet).trans (hqueued true)⟩

end Gathering

end MessageBus
