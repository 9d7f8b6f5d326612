import MessageBus.Proofs.Codec.ClearText
import MessageBus.Proofs.Connection.Progress

/-! # What a caller gets to see

    The bodies that come over a link are read under the keys of the moment, and
    what says something waits until the inbound queue has room.  The link may
    fail in the meantime, and then the envelope that waits is lost.  When a link
    was opened again, a signal goes into the queue before anything that comes
    over it.

    A trace is cut into links where one is opened again.  So the whole inbound
    stream can be read off the trace: the envelopes of each link in order, and
    one signal between two links.

    * `streamed_moves`: every move of a running connection keeps the law.
    * `delivered_eq_links_joined`: the law along every run. -/

namespace MessageBus

/-! ## What an envelope says of its origin -/

/-- The signal of a new link comes from nobody. -/
theorem Envelope.sender_reconnected : Envelope.reconnected.sender? = none := by decide +kernel

namespace Connection

/-! ## Links along a trace -/

/-- A body that was read, with the keys of that moment. -/
structure Reading where
  body : Bytes
  keys : KeySet

/-- What a body says, if anything. -/
def Reading.envelope? (codec : Codec) (r : Reading) : Option Envelope := codec.parse r.body r.keys

/-- The body that a move reads. -/
def reading? (st : Stage Connection (Nat × Action) Event) : Option Reading :=
  match st.move.2 with
  | .arrive body => some ⟨body, st.before.keys⟩
  | _ => none

/-- Whether a move opens the link again. -/
def isReopening (st : Stage Connection (Nat × Action) Event) : Bool :=
  match st.move.2 with
  | .opened ok => ok
  | _ => false

/-- The envelope that waits for room in the inbound queue. -/
def waiting (c : Connection) : List Envelope :=
  match c.phase with
  | .serving _ handing => handing.toList
  | .announcing => [.reconnected]
  | _ => []

/-- The envelope that is lost because the link does not take a body. -/
def lost (st : Stage Connection (Nat × Action) Event) : List Envelope :=
  match st.move.2 with
  | .write false => st.before.waiting
  | _ => []

/-- The part of a trace for each link, the first one first. -/
def links (trace : Trace) : List Trace := trace.splitOnP isReopening

/-- What the bodies said that were read from a link, in order. -/
def parsed (codec : Codec) (link : Trace) : List Envelope :=
  (link.filterMap reading?).filterMap (·.envelope? codec)

/-- The envelopes of a link that are not lost with it. -/
def surfaced (codec : Codec) (link : Trace) : List Envelope :=
  if link.flatMap lost = [] then parsed codec link else (parsed codec link).dropLast

/-- The envelopes of some links, with a signal after each link. -/
def signalled (codec : Codec) (links : List Trace) : List Envelope :=
  links.flatMap fun link => surfaced codec link ++ [.reconnected]

theorem splitOnP_snoc {α : Type} {p : α → Bool} {x : α} (hx : p x = false) {last : List α}
    {xs : List α} {front : List (List α)} (h : xs.splitOnP p = front ++ [last]) :
    (xs ++ [x]).splitOnP p = front ++ [last ++ [x]] := by
  induction xs generalizing front last with
  | nil =>
    have hnil : ([] : List (List α)) ++ [[]] = front ++ [last] := h
    obtain ⟨rfl, hlast⟩ := List.append_inj' hnil rfl
    obtain rfl := List.singleton_inj.mp hlast
    simp [List.splitOnP_cons_eq_if_modifyHead, hx]
  | cons y ys ih =>
    rw [List.cons_append, List.splitOnP_cons_eq_if_modifyHead]
    rw [List.splitOnP_cons_eq_if_modifyHead] at h
    by_cases hy : p y = true
    · rw [if_pos hy] at h ⊢
      cases front with
      | nil => exact absurd (List.cons.inj h).2 (List.splitOnP_ne_nil p ys)
      | cons first front =>
        obtain ⟨rfl, hrest⟩ := List.cons.inj h
        rw [ih hrest]
        rfl
    · rw [if_neg hy] at h ⊢
      obtain ⟨first, rest, hys⟩ := List.exists_cons_of_ne_nil (List.splitOnP_ne_nil p ys)
      rw [hys, List.modifyHead_cons] at h
      cases front with
      | nil =>
        obtain ⟨rfl, rfl⟩ := List.cons.inj h
        rw [@ih _ [] hys]
        rfl
      | cons head front =>
        obtain ⟨rfl, rfl⟩ := List.cons.inj h
        rw [@ih _ (first :: front) hys]
        rfl

theorem intercalate_snoc {α : Type} (separator : List α) (front : List (List α)) (last : List α) :
    separator.intercalate (front ++ [last]) = front.flatMap (· ++ separator) ++ last := by
  induction front with
  | nil => simp
  | cons first front ih =>
    rw [List.cons_append, List.intercalate_cons_of_ne_nil (by simp), ih]
    simp

section snoc
variable (codec : Codec) (link : Trace) (st : Stage Connection (Nat × Action) Event)

@[simp] theorem parsed_snoc :
    parsed codec (link ++ [st]) =
      parsed codec link ++ ((reading? st).bind (·.envelope? codec)).toList := by
  unfold parsed
  cases h : reading? st with
  | none => simp [h]
  | some r => cases he : r.envelope? codec <;> simp [h, he]

@[simp] theorem signalled_snoc (links : List Trace) :
    signalled codec (links ++ [link]) =
      signalled codec links ++ surfaced codec link ++ [.reconnected] := by
  simp [signalled]

end snoc

/-- Between two links stands a signal. -/
theorem intercalate_surfaced (codec : Codec) (earlier : List Trace) (current : Trace) :
    [Envelope.reconnected].intercalate ((earlier ++ [current]).map (surfaced codec)) =
      signalled codec earlier ++ surfaced codec current := by
  rw [List.map_append, List.map_singleton, intercalate_snoc, List.flatMap_map]
  rfl

/-! ## The invariant -/

/-- Nothing that was read from a link is missing but what is lost with it, and
    that is one envelope at most. -/
def Accounted (codec : Codec) (link : Trace) : Prop :=
  parsed codec link = surfaced codec link ++ link.flatMap lost ∧ (link.flatMap lost).length ≤ 1

/-- What the phase of a connection says of the link at hand: `front` is what
    belongs in the queue before it, and `out` is what was put there. -/
def AtLink (codec : Codec) (front out : List Envelope) (link : Trace) : Phase → Prop
  | .serving _ handing =>
    link.flatMap lost = [] ∧ ∃ es, parsed codec link = es ++ handing.toList ∧ out = front ++ es
  | .announcing =>
    link.flatMap lost = [] ∧ parsed codec link = [] ∧ out ++ [.reconnected] = front
  | _ => Accounted codec link ∧ out = front ++ surfaced codec link

/-- The law for a connection that is not shut down. -/
def Streamed (codec : Codec) (trace : Trace) (c : Connection) : Prop :=
  ∃ earlier current, links trace = earlier ++ [current] ∧
    (∀ link ∈ earlier, Accounted codec link) ∧
    AtLink codec (signalled codec earlier) (delivered trace) current c.phase

variable {codec : Codec} {trace link : Trace} {c c' : Connection} {front out : List Envelope}
  {now since : Nat}

theorem surfaced_of_nothing_lost (h : link.flatMap lost = []) :
    surfaced codec link = parsed codec link := if_pos h

theorem accounted_of_nothing_lost (h : link.flatMap lost = []) : Accounted codec link := by
  refine ⟨?_, ?_⟩
  · rw [surfaced_of_nothing_lost h, h, List.append_nil]
  · rw [h]
    exact Nat.zero_le _

/-- The envelope that waits is the last one of its link. -/
theorem accounted_of_lost {es : List Envelope} {e : Envelope} (hlost : link.flatMap lost = [e])
    (hparsed : parsed codec link = es ++ [e]) :
    Accounted codec link ∧ surfaced codec link = es := by
  have hsurfaced : surfaced codec link = es := by
    rw [surfaced, if_neg (by simp [hlost]), hparsed, List.dropLast_concat]
  refine ⟨⟨?_, ?_⟩, hsurfaced⟩
  · rw [hsurfaced, hlost, hparsed]
  · rw [hlost]
    exact Nat.le_refl 1

/-- After a failure the link at hand is settled. -/
theorem atLink_afterFailure :
    AtLink codec front out link (c.afterFailure now since) ↔
      Accounted codec link ∧ out = front ++ surfaced codec link := by
  unfold afterFailure
  split <;> rfl

/-- What is in the queue and what waits for room are the envelopes of the links. -/
theorem AtLink.settled (h : AtLink codec front out link c.phase) (hrun : c.isStopped = false) :
    Accounted codec link ∧ out ++ c.waiting = front ++ surfaced codec link := by
  unfold waiting
  cases hphase : c.phase with
  | serving since handing =>
    rw [hphase] at h
    obtain ⟨hlost, es, hparsed, rfl⟩ := h
    refine ⟨accounted_of_nothing_lost hlost, ?_⟩
    rw [surfaced_of_nothing_lost hlost, hparsed, List.append_assoc]
  | announcing =>
    rw [hphase] at h
    obtain ⟨hlost, hparsed, rfl⟩ := h
    refine ⟨accounted_of_nothing_lost hlost, ?_⟩
    rw [surfaced_of_nothing_lost hlost, hparsed, List.append_nil]
  | pausing due =>
    rw [hphase] at h
    exact ⟨h.1, by rw [h.2, List.append_nil]⟩
  | opening =>
    rw [hphase] at h
    exact ⟨h.1, by rw [h.2, List.append_nil]⟩
  | stopped => simp [isStopped, hphase] at hrun

/-! ## Moves -/

/-- A move that does not open a link belongs to the link at hand. -/
theorem links_snoc {st : Stage Connection (Nat × Action) Event} (hst : isReopening st = false)
    {earlier : List Trace} {current : Trace} (h : links trace = earlier ++ [current]) :
    links (trace ++ [st]) = earlier ++ [current ++ [st]] := splitOnP_snoc hst h

/-- A move that opens a link starts a new one. -/
theorem links_reopening {st : Stage Connection (Nat × Action) Event} (hst : isReopening st = true) :
    links (trace ++ [st]) = links trace ++ [[]] := by
  unfold links
  rw [List.splitOnP_append_cons _ _ hst, List.splitOnP_nil]

/-- A move that reads nothing and loses nothing leaves no mark on its link. -/
theorem link_idle (codec : Codec) {st : Stage Connection (Nat × Action) Event} (link : Trace)
    (hread : reading? st = none) (hlost : lost st = []) :
    (link ++ [st]).flatMap lost = link.flatMap lost ∧
      parsed codec (link ++ [st]) = parsed codec link ∧
      surfaced codec (link ++ [st]) = surfaced codec link := by
  have hlosts : (link ++ [st]).flatMap lost = link.flatMap lost := by simp [hlost]
  have hparsed : parsed codec (link ++ [st]) = parsed codec link := by simp [hread]
  exact ⟨hlosts, hparsed, by simp only [surfaced, hlosts, hparsed]⟩

/-- A move that reads nothing, loses nothing and delivers nothing, and that
    keeps the phase or goes on from one failure to the next attempt. -/
theorem Streamed.idle (h : Streamed codec trace c) {st : Stage Connection (Nat × Action) Event}
    (hopen : isReopening st = false) (hread : reading? st = none) (hlost : lost st = [])
    (hout : st.events.filterMap Event.delivered? = [])
    (hphase : ∀ front out link, AtLink codec front out link c.phase →
      AtLink codec front out link c'.phase) :
    Streamed codec (trace ++ [st]) c' := by
  obtain ⟨earlier, current, hlinks, hearlier, hat⟩ := h
  refine ⟨earlier, current ++ [st], links_snoc hopen hlinks, hearlier, ?_⟩
  obtain ⟨hlosts, hparsed, hsurfaced⟩ := link_idle codec current hread hlost
  have hsame : ∀ phase, AtLink codec (signalled codec earlier) (delivered trace) current phase →
      AtLink codec (signalled codec earlier) (delivered (trace ++ [st])) (current ++ [st])
        phase := by
    intro phase
    have hdelivered : delivered (trace ++ [st]) = delivered trace := by simp [hout]
    cases phase <;>
      simp only [AtLink, Accounted, hlosts, hparsed, hsurfaced, hdelivered] <;> exact fun h => h
  exact hsame _ (hphase _ _ _ hat)

/-- A move of a connection that is not shut down by it keeps the law. -/
theorem streamed_moves {a : Action} {events : List Event} (hc : c.codec = codec)
    (h : Streamed codec trace c) (hm : Moves now c a c' events) (ha : a ≠ .cancel) :
    Streamed codec (trace ++ [⟨c, (now, a), events⟩]) c' := by
  cases hm with
  | cancelled => exact absurd rfl ha
  | queued | rekeyed | took | prepared | rejected | wrote | finished =>
    exact h.idle rfl rfl rfl rfl fun _ _ _ hat => hat
  | resumed hphase | refused hphase =>
    refine h.idle rfl rfl rfl rfl fun _ _ _ hat => ?_
    rwa [hphase] at hat
  | @writeFailed since handing f body hphase =>
    obtain ⟨earlier, current, hlinks, hearlier, hat⟩ := h
    rw [hphase] at hat
    obtain ⟨hnone, es, hparsed, hout⟩ := hat
    refine ⟨earlier, _, links_snoc rfl hlinks, hearlier, atLink_afterFailure.mpr ?_⟩
    have hlost : (current ++ [(⟨c, (now, .write false), []⟩ :
        Stage Connection (Nat × Action) Event)]).flatMap lost = handing.toList := by
      simp [hnone, lost, waiting, hphase]
    have hparsed' : parsed codec (current ++ [(⟨c, (now, .write false), []⟩ :
        Stage Connection (Nat × Action) Event)]) = es ++ handing.toList := by
      simp [hparsed, reading?]
    have hdelivered : delivered (trace ++ [⟨c, (now, .write false), []⟩])
        = signalled codec earlier ++ es := by simp [hout]
    -- whether an envelope waited decides whether one is lost
    cases handing with
    | none =>
      refine ⟨accounted_of_nothing_lost hlost, ?_⟩
      rw [surfaced_of_nothing_lost hlost, hparsed', hdelivered]
      simp
    | some e =>
      obtain ⟨haccounted, hsurfaced⟩ := accounted_of_lost hlost hparsed'
      exact ⟨haccounted, by rw [hsurfaced, hdelivered]⟩
  | @arrived since body hphase =>
    obtain ⟨earlier, current, hlinks, hearlier, hat⟩ := h
    rw [hphase] at hat
    obtain ⟨hnone, es, hparsed, hout⟩ := hat
    refine ⟨earlier, _, links_snoc rfl hlinks, hearlier, ?_, es, ?_, ?_⟩
    · simp [hnone, lost]
    · simp [hparsed, reading?, Reading.envelope?, hc]
    · simp [hout]
  | @delivered since e hphase =>
    obtain ⟨earlier, current, hlinks, hearlier, hat⟩ := h
    rw [hphase] at hat
    obtain ⟨hnone, es, hparsed, hout⟩ := hat
    refine ⟨earlier, _, links_snoc rfl hlinks, hearlier, ?_, es ++ [e], ?_, ?_⟩
    · simp [hnone, lost]
    · simp [hparsed, reading?]
    · simp [hout, Event.delivered?]
  | lost hphase =>
    refine h.idle rfl rfl rfl rfl fun front out link hat => atLink_afterFailure.mpr ?_
    rw [hphase] at hat
    obtain ⟨hnone, es, hparsed, hout⟩ := hat
    refine ⟨accounted_of_nothing_lost hnone, ?_⟩
    rw [surfaced_of_nothing_lost hnone, hparsed, hout]
    simp
  | opened hphase =>
    obtain ⟨earlier, current, hlinks, hearlier, hat⟩ := h
    rw [hphase] at hat
    obtain ⟨haccounted, hout⟩ := hat
    refine ⟨earlier ++ [current], [], ?_, ?_, rfl, rfl, ?_⟩
    · rw [links_reopening rfl, hlinks]
    · intro link hlink
      rcases List.mem_append.mp hlink with hlink | hlink
      · exact hearlier link hlink
      · rw [List.mem_singleton.mp hlink]
        exact haccounted
    · simp [hout]
  | announced hphase =>
    obtain ⟨earlier, current, hlinks, hearlier, hat⟩ := h
    rw [hphase] at hat
    obtain ⟨hnone, hparsed, hout⟩ := hat
    refine ⟨earlier, _, links_snoc rfl hlinks, hearlier, ?_, [], ?_, ?_⟩
    · simp [hnone, lost]
    · simp [hparsed, reading?]
    · simp [hout, Event.delivered?]

/-- A connection that is not shut down keeps the law. -/
theorem streamed_of_running {capacity delay : Nat} {keys : KeySet}
    (h : Runs (start codec capacity delay keys now) trace c) (hrun : c.isStopped = false) :
    Streamed codec trace c := by
  induction h with
  | start =>
    refine ⟨[], [], rfl, ?_, rfl, [], rfl, rfl⟩
    intro link hlink
    cases hlink
  | @move trace c c' m events hruns hstep ih =>
    obtain ⟨at_, a⟩ := m
    have hm : Moves at_ c a c' events := moves_of_step hstep
    -- whoever is shut down stays so
    have hbefore : c.isStopped = false := by
      cases hs : c.isStopped with
      | false => rfl
      | true =>
        rw [(isStopped_moves hs hm).1] at hrun
        cases hrun
    have ha : a ≠ .cancel := by
      rintro rfl
      cases hm with
      | cancelled => simp [isStopped] at hrun
    exact streamed_moves (codec_eq hruns) (ih hbefore) hm ha

/-! ## Main theorem -/

/-- The law of a trace.  `left` is what belongs at the end of the stream and
    did not get into the queue. -/
structure StreamLaw (codec : Codec) (trace : Trace) (left : List Envelope) : Prop where
  /-- The envelopes of the links, with one signal between two links. -/
  stream : delivered trace ++ left =
    [Envelope.reconnected].intercalate ((links trace).map (surfaced codec))
  /-- Nothing that a link brought is missing, but for the envelope that waited
      when the link did not take a body. -/
  complete : ∀ link ∈ links trace,
    parsed codec link = surfaced codec link ++ link.flatMap lost ∧ (link.flatMap lost).length ≤ 1
  /-- What a link brought is never a signal, and a signal is one. -/
  genuine : (∀ link ∈ links trace, ∀ e ∈ surfaced codec link, e.isReconnected = false) ∧
    Envelope.reconnected.isReconnected = true
  /-- There are as many signals as the link was opened again. -/
  signals : (delivered trace ++ left).countP (·.isReconnected) = trace.countP isReopening
  /-- Nothing comes from the participant itself. -/
  others : ∀ e ∈ delivered trace, e.sender? ≠ some codec.id

theorem length_links (trace : Trace) : (links trace).length = trace.countP isReopening + 1 := by
  unfold links
  induction trace with
  | nil => rfl
  | cons st trace ih =>
    rw [List.splitOnP_cons_eq_if_modifyHead, List.countP_cons]
    cases isReopening st with
    | true => simp [ih]
    | false => simp [ih]

/-- Whatever surfaces was read from the link. -/
theorem mem_parsed_of_mem_surfaced {e : Envelope} (h : e ∈ surfaced codec link) :
    ∃ r : Reading, r.envelope? codec = some e := by
  have hparsed : e ∈ parsed codec link := by
    unfold surfaced at h
    split at h
    · exact h
    · exact List.dropLast_subset _ h
  obtain ⟨r, -, hr⟩ := List.mem_filterMap.mp hparsed
  exact ⟨r, hr⟩

theorem countP_surfaced (codec : Codec) (link : Trace) :
    (surfaced codec link).countP (·.isReconnected) = 0 := by
  rw [List.countP_eq_zero]
  intro e he
  obtain ⟨r, hr⟩ := mem_parsed_of_mem_surfaced he
  simp [Codec.isReconnected_parse hr]

theorem countP_signalled (codec : Codec) (links : List Trace) :
    (signalled codec links).countP (·.isReconnected) = links.length := by
  induction links with
  | nil => rfl
  | cons link links ih =>
    rw [signalled, List.flatMap_cons, List.countP_append, ← signalled, ih, List.countP_append,
      countP_surfaced]
    simp [Envelope.isReconnected_reconnected, Nat.add_comm]

/-- The law from what is accounted for link by link. -/
theorem StreamLaw.of_links {left : List Envelope} {earlier : List Trace} {current : Trace}
    (hlinks : links trace = earlier ++ [current])
    (haccounted : ∀ link ∈ earlier ++ [current], Accounted codec link)
    (hout : delivered trace ++ left = signalled codec earlier ++ surfaced codec current) :
    StreamLaw codec trace left where
  stream := by rw [hlinks, intercalate_surfaced, hout]
  complete := by
    rw [hlinks]
    exact haccounted
  genuine := by
    refine ⟨fun link _ e he => ?_, Envelope.isReconnected_reconnected⟩
    obtain ⟨r, hr⟩ := mem_parsed_of_mem_surfaced he
    exact Codec.isReconnected_parse hr
  signals := by
    have hlength := length_links trace
    rw [hlinks, List.length_append, List.length_singleton] at hlength
    rw [hout, List.countP_append, countP_surfaced, countP_signalled]
    omega
  others := by
    intro e he
    have hmem : e ∈ signalled codec earlier ++ surfaced codec current := by
      rw [← hout]
      exact List.mem_append_left _ he
    have hother : ∀ link, e ∈ surfaced codec link → e.sender? ≠ some codec.id := by
      intro link hlink
      obtain ⟨r, hr⟩ := mem_parsed_of_mem_surfaced hlink
      exact Codec.sender_parse hr
    rcases List.mem_append.mp hmem with hmem | hmem
    · obtain ⟨link, -, hlink⟩ := List.mem_flatMap.mp hmem
      rcases List.mem_append.mp hlink with hlink | hlink
      · exact hother link hlink
      · rw [List.mem_singleton.mp hlink, Envelope.sender_reconnected]
        simp
    · exact hother current hmem

/-- Up to the shutdown the only envelope that is not yet in the queue is the
    one that waits for room. -/
theorem Streamed.law (h : Streamed codec trace c) (hrun : c.isStopped = false) :
    StreamLaw codec trace c.waiting := by
  obtain ⟨earlier, current, hlinks, hearlier, hat⟩ := h
  obtain ⟨hcurrent, hout⟩ := hat.settled hrun
  refine .of_links hlinks ?_ hout
  intro link hlink
  rcases List.mem_append.mp hlink with hlink | hlink
  · exact hearlier link hlink
  · rw [List.mem_singleton.mp hlink]
    exact hcurrent

/-- A move that has nothing to do with the link changes nothing of the law. -/
theorem StreamLaw.idle {left : List Envelope} (h : StreamLaw codec trace left)
    {st : Stage Connection (Nat × Action) Event}
    (hopen : isReopening st = false) (hread : reading? st = none) (hlost : lost st = [])
    (hout : st.events.filterMap Event.delivered? = []) : StreamLaw codec (trace ++ [st]) left := by
  obtain ⟨earlier, current, hlinks⟩ : ∃ earlier current, links trace = earlier ++ [current] := by
    rcases List.eq_nil_or_concat (links trace) with hnil | ⟨earlier, current, hlinks⟩
    · exact absurd hnil (List.splitOnP_ne_nil _ _)
    · exact ⟨earlier, current, by rw [hlinks, List.concat_eq_append]⟩
  obtain ⟨hlosts, hparsed, hsurfaced⟩ := link_idle codec current hread hlost
  have hdelivered : delivered (trace ++ [st]) = delivered trace := by simp [hout]
  have hstream := h.stream
  have hcomplete := h.complete
  rw [hlinks] at hstream hcomplete
  rw [intercalate_surfaced] at hstream
  refine .of_links (links_snoc hopen hlinks) ?_ (by rw [hdelivered, hstream, hsurfaced])
  intro link hlink
  rcases List.mem_append.mp hlink with hlink | hlink
  · exact hcomplete link (List.mem_append_left _ hlink)
  · rw [List.mem_singleton.mp hlink, Accounted, hparsed, hsurfaced, hlosts]
    exact hcomplete current (by simp)

/-- Only a shutdown stops a connection. -/
theorem eq_cancel_of_isStopped {a : Action} {events : List Event} (hm : Moves now c a c' events)
    (hrun : c.isStopped = false) (hs : c'.isStopped = true) : a = .cancel := by
  cases hm with
  | cancelled => rfl
  | writeFailed | lost =>
    simp only [isStopped, afterFailure] at hs
    split at hs
    · next h => split at h <;> cases h
    · cases hs
  | queued | rekeyed | took | prepared | rejected | wrote | finished =>
    rw [isStopped] at hrun hs
    simp_all
  | arrived | delivered | resumed | opened | refused | announced => cases hs

/-- Into the inbound queue go the envelopes of the first link, a signal, those
    of the second link, a signal, and so on, one signal for each time that the
    link was opened again.

    The envelopes of a link are what its bodies say under the keys of the
    moment, in order and once each.  Only the last of them may be missing, when
    the link did not take a body while it waited for room.  At the end of the
    stream one entry may not be in the queue: the one that waits for room or,
    after a shutdown, the one that waited then. -/
theorem delivered_eq_links_joined {capacity delay : Nat} {keys : KeySet}
    (h : Runs (start codec capacity delay keys now) trace c) :
    ∃ left : List Envelope,
      (c.isStopped = false → left = c.waiting) ∧
      (c.isStopped = true → ∃ st ∈ trace, st.move.2 = .cancel ∧ left = st.before.waiting) ∧
      StreamLaw codec trace left := by
  induction h with
  | start =>
    have hlaw := streamed_of_running (.start (s := start codec capacity delay keys now)) rfl
    exact ⟨_, fun _ => rfl, fun hs => (nomatch hs), hlaw.law rfl⟩
  | @move trace c c' m events hruns hstep ih =>
    obtain ⟨at_, a⟩ := m
    have hm : Moves at_ c a c' events := moves_of_step hstep
    obtain ⟨left, hlive, hdone, hlaw⟩ := ih
    cases hs' : c'.isStopped with
    | false =>
      have hlaw' := streamed_of_running (hruns.move hstep) hs'
      exact ⟨_, fun _ => rfl, fun hs => (nomatch hs), hlaw'.law hs'⟩
    | true =>
      cases hs : c.isStopped with
      | false =>
        -- the move is the shutdown, and what waits is left over
        obtain rfl := eq_cancel_of_isStopped hm hs hs'
        have hmem : (⟨c, (at_, .cancel), events⟩ : Stage Connection (Nat × Action) Event)
            ∈ trace ++ [⟨c, (at_, .cancel), events⟩] := by simp
        refine ⟨left, fun hrun => (nomatch hrun), fun _ => ⟨_, hmem, rfl, hlive hs⟩, ?_⟩
        cases hm with
        | cancelled => exact hlaw.idle rfl rfl rfl (filterMap_abandoned (fun _ => rfl) _)
      | true =>
        obtain ⟨st, hst, hcancel, hleft⟩ := hdone hs
        refine ⟨left, fun hrun => (nomatch hrun),
          fun _ => ⟨st, List.mem_append_left _ hst, hcancel, hleft⟩, ?_⟩
        obtain ⟨keys, rfl⟩ | rfl := (isStopped_moves hs hm).2
        · cases hm
          exact hlaw.idle rfl rfl rfl rfl
        · cases hm
          exact hlaw.idle rfl rfl rfl rfl

/-- A message of another participant that claims to be the signal. -/
def pretence : Fields :=
  (⟨"b", ⟨none, none⟩⟩ : Codec).tag default Message.reconnected.toFields

/-- The envelope that the claim comes in. -/
def pretended : Envelope := .received pretence pretence.write

theorem parse_pretence (keys : KeySet) :
    (⟨"a", ⟨none, none⟩⟩ : Codec).parse (utf8 pretence.write) keys = some pretended :=
  Codec.parse_tag (by decide) default keys rfl (Table.sorted_ofList _) (by decide)

/-- A message that claims to be the signal comes twice.  While the second one
    waits for room the link does not take a body, and it is opened again at the
    second attempt. -/
theorem delivered_eq_links_joined_pretence :
    ∃ (trace : Trace) (c : Connection),
      trace.map (fun st => st.move.2) =
        [.queue ⟨[], none⟩, .prepare ⟨default, []⟩, .arrive (utf8 pretence.write), .deliver,
          .arrive (utf8 pretence.write), .write false, .opened false, .resume, .opened true,
          .announce] ∧
      Runs (start ⟨"a", ⟨none, none⟩⟩ 2 0 .empty 0) trace c ∧
      delivered trace = [pretended, .reconnected] ∧
      ∃ left : List Envelope,
        (c.isStopped = false → left = c.waiting) ∧
        (c.isStopped = true → ∃ st ∈ trace, st.move.2 = .cancel ∧ left = st.before.waiting) ∧
        StreamLaw ⟨"a", ⟨none, none⟩⟩ trace left := by
  have harrive : ∀ c : Connection, c.codec = ⟨"a", ⟨none, none⟩⟩ → c.phase = .serving 0 none →
      c.timedStep (0, .arrive (utf8 pretence.write))
        = some ({ c with phase := .serving 0 (some pretended) }, []) := by
    intro c hcodec hphase
    simp only [timedStep, step, receiveBody, hphase, hcodec, parse_pretence]
  have hstart : Runs (start ⟨"a", ⟨none, none⟩⟩ 2 0 .empty 0) [] _ := .start
  have hprepared := (hstart.move (m := (0, .queue ⟨[], none⟩)) rfl).move
    (m := (0, .prepare ⟨default, []⟩)) rfl
  have hdelivered := (hprepared.move (harrive _ rfl rfl)).move (m := (0, .deliver)) rfl
  have hfailed := (hdelivered.move (harrive _ rfl rfl)).move (m := (0, .write false)) rfl
  have hresumed := (hfailed.move (m := (0, .opened false)) rfl).move (m := (0, .resume)) rfl
  have hsignalled := (hresumed.move (m := (0, .opened true)) rfl).move (m := (0, .announce)) rfl
  exact ⟨_, _, rfl, hsignalled, rfl, delivered_eq_links_joined hsignalled⟩

end Connection

end MessageBus
