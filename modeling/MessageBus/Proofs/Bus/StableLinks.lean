import MessageBus.Proofs.Bus.InMemory
import MessageBus.Proofs.Connection.InboundStream
import MessageBus.Proofs.Link.MemoryLinks

/-! # A bus whose links last

    As long as no link is cut off, a connection keeps the link that it started
    with, and the bus is a wire: what a participant read from its link and what the
    link still buffers is what was written since the participant attached, by
    whomever, in that order.

    * `isStable_of_step`: a link that is cut off stays so.
    * `orderly_step`: what every move keeps on a bus whose links last.
    * `flows_step`, `flows_of_run`: what was written is what was read or is
      buffered. -/

namespace MessageBus

namespace Connection

/-! ## Moves that keep the link -/

variable {now : Nat} {c c' : Connection} {a : Action} {events : List Event}

/-- Only a failure of the link or a shutdown ends the service. -/
theorem isServing_moves (hm : Moves now c a c' events) (hs : c.isServing = true)
    (hwrite : a ≠ .write false) (hlose : a ≠ .loseLink) (hcancel : a ≠ .cancel) :
    c'.isServing = true := by
  cases hm with
  | writeFailed => exact absurd rfl hwrite
  | lost => exact absurd rfl hlose
  | cancelled => exact absurd rfl hcancel
  | queued | rekeyed | took | prepared | rejected | wrote | finished => exact hs
  | arrived | delivered | announced => rfl
  | resumed hphase | opened hphase | refused hphase => simp [isServing, hphase] at hs

/-- Nothing is written but by a link that takes a body. -/
theorem written_of_ne_write (hm : Moves now c a c' events) (ha : a ≠ .write true) :
    events.filterMap Event.written? = [] := by
  cases hm with
  | wrote => exact absurd rfl ha
  | cancelled => exact filterMap_abandoned (fun _ => rfl) _
  | _ => rfl

/-- A move that leaves the link alone reads nothing. -/
theorem reading_of_isLocal (ha : a.isLocal = true) (c : Connection) (events : List Event) :
    reading? ⟨c, (now, a), events⟩ = none := by
  cases a <;> first | rfl | cases ha

end Connection

/-! ## A link that is cut off stays so -/

namespace MemoryBus

/-- No link was cut off. -/
def IsStable (b : MemoryBus) : Prop := ∀ l ∈ b.links, l.attached = true

variable {b b' : MemoryBus} {id : Nat}

theorem isStable_of_map {change : MemoryLink → MemoryLink}
    (h : { b with links := b.links.map change }.IsStable)
    (hchange : ∀ l, (change l).attached = true → l.attached = true) : b.IsStable :=
  fun l hl => hchange l (h _ (List.mem_map_of_mem hl))

theorem isStable_of_modify {change : MemoryLink → MemoryLink} (h : (b.modify id change).IsStable)
    (hchange : ∀ l, (change l).attached = l.attached) : b.IsStable := by
  refine isStable_of_map h fun l hl => ?_
  split at hl
  · rwa [hchange] at hl
  · exact hl

theorem isStable_of_openLink {result : BusResult Nat} (h : b.openLink = (result, b'))
    (hs : b'.IsStable) : b.IsStable := by
  intro l hl
  refine hs l ?_
  simp only [openLink] at h
  split at h
  · cases h
    exact hl
  · cases h
    exact List.mem_append_left _ hl

end MemoryBus

namespace Gathering

variable {ι : Type} [DecidableEq ι] {ps : Participants ι} {s s' : Gathering ι} {m : Move ι}
  {events : List Connection.Event}

/-! ## A stable bus -/

/-- No move attaches a link that was cut off. -/
theorem isStable_of_step (h : ps.step s m = some (s', events)) (hs : s'.bus.IsStable) :
    s.bus.IsStable := by
  cases step_cases h with
  | attached _ _ hopen => exact MemoryBus.isStable_of_openLink hopen hs
  | refused _ _ hopen => exact MemoryBus.isStable_of_openLink hopen hs
  | acted hp heffect hc =>
    generalize m.act = act at heffect
    cases effect_cases heffect with
    | kept => exact hs
    | sent => exact MemoryBus.isStable_of_map hs fun _ => MemoryBus.attached_of_offer
    | cutOff | received | lost => exact MemoryBus.isStable_of_modify hs fun _ => rfl
    | opened hopen => exact MemoryBus.isStable_of_openLink hopen hs
    | refused hopen => exact MemoryBus.isStable_of_openLink hopen hs

/-- A bus that is stable in the end was stable all along. -/
theorem isStable_of_mem {name : String} {refusals : Nat} {trace : Trace ι}
    (h : Run ps.step (start name refusals) trace s) (hstable : s.bus.IsStable)
    {st : Stage (Gathering ι) (Move ι) Connection.Event} (hst : st ∈ trace) :
    st.before.bus.IsStable := by
  induction h with
  | start => cases hst
  | move hrun hstep ih =>
    have hbefore := isStable_of_step hstep hstable
    rcases List.mem_append.mp hst with hst | hst
    · exact ih hbefore hst
    · rw [List.mem_singleton.mp hst]
      exact hbefore

/-- What holds as long as the bus is stable. -/
structure Orderly (ps : Participants ι) (s : Gathering ι) : Prop where
  used : ∀ l ∈ s.bus.links, l.listening = true ∧ l.id < s.bus.nextLink
  linked : ∀ i p, s.member? i = some p → ∃ l, s.bus.find? p.link = some l
  apart : ∀ i j p q, s.member? i = some p → s.member? j = some q → p.link = q.link → i = j
  serving : ∀ i p, s.member? i = some p → p.connection.isServing = true
  keys : ∀ i p, s.member? i = some p → p.connection.keys = ps.keys

/-- The acts on a stable bus. -/
inductive Calm (bus : MemoryBus) (p : Member) : Act → MemoryBus → Connection.Action → Prop where
  | kept {act : Act} {a : Connection.Action} :
      act ≠ .write → a.isLocal = true →
      (∀ occasion, a = .prepare occasion → occasion.fits p.connection.keys = true) →
      Calm bus p act bus a
  | sent {body : String} :
      p.connection.nextBody? = some body →
      Calm bus p .write { bus with links := bus.links.map (MemoryBus.offer body) } (.write true)
  | received {l : MemoryLink} {body : String} {rest : List String} :
      bus.find? p.link = some l → l.buffer = body :: rest →
      Calm bus p .arrive (bus.modify p.link fun l => { l with buffer := rest })
        (.arrive (utf8 body))

omit [DecidableEq ι] in
/-- On a stable bus no link is lost, and so none is opened in its place. -/
theorem Orderly.calm (h : Orderly ps s) (hstable : s.bus.IsStable) {i : ι} {p : Member}
    (hp : s.member? i = some p) {act : Act} {bus : MemoryBus} {link now : Nat}
    {a : Connection.Action} {c : Connection} (heffect : effect? s.bus p act = some (bus, link, a))
    (hc : p.connection.step now a = some (c, events)) :
    link = p.link ∧ Calm s.bus p act bus a := by
  obtain ⟨l, hl⟩ := h.linked i p hp
  have hattached : l.attached = true := hstable l (MemoryBus.mem_of_find hl).1
  have hserving := h.serving i p hp
  cases effect_cases heffect with
  | kept hact hlocal hfits => exact ⟨rfl, .kept hact hlocal hfits⟩
  | sent hbody => exact ⟨rfl, .sent hbody⟩
  | received hfind hbuffer => exact ⟨rfl, .received hfind hbuffer⟩
  | cutOff hcut =>
    rw [MemoryBus.isAttached_of_find hl hattached] at hcut
    cases hcut
  | lost hcut =>
    rw [hcut l hl] at hattached
    cases hattached
  | opened =>
    cases Connection.moves_of_step hc with
    | opened hphase => simp [Connection.isServing, hphase] at hserving
  | refused =>
    cases Connection.moves_of_step hc with
    | refused hphase => simp [Connection.isServing, hphase] at hserving

omit [DecidableEq ι] in
theorem orderly_start (name : String) (refusals : Nat) : Orderly ps (start name refusals) where
  used := fun l hl => by cases hl
  linked := fun i p hp => by cases hp
  apart := fun i j p q hp => by cases hp
  serving := fun i p hp => by cases hp
  keys := fun i p hp => by cases hp

/-- The order is kept when a member changes but for its link, and every link is still there. -/
theorem Orderly.put (h : Orderly ps s) {i : ι} {p : Member} (hp : s.member? i = some p)
    {bus : MemoryBus} {c : Connection}
    (hused : ∀ l ∈ bus.links, l.listening = true ∧ l.id < bus.nextLink)
    (hlinked : ∀ k l, s.bus.find? k = some l → ∃ l', bus.find? k = some l')
    (hserving : c.isServing = true) (hkeys : c.keys = ps.keys) :
    Orderly ps (s.put bus i ⟨p.link, c⟩) := by
  -- every member was there before with the same link
  have hbefore : ∀ {j q}, (s.put bus i ⟨p.link, c⟩).member? j = some q →
      ∃ q', s.member? j = some q' ∧ q'.link = q.link := by
    intro j q hq
    rcases member_put_cases _ _ hq with ⟨rfl, rfl⟩ | ⟨-, hq⟩
    · exact ⟨p, hp, rfl⟩
    · exact ⟨q, hq, rfl⟩
  refine ⟨hused, fun j q hq => ?_, fun j k q r hq hr hlink => ?_, fun j q hq => ?_,
    fun j q hq => ?_⟩
  · obtain ⟨q', hq', hlink⟩ := hbefore hq
    obtain ⟨l, hl⟩ := h.linked j q' hq'
    rw [← hlink]
    exact hlinked _ l hl
  · obtain ⟨q', hq', hqlink⟩ := hbefore hq
    obtain ⟨r', hr', hrlink⟩ := hbefore hr
    exact h.apart j k q' r' hq' hr' (by rw [hqlink, hrlink, hlink])
  · rcases member_put_cases _ _ hq with ⟨rfl, rfl⟩ | ⟨-, hq⟩
    · exact hserving
    · exact h.serving j q hq
  · rcases member_put_cases _ _ hq with ⟨rfl, rfl⟩ | ⟨-, hq⟩
    · exact hkeys
    · exact h.keys j q hq

omit [DecidableEq ι] in
/-- The number of a new link is above all that are in use. -/
theorem Orderly.link_ne (h : Orderly ps s) {i : ι} {p : Member} (hp : s.member? i = some p)
    {bus : MemoryBus} {link : Nat} (hopen : s.bus.openLink = (.ok link, bus)) :
    p.link ≠ link := by
  intro heq
  obtain ⟨l, hl⟩ := h.linked i p hp
  obtain ⟨hmem, hid⟩ := MemoryBus.mem_of_find hl
  have hlt := (h.used l hmem).2
  have hlink := (MemoryBus.of_openLink hopen).1
  omega

/-- The order is kept when somebody joins with a new link. -/
theorem Orderly.join (h : Orderly ps s) {i : ι} {bus : MemoryBus} {link now : Nat}
    (hopen : s.bus.openLink = (.ok link, bus)) :
    Orderly ps (s.put bus i ⟨link, ps.connect i now⟩) := by
  obtain ⟨hlink, hlinks, hnext⟩ := MemoryBus.of_openLink hopen
  refine ⟨fun l hl => ?_, fun j q hq => ?_, fun j k q r hq hr heq => ?_, fun j q hq => ?_,
    fun j q hq => ?_⟩
  · rw [bus_put] at hl ⊢
    rw [hnext]
    rw [hlinks] at hl
    rcases List.mem_append.mp hl with hl | hl
    · obtain ⟨hlistening, hlt⟩ := h.used l hl
      exact ⟨hlistening, by omega⟩
    · obtain rfl := List.mem_singleton.mp hl
      exact ⟨rfl, Nat.lt_succ_self link⟩
  · rw [bus_put]
    rcases member_put_cases _ _ hq with ⟨rfl, rfl⟩ | ⟨-, hq⟩
    · exact ⟨_, MemoryBus.find_openLink_self hopen fun l hl => (h.used l hl).2⟩
    · obtain ⟨l, hl⟩ := h.linked j q hq
      exact ⟨l, by rw [MemoryBus.find_openLink_of_ne hopen (h.link_ne hq hopen), hl]⟩
  · rcases member_put_cases _ _ hq with ⟨hj, rfl⟩ | ⟨-, hq⟩ <;>
      rcases member_put_cases _ _ hr with ⟨hk, rfl⟩ | ⟨-, hr⟩
    · rw [hj, hk]
    · exact absurd heq.symm (h.link_ne hr hopen)
    · exact absurd heq (h.link_ne hq hopen)
    · exact h.apart j k q r hq hr heq
  · rcases member_put_cases _ _ hq with ⟨rfl, rfl⟩ | ⟨-, hq⟩
    · rfl
    · exact h.serving j q hq
  · rcases member_put_cases _ _ hq with ⟨rfl, rfl⟩ | ⟨-, hq⟩
    · rfl
    · exact h.keys j q hq

/-- A connection goes on with the same keys after what it does on a stable bus. -/
theorem Calm.connection {bus bus' : MemoryBus} {p : Member} {act : Act} {a : Connection.Action}
    (h : Calm bus p act bus' a) {now : Nat} {c : Connection}
    (hm : Connection.Moves now p.connection a c events) (hs : p.connection.isServing = true) :
    c.isServing = true ∧ c.keys = p.connection.keys := by
  have hkeys := Connection.keys_moves hm
  cases h with
  | kept _ hlocal =>
    refine ⟨Connection.isServing_moves hm hs ?_ ?_ ?_, ?_⟩
    · rintro rfl
      cases hlocal
    · rintro rfl
      cases hlocal
    · rintro rfl
      cases hlocal
    · rw [hkeys]
      cases a <;> first | rfl | cases hlocal
  | sent => exact ⟨Connection.isServing_moves hm hs (by simp) (by simp) (by simp), hkeys⟩
  | received => exact ⟨Connection.isServing_moves hm hs (by simp) (by simp) (by simp), hkeys⟩

/-- On a stable bus every move keeps the order. -/
theorem orderly_step (h : Orderly ps s) (hstable : s.bus.IsStable)
    (hstep : ps.step s m = some (s', events)) : Orderly ps s' := by
  cases step_cases hstep with
  | attached _ _ hopen => exact h.join hopen
  | refused _ _ hopen =>
    obtain ⟨hlinks, hnext⟩ := MemoryBus.of_openLink_error hopen
    refine ⟨?_, ?_, h.apart, h.serving, h.keys⟩
    · rw [hlinks, hnext]
      exact h.used
    · simp only [MemoryBus.find?, hlinks]
      exact h.linked
  | acted hp heffect hc =>
    obtain ⟨rfl, hcalm⟩ := h.calm hstable hp heffect hc
    obtain ⟨hserving, hkeys⟩ :=
      hcalm.connection (Connection.moves_of_step hc) (h.serving _ _ hp)
    rw [h.keys _ _ hp] at hkeys
    generalize m.act = act at hcalm
    cases hcalm with
    | kept => exact h.put hp h.used (fun k l hl => ⟨l, hl⟩) hserving hkeys
    | sent =>
      refine h.put hp (fun l hl => ?_) (fun k l hl => ?_) hserving hkeys
      · obtain ⟨l, hmem, rfl⟩ := List.mem_map.mp hl
        rw [MemoryBus.listening_offer, MemoryBus.id_offer]
        exact h.used l hmem
      · rw [MemoryBus.find_map MemoryBus.id_offer, hl]
        exact ⟨_, rfl⟩
    | received =>
      refine h.put hp (fun l hl => ?_) (fun k l hl => ?_) hserving hkeys
      · obtain ⟨l, hmem, rfl⟩ := List.mem_map.mp hl
        have hused := h.used l hmem
        split <;> exact hused
      · rw [MemoryBus.find_modify_buffer, hl]
        exact ⟨_, rfl⟩

theorem orderly_of_run {name : String} {refusals : Nat} {trace : Trace ι}
    (h : Run ps.step (start name refusals) trace s) (hstable : s.bus.IsStable) :
    Orderly ps s := by
  induction h with
  | start => exact orderly_start name refusals
  | move _ hstep ih =>
    have hbefore := isStable_of_step hstep hstable
    exact orderly_step (ih hbefore) hbefore hstep

/-! ## The wire -/

/-- The bodies that the link of a participant buffers. -/
def buffered (s : Gathering ι) (i : ι) : List String :=
  ((s.member? i).bind fun p => s.bus.find? p.link).elim [] (·.buffer)

/-- The bodies that a move writes when a participant is attached, with who writes them. -/
def carried (i : ι) (st : Stage (Gathering ι) (Move ι) Connection.Event) : List (ι × String) :=
  if (st.before.member? i).isSome then
    (st.events.filterMap Connection.Event.written?).map (st.move.who, ·)
  else []

/-- The bodies that were written since a participant attached. -/
def carriedTo (i : ι) (trace : Trace ι) : List (ι × String) := trace.flatMap (carried i)

section carried
variable {i : ι} {p : Member} {l : MemoryLink}

omit [DecidableEq ι] in
@[simp] theorem carriedTo_snoc (trace : Trace ι)
    (st : Stage (Gathering ι) (Move ι) Connection.Event) :
    carriedTo i (trace ++ [st]) = carriedTo i trace ++ carried i st := by
  simp [carriedTo]

omit [DecidableEq ι] in
theorem carried_of_unwritten (h : events.filterMap Connection.Event.written? = []) (i : ι)
    (s : Gathering ι) (m : Move ι) : carried i ⟨s, m, events⟩ = [] := by
  simp [carried, h]

omit [DecidableEq ι] in
theorem buffered_of_none (h : s.member? i = none) : buffered s i = [] := by
  simp [buffered, h]

omit [DecidableEq ι] in
theorem buffered_of_find (hp : s.member? i = some p) (hl : s.bus.find? p.link = some l) :
    buffered s i = l.buffer := by
  simp [buffered, hp, hl]

/-- Nobody else's buffer depends on a member. -/
theorem buffered_put (hp : s.member? i = some p) (bus : MemoryBus) (c : Connection) (j : ι) :
    buffered (s.put bus i ⟨p.link, c⟩) j
      = ((s.member? j).bind fun q => bus.find? q.link).elim [] (·.buffer) := by
  by_cases hj : j = i
  · subst hj
    simp [buffered, hp]
  · simp [buffered, member_put_of_ne _ _ _ hj]

end carried

/-- What a connection reads when it takes a body. -/
def reading (ps : Participants ι) (body : String) : Connection.Reading := ⟨utf8 body, ps.keys⟩

/-- What a participant read from its link and what the link still buffers are the bodies that were
written since the participant attached. -/
def Flows (ps : Participants ι) (trace : Trace ι) (s : Gathering ι) (i : ι) : Prop :=
  (traceOf i trace).filterMap Connection.reading? ++ (buffered s i).map (reading ps)
    = (carriedTo i trace).map fun carried => reading ps carried.2

variable {trace : Trace ι} {i : ι}

/-- A move that writes nothing, reads nothing, and leaves what is buffered. -/
theorem Flows.idle (h : Flows ps trace s i)
    (hread : (traceOf i (trace ++ [⟨s, m, events⟩])).filterMap Connection.reading?
      = (traceOf i trace).filterMap Connection.reading?)
    (hwritten : events.filterMap Connection.Event.written? = [])
    (hbuffered : buffered s' i = buffered s i) :
    Flows ps (trace ++ [⟨s, m, events⟩]) s' i := by
  rw [Flows, hread, hbuffered, carriedTo_snoc, carried_of_unwritten hwritten, List.append_nil]
  exact h

/-- A body that was sent is at the end of every buffer. -/
theorem buffered_sent (h : Orderly ps s) {p : Member} (hp : s.member? m.who = some p)
    {body : String} {c : Connection}
    (hstable : { s.bus with links := s.bus.links.map (MemoryBus.offer body) }.IsStable) :
    buffered (s.put { s.bus with links := s.bus.links.map (MemoryBus.offer body) } m.who
        ⟨p.link, c⟩) i
      = buffered s i ++ if (s.member? i).isSome then [body] else [] := by
  rw [buffered_put hp]
  cases hq : s.member? i with
  | none => simp [buffered, hq]
  | some q =>
    obtain ⟨l, hl⟩ := h.linked i q hq
    obtain ⟨hmem, -⟩ := MemoryBus.mem_of_find hl
    -- the body fits, or the link would be cut off
    have hoffer := MemoryBus.offer_of_attached (h.used l hmem).1
      (hstable _ (List.mem_map_of_mem hmem))
    rw [buffered_of_find hq hl, Option.bind_some, MemoryBus.find_map MemoryBus.id_offer, hl]
    simp [hoffer]

/-- A body that was taken is gone from the one buffer that it was taken from. -/
theorem buffered_received (h : Orderly ps s) {j : ι} {p : Member} (hp : s.member? j = some p)
    {l : MemoryLink} (hl : s.bus.find? p.link = some l) (rest : List String) (c : Connection) :
    buffered (s.put (s.bus.modify p.link fun l => { l with buffer := rest }) j ⟨p.link, c⟩) i
      = if i = j then rest else buffered s i := by
  rw [buffered_put hp]
  cases hq : s.member? i with
  | none =>
    have hi : i ≠ j := by
      rintro rfl
      rw [hq] at hp
      cases hp
    rw [if_neg hi, buffered_of_none hq]
    rfl
  | some q =>
    rw [Option.bind_some, MemoryBus.find_modify_buffer]
    by_cases hi : i = j
    · subst hi
      obtain rfl := Option.some.inj (hq.symm.trans hp)
      simp [hl, (MemoryBus.mem_of_find hl).2]
    · obtain ⟨k, hk⟩ := h.linked i q hq
      -- no two members have the same link
      have hlink : k.id ≠ p.link := by
        rw [(MemoryBus.mem_of_find hk).2]
        exact fun heq => hi (h.apart i j q p hq hp heq)
      rw [if_neg hi, buffered_of_find hq hk]
      simp [hk, hlink]

/-- Every move keeps the flow to every participant. -/
theorem flows_step (h : Orderly ps s) (hstep : ps.step s m = some (s', events))
    (hstable : s'.bus.IsStable) (hflow : Flows ps trace s i) :
    Flows ps (trace ++ [⟨s, m, events⟩]) s' i := by
  have hbefore := isStable_of_step hstep hstable
  cases step_cases hstep with
  | attached hnone _ hopen =>
    refine hflow.idle (by rw [traceOf_snoc_of_none trace m [] hnone]) rfl ?_
    by_cases hi : i = m.who
    · subst hi
      rw [buffered_of_none hnone]
      exact buffered_of_find (member_put_self ..)
        (MemoryBus.find_openLink_self hopen fun l hl => (h.used l hl).2)
    · cases hq : s.member? i with
      | none => rw [buffered_of_none hq, buffered_of_none (by rwa [member_put_of_ne _ _ _ hi])]
      | some q =>
        have hfind := MemoryBus.find_openLink_of_ne hopen (h.link_ne hq hopen)
        simp [buffered, member_put_of_ne _ _ _ hi, hq, hfind]
  | refused hnone _ hopen =>
    refine hflow.idle (by rw [traceOf_snoc_of_none trace m [] hnone]) rfl ?_
    simp only [buffered, MemoryBus.find?, (MemoryBus.of_openLink_error hopen).1]
  | @acted p bus link a c events hp heffect hc =>
    obtain ⟨rfl, hcalm⟩ := h.calm hbefore hp heffect hc
    have hm := Connection.moves_of_step hc
    have htrace := traceOf_snoc trace m events hp heffect
    generalize m.act = act at hcalm
    cases hcalm with
    | kept _ hlocal =>
      have hwritten := Connection.written_of_ne_write hm (by rintro rfl; cases hlocal)
      refine hflow.idle ?_ hwritten (buffered_put hp ..)
      by_cases hi : i = m.who
      · subst hi
        simp [htrace, Connection.reading_of_isLocal hlocal]
      · rw [traceOf_snoc_of_ne trace m events hi]
    | @sent body hbody =>
      cases hm with
      | @wrote since handing f body' hphase hflight hnext =>
        obtain rfl : body' = body := by
          rw [Connection.nextBody?, hflight, Option.bind_some, hnext] at hbody
          exact Option.some.inj hbody
        have hread : (traceOf i (trace ++ [⟨s, m, [.wrote body']⟩])).filterMap
            Connection.reading? = (traceOf i trace).filterMap Connection.reading? := by
          by_cases hi : i = m.who
          · subst hi
            simp [htrace, Connection.reading?]
          · rw [traceOf_snoc_of_ne trace m _ hi]
        rw [Flows, hread, buffered_sent h hp hstable, List.map_append, ← List.append_assoc, hflow,
          carriedTo_snoc, List.map_append]
        cases hq : s.member? i <;> simp [carried, hq, Connection.Event.written?]
    | @received l body rest hl hbuffer =>
      cases hm with
      | arrived hphase =>
        rw [Flows, buffered_received h hp hl, carriedTo_snoc, carried_of_unwritten rfl,
          List.append_nil, ← hflow]
        by_cases hi : i = m.who
        · subst hi
          have hreading : (⟨utf8 body, p.connection.keys⟩ : Connection.Reading)
              = reading ps body := by
            rw [h.keys _ _ hp, reading]
          simp [htrace, Connection.reading?, hreading, buffered_of_find hp hl, hbuffer]
        · rw [traceOf_snoc_of_ne trace m _ hi, if_neg hi]

/-- Along every run on a stable bus, what a participant read and what its link buffers is what was
written since the participant attached. -/
theorem flows_of_run {name : String} {refusals : Nat}
    (h : Run ps.step (start name refusals) trace s) (hstable : s.bus.IsStable) (i : ι) :
    Flows ps trace s i := by
  induction h with
  | start => rfl
  | move hrun hstep ih =>
    have hbefore := isStable_of_step hstep hstable
    exact flows_step (orderly_of_run hrun hbefore) hstep hstable (ih hbefore)

end Gathering

end MessageBus
