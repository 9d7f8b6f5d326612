import MessageBus.Proofs.Hub.Clients

/-! # What the clients of a realm get

    Along every run of a realm, a client gets what is broadcast while it attends,
    and nothing else.  The moves of a run are looked at one by one: before a
    client joins there is nothing to say, with each move that it attends its send
    buffer is given the text of that move, and from the move with which it leaves
    on it is given nothing.

    * `attendance`: how every client fared along a run.
    * `exists_drain`: a client that has left takes what is left for it.
    * `fan_out_gap_free`: what the clients of a realm get. -/

namespace MessageBus.Realm

variable {r r' : Realm} {a : Action} {events : List Event} {o : Outbox}

/-! ## How a client fared -/

/-- How the client of a send buffer attended the realm: it joined with one move,
    attended the moves after that, and the next one, if there is one, made it
    leave.  What was put into its send buffer is what was broadcast while it
    attended.  No other client has any part in that: the send buffer is what the
    moves since it joined made of an empty one. -/
def Attended (trace : Trace) (o : Outbox) : Prop :=
  ∃ (before during after : Trace) (joined : Stage Realm Action Event),
    trace = before ++ joined :: (during ++ after) ∧
    joined.move = .obey (.add o.client o.number o.capacity) ∧
    (∀ st ∈ during, Attends o.client o.number st) ∧
    (o.attached = true → after = []) ∧
    (o.attached = false → ∃ left rest, after = left :: rest ∧ Leaves o.client o.number left) ∧
    accepted o.number trace = broadcasts during ∧
    o = ((during ++ after).map (·.move)).foldl Outbox.after
      (.joining o.client o.number o.capacity)

/-- What was taken from a send buffer: what was put into it and is not there any
    more, in that order.  That there is no more is said only when that is so. -/
structure Received (trace : Trace) (o : Outbox) : Prop where
  listening : o.listening = true → taken o.number trace ++ o.buffer = accepted o.number trace
  abandoned : o.listening = false → o.buffer = [] ∧ taken o.number trace <+: accepted o.number trace
  ended : .ended o.number ∈ eventsOf trace →
    o.attached = false ∧ taken o.number trace = accepted o.number trace

variable {trace : Trace}

/-- A send buffer that is new starts without a past. -/
theorem fared_joined (h : Acts r a r' events) {newcomer : Outbox}
    (hnew : a.newcomer? = some newcomer)
    (hknown : ∀ e ∈ eventsOf (trace ++ [⟨r, a, events⟩]), ∃ o ∈ r.outboxes, o.number = e.number) :
    Attended (trace ++ [⟨r, a, events⟩]) newcomer ∧
      Received (trace ++ [⟨r, a, events⟩]) newcomer := by
  obtain ⟨hmove, hjoining, hfresh⟩ := newcomer_fresh h hnew
  have hother : ∀ e ∈ eventsOf (trace ++ [⟨r, a, events⟩]), e.number ≠ newcomer.number := by
    intro e he hnumber
    obtain ⟨o, ho, heq⟩ := hknown e he
    exact (hfresh o ho).2 (heq.trans hnumber)
  have haccepted : accepted newcomer.number (trace ++ [⟨r, a, events⟩]) = [] := by
    refine List.filterMap_eq_nil_iff.mpr fun e he => ?_
    cases e with
    | accepted number text => exact if_neg (hother _ he)
    | took | ended => rfl
  have htaken : taken newcomer.number (trace ++ [⟨r, a, events⟩]) = [] := by
    refine List.filterMap_eq_nil_iff.mpr fun e he => ?_
    cases e with
    | took number text => exact if_neg (hother _ he)
    | accepted | ended => rfl
  have hlistening : newcomer.listening = true := by rw [hjoining]; rfl
  have hattached : newcomer.attached = true := by rw [hjoining]; rfl
  have hbuffer : newcomer.buffer = [] := by rw [hjoining]; rfl
  refine ⟨⟨trace, [], [], ⟨r, a, events⟩, rfl, hmove, ?_, fun _ => rfl, ?_, haccepted, hjoining⟩,
    ⟨?_, ?_, ?_⟩⟩
  · intro st hst
    cases hst
  · intro hdetached
    rw [hattached] at hdetached
    cases hdetached
  · intro _
    rw [htaken, haccepted, hbuffer]
    rfl
  · intro hclosed
    rw [hlistening] at hclosed
    cases hclosed
  · intro hended
    exact absurd rfl (hother _ hended)

section acts
variable (hd : Distinct r) (ho : o ∈ r.outboxes) (h : Acts r a r' events)
include hd ho h

theorem accepted_acts : accepted o.number (trace ++ [⟨r, a, events⟩])
    = accepted o.number trace ++ o.gains a := by
  rw [accepted_snoc, (events_act hd ho h).1]

theorem taken_acts : taken o.number (trace ++ [⟨r, a, events⟩])
    = taken o.number trace ++ o.yields a := by
  rw [taken_snoc, (events_act hd ho h).2]

/-- A move is attended, or it makes the client leave, or the client has left. -/
theorem Attended.acts (hattended : Attended trace o) :
    Attended (trace ++ [⟨r, a, events⟩]) (o.after a) := by
  obtain ⟨before, during, after, joined, htrace, hjoined, hduring, hstays, hleft, hbroadcasts,
    howned⟩ := hattended
  rw [Attended]
  simp only [Outbox.number_after, Outbox.client_after, Outbox.capacity_after, accepted_acts hd ho h]
  -- the moves since the client joined, this one included
  have hmoves : ∀ during' after' : Trace,
      during' ++ after' = during ++ after ++ [⟨r, a, events⟩] →
      trace ++ [⟨r, a, events⟩] = before ++ joined :: (during' ++ after') ∧
      o.after a = ((during' ++ after').map (·.move)).foldl Outbox.after
        (.joining o.client o.number o.capacity) := by
    intro during' after' hmoves
    refine ⟨by rw [hmoves, htrace, List.append_assoc, List.cons_append], ?_⟩
    rw [hmoves, List.map_append, List.foldl_append, ← howned]
    rfl
  cases hattached : o.attached with
  | false =>
    obtain ⟨left, rest, rfl, hleaves⟩ := hleft hattached
    obtain ⟨hdetached, hnothing⟩ := o.detached_after a hattached
    obtain ⟨hsplit, howned⟩ := hmoves during (left :: rest ++ [⟨r, a, events⟩])
      (List.append_assoc ..).symm
    refine ⟨before, during, _, joined, hsplit, hjoined, hduring, ?_, fun _ => ?_, ?_, howned⟩
    · intro hagain
      rw [hdetached] at hagain
      cases hagain
    · exact ⟨left, rest ++ [⟨r, a, events⟩], rfl, hleaves⟩
    · rw [hnothing, List.append_nil, hbroadcasts]
  | true =>
    obtain rfl := hstays hattached
    by_cases hleaves : Leaves o.client o.number ⟨r, a, events⟩
    · obtain ⟨hdetached, hnothing⟩ := leaving_after hd ho hleaves
      obtain ⟨hsplit, howned⟩ := hmoves during [⟨r, a, events⟩] (by rw [List.append_nil])
      refine ⟨before, during, _, joined, hsplit, hjoined, hduring, ?_, fun _ => ?_, ?_, howned⟩
      · intro hagain
        rw [hdetached] at hagain
        cases hagain
      · exact ⟨_, [], rfl, hleaves⟩
      · rw [hnothing, List.append_nil, hbroadcasts]
    · have hattends : Attends o.client o.number ⟨r, a, events⟩ :=
        ⟨⟨o, ho, rfl, rfl, hattached⟩, hleaves⟩
      obtain ⟨hstill, htext⟩ := attending_after hd ho h hattends
      obtain ⟨hsplit, howned⟩ := hmoves (during ++ [⟨r, a, events⟩]) [] (by simp)
      refine ⟨before, _, [], joined, hsplit, hjoined, ?_, fun _ => rfl, ?_, ?_, howned⟩
      · intro st hst
        rcases List.mem_append.mp hst with hst | hst
        · exact hduring st hst
        · rw [List.mem_singleton.mp hst]
          exact hattends
      · intro hdetached
        rw [hstill] at hdetached
        cases hdetached
      · rw [broadcasts_snoc, htext, hbroadcasts]

/-- What is taken was put in before. -/
theorem Received.acts (hreceived : Received trace o) :
    Received (trace ++ [⟨r, a, events⟩]) (o.after a) := by
  have hempty : o.listening = false → o.buffer = [] := fun hclosed =>
    (hreceived.abandoned hclosed).1
  refine ⟨?_, ?_, ?_⟩ <;>
    simp only [Outbox.number_after, accepted_acts hd ho h, taken_acts hd ho h]
  · intro hlistening
    obtain ⟨hbefore, hbuffer⟩ := o.yields_append_buffer a hlistening
    rw [List.append_assoc, hbuffer, ← List.append_assoc, hreceived.listening hbefore]
  · intro hclosed
    obtain ⟨hbuffer, hyields, hgains⟩ := o.abandoned_after a hclosed hempty
    rw [hyields, hgains, List.append_nil, List.append_nil]
    refine ⟨hbuffer, ?_⟩
    cases hlistening : o.listening with
    | true => exact ⟨o.buffer, hreceived.listening hlistening⟩
    | false => exact (hreceived.abandoned hlistening).2
  · intro hended
    -- now or before, the buffer is empty and the client has left
    have hdone : o.attached = false ∧ o.buffer = [] ∧
        taken o.number trace = accepted o.number trace := by
      rw [eventsOf_snoc] at hended
      rcases List.mem_append.mp hended with hended | hended
      · obtain ⟨hdetached, hall⟩ := hreceived.ended hended
        refine ⟨hdetached, ?_, hall⟩
        cases hlistening : o.listening with
        | true =>
          have hlength := congrArg List.length (hreceived.listening hlistening)
          rw [← hall, List.length_append] at hlength
          exact List.eq_nil_of_length_eq_zero (by omega)
        | false => exact hempty hlistening
      · cases h with
        | @ended p hp hlistening hbuffer hdetached =>
          have hnumber : o.number = p.number :=
            Event.ended.inj (List.mem_singleton.mp hended)
          obtain rfl := hd.eq ho hp hnumber
          have hall := hreceived.listening hlistening
          rw [hbuffer, List.append_nil] at hall
          exact ⟨hdetached, hbuffer, hall⟩
        | took => cases List.mem_singleton.mp hended
        | abandoned => cases hended
        | @obeyed command =>
          cases command with
          | broadcast text =>
            obtain ⟨p, -, hevent⟩ := List.mem_filterMap.mp hended
            split at hevent <;> cases hevent
          | _ => cases hended
    obtain ⟨hdetached, hbuffer, hall⟩ := hdone
    obtain ⟨hstill, hgains⟩ := o.detached_after a hdetached
    rw [hgains, o.yields_of_empty a hbuffer, List.append_nil, List.append_nil]
    exact ⟨hstill, hall⟩

end acts

/-- Every client that ever joined a realm attended it and received what it got. -/
theorem attendance {name : String} {incarnation : Nat}
    (h : Run act (start name incarnation) trace r) :
    Distinct r ∧ (∀ e ∈ eventsOf trace, ∃ o ∈ r.outboxes, o.number = e.number) ∧
      ∀ o ∈ r.outboxes, Attended trace o ∧ Received trace o := by
  induction h with
  | start =>
    refine ⟨List.nodup_nil, fun e he => ?_, fun o ho => ?_⟩
    · cases he
    · cases ho
  | @move trace r r' a events hrun hstep ih =>
    obtain ⟨hd, hknown, hfared⟩ := ih
    have hacts : Acts r a r' events := acts_of_act hstep
    have houtboxes := outboxes_act hd hacts
    have hknown' : ∀ e ∈ eventsOf (trace ++ [⟨r, a, events⟩]), ∃ o ∈ r.outboxes,
        o.number = e.number := by
      intro e he
      rw [eventsOf_snoc] at he
      rcases List.mem_append.mp he with he | he
      · exact hknown e he
      · exact number_of_event hacts he
    refine ⟨distinct_acts hd hacts, fun e he => ?_, fun o ho => ?_⟩
    · obtain ⟨o, ho, hnumber⟩ := hknown' e he
      refine ⟨o.after a, ?_, by rw [Outbox.number_after, hnumber]⟩
      rw [houtboxes]
      exact List.mem_append_left _ (List.mem_map_of_mem ho)
    · rw [houtboxes] at ho
      rcases List.mem_append.mp ho with ho | ho
      · obtain ⟨o, hmem, rfl⟩ := List.mem_map.mp ho
        obtain ⟨hattended, hreceived⟩ := hfared o hmem
        exact ⟨hattended.acts hd hmem hacts, hreceived.acts hd hmem hacts⟩
      · exact fared_joined hacts (Option.mem_toList.mp ho) hknown'

/-! ## Taking what is left -/

/-- A client that has left takes what is in its send buffer, and then learns that
    there is no more. -/
theorem exists_drain (hd : Distinct r) (ho : o ∈ r.outboxes) (hlistening : o.listening = true)
    (hleft : o.attached = false) : ∃ (segment : Trace) (r' : Realm), Run act r segment r' ∧
      segment.map (·.move) = List.replicate (o.buffer.length + 1) (.take o.number) ∧
      eventsOf segment = o.buffer.map (.took o.number) ++ [.ended o.number] := by
  generalize hbuffer : o.buffer = buffer
  induction buffer generalizing r o with
  | nil =>
    have hstep : r.act (.take o.number) = some (r, [.ended o.number]) := by
      simp [act, hd.outbox_eq ho, hlistening, Outbox.take, hbuffer, hleft]
    exact ⟨_, r, Run.start.move hstep, rfl, rfl⟩
  | cons text rest ih =>
    have hstep : r.act (.take o.number)
        = some (r.modify o.number fun _ => { o with buffer := rest }, [.took o.number text]) := by
      simp [act, hd.outbox_eq ho, hlistening, Outbox.take, hbuffer]
    have hacts := acts_of_act hstep
    have hmem : { o with buffer := rest }
        ∈ (r.modify o.number fun _ => { o with buffer := rest }).outboxes :=
      List.mem_map.mpr ⟨o, ho, if_pos rfl⟩
    obtain ⟨segment, r', hrun, hmoves, hevents⟩ :=
      ih (o := { o with buffer := rest }) (distinct_acts hd hacts) hmem hlistening hleft rfl
    refine ⟨_, r', (Run.start.move hstep).append hrun, ?_, ?_⟩
    · rw [List.map_append, hmoves, List.length_cons, List.replicate_succ]
      rfl
    · rw [eventsOf_append, hevents]
      rfl

/-! ## Main theorem -/

section run
variable {name : String} {incarnation : Nat} (h : Run act (start name incarnation) trace r)
include h

/-- Whoever joined is remembered by its send buffer. -/
theorem exists_outbox {st : Stage Realm Action Event} (hst : st ∈ trace)
    {client number capacity : Nat} (hmove : st.move = .obey (.add client number capacity)) :
    ∃ o ∈ r.outboxes, o.client = client ∧ o.number = number ∧ o.capacity = capacity := by
  induction h with
  | start => cases hst
  | @move trace r r' a events hrun hstep ih =>
    have houtboxes := outboxes_act (attendance hrun).1 (acts_of_act hstep)
    rw [houtboxes]
    rcases List.mem_append.mp hst with hst | hst
    · obtain ⟨o, ho, hclient, hnumber, hcapacity⟩ := ih hst
      refine ⟨o.after a, List.mem_append_left _ (List.mem_map_of_mem ho), ?_⟩
      rw [Outbox.client_after, Outbox.number_after, Outbox.capacity_after]
      exact ⟨hclient, hnumber, hcapacity⟩
    · obtain rfl := List.mem_singleton.mp hst
      obtain rfl : a = .obey (.add client number capacity) := hmove
      exact ⟨.joining client number capacity, List.mem_append_right _ (List.mem_singleton.mpr rfl),
        rfl, rfl, rfl⟩

/-- As long as a client attends, its send buffer is given every text. -/
theorem accepted_of_attends {client number : Nat} {window : Trace} (hwindow : window ⊆ trace)
    (hattends : ∀ st ∈ window, Attends client number st) :
    accepted number window = broadcasts window := by
  induction window with
  | nil => rfl
  | cons st window ih =>
    obtain ⟨⟨_, -, hreached⟩, r', hstep⟩ := h.stage_reached (hwindow (List.mem_cons_self ..))
    have hd : Distinct st.before := (attendance hreached).1
    have hacts : Acts st.before st.move r' st.events := acts_of_act hstep
    obtain ⟨⟨o, ho, rfl, rfl, -⟩, -⟩ := hattends st (List.mem_cons_self ..)
    have hst := hattends st (List.mem_cons_self ..)
    have hrest := ih (fun _ hmem => hwindow (List.mem_cons_of_mem _ hmem))
      fun _ hmem => hattends _ (List.mem_cons_of_mem _ hmem)
    calc accepted o.number (st :: window)
        = st.events.filterMap (Event.accepted? o.number) ++ accepted o.number window := by
          simp [accepted, eventsOf]
      _ = st.move.text?.toList ++ broadcasts window := by
          rw [(events_act hd ho hacts).1, (attending_after hd ho hacts hst).2, hrest]
      _ = broadcasts (st :: window) := by
          cases htext : st.move.text? <;> simp [broadcasts, htext]

/-- Every client that joined a realm was given, in order and once each, the texts
    that were broadcast from then until it left: with its removal, or with the
    first broadcast that found its send buffer full or nobody taking from it,
    which it was not given any more.  It takes them in that order, and once it
    has left it can take the last of them and learns that there is no more.
    Clients that attend at the same time are given the same texts meanwhile. -/
theorem fan_out_gap_free :
    (∀ st ∈ trace, ∀ client number capacity, st.move = .obey (.add client number capacity) →
      ∃ o ∈ r.outboxes, o.client = client ∧ o.number = number ∧ o.capacity = capacity) ∧
    (∀ o ∈ r.outboxes, Attended trace o ∧ Received trace o ∧
      (o.listening = true → o.attached = false →
        ∃ (segment : Trace) (r' : Realm), Run act r segment r' ∧
          segment.map (·.move) = List.replicate (o.buffer.length + 1) (.take o.number) ∧
          eventsOf segment = o.buffer.map (.took o.number) ++ [.ended o.number])) ∧
    ∀ earlier window later : Trace, trace = earlier ++ window ++ later →
      ∀ o₁ ∈ r.outboxes, ∀ o₂ ∈ r.outboxes,
        (∀ st ∈ window, Attends o₁.client o₁.number st ∧ Attends o₂.client o₂.number st) →
        accepted o₁.number window = broadcasts window ∧
          accepted o₂.number window = broadcasts window := by
  obtain ⟨hd, -, hfared⟩ := attendance h
  refine ⟨?_, ?_, ?_⟩
  · intro st hst client number capacity hmove
    exact exists_outbox h hst hmove
  · intro o ho
    obtain ⟨hattended, hreceived⟩ := hfared o ho
    exact ⟨hattended, hreceived, exists_drain hd ho⟩
  · intro earlier window later hsplit o₁ _ o₂ _ hattend
    have hwindow : window ⊆ trace := by
      intro st hst
      rw [hsplit]
      exact List.mem_append_left _ (List.mem_append_right _ hst)
    exact ⟨accepted_of_attends h hwindow fun st hst => (hattend st hst).1,
      accepted_of_attends h hwindow fun st hst => (hattend st hst).2⟩

end run

/-- One client has room for a single frame and leaves with the second one, which
    another client gets.  A third client drops its receiver after the first frame,
    and leaves with the second one too. -/
theorem fan_out_to_slow_and_fast :
    ∃ (trace : Trace) (r : Realm),
      trace.map (·.move) =
        [.obey (.add 1 1 1), .obey (.add 2 2 4), .obey (.add 3 3 4), .obey (.broadcast "one"),
          .abandon 3, .obey (.broadcast "two"), .obey .count, .obey .retireIfEmpty,
          .take 1, .take 1] ∧
      Run act (start "/pmb/t/" 1) trace r ∧
      ∃ slow ∈ r.outboxes, ∃ fast ∈ r.outboxes, ∃ deaf ∈ r.outboxes,
        (slow.attached = false ∧ Attended trace slow ∧ Received trace slow) ∧
        (fast.buffer = ["one", "two"] ∧ Attended trace fast ∧ Received trace fast) ∧
        deaf.attached = false ∧ deaf.listening = false ∧ accepted deaf.number trace = ["one"] ∧
          Attended trace deaf ∧ Received trace deaf := by
  have hstart : Run act (start "/pmb/t/" 1) [] _ := .start
  have hjoined := ((hstart.move (m := .obey (.add 1 1 1)) rfl).move
    (m := .obey (.add 2 2 4)) rfl).move (m := .obey (.add 3 3 4)) rfl
  -- the second frame finds one buffer full and one receiver gone
  have hoverflow := ((hjoined.move (m := .obey (.broadcast "one")) rfl).move
    (m := .abandon 3) rfl).move (m := .obey (.broadcast "two")) rfl
  have hasked := (hoverflow.move (m := .obey .count) rfl).move (m := .obey .retireIfEmpty) rfl
  have htaken := (hasked.move (m := .take 1) rfl).move (m := .take 1) rfl
  have hfared := (fan_out_gap_free htaken).2.1
  have hslow := hfared _ (.head _)
  have hfast := hfared _ (.tail _ (.head _))
  have hdeaf := hfared _ (.tail _ (.tail _ (.head _)))
  exact ⟨_, _, rfl, htaken, _, .head _, _, .tail _ (.head _), _, .tail _ (.tail _ (.head _)),
    ⟨rfl, hslow.1, hslow.2.1⟩, ⟨rfl, hfast.1, hfast.2.1⟩, rfl, rfl, rfl, hdeaf.1, hdeaf.2.1⟩

end MessageBus.Realm
