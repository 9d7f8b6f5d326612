import MessageBus.Proofs.Introducer.Traffic

/-! # Whoever is outranked will hear of it

    An introducer that is active while another one outranks it has something to
    wait for: an announcement of the other is on its way or about to be made, or
    its own roll call is, or its link is down and it will call the roll once the
    link is up again.  The one exception is a roll call that went out while the
    link of the other was down.  `missed` reads that off the history of a run.

    * `pending_of_outranked`: this holds along every run. -/

namespace MessageBus.Introducer

variable {keys : KeySet}

/-! ## Outranking, and missing a roll call -/

/-- Whether announcing `level` takes an introducer of the level `own` out of
    office. -/
def outranks (level own : Binary64) : Bool := (heard? level).any fun l => own < l

theorem outranks_iff {level own : Binary64} :
    outranks level own = true ↔ ∃ l, heard? level = some l ∧ own < l := by
  simp [outranks, Option.any_eq_true]

/-- Whether an introducer is attached and active. -/
def isActive (net : Network) (id : String) : Bool :=
  match net id with
  | some m => m.election.isActive
  | none => false

/-- Whether an introducer is attached and its link is down. -/
def isCutOff (net : Network) (id : String) : Bool :=
  match net id with
  | some m => !m.isUp
  | none => false

/-- Whether a body of a roll call of `x` went over the bus. -/
def callsRoll (x : String) (st : Stage Network (String × Act) Broadcast) : Bool :=
  st.events.any fun b => b.sender.id == x && b.message == .introducerRollCall

/-- Whether an arrival at an introducer is an announcement of `y` that takes it
    out of office. -/
def Arrival.isDemotion (y : String) (own : Binary64) : Arrival → Bool
  | .broadcast ⟨sender, _, .introducerPresent level, _⟩ => sender.id == y && outranks level own
  | _ => false

/-- Whether `x` handles an announcement of `y` that takes it out of office. -/
def isDemotedBy (x y : String) (st : Stage Network (String × Act) Broadcast) : Bool :=
  match st.move, st.before x with
  | (id, .handle index _), some m =>
    id == x && (m.arriving[index]?).any (Arrival.isDemotion y m.election.level)
  | _, _ => false

/-- One stage of `missed`. -/
def missedStep (x y : String) (missed : Bool)
    (st : Stage Network (String × Act) Broadcast) : Bool :=
  if callsRoll x st then isActive st.before x && isCutOff st.before y
  else if isDemotedBy x y st then false
  else missed

/-- Whether the last body of a roll call that `x` made in office went out while
    the link of `y` was down, and `x` has not handled an announcement of `y` since
    that took it out of office. -/
def missed (x y : String) (history : History) : Bool := history.foldl (missedStep x y) false

theorem missed_snoc (x y : String) (history : History)
    (st : Stage Network (String × Act) Broadcast) :
    missed x y (history ++ [st]) = missedStep x y (missed x y history) st := by
  simp [missed]

/-! ## What is pending -/

/-- What an introducer can wait for to hear the level of another. -/
inductive Pending (low high : Member) : Prop where
  /-- The level is on its way. -/
  | announced {b : Broadcast} :
      .broadcast b ∈ low.arriving → b.message = .introducerPresent high.election.level →
      Pending low high
  /-- The other one is about to announce itself. -/
  | announcing : .introducerPresent high.election.level ∈ high.unsent → Pending low high
  /-- A roll call is on its way to the other one. -/
  | called {b : Broadcast} :
      .broadcast b ∈ high.arriving → b.message = .introducerRollCall → Pending low high
  /-- A roll call is about to be made. -/
  | calling : .introducerRollCall ∈ low.unsent → Pending low high
  /-- The link is up again, which is not handled yet. -/
  | reconnecting : .reconnected ∈ low.arriving → Pending low high
  /-- The link is down. -/
  | cutOff : low.isUp = false → Pending low high

namespace Pending

variable {low low' high high' : Member}

/-- Nothing that is pending goes away while more is sent and more arrives. -/
theorem grow (h : Pending low high) (hlevel : high'.election.level = high.election.level)
    (harriving : ∀ a ∈ low.arriving, a ∈ low'.arriving)
    (hunsent : ∀ message ∈ low.unsent, message ∈ low'.unsent)
    (hup : low.isUp = false → low'.isUp = false)
    (harriving' : ∀ a ∈ high.arriving, a ∈ high'.arriving)
    (hunsent' : ∀ message ∈ high.unsent, message ∈ high'.unsent) : Pending low' high' := by
  cases h with
  | announced hb hmessage => exact .announced (harriving _ hb) (by rw [hmessage, hlevel])
  | announcing hmessage => exact .announcing (by rw [hlevel]; exact hunsent' _ hmessage)
  | called hb hmessage => exact .called (harriving' _ hb) hmessage
  | calling hmessage => exact .calling (hunsent _ hmessage)
  | reconnecting ha => exact .reconnecting (harriving _ ha)
  | cutOff hdown => exact .cutOff (hup hdown)

theorem bystanders (h : Pending low high) (hlow : Bystander low low')
    (hhigh : Bystander high high') : Pending low' high' := by
  refine h.grow (by rw [hhigh.election]) hlow.arriving ?_ ?_ hhigh.arriving ?_
  · intro message hmessage
    rw [hlow.unsent]
    exact hmessage
  · intro hdown
    rw [hlow.isUp, hdown]
  · intro message hmessage
    rw [hhigh.unsent]
    exact hmessage

/-- Handling an arrival that is no announcement of the other one, and not the
    news of the link either, loses nothing. -/
theorem take_low (h : Pending low high) {index : Nat} {b : Broadcast}
    (hb : low.arriving[index]? = some (.broadcast b))
    (hne : b.message ≠ .introducerPresent high.election.level) :
    Pending (low.take index) high := by
  cases h with
  | announced hb' hmessage =>
    refine .announced (mem_take_of_ne hb' hb ?_) hmessage
    intro he
    rw [Arrival.broadcast.inj he] at hmessage
    exact hne hmessage
  | announcing hmessage => exact .announcing hmessage
  | called hb' hmessage => exact .called hb' hmessage
  | calling hmessage => exact .calling hmessage
  | reconnecting ha =>
    refine .reconnecting (mem_take_of_ne ha hb ?_)
    intro he
    cases he
  | cutOff hdown => exact .cutOff hdown

/-- Handling anything but a roll call leaves the other one with what it has to
    do. -/
theorem take_high (h : Pending low high) {index : Nat} {a : Arrival}
    (ha : high.arriving[index]? = some a)
    (hne : ∀ b, a = .broadcast b → b.message ≠ .introducerRollCall) :
    Pending low (high.take index) := by
  cases h with
  | announced hb hmessage => exact .announced hb hmessage
  | announcing hmessage => exact .announcing hmessage
  | called hb hmessage =>
    refine .called (mem_take_of_ne hb ha ?_) hmessage
    rintro rfl
    exact hne _ rfl hmessage
  | calling hmessage => exact .calling hmessage
  | reconnecting ha' => exact .reconnecting ha'
  | cutOff hdown => exact .cutOff hdown

theorem observe_low (h : Pending low high) (event : Election.Event) :
    Pending (low.observe event) high :=
  h.grow rfl (fun _ ha => ha) (fun _ hm => mem_unsent_observe_of_mem hm event)
    (fun hdown => hdown) (fun _ ha => ha) (fun _ hm => hm)

theorem observe_high (h : Pending low high) (event : Election.Event) :
    Pending low (high.observe event) :=
  h.grow (high.level_observe event) (fun _ ha => ha) (fun _ hm => hm) (fun hdown => hdown)
    (fun _ ha => ha) (fun _ hm => mem_unsent_observe_of_mem hm event)

end Pending

/-! ## Moves of the two -/

theorem next_presence_active {e : Election} {l : Binary64}
    (h : (e.next (.presence l)).isActive = true) : e.isActive = true ∧ ¬ e.level < l :=
  (Election.isActive_presence_iff e l).mp h

/-- What the lower one does keeps it waiting, or takes it out of office. -/
theorem pending_of_low_moves {id : String} {low low' high : Member} {act : Act}
    (hrank : outranks high.election.level low.election.level = true)
    (h : low.isStarted = true → low.election.isActive = true → Pending low high)
    (hm : OwnMove keys id low act low') (hactive : low'.election.isActive = true)
    (hstarted : low'.isStarted = true) : Pending low' high := by
  obtain ⟨heard, hheard, hlt⟩ := outranks_iff.mp hrank
  -- a move that puts the lower one back in office makes it call the roll
  cases hm with
  | started _ =>
    have hcall : Election.Output.callRoll ∈ low.election.outputs .startup := by
      simp [Election.outputs]
    exact .calling (mem_unsent_observe_of_output hcall)
  | prepared _ hflight houtbox hbodies _ =>
    exact (h hstarted hactive).grow rfl (fun _ ha => ha)
      (fun _ => mem_unsent_prepared hflight houtbox hbodies fun b hb => (mem_broadcasts hb).2)
      (fun hdown => hdown) (fun _ ha => ha) (fun _ hm => hm)
  | answered hlow hb hmessage =>
    refine ((h hlow hactive).take_low hb ?_).observe_low _
    rw [hmessage]
    exact fun he => by cases he
  | @heard _ _ b level l hlow hb hmessage hl =>
    obtain ⟨hwas, hnlt⟩ := next_presence_active hactive
    refine ((h hlow hwas).take_low hb ?_).observe_low _
    -- the announcement of the higher one would have ended the office
    rw [hmessage]
    intro he
    cases he
    rw [hheard] at hl
    exact hnlt (Option.some.inj hl ▸ hlt)
  | ignored hlow hb hmessage hnone =>
    refine (h hlow hactive).take_low hb ?_
    rw [hmessage]
    intro he
    cases he
    rw [hheard] at hnone
    cases hnone
  | @recovered index _ _ _ =>
    have hcall : Election.Output.callRoll ∈ (low.take index).election.outputs .reconnected := by
      simp [Election.outputs]
    exact .calling (mem_unsent_observe_of_output hcall)
  | silent hlow =>
    by_cases hwas : low.election.isActive = true
    · exact (h hlow hwas).observe_low _
    · have hcall : Election.Output.callRoll ∈ low.election.outputs .silence := by
        simp [Election.outputs, hwas]
      exact .calling (mem_unsent_observe_of_output hcall)
  | lost _ => exact .cutOff rfl
  | reopened _ => exact .reconnecting (List.mem_append_right _ (List.mem_singleton.mpr rfl))

/-- What the higher one does brings its announcement on the way. -/
theorem pending_of_high_moves {id : String} {low high high' : Member} {act : Act}
    (h : high.isStarted = true → Pending low high) (hm : OwnMove keys id high act high')
    (hstarted : high'.isStarted = true) : Pending low high' := by
  cases hm with
  | started _ =>
    have hannounce : Election.Output.announce high.election.level
        ∈ high.election.outputs .startup := by
      simp [Election.outputs]
    exact .announcing (mem_unsent_observe_of_output hannounce)
  | prepared _ hflight houtbox hbodies _ =>
    exact (h hstarted).grow rfl (fun _ ha => ha) (fun _ hm => hm) (fun hdown => hdown)
      (fun _ ha => ha)
      (fun _ => mem_unsent_prepared hflight houtbox hbodies fun b hb => (mem_broadcasts hb).2)
  | @answered index _ _ hhigh hb hmessage =>
    have hannounce : Election.Output.announce high.election.level
        ∈ (high.take index).election.outputs .rollCall := by
      simp [Election.outputs, Member.take]
    exact .announcing (mem_unsent_observe_of_output hannounce)
  | heard hhigh hb hmessage hl =>
    refine ((h hhigh).take_high hb ?_).observe_high _
    rintro b' ⟨⟩
    rw [hmessage]
    exact fun he => by cases he
  | ignored hhigh hb hmessage hnone =>
    refine (h hhigh).take_high hb ?_
    rintro b' ⟨⟩
    rw [hmessage]
    exact fun he => by cases he
  | recovered hhigh ha => exact ((h hhigh).take_high ha (fun b he => by cases he)).observe_high _
  | silent hhigh => exact (h hhigh).observe_high _
  | lost _ =>
    exact (h hstarted).grow rfl (fun _ ha => ha) (fun _ hm => hm) (fun hdown => hdown)
      (fun _ ha => ha) (fun _ hm => hm)
  | reopened _ =>
    exact (h hstarted).grow rfl (fun _ ha => ha) (fun _ hm => hm) (fun hdown => hdown)
      (fun _ ha => List.mem_append_left _ ha) (fun _ hm => hm)

/-- A body of the lower one goes over the bus. -/
theorem pending_of_low_transmits {low high high' : Member} {b : Broadcast}
    {rest : List Broadcast} (h : Pending low high) (hflight : low.flight = b :: rest)
    (hne : b.message ≠ .introducerRollCall) (hhigh : Bystander high high') :
    Pending { low with flight := rest } high' := by
  refine Pending.bystanders ?_ (.refl _) hhigh
  cases h with
  | announced hb hmessage => exact .announced hb hmessage
  | announcing hmessage => exact .announcing hmessage
  | called hb hmessage => exact .called hb hmessage
  | calling hmessage =>
    rw [Member.unsent, hflight] at hmessage
    rcases List.mem_cons.mp hmessage with he | hmessage
    · exact absurd he.symm hne
    · exact .calling hmessage
  | reconnecting ha => exact .reconnecting ha
  | cutOff hdown => exact .cutOff hdown

/-- A body of the higher one goes over the bus. -/
theorem pending_of_high_transmits {low low' high : Member} {b : Broadcast}
    {rest : List Broadcast} (h : Pending low high) (hflight : high.flight = b :: rest)
    (hne : b.message ≠ .introducerPresent high.election.level) (hlow : Bystander low low') :
    Pending low' { high with flight := rest } := by
  refine Pending.bystanders ?_ hlow (.refl _)
  cases h with
  | announced hb hmessage => exact .announced hb hmessage
  | announcing hmessage =>
    rw [Member.unsent, hflight] at hmessage
    rcases List.mem_cons.mp hmessage with he | hmessage
    · exact absurd he.symm hne
    · exact .announcing hmessage
  | called hb hmessage => exact .called hb hmessage
  | calling hmessage => exact .calling hmessage
  | reconnecting ha => exact .reconnecting ha
  | cutOff hdown => exact .cutOff hdown

/-! ## What a move does to the record of missed roll calls -/

theorem callsRoll_nil (x : String) (net : Network) (move : String × Act) :
    callsRoll x ⟨net, move, []⟩ = false := rfl

theorem callsRoll_single (x : String) (net : Network) (move : String × Act) (b : Broadcast) :
    callsRoll x ⟨net, move, [b]⟩ = (b.sender.id == x && b.message == .introducerRollCall) := by
  simp [callsRoll]

theorem isDemotedBy_of_ne {x y id : String} (h : id ≠ x) (net : Network) (act : Act)
    (events : List Broadcast) : isDemotedBy x y ⟨net, (id, act), events⟩ = false := by
  unfold isDemotedBy
  split
  · next heq _ =>
    obtain ⟨rfl, -⟩ := Prod.mk.inj heq
    simp [h]
  · rfl

/-- Only moves of `x` count. -/
theorem missedStep_of_ne {net net' : Network} {id x y : String} {act : Act}
    {events : List Broadcast} (h : Moves keys net (id, act) net' events) (hne : id ≠ x)
    (before : Bool) : missedStep x y before ⟨net, (id, act), events⟩ = before := by
  have hcall : callsRoll x ⟨net, (id, act), events⟩ = false := by
    cases h with
    | attached _ | own _ _ | crashed _ => rfl
    | transmitted hm hup hflight hid _ =>
      rw [callsRoll_single, hid]
      simp [hne]
  simp [missedStep, hcall, isDemotedBy_of_ne hne]

theorem isDemotion_presence {b : Broadcast} {level : Binary64}
    (h : b.message = .introducerPresent level) (y : String) (own : Binary64) :
    (Arrival.broadcast b).isDemotion y own = (b.sender.id == y && outranks level own) := by
  obtain ⟨sender, occasion, message, body⟩ := b
  cases h
  rfl

theorem isDemotion_rollCall {b : Broadcast} (h : b.message = .introducerRollCall) (y : String)
    (own : Binary64) : (Arrival.broadcast b).isDemotion y own = false := by
  obtain ⟨sender, occasion, message, body⟩ := b
  cases h
  rfl

theorem isDemotedBy_handle {net : Network} {x y : String} {m : Member} {a : Arrival}
    {index : Nat} (hm : net x = some m) (ha : m.arriving[index]? = some a)
    (succeeds : Deed → Bool) (events : List Broadcast) :
    isDemotedBy x y ⟨net, (x, .handle index succeeds), events⟩
      = a.isDemotion y m.election.level := by
  simp [isDemotedBy, hm, ha]

/-- The level heard of an announcement that outranks an introducer takes it out
    of office. -/
theorem standby_of_outranks {e : Election} {level l : Binary64} (hl : heard? level = some l)
    (h : outranks level e.level = true) : (e.next (.presence l)).isActive = false := by
  obtain ⟨l', hl', hlt⟩ := outranks_iff.mp h
  obtain rfl : l = l' := Option.some.inj (hl.symm.trans hl')
  simp [Election.next, hlt]

theorem standby_of_isDemotedBy {net : Network} {x y : String} {m m' : Member} {act : Act}
    {events : List Broadcast} (hm : net x = some m) (h : OwnMove keys x m act m')
    (hd : isDemotedBy x y ⟨net, (x, act), events⟩ = true) : m'.election.isActive = false := by
  cases h with
  | answered hstarted hb hmessage =>
    rw [isDemotedBy_handle hm hb, isDemotion_rollCall hmessage] at hd
    cases hd
  | heard hstarted hb hmessage hl =>
    rw [isDemotedBy_handle hm hb, isDemotion_presence hmessage, Bool.and_eq_true] at hd
    exact standby_of_outranks hl hd.2
  | ignored hstarted hb hmessage hnone =>
    rw [isDemotedBy_handle hm hb, isDemotion_presence hmessage, Bool.and_eq_true] at hd
    obtain ⟨l, hl, -⟩ := outranks_iff.mp hd.2
    rw [hl] at hnone
    cases hnone
  | recovered hstarted ha =>
    rw [isDemotedBy_handle hm ha] at hd
    cases hd
  | started _ | prepared _ _ _ _ _ | silent _ | lost _ | reopened _ => cases hd

/-- While `x` stays in office its moves other than broadcasts leave the record
    as it is. -/
theorem missedStep_of_active {net : Network} {x : String} {m m' : Member} {act : Act}
    (hm : net x = some m) (h : OwnMove keys x m act m') (hactive : m'.election.isActive = true)
    (y : String) (before : Bool) : missedStep x y before ⟨net, (x, act), []⟩ = before := by
  have hd : isDemotedBy x y ⟨net, (x, act), []⟩ = false := by
    rcases Bool.eq_false_or_eq_true (isDemotedBy x y ⟨net, (x, act), []⟩) with hd | hd
    · rw [standby_of_isDemotedBy hm h hd] at hactive
      cases hactive
    · exact hd
  simp [missedStep, callsRoll_nil, hd]

theorem missedStep_of_transmit {net : Network} {x y : String} {b : Broadcast}
    (hid : b.sender.id = x) (before : Bool) :
    missedStep x y before ⟨net, (x, .transmit), [b]⟩
      = if b.message = .introducerRollCall then isActive net x && isCutOff net y else before := by
  have hd : isDemotedBy x y ⟨net, (x, .transmit), [b]⟩ = false := rfl
  rw [missedStep, callsRoll_single, hid, hd]
  simp

/-! ## Along a run -/

/-- Every introducer in office that is outranked has something pending, or has
    missed the other one. -/
def AllPending (history : History) (net : Network) : Prop :=
  ∀ x y mx my, x ≠ y → net x = some mx → net y = some my →
    mx.isStarted = true → my.isStarted = true → mx.election.isActive = true →
    outranks my.election.level mx.election.level = true →
    missed x y history = true ∨ Pending mx my

/-- A move of the lower one. -/
theorem allPending_low {history : History} {net net' : Network} {x y : String} {act : Act}
    {events : List Broadcast} {mx' my' : Member} (h : AllPending history net)
    (hm : Moves keys net (x, act) net' events) (hxy : x ≠ y) (hx' : net' x = some mx')
    (hy' : net' y = some my') (hxs' : mx'.isStarted = true) (hys' : my'.isStarted = true)
    (hactive' : mx'.election.isActive = true)
    (hrank' : outranks my'.election.level mx'.election.level = true) :
    missedStep x y (missed x y history) ⟨net, (x, act), events⟩ = true ∨ Pending mx' my' := by
  obtain ⟨my, hy, hby⟩ := hm.bystander (fun he => hxy he.symm) hy'
  rw [hby.isStarted] at hys'
  rw [hby.election] at hrank'
  cases hm.moved hx' with
  | attached _ => cases hxs'
  | @own _ mx _ hx hown =>
    rw [hown.level] at hrank'
    rw [missedStep_of_active hx hown hactive']
    -- whoever is active after its own move may have been on standby before it
    by_cases hmissed : missed x y history = true
    · exact .inl hmissed
    · have hbefore : mx.isStarted = true → mx.election.isActive = true → Pending mx my :=
        fun hxs hactive => (h x y mx my hxy hx hy hxs hys' hactive hrank').resolve_left hmissed
      exact .inr ((pending_of_low_moves hrank' hbefore hown hactive' hxs').bystanders
        (.refl _) hby)
  | @transmitted mx b rest hx hup hflight hid _ =>
    rw [missedStep_of_transmit hid]
    by_cases hcall : b.message = .introducerRollCall
    · rw [if_pos hcall]
      cases hyup : my.isUp with
      | false => exact .inl (by simpa [isActive, isCutOff, hx, hy, hyup] using hactive')
      | true =>
        -- the roll call reaches the higher one
        have harrived := hm.arrives (fun he => hxy he.symm) hy hyup hy' b
          (List.mem_singleton.mpr rfl)
        exact .inr (.called harrived hcall)
    · rw [if_neg hcall]
      rcases h x y mx my hxy hx hy hxs' hys' hactive' hrank' with hmissed | hpending
      · exact .inl hmissed
      · exact .inr (pending_of_low_transmits hpending hflight hcall hby)

/-- A move of the higher one. -/
theorem allPending_high {history : History} {net net' : Network} {x y : String} {act : Act}
    {events : List Broadcast} {mx' my' : Member} (h : AllPending history net)
    (hm : Moves keys net (y, act) net' events) (hxy : x ≠ y) (hx' : net' x = some mx')
    (hy' : net' y = some my') (hxs' : mx'.isStarted = true) (hys' : my'.isStarted = true)
    (hactive' : mx'.election.isActive = true)
    (hrank' : outranks my'.election.level mx'.election.level = true) :
    missed x y history = true ∨ Pending mx' my' := by
  obtain ⟨mx, hx, hbx⟩ := hm.bystander hxy hx'
  rw [hbx.isStarted] at hxs'
  rw [hbx.election] at hactive' hrank'
  by_cases hmissed : missed x y history = true
  · exact .inl hmissed
  refine .inr ?_
  cases hm.moved hy' with
  | attached _ => cases hys'
  | @own _ my _ hy hown =>
    rw [hown.level] at hrank'
    have hbefore : my.isStarted = true → Pending mx my := fun hys =>
      (h x y mx my hxy hx hy hxs' hys hactive' hrank').resolve_left hmissed
    exact (pending_of_high_moves hbefore hown hys').bystanders hbx (.refl _)
  | @transmitted my b rest hy hup hflight hid _ =>
    by_cases hannounce : b.message = .introducerPresent my.election.level
    · cases hxup : mx.isUp with
      | false => exact .cutOff (by rw [hbx.isUp, hxup])
      | true =>
        -- the announcement is on its way to the lower one
        have harrived := hm.arrives hxy hx hxup hx' b (List.mem_singleton.mpr rfl)
        exact .announced harrived hannounce
    · have hpending := (h x y mx my hxy hx hy hxs' hys' hactive' hrank').resolve_left hmissed
      exact pending_of_high_transmits hpending hflight hannounce hbx

theorem allPending_moves {history : History} {net net' : Network} {move : String × Act}
    {events : List Broadcast} (h : AllPending history net) (hm : Moves keys net move net' events) :
    AllPending (history ++ [⟨net, move, events⟩]) net' := by
  intro x y mx' my' hxy hx' hy' hxs' hys' hactive' hrank'
  obtain ⟨id, act⟩ := move
  rw [missed_snoc]
  by_cases hidx : id = x
  · subst hidx
    exact allPending_low h hm hxy hx' hy' hxs' hys' hactive' hrank'
  · rw [missedStep_of_ne hm hidx]
    by_cases hidy : id = y
    · subst hidy
      exact allPending_high h hm hxy hx' hy' hxs' hys' hactive' hrank'
    · -- a third one moves
      obtain ⟨mx, hx, hbx⟩ := hm.bystander (fun he => hidx he.symm) hx'
      obtain ⟨my, hy, hby⟩ := hm.bystander (fun he => hidy he.symm) hy'
      rw [hbx.isStarted] at hxs'
      rw [hby.isStarted] at hys'
      rw [hbx.election] at hactive' hrank'
      rw [hby.election] at hrank'
      rcases h x y mx my hxy hx hy hxs' hys' hactive' hrank' with hmissed | hpending
      · exact .inl hmissed
      · exact .inr (hpending.bystanders hbx hby)

/-- Whoever is outranked will hear of it, or has missed it. -/
theorem pending_of_outranked (hkeys : keys.CanSeal) {history : History} {net : Network}
    (h : Runs keys history net) : AllPending history net := by
  induction h with
  | start =>
    intro x y mx my _ hx
    cases hx
  | move hrun hstep ih =>
    exact allPending_moves ih (moves_of_step hkeys (Runs.wellFormed hkeys hrun) hstep)

end MessageBus.Introducer
