import MessageBus.Proofs.Introducer.Network

/-! # What is on the way

    A move changes the introducer that makes it, and what is on the way to the
    others.  What is on the way was once in flight at someone else, and no
    introducer ever has anything to send but roll calls and announcements of its
    own level.

    * `Moves.moved`, `Moves.bystander`: what happens to the introducer that moves,
      and to the others.
    * `Moves.arriving_source`: where arrivals come from.
    * `Runs.wellFormed`: nothing but the election is talked about. -/

namespace MessageBus.Introducer

variable {keys : KeySet}

/-! ## Who else is touched -/

/-- What may happen to an introducer while another one moves: something more is
    on its way. -/
structure Bystander (m m' : Member) : Prop where
  election : m'.election = m.election
  isStarted : m'.isStarted = m.isStarted
  isUp : m'.isUp = m.isUp
  outbox : m'.outbox = m.outbox
  flight : m'.flight = m.flight
  arriving : ∀ a ∈ m.arriving, a ∈ m'.arriving

theorem Bystander.refl (m : Member) : Bystander m m :=
  ⟨rfl, rfl, rfl, rfl, rfl, fun _ h => h⟩

theorem Bystander.expect (m : Member) (a : Arrival) : Bystander m (m.expect a) :=
  ⟨rfl, rfl, rfl, rfl, rfl, fun _ h => List.mem_append_left _ h⟩

theorem Bystander.unsent {m m' : Member} (h : Bystander m m') : m'.unsent = m.unsent := by
  rw [Member.unsent, h.outbox, h.flight, Member.unsent]

/-- What a broadcast does to an introducer. -/
theorem deliver_eq_some {net : Network} {b : Broadcast} {id : String} {m' : Member}
    (h : net.deliver b id = some m') :
    ∃ m, net id = some m ∧
      m' = if id ≠ b.sender.id ∧ m.isUp then m.expect (.broadcast b) else m := by
  obtain ⟨m, hm, heq⟩ := Option.map_eq_some_iff.mp h
  exact ⟨m, hm, heq.symm⟩

/-- A broadcast does not come back to its sender. -/
theorem deliver_set_self (net : Network) {b : Broadcast} {id : String} (hid : b.sender.id = id)
    (m? : Option Member) : (net.set id m?).deliver b id = m? := by
  rw [Network.deliver, Network.set_self]
  cases m? <;> simp [hid]

theorem bystander_deliver {net : Network} {b : Broadcast} {id : String} {m' : Member}
    (h : net.deliver b id = some m') : ∃ m, net id = some m ∧ Bystander m m' := by
  obtain ⟨m, hm, rfl⟩ := deliver_eq_some h
  refine ⟨m, hm, ?_⟩
  split
  · exact .expect m _
  · exact .refl m

/-! ## What an introducer does to itself -/

theorem level_next (e : Election) (event : Election.Event) : (e.next event).level = e.level :=
  Election.level_step e event

@[simp] theorem Member.level_observe (m : Member) (event : Election.Event) :
    (m.observe event).election.level = m.election.level := level_next _ _

theorem mem_take {m : Member} {a : Arrival} {index : Nat} (h : a ∈ (m.take index).arriving) :
    a ∈ m.arriving := List.mem_of_mem_eraseIdx h

/-- Everything but the arrival taken stays. -/
theorem mem_take_of_ne {m : Member} {a taken : Arrival} {index : Nat} (h : a ∈ m.arriving)
    (htaken : m.arriving[index]? = some taken) (hne : a ≠ taken) :
    a ∈ (m.take index).arriving := by
  obtain ⟨i, hi⟩ := List.mem_iff_getElem?.mp h
  refine List.mem_eraseIdx_iff_getElem?.mpr ⟨i, ?_, hi⟩
  rintro rfl
  rw [htaken] at hi
  exact hne (Option.some.inj hi).symm

theorem Member.unsent_observe (m : Member) (event : Election.Event) :
    (m.observe event).unsent = m.unsent ++ (m.election.outputs event).map broadcast := by
  simp [Member.unsent, Member.observe]

/-- What an introducer was to send is still to be sent after an observation. -/
theorem mem_unsent_observe_of_mem {m : Member} {message : Message} (h : message ∈ m.unsent)
    (event : Election.Event) : message ∈ (m.observe event).unsent := by
  rw [Member.unsent_observe]
  exact List.mem_append_left _ h

/-- The answer to an observation is to be sent. -/
theorem mem_unsent_observe_of_output {m : Member} {event : Election.Event}
    {output : Election.Output} (h : output ∈ m.election.outputs event) :
    broadcast output ∈ (m.observe event).unsent := by
  rw [Member.unsent_observe]
  exact List.mem_append_right _ (List.mem_map_of_mem h)

/-- The next message is to be sent until its last body is. -/
theorem mem_unsent_prepared {m : Member} {message : Message} {rest : List Message}
    {bodies : List Broadcast} (hflight : m.flight = []) (houtbox : m.outbox = message :: rest)
    (hbodies : bodies ≠ []) (hmessage : ∀ b ∈ bodies, b.message = message) {other : Message}
    (h : other ∈ m.unsent) : other ∈ { m with outbox := rest, flight := bodies }.unsent := by
  rw [Member.unsent, hflight, houtbox] at h
  rcases List.mem_cons.mp h with rfl | h
  -- its place in the outbox is taken by its bodies
  · obtain ⟨b, hb⟩ := List.exists_mem_of_ne_nil _ hbodies
    refine List.mem_append_left _ (List.mem_map.mpr ⟨b, hb, hmessage b hb⟩)
  · exact List.mem_append_right _ h

/-- Whatever is observed, only the election is talked about. -/
theorem mem_unsent_observe {m : Member} {event : Election.Event} {message : Message}
    (h : message ∈ (m.observe event).unsent) :
    message ∈ m.unsent ∨ message = .introducerRollCall ∨
      message = .introducerPresent m.election.level := by
  rw [Member.unsent_observe] at h
  rcases List.mem_append.mp h with h | h
  · exact .inl h
  · obtain ⟨o, ho, rfl⟩ := List.mem_map.mp h
    cases event <;> simp only [Election.outputs] at ho
    case startup =>
      rcases List.mem_cons.mp ho with rfl | ho
      · exact .inr (.inr rfl)
      · obtain rfl := List.mem_singleton.mp ho
        exact .inr (.inl rfl)
    case presence => cases ho
    case rollCall =>
      obtain rfl := List.mem_singleton.mp ho
      exact .inr (.inr rfl)
    case reconnected =>
      obtain rfl := List.mem_singleton.mp ho
      exact .inr (.inl rfl)
    case silence =>
      split at ho
      · cases ho
      · obtain rfl := List.mem_singleton.mp ho
        exact .inr (.inl rfl)

namespace OwnMove

variable {id : String} {m m' : Member} {act : Act}

theorem level (h : OwnMove keys id m act m') : m'.election.level = m.election.level := by
  cases h <;> simp [Member.take, Member.expect]

theorem mem_unsent (h : OwnMove keys id m act m') {message : Message} (hm : message ∈ m'.unsent) :
    message ∈ m.unsent ∨ message = .introducerRollCall ∨
      message = .introducerPresent m.election.level := by
  cases h with
  | started _ => exact mem_unsent_observe hm
  | answered _ _ _ | heard _ _ _ _ | recovered _ _ => exact mem_unsent_observe hm
  | silent _ => exact mem_unsent_observe hm
  | ignored _ _ _ _ | lost _ | reopened _ => exact .inl hm
  | prepared _ hflight houtbox _ _ =>
    refine .inl ?_
    rw [Member.unsent, houtbox]
    rcases List.mem_append.mp hm with hm | hm
    · obtain ⟨b, hb, rfl⟩ := List.mem_map.mp hm
      rw [(mem_broadcasts hb).2]
      exact List.mem_append_right _ (List.mem_cons_self ..)
    · exact List.mem_append_right _ (List.mem_cons_of_mem _ hm)

theorem mem_flight (h : OwnMove keys id m act m') {b : Broadcast} (hb : b ∈ m'.flight) :
    b ∈ m.flight ∨ b.sender.id = id ∧ b.isLegible keys = true := by
  cases h with
  | prepared _ _ _ _ hlegible =>
    refine .inr ⟨?_, hlegible b hb⟩
    rw [(mem_broadcasts hb).1]
  | started _ | silent _ | lost _ | reopened _ => exact .inl hb
  | answered _ _ _ | heard _ _ _ _ | recovered _ _ | ignored _ _ _ _ => exact .inl hb

theorem mem_arriving (h : OwnMove keys id m act m') {b : Broadcast}
    (hb : .broadcast b ∈ m'.arriving) : .broadcast b ∈ m.arriving := by
  cases h with
  | started _ | silent _ | lost _ | prepared _ _ _ _ _ => exact hb
  | answered _ _ _ | heard _ _ _ _ | recovered _ _ | ignored _ _ _ _ => exact mem_take hb
  | reopened _ =>
    rcases List.mem_append.mp hb with hb | hb
    · exact hb
    · cases List.mem_singleton.mp hb

end OwnMove

/-- What an introducer has become by its own move. -/
inductive Moved (keys : KeySet) (net : Network) (id : String) :
    Act → Member → List Broadcast → Prop where
  | attached {host : HostInfo} {level : Binary64} :
      net id = none → Moved keys net id (.attach host level) (.fresh host level) []
  | own {act : Act} {m m' : Member} :
      net id = some m → OwnMove keys id m act m' → Moved keys net id act m' []
  | transmitted {m : Member} {b : Broadcast} {rest : List Broadcast} :
      net id = some m → m.isUp = true → m.flight = b :: rest →
      b.sender.id = id → b.isLegible keys = true →
      Moved keys net id .transmit { m with flight := rest } [b]

namespace Moves

variable {net net' : Network} {id : String} {act : Act} {events : List Broadcast}

/-- Whoever moved and is still attached made one of these moves. -/
theorem moved (h : Moves keys net (id, act) net' events) {m' : Member} (hm' : net' id = some m') :
    Moved keys net id act m' events := by
  cases h with
  | attached hnone =>
    obtain rfl := Option.some.inj ((Network.set_self ..).symm.trans hm')
    exact .attached hnone
  | own hm hown =>
    obtain rfl := Option.some.inj ((Network.set_self ..).symm.trans hm')
    exact .own hm hown
  | transmitted hm hup hflight hid hlegible =>
    rw [deliver_set_self net hid] at hm'
    obtain rfl := Option.some.inj hm'
    exact .transmitted hm hup hflight hid hlegible
  | crashed _ =>
    rw [Network.set_self] at hm'
    cases hm'

/-- While another one moves, an introducer only gets something more to handle. -/
theorem bystander (h : Moves keys net (id, act) net' events) {other : String} {m' : Member}
    (hne : other ≠ id) (hm' : net' other = some m') :
    ∃ m, net other = some m ∧ Bystander m m' := by
  cases h with
  | attached _ | own _ _ | crashed _ =>
    rw [Network.set_of_ne _ _ hne] at hm'
    exact ⟨m', hm', .refl m'⟩
  | transmitted hm hup hflight hid hlegible =>
    obtain ⟨m, hm, hby⟩ := bystander_deliver hm'
    rw [Network.set_of_ne _ _ hne] at hm
    exact ⟨m, hm, hby⟩

/-- What goes over the bus is on its way to everyone else whose link is up. -/
theorem arrives (h : Moves keys net (id, act) net' events) {other : String} {m m' : Member}
    (hne : other ≠ id) (hm : net other = some m) (hup : m.isUp = true)
    (hm' : net' other = some m') (b : Broadcast) (hb : b ∈ events) :
    .broadcast b ∈ m'.arriving := by
  cases h with
  | attached _ | own _ _ | crashed _ => cases hb
  | transmitted _ _ _ hid _ =>
    obtain rfl := List.mem_singleton.mp hb
    obtain ⟨m₁, hm₁, rfl⟩ := deliver_eq_some hm'
    rw [Network.set_of_ne _ _ hne, hm] at hm₁
    obtain rfl := Option.some.inj hm₁
    rw [if_pos ⟨by rw [hid]; exact hne, hup⟩]
    exact List.mem_append_right _ (List.mem_singleton.mpr rfl)

/-- Nobody goes away but by a crash. -/
theorem stays (h : Moves keys net (id, act) net' events) (hact : act ≠ .crash) {other : String}
    {m : Member} (hm : net other = some m) :
    ∃ m', net' other = some m' ∧ m'.election.level = m.election.level := by
  by_cases hother : other = id
  · subst hother
    cases h with
    | attached hnone =>
      rw [hm] at hnone
      cases hnone
    | @own _ _ m₁ m₂ hm₁ hown =>
      obtain rfl : m = m₁ := Option.some.inj (hm.symm.trans hm₁)
      exact ⟨m₂, Network.set_self .., hown.level⟩
    | @transmitted _ m₁ b rest hm₁ hup hflight hid hlegible =>
      obtain rfl : m = m₁ := Option.some.inj (hm.symm.trans hm₁)
      exact ⟨{ m with flight := rest }, deliver_set_self net hid _, rfl⟩
    | crashed _ => exact absurd rfl hact
  · cases h with
    | attached _ | own _ _ | crashed _ =>
      exact ⟨m, by rw [Network.set_of_ne _ _ hother, hm], rfl⟩
    | transmitted hm₁ hup hflight hid hlegible =>
      refine ⟨_, by rw [Network.deliver, Network.set_of_ne _ _ hother, hm, Option.map_some], ?_⟩
      split <;> rfl

/-- What is on the way was on the way before or was just in flight at its
    sender. -/
theorem arriving_source (h : Moves keys net (id, act) net' events) {other : String} {m' : Member}
    {b : Broadcast} (hm' : net' other = some m') (hb : .broadcast b ∈ m'.arriving) :
    (∃ m, net other = some m ∧ .broadcast b ∈ m.arriving) ∨
      (b.sender.id ≠ other ∧ b.isLegible keys = true ∧
        ∃ s, net b.sender.id = some s ∧ b.message ∈ s.unsent) := by
  by_cases hother : other = id
  · subst hother
    cases h.moved hm' with
    | attached _ => cases hb
    | own hm hown => exact .inl ⟨_, hm, hown.mem_arriving hb⟩
    | transmitted hm _ _ _ _ => exact .inl ⟨_, hm, hb⟩
  · cases h with
    | attached _ | own _ _ | crashed _ =>
      rw [Network.set_of_ne _ _ hother] at hm'
      exact .inl ⟨m', hm', hb⟩
    | @transmitted _ s b' rest hs hup hflight hid hlegible =>
      obtain ⟨m, hm, rfl⟩ := deliver_eq_some hm'
      rw [Network.set_of_ne _ _ hother] at hm
      split at hb
      · rcases List.mem_append.mp hb with hb | hb
        · exact .inl ⟨m, hm, hb⟩
        -- it has just gone over the bus
        · obtain rfl : b = b' := Arrival.broadcast.inj (List.mem_singleton.mp hb)
          subst hid
          refine .inr ⟨fun he => hother he.symm, hlegible, s, hs, ?_⟩
          rw [Member.unsent, hflight]
          exact List.mem_cons_self ..
      · exact .inl ⟨m, hm, hb⟩

/-- Only the election is ever about to be talked about. -/
theorem unsent_cases (h : Moves keys net (id, act) net' events) (hw : WellFormed keys net)
    {other : String} {m' : Member} (hm' : net' other = some m') {message : Message}
    (hmessage : message ∈ m'.unsent) :
    message = .introducerRollCall ∨ message = .introducerPresent m'.election.level := by
  by_cases hother : other = id
  · subst hother
    cases h.moved hm' with
    | attached _ => cases hmessage
    | own hm hown =>
      rw [hown.level]
      rcases hown.mem_unsent hmessage with hmessage | hmessage
      · exact hw.unsent _ _ _ hm hmessage
      · exact hmessage
    | @transmitted m _ _ hm _ hflight _ _ =>
      refine hw.unsent _ m message hm ?_
      rw [Member.unsent, hflight]
      exact List.mem_cons_of_mem _ hmessage
  · obtain ⟨m, hm, hby⟩ := h.bystander hother hm'
    rw [hby.election]
    exact hw.unsent other m message hm (hby.unsent ▸ hmessage)

/-- What is in flight at an introducer is its own, and legible. -/
theorem flight_legible (h : Moves keys net (id, act) net' events) (hw : WellFormed keys net)
    {other : String} {m' : Member} (hm' : net' other = some m') {b : Broadcast}
    (hb : b ∈ m'.flight) : b.sender.id = other ∧ b.isLegible keys = true := by
  by_cases hother : other = id
  · subst hother
    cases h.moved hm' with
    | attached _ => cases hb
    | own hm hown =>
      rcases hown.mem_flight hb with hb | hb
      · exact hw.flight _ _ _ hm hb
      · exact hb
    | @transmitted m _ _ hm _ hflight _ _ =>
      refine hw.flight _ m b hm ?_
      rw [hflight]
      exact List.mem_cons_of_mem _ hb
  · obtain ⟨m, hm, hby⟩ := h.bystander hother hm'
    exact hw.flight other m b hm (hby.flight ▸ hb)

theorem wellFormed (h : Moves keys net (id, act) net' events) (hw : WellFormed keys net) :
    WellFormed keys net' := by
  refine ⟨fun _ _ _ hm' => h.unsent_cases hw hm', fun _ _ _ hm' => h.flight_legible hw hm', ?_⟩
  intro other m' b hm' hb
  rcases h.arriving_source hm' hb with ⟨m, hm, hb⟩ | ⟨hne, hlegible, s, hs, hmessage⟩
  · exact hw.arriving other m b hm hb
  · refine ⟨hne, hlegible, ?_⟩
    rcases hw.unsent _ s _ hs hmessage with hmessage | hmessage
    · exact .inl hmessage
    · exact .inr ⟨_, hmessage⟩

end Moves

theorem wellFormed_empty : WellFormed keys Network.empty := by
  refine ⟨?_, ?_, ?_⟩
  · intro id m message hm
    cases hm
  · intro id m b hm
    cases hm
  · intro id m b hm
    cases hm

/-- Nothing but the election is ever talked about. -/
theorem Runs.wellFormed (hkeys : keys.CanSeal) {history : History} {net : Network}
    (h : Runs keys history net) : WellFormed keys net :=
  Run.invariant (P := WellFormed keys) h
    (fun _ _ _ _ hw hstep => (moves_of_step hkeys hw hstep).wellFormed hw) wellFormed_empty

end MessageBus.Introducer
