import MessageBus.Proofs.Introducer.Traffic

/-! # Two introducers and nobody else

    The smallest network with an election.  A state of it is a pair of
    introducers, and the moves of the network are moves of the pair, so a run of
    two introducers can be followed state by state.

    * `Reached.own`, `Reached.send`: the moves of the first of the two. -/

namespace MessageBus.Introducer

variable {keys : KeySet} {a b : String} {ma ma' mb : Member} {allowed : Act → Prop}

/-- Two introducers and nobody else. -/
def duo (a b : String) (ma mb : Member) : Network := fun id =>
  if id = a then some ma else if id = b then some mb else none

theorem duo_swap (hab : a ≠ b) (ma mb : Member) : duo a b ma mb = duo b a mb ma := by
  funext id
  unfold duo
  by_cases ha : id = a
  · subst ha
    simp [hab]
  · simp [ha]

theorem duo_first (a b : String) (ma mb : Member) : duo a b ma mb a = some ma := if_pos rfl

theorem duo_second (hab : a ≠ b) (ma mb : Member) : duo a b ma mb b = some mb := by
  rw [duo_swap hab, duo_first]

theorem set_duo (a b : String) (ma ma' mb : Member) :
    (duo a b ma mb).set a (some ma') = duo a b ma' mb := by
  funext id
  unfold Network.set duo
  by_cases ha : id = a <;> simp [ha]

/-- Whoever is attached is one of the two. -/
theorem duo_cases {id : String} {m : Member} (h : duo a b ma mb id = some m) :
    (id = a ∧ m = ma) ∨ (id = b ∧ m = mb) := by
  unfold duo at h
  split at h
  · next ha => exact .inl ⟨ha, (Option.some.inj h).symm⟩
  · split at h
    · next hb => exact .inr ⟨hb, (Option.some.inj h).symm⟩
    · cases h

theorem deliver_duo (hab : a ≠ b) (ma mb : Member) {bc : Broadcast} (hid : bc.sender.id = a) :
    (duo a b ma mb).deliver bc
      = duo a b ma (if mb.isUp then mb.expect (.broadcast bc) else mb) := by
  funext id
  unfold Network.deliver duo
  by_cases ha : id = a
  · simp [ha, hid]
  · by_cases hb : id = b
    · subst hb
      cases hup : mb.isUp <;> simp [hab.symm, hid, hup]
    · simp [ha, hb]

/-- A message with the first of its bodies. -/
def soleBroadcast (keys : KeySet) (sender : Codec) (occasion : Occasion) (message : Message) :
    Broadcast :=
  ⟨sender, occasion, message,
    match broadcasts keys sender occasion message with
    | b :: _ => b.body
    | [] => ""⟩

/-- With a single key, or none, that body is the only one, and it is legible. -/
theorem broadcasts_eq_sole (hkeys : keys.IsSingle) {occasion : Occasion}
    (hfits : occasion.fits keys = true) (sender : Codec) (message : Message) :
    broadcasts keys sender occasion message = [soleBroadcast keys sender occasion message] ∧
      (soleBroadcast keys sender occasion message).isLegible keys = true := by
  obtain ⟨body, hsingle, hlegible⟩ := broadcasts_single hkeys hfits sender message
  have hsole : soleBroadcast keys sender occasion message
      = ⟨sender, occasion, message, body⟩ := by
    rw [soleBroadcast, hsingle]
  rw [hsole]
  exact ⟨hsingle, hlegible⟩

/-! ## Runs of two -/

/-- A network that a run with allowed moves only leads to. -/
def Reached (keys : KeySet) (allowed : Act → Prop) (net : Network) : Prop :=
  ∃ history, Runs keys history net ∧ ∀ st ∈ history, allowed st.move.2

namespace Reached

theorem step {net net' : Network} {id : String} {act : Act} {events : List Broadcast}
    (h : Reached keys allowed net) (hact : allowed act)
    (hstep : stepNetwork keys net (id, act) = some (net', events)) : Reached keys allowed net' := by
  obtain ⟨history, hrun, hall⟩ := h
  refine ⟨history ++ [⟨net, (id, act), events⟩], hrun.move hstep, ?_⟩
  intro st hst
  rcases List.mem_append.mp hst with hst | hst
  · exact hall st hst
  · rw [List.mem_singleton.mp hst]
    exact hact

theorem wellFormed (hkeys : keys.CanSeal) {net : Network} (h : Reached keys allowed net) :
    WellFormed keys net := by
  obtain ⟨history, hrun, -⟩ := h
  exact Runs.wellFormed hkeys hrun

theorem swap (h : Reached keys allowed (duo a b ma mb)) (hab : a ≠ b) :
    Reached keys allowed (duo b a mb ma) := by
  rw [← duo_swap hab]
  exact h

/-- The first of the two does something on its own. -/
theorem own {act : Act} (h : Reached keys allowed (duo a b ma mb)) (hkeys : keys.IsSingle)
    (hact : allowed act) (hm : OwnMove keys a ma act ma') :
    Reached keys allowed (duo a b ma' mb) := by
  have hstep := step_own (h.wellFormed hkeys.canSeal) (duo_first a b ma mb) hm
  rw [set_duo] at hstep
  exact h.step hact hstep

/-- A message of the first of the two goes over the bus as its one body. -/
theorem send {message : Message} {rest : List Message}
    (h : Reached keys allowed (duo a b ma mb)) (hab : a ≠ b) (hkeys : keys.IsSingle)
    {occasion : Occasion} (hfits : occasion.fits keys = true)
    (hprepare : allowed (.prepare occasion)) (htransmit : allowed .transmit)
    (hup : ma.isUp = true) (hflight : ma.flight = []) (houtbox : ma.outbox = message :: rest) :
    Reached keys allowed (duo a b { ma with outbox := rest }
      (if mb.isUp then mb.expect (.broadcast (soleBroadcast keys ⟨a, ma.host⟩ occasion message))
        else mb)) := by
  obtain ⟨hsole, hlegible⟩ := broadcasts_eq_sole hkeys hfits ⟨a, ma.host⟩ message
  have hall : ∀ bc ∈ broadcasts keys ⟨a, ma.host⟩ occasion message, bc.isLegible keys = true := by
    rw [hsole]
    intro bc hbc
    rw [List.mem_singleton.mp hbc]
    exact hlegible
  have hne : broadcasts keys ⟨a, ma.host⟩ occasion message ≠ [] := by
    rw [hsole]
    exact List.cons_ne_nil _ _
  have hprepared := h.own hkeys hprepare (.prepared hup hflight houtbox hne hall)
  rw [hsole] at hprepared
  have hready : duo a b { ma with
      outbox := rest, flight := [soleBroadcast keys ⟨a, ma.host⟩ occasion message] } mb a
      = some _ := duo_first ..
  have hstep := @step_transmit keys _ _ _ _ _ hready hup rfl
  have hsent :
      ({ ma with outbox := rest, flight := [] } : Member) = { ma with outbox := rest } := by
    rw [← hflight]
  have hid : (soleBroadcast keys ⟨a, ma.host⟩ occasion message).sender.id = a := rfl
  rw [set_duo, deliver_duo hab _ _ hid, hsent] at hstep
  exact hprepared.step htransmit hstep

/-- Two introducers attach. -/
theorem attached (hab : a ≠ b) (host : HostInfo) (la lb : Binary64)
    (hact : ∀ host level, allowed (.attach host level)) :
    Reached keys allowed (duo a b (.fresh host la) (.fresh host lb)) := by
  have hstart : Reached keys allowed Network.empty := ⟨[], .start, by simp⟩
  have hempty : Network.empty a = none := rfl
  have hfirst := hstart.step (hact host la) (step_attach hempty host la)
  have hfree : (Network.empty.set a (some (.fresh host la))) b = none := by
    simp [Network.set, hab.symm, Network.empty]
  have hsecond := hfirst.step (hact host lb) (step_attach hfree host lb)
  have hduo : (Network.empty.set a (some (.fresh host la))).set b
      (some (.fresh host lb)) = duo a b (.fresh host la) (.fresh host lb) := by
    funext id
    unfold Network.set duo
    by_cases hb : id = b
    · subst hb
      simp [hab.symm]
    · simp [hb, Network.empty]
  rw [hduo] at hsecond
  exact hsecond

/-- Both start, hear each other's announcement and answer each other's roll
    call. -/
theorem settled (hab : a ≠ b) {la lb la' lb' : Binary64} (hla : heard? la = some la')
    (hlb : heard? lb = some lb') (hkeys : keys.IsSingle) {occasion : Occasion}
    (hfits : occasion.fits keys = true) (host : HostInfo) (succeeds : Deed → Bool)
    (hact : ∀ act, act ≠ .lose → act ≠ .crash → allowed act) :
    Reached keys allowed (duo a b
      ⟨host, ((Election.start la).next (.presence lb')).next (.presence lb'),
        true, true, [], [], []⟩
      ⟨host, ((Election.start lb).next (.presence la')).next (.presence la'),
        true, true, [], [], []⟩) := by
  have hstart : allowed .start := hact _ (by simp) (by simp)
  have hprepare : allowed (.prepare occasion) := hact _ (by simp) (by simp)
  have htransmit : allowed .transmit := hact _ (by simp) (by simp)
  have hhandle : ∀ index, allowed (.handle index succeeds) :=
    fun index => hact _ (by simp) (by simp)
  have hattached : Reached keys allowed (duo a b (.fresh host la) (.fresh host lb)) :=
    attached hab host la lb fun _ _ => hact _ (by simp) (by simp)
  -- both start and announce themselves
  have h₁ := hattached.own hkeys hstart (.started rfl)
  have h₂ := (h₁.swap hab).own hkeys hstart (.started rfl)
  have h₃ := h₂.send hab.symm hkeys hfits hprepare htransmit rfl rfl rfl
  have h₄ := (h₃.send hab.symm hkeys hfits hprepare htransmit rfl rfl rfl).swap hab.symm
  have h₅ := h₄.send hab hkeys hfits hprepare htransmit rfl rfl rfl
  have h₆ := h₅.send hab hkeys hfits hprepare htransmit rfl rfl rfl
  -- they answer each other's roll call
  have h₇ := h₆.own hkeys (hhandle 1) (.answered rfl rfl rfl)
  have h₈ := (h₇.send hab hkeys hfits hprepare htransmit rfl rfl rfl).swap hab
  have h₉ := h₈.own hkeys (hhandle 1) (.answered rfl rfl rfl)
  have h₁₀ := (h₉.send hab.symm hkeys hfits hprepare htransmit rfl rfl rfl).swap hab.symm
  -- each hears the other one twice
  have h₁₁ := h₁₀.own hkeys (hhandle 0) (.heard rfl rfl rfl hlb)
  have h₁₂ := (h₁₁.own hkeys (hhandle 0) (.heard rfl rfl rfl hlb)).swap hab
  have h₁₃ := h₁₂.own hkeys (hhandle 0) (.heard rfl rfl rfl hla)
  exact (h₁₃.own hkeys (hhandle 0) (.heard rfl rfl rfl hla)).swap hab.symm

end Reached

end MessageBus.Introducer
