import MessageBus.Proofs.Introducer.Duo
import MessageBus.Proofs.Introducer.Standby

/-! # How the election settles

    A network has settled when every introducer has started and nothing is on
    the way any more.  As long as no link was ever down, whoever is outranked is
    then on standby, and without crashes everyone else is active.

    Outranking is by the level that is heard.  Where every level is heard as it
    is, the greatest level wins; but of two levels that are next to each other
    the greater one may be heard as the lesser, and then both stay active.

    * `election_settles`: who is active in a network that has settled. -/

namespace MessageBus.Introducer

variable {keys : KeySet}

/-- No link went down. -/
def OutageFree (history : History) : Prop := ∀ st ∈ history, st.move.2 ≠ .lose

/-- Every introducer has started, and nothing is on the way. -/
structure Settled (net : Network) : Prop where
  started : ∀ id m, net id = some m → m.isStarted = true
  unsent : ∀ id m, net id = some m → m.unsent = []
  arriving : ∀ id m, net id = some m → m.arriving = []

/-- Every link is up. -/
def AllUp (net : Network) : Prop := ∀ id m, net id = some m → m.isUp = true

/-- Every level is heard as it is. -/
def HeardTruly (net : Network) : Prop :=
  ∀ id m, net id = some m → heard? m.election.level = some m.election.level

/-! ## Nothing is pending any more -/

theorem not_pending {net : Network} (hs : Settled net) (hup : AllUp net) {x y : String}
    {mx my : Member} (hx : net x = some mx) (hy : net y = some my) : ¬ Pending mx my := by
  intro h
  have hxarriving := hs.arriving x mx hx
  have hxunsent := hs.unsent x mx hx
  have hyarriving := hs.arriving y my hy
  have hyunsent := hs.unsent y my hy
  cases h with
  | announced hb _ =>
    rw [hxarriving] at hb
    cases hb
  | announcing hmessage =>
    rw [hyunsent] at hmessage
    cases hmessage
  | called hb _ =>
    rw [hyarriving] at hb
    cases hb
  | calling hmessage =>
    rw [hxunsent] at hmessage
    cases hmessage
  | reconnecting ha =>
    rw [hxarriving] at ha
    cases ha
  | cutOff hdown =>
    rw [hup x mx hx] at hdown
    cases hdown

/-- In a settled network only who was missed leaves others in office. -/
theorem missed_of_active (hkeys : keys.CanSeal) {history : History} {net : Network}
    (h : Runs keys history net) (hs : Settled net) (hup : AllUp net)
    {x y : String} {mx my : Member} (hxy : x ≠ y) (hx : net x = some mx) (hy : net y = some my)
    (hactive : mx.election.isActive = true)
    (hrank : outranks my.election.level mx.election.level = true) :
    missed x y history = true :=
  (pending_of_outranked hkeys h x y mx my hxy hx hy (hs.started x mx hx) (hs.started y my hy)
    hactive hrank).resolve_right (not_pending hs hup hx hy)

/-! ## Runs without outages -/

theorem allUp_moves {net net' : Network} {id : String} {act : Act} {events : List Broadcast}
    (h : AllUp net) (hm : Moves keys net (id, act) net' events) (hact : act ≠ .lose) :
    AllUp net' := by
  intro other m' hm'
  by_cases hother : other = id
  · subst hother
    cases hm.moved hm' with
    | attached _ => rfl
    | own hid hown =>
      have hup := h other _ hid
      cases hown with
      | lost _ => exact absurd rfl hact
      | reopened _ => rfl
      | started _ | prepared _ _ _ _ _ | silent _ => exact hup
      | answered _ _ _ | heard _ _ _ _ | ignored _ _ _ _ | recovered _ _ => exact hup
    | transmitted _ hup _ _ _ => exact hup
  · obtain ⟨m, hm, hby⟩ := hm.bystander hother hm'
    rw [hby.isUp]
    exact h other m hm

theorem outageFree_snoc {history : History} {st : Stage Network (String × Act) Broadcast}
    (h : OutageFree (history ++ [st])) : OutageFree history ∧ st.move.2 ≠ .lose :=
  ⟨fun st' h' => h st' (List.mem_append_left _ h'),
    h st (List.mem_append_right _ (List.mem_singleton.mpr rfl))⟩

/-- Without outages every link is up and nothing is missed. -/
theorem allUp_not_missed (hkeys : keys.CanSeal) {history : History} {net : Network}
    (h : Runs keys history net)
    (hout : OutageFree history) : AllUp net ∧ ∀ x y, missed x y history = false := by
  induction h with
  | start =>
    refine ⟨?_, fun x y => rfl⟩
    intro id m hm
    cases hm
  | @move _ net₁ _ move events hrun hstep ih =>
    obtain ⟨hbefore, hact⟩ := outageFree_snoc hout
    obtain ⟨hup, hmissed⟩ := ih hbefore
    refine ⟨allUp_moves hup (moves_of_step hkeys (Runs.wellFormed hkeys hrun) hstep) hact, ?_⟩
    intro x y
    -- a roll call is only missed while a link is down
    have hcut : isCutOff net₁ y = false := by
      unfold isCutOff
      split
      · next m hm => simp [hup y m hm]
      · rfl
    simp [missed_snoc, missedStep, hmissed x y, hcut]

/-! ## Two introducers -/

/-- Neither outages nor crashes. -/
def isPeaceful (act : Act) : Prop := act ≠ .lose ∧ act ≠ .crash

/-- A machine that tells nothing about itself. -/
def someHost : HostInfo := ⟨none, none⟩

/-- One key for everyone. -/
def oneKey : KeySet := ⟨["0123456789abcdef"]⟩

theorem isSingle_oneKey : oneKey.IsSingle := .inr ⟨_, rfl, by decide +kernel⟩

/-- An occasion with a vector for that key. -/
def someOccasion : Occasion := ⟨default, [List.replicate 16 0]⟩

theorem fits_oneKey : someOccasion.fits oneKey = true := rfl

/-- The state of one of two introducers that have settled. -/
def settledMember (level other : Binary64) : Member :=
  ⟨someHost, ((Election.start level).next (.presence other)).next (.presence other),
    true, true, [], [], []⟩

theorem settled_duo (la lb la' lb' : Binary64) :
    Settled (duo "a" "b" (settledMember la lb') (settledMember lb la')) := by
  refine ⟨?_, ?_, ?_⟩ <;> intro id m hm <;> rcases duo_cases hm with ⟨-, rfl⟩ | ⟨-, rfl⟩ <;> rfl

/-- Two introducers settle in peace, each with the level heard of the other. -/
theorem peaceful_duo {la lb la' lb' : Binary64} (hla : heard? la = some la')
    (hlb : heard? lb = some lb') :
    ∃ history, Runs oneKey history (duo "a" "b" (settledMember la lb') (settledMember lb la')) ∧
      OutageFree history ∧ CrashFree history := by
  have hreached : Reached oneKey isPeaceful
      (duo "a" "b" (settledMember la lb') (settledMember lb la')) :=
    Reached.settled (by decide) hla hlb isSingle_oneKey fits_oneKey someHost (fun _ => true)
      fun act hlose hcrash => ⟨hlose, hcrash⟩
  obtain ⟨history, hrun, hall⟩ := hreached
  exact ⟨history, hrun, fun st hst => (hall st hst).1, fun st hst => (hall st hst).2⟩

/-! ## Who is active in the end -/

/-- Without outages whoever is outranked is on standby. -/
theorem standby_of_outranked (hkeys : keys.CanSeal) {history : History} {net : Network}
    (h : Runs keys history net) (hout : OutageFree history) (hs : Settled net)
    {x y : String} {mx my : Member} (hxy : x ≠ y) (hx : net x = some mx) (hy : net y = some my)
    (hrank : outranks my.election.level mx.election.level = true) :
    mx.election.isActive = false := by
  obtain ⟨hup, hmissed⟩ := allUp_not_missed hkeys h hout
  rcases Bool.eq_false_or_eq_true mx.election.isActive with hactive | hstandby
  · have hm := missed_of_active hkeys h hs hup hxy hx hy hactive hrank
    rw [hmissed x y] at hm
    cases hm
  · exact hstandby

/-- Without crashes whoever is not outranked is active. -/
theorem active_of_not_outranked (hkeys : keys.CanSeal) {history : History} {net : Network}
    (h : Runs keys history net) (hcrash : CrashFree history)
    {x : String} {mx : Member} (hx : net x = some mx)
    (hnone : ∀ y my, y ≠ x → net y = some my →
      outranks my.election.level mx.election.level = false) : mx.election.isActive = true := by
  rcases Bool.eq_false_or_eq_true mx.election.isActive with hactive | hstandby
  · exact hactive
  · obtain ⟨y, my, hyx, hy, hrank, -⟩ := outranked_of_standby hkeys h hcrash x mx hx hstandby
    rw [hnone y my hyx hy] at hrank
    cases hrank

theorem outranks_of_truly {level own : Binary64} (h : heard? level = some level) :
    outranks level own = decide (own < level) := by
  simp [outranks, h]

/-- No introducer is active while another one has a greater level. -/
def NoneBelow (net : Network) : Prop :=
  ∀ x y mx my, net x = some mx → net y = some my → mx.election.isActive = true →
    ¬ mx.election.level < my.election.level

/-- Every introducer of maximal level is active. -/
def GreatestActive (net : Network) : Prop :=
  ∀ x mx, net x = some mx →
    (∀ y my, net y = some my → ¬ mx.election.level < my.election.level) →
    mx.election.isActive = true

theorem ne_of_level_lt {net : Network} {x y : String} {mx my : Member} (hx : net x = some mx)
    (hy : net y = some my) (hlt : mx.election.level < my.election.level) : x ≠ y := by
  rintro rfl
  obtain rfl : mx = my := Option.some.inj (hx.symm.trans hy)
  exact Binary64.lt_irrefl _ hlt

/-- In a network that has settled without outages, whoever hears of a greater
    level is on standby, and without crashes everyone else is active; where the
    levels are heard as they are, the greatest level wins. -/
theorem election_settles (hkeys : keys.CanSeal) {history : History} {net : Network}
    (h : Runs keys history net) (hout : OutageFree history) (hs : Settled net) :
    (∀ x y mx my, x ≠ y → net x = some mx → net y = some my →
      outranks my.election.level mx.election.level = true → mx.election.isActive = false) ∧
    (CrashFree history → ∀ x mx, net x = some mx →
      (mx.election.isActive = true ↔ ∀ y my, y ≠ x → net y = some my →
        outranks my.election.level mx.election.level = false)) ∧
    (HeardTruly net → NoneBelow net ∧ (CrashFree history → GreatestActive net)) := by
  have hstandby : ∀ x y mx my, x ≠ y → net x = some mx → net y = some my →
      outranks my.election.level mx.election.level = true → mx.election.isActive = false :=
    fun x y mx my hxy hx hy hrank => standby_of_outranked hkeys h hout hs hxy hx hy hrank
  refine ⟨hstandby, ?_, ?_⟩
  · intro hcrash x mx hx
    refine ⟨?_, active_of_not_outranked hkeys h hcrash hx⟩
    intro hactive y my hyx hy
    rcases Bool.eq_false_or_eq_true (outranks my.election.level mx.election.level) with hr | hr
    · rw [hstandby x y mx my (fun he => hyx he.symm) hx hy hr] at hactive
      cases hactive
    · exact hr
  · intro htruly
    refine ⟨?_, ?_⟩
    · intro x y mx my hx hy hactive hlt
      have hrank : outranks my.election.level mx.election.level = true := by
        rw [outranks_of_truly (htruly y my hy)]
        exact decide_eq_true hlt
      rw [hstandby x y mx my (ne_of_level_lt hx hy hlt) hx hy hrank] at hactive
      cases hactive
    · intro hcrash x mx hx hgreatest
      refine active_of_not_outranked hkeys h hcrash hx ?_
      intro y my _ hy
      rw [outranks_of_truly (htruly y my hy)]
      exact decide_eq_false (hgreatest y my hy)

/-- A greater level wins over a lesser one. -/
theorem election_settles_five_three :
    ∃ history net, Runs oneKey history net ∧ OutageFree history ∧ CrashFree history ∧ Settled net ∧
      HeardTruly net ∧ NoneBelow net ∧ GreatestActive net := by
  have hfive : heard? (.ofInt 5) = some (.ofInt 5) := by decide +kernel
  have hthree : heard? (.ofInt 3) = some (.ofInt 3) := by decide +kernel
  obtain ⟨history, hrun, hout, hcrash⟩ := peaceful_duo hfive hthree
  have hs := settled_duo (.ofInt 5) (.ofInt 3) (.ofInt 5) (.ofInt 3)
  have htruly : HeardTruly (duo "a" "b" (settledMember (.ofInt 5) (.ofInt 3))
      (settledMember (.ofInt 3) (.ofInt 5))) := by
    intro id m hm
    rcases duo_cases hm with ⟨-, rfl⟩ | ⟨-, rfl⟩ <;> decide +kernel
  have hsettles := (election_settles isSingle_oneKey.canSeal hrun hout hs).2.2 htruly
  exact ⟨history, _, hrun, hout, hcrash, hs, htruly, hsettles.1, hsettles.2 hcrash⟩

/-- The greater of two levels can be heard as the lesser, and then both
    introducers stay active; and a level can be heard as a greater one, and then
    two introducers of that same level are both on standby. -/
theorem greater_level_overheard :
    (∃ history net, Runs oneKey history net ∧ OutageFree history ∧ CrashFree history ∧ Settled net ∧
      (∀ id m, net id = some m → m.election.level.isFinite = true) ∧ ¬ NoneBelow net) ∧
    (∃ history net, Runs oneKey history net ∧ OutageFree history ∧ CrashFree history ∧ Settled net ∧
      (∀ id m, net id = some m → m.election.level.isFinite = true) ∧ ¬ GreatestActive net) := by
  refine ⟨?_, ?_⟩
  · have hgreat : heard? (.ofInt 1760000000003001344) = some (.ofInt 1760000000003001088) := by
      decide +kernel
    have hless : heard? (.ofInt 1760000000003001088) = some (.ofInt 1760000000003001088) := by
      decide +kernel
    obtain ⟨history, hrun, hout, hcrash⟩ := peaceful_duo hgreat hless
    refine ⟨history, _, hrun, hout, hcrash, settled_duo .., ?_, ?_⟩
    · intro id m hm
      rcases duo_cases hm with ⟨-, rfl⟩ | ⟨-, rfl⟩ <;> decide +kernel
    · intro hnone
      exact hnone "b" "a" _ _ (duo_second (by decide) ..) (duo_first ..) (by decide +kernel)
        (by decide +kernel)
  · have hequal : heard? (.ofInt 1760000000003251456) = some (.ofInt 1760000000003251712) := by
      decide +kernel
    obtain ⟨history, hrun, hout, hcrash⟩ := peaceful_duo hequal hequal
    refine ⟨history, _, hrun, hout, hcrash, settled_duo .., ?_, ?_⟩
    · intro id m hm
      rcases duo_cases hm with ⟨-, rfl⟩ | ⟨-, rfl⟩ <;> decide +kernel
    · intro hgreatest
      have hactive := hgreatest "a" _ (duo_first ..) (by
        intro id m hm
        rcases duo_cases hm with ⟨-, rfl⟩ | ⟨-, rfl⟩ <;> decide +kernel)
      revert hactive
      decide +kernel

end MessageBus.Introducer
