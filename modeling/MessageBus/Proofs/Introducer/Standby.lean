import MessageBus.Proofs.Introducer.Pending

/-! # Nobody is on standby without reason

    As long as no introducer crashes, what is announced stays true: the sender
    of an announcement is still attached, with the level that it announced.  So
    an introducer on standby is outranked by someone, and it has heard of that
    one since it last was in office.

    * `truthful`: announcements on the way are true.
    * `outranked_of_standby`: an introducer on standby is outranked. -/

namespace MessageBus.Introducer

variable {keys : KeySet}

/-- No introducer crashed. -/
def CrashFree (history : History) : Prop := ∀ st ∈ history, st.move.2 ≠ .crash

theorem crashFree_snoc {history : History} {st : Stage Network (String × Act) Broadcast}
    (h : CrashFree (history ++ [st])) : CrashFree history ∧ st.move.2 ≠ .crash :=
  ⟨fun st' h' => h st' (List.mem_append_left _ h'),
    h st (List.mem_append_right _ (List.mem_singleton.mpr rfl))⟩

/-- Who announced a level that is on the way has that level. -/
def Truthful (net : Network) : Prop :=
  ∀ id m b level, net id = some m → .broadcast b ∈ m.arriving →
    b.message = .introducerPresent level →
    ∃ s, net b.sender.id = some s ∧ s.election.level = level

theorem truthful_moves {net net' : Network} {id : String} {act : Act}
    {events : List Broadcast} (hw : WellFormed keys net) (h : Truthful net)
    (hm : Moves keys net (id, act) net' events) (hact : act ≠ .crash) : Truthful net' := by
  intro other m' b level hm' hb hmessage
  have hsender : ∃ s, net b.sender.id = some s ∧ s.election.level = level := by
    rcases hm.arriving_source hm' hb with ⟨m, hother, hb⟩ | ⟨-, -, s, hs, hout⟩
    · exact h other m b level hother hb hmessage
    · rw [hmessage] at hout
      rcases hw.unsent _ s _ hs hout with he | he
      · cases he
      · exact ⟨s, hs, (Message.introducerPresent.inj he).symm⟩
  obtain ⟨s, hs, hlevel⟩ := hsender
  obtain ⟨s', hs', hlevel'⟩ := hm.stays hact hs
  exact ⟨s', hs', hlevel'.trans hlevel⟩

/-- Without crashes announcements are true. -/
theorem truthful (hkeys : keys.CanSeal) {history : History} {net : Network}
    (h : Runs keys history net) (hcrash : CrashFree history) : Truthful net := by
  induction h with
  | start =>
    intro id m b level hm
    cases hm
  | @move _ _ _ m _ hrun hstep ih =>
    obtain ⟨hbefore, hact⟩ := crashFree_snoc hcrash
    have hw := Runs.wellFormed hkeys hrun
    exact truthful_moves hw (ih hbefore) (moves_of_step hkeys hw hstep) hact

/-- Everyone on standby is outranked by someone that it has not missed. -/
def AllOutranked (history : History) (net : Network) : Prop :=
  ∀ x mx, net x = some mx → mx.election.isActive = false →
    ∃ y my, y ≠ x ∧ net y = some my ∧
      outranks my.election.level mx.election.level = true ∧ missed x y history = false

/-- An introducer comes to be on standby by an announcement only. -/
theorem standby_cases {id : String} {m m' : Member} {act : Act} (h : OwnMove keys id m act m')
    (hstandby : m'.election.isActive = false) :
    m.election.isActive = false ∨ ∃ index succeeds b level,
      act = .handle index succeeds ∧ m.arriving[index]? = some (.broadcast b) ∧
      b.message = .introducerPresent level ∧ outranks level m.election.level = true := by
  cases h with
  | started _ | recovered _ _ | silent _ => cases hstandby
  | answered _ _ _ | ignored _ _ _ _ => exact .inl hstandby
  | prepared _ _ _ _ _ | lost _ | reopened _ => exact .inl hstandby
  | @heard index succeeds b level l _ hb hmessage hl =>
    by_cases hlt : m.election.level < l
    · exact .inr ⟨index, succeeds, b, level, rfl, hb, hmessage, outranks_iff.mpr ⟨l, hl, hlt⟩⟩
    · refine .inl ?_
      simpa [Member.observe, Member.take, Election.next, hlt] using hstandby

theorem missedStep_of_standby {net : Network} {x : String} {m : Member} (hm : net x = some m)
    (hstandby : m.election.isActive = false) (act : Act) (events : List Broadcast) (y : String) :
    missedStep x y false ⟨net, (x, act), events⟩ = false := by
  have hactive : isActive net x = false := by
    simpa only [isActive, hm] using hstandby
  simp [missedStep, hactive]

/-- Once on standby before a move, still outranked after it. -/
theorem outranked_of_standby_before {history : History} {net net' : Network} {x : String}
    {act : Act} {events : List Broadcast} {mx : Member} (h : AllOutranked history net)
    (hm : Moves keys net (x, act) net' events) (hact : act ≠ .crash) (hx : net x = some mx)
    (hstandby : mx.election.isActive = false) :
    ∃ y my, y ≠ x ∧ net' y = some my ∧
      outranks my.election.level mx.election.level = true ∧
      missed x y (history ++ [⟨net, (x, act), events⟩]) = false := by
  obtain ⟨y, my, hyx, hy, hrank, hmissed⟩ := h x mx hx hstandby
  obtain ⟨my', hy', hlevel⟩ := hm.stays hact hy
  refine ⟨y, my', hyx, hy', ?_, ?_⟩
  · rw [hlevel]
    exact hrank
  · rw [missed_snoc, hmissed, missedStep_of_standby hx hstandby]

theorem allOutranked_moves {history : History} {net net' : Network} {move : String × Act}
    {events : List Broadcast} (hw : WellFormed keys net) (htrue : Truthful net)
    (h : AllOutranked history net) (hm : Moves keys net move net' events) (hact : move.2 ≠ .crash) :
    AllOutranked (history ++ [⟨net, move, events⟩]) net' := by
  intro x mx' hx' hstandby'
  obtain ⟨id, act⟩ := move
  by_cases hidx : id = x
  · subst hidx
    cases hm.moved hx' with
    | attached _ => cases hstandby'
    | @own _ mx _ hx hown =>
      rw [hown.level]
      rcases standby_cases hown hstandby' with hstandby | ⟨index, succeeds, b, level, rfl, hb,
        hmessage, hrank⟩
      · exact outranked_of_standby_before h hm hact hx hstandby
      -- the sender is still there with its level, and was heard just now
      · obtain ⟨s, hs, hlevel⟩ := htrue id mx b level hx (List.mem_of_getElem? hb) hmessage
        have hne := (hw.arriving id mx b hx (List.mem_of_getElem? hb)).1
        obtain ⟨s', hs', hlevel'⟩ := hm.stays hact hs
        refine ⟨b.sender.id, s', hne, hs', ?_, ?_⟩
        · rw [hlevel', hlevel]
          exact hrank
        · have hd : isDemotedBy id b.sender.id ⟨net, (id, .handle index succeeds), []⟩ = true := by
            rw [isDemotedBy_handle hx hb, isDemotion_presence hmessage, hrank]
            simp
          simp [missed_snoc, missedStep, callsRoll_nil, hd]
    | @transmitted mx _ _ hx _ _ _ _ =>
      have hstandby : mx.election.isActive = false := hstandby'
      have houtranked := outranked_of_standby_before h hm hact hx hstandby
      exact houtranked
  · obtain ⟨mx, hx, hbx⟩ := hm.bystander (fun he => hidx he.symm) hx'
    rw [hbx.election] at hstandby'
    obtain ⟨y, my, hyx, hy, hrank, hmissed⟩ := h x mx hx hstandby'
    -- someone else moves: the one that outranks it stays, and nothing is missed
    obtain ⟨my', hy', hlevel⟩ := hm.stays hact hy
    refine ⟨y, my', hyx, hy', ?_, ?_⟩
    · rw [hlevel, hbx.election]
      exact hrank
    · rw [missed_snoc, missedStep_of_ne hm hidx, hmissed]

/-- Without crashes everyone on standby is outranked. -/
theorem outranked_of_standby (hkeys : keys.CanSeal) {history : History} {net : Network}
    (h : Runs keys history net) (hcrash : CrashFree history) : AllOutranked history net := by
  induction h with
  | start =>
    intro x mx hx
    cases hx
  | move hrun hstep ih =>
    obtain ⟨hbefore, hact⟩ := crashFree_snoc hcrash
    have hw := Runs.wellFormed hkeys hrun
    exact allOutranked_moves hw (truthful hkeys hrun hbefore) (ih hbefore)
      (moves_of_step hkeys hw hstep) hact

end MessageBus.Introducer
