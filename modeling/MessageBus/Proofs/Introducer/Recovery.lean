import MessageBus.Proofs.Introducer.Settling

/-! # How the election recovers from outages

    An introducer whose link is up again is active and calls the roll, but does
    not announce itself.  So it learns who outranks it from the answers, unless
    the link of the other one is down just then; and when that link is up again,
    the other one asks, too, and tells nothing.

    Once every link is up again and the network has settled, an introducer is
    therefore active in spite of a greater level exactly when it was missed:
    when the last body of its last roll call went out while the other link was
    down.

    * `election_recovers`: who is active after outages. -/

namespace MessageBus.Introducer

variable {keys : KeySet}

/-! ## Two introducers that miss each other -/

/-- The greater one of two, with nothing on the way. -/
def greaterMember : Member :=
  ⟨someHost, (Election.start (.ofInt 5)).next (.presence (.ofInt 3)), true, true, [], [], []⟩

/-- The lesser one, which has heard of nobody. -/
def lesserMember : Member :=
  ⟨someHost, Election.start (.ofInt 3), true, true, [], [], []⟩

theorem settled_missed_duo : Settled (duo "a" "b" greaterMember lesserMember) := by
  refine ⟨?_, ?_, ?_⟩ <;> intro id m hm <;> rcases duo_cases hm with ⟨-, rfl⟩ | ⟨-, rfl⟩ <;> rfl

theorem allUp_missed_duo : AllUp (duo "a" "b" greaterMember lesserMember) := by
  intro id m hm
  rcases duo_cases hm with ⟨-, rfl⟩ | ⟨-, rfl⟩ <;> rfl

/-- Each announces itself or calls the roll only while the link of the other one
    is down, but for the roll call of the greater one. -/
theorem reached_missed_duo :
    Reached oneKey (· ≠ .crash) (duo "a" "b" greaterMember lesserMember) := by
  have hab : "a" ≠ "b" := by decide
  have hthree : heard? (.ofInt 3) = some (.ofInt 3) := by decide +kernel
  have hhandle : Act.handle 0 (fun _ => true) ≠ .crash := by simp
  have h₁ : Reached oneKey (· ≠ .crash)
      (duo "a" "b" (.fresh someHost (.ofInt 5)) (.fresh someHost (.ofInt 3))) :=
    .attached hab _ _ _ (by simp)
  -- the greater one announces itself while the link of the lesser one is down
  have h₂ := ((h₁.swap hab).own isSingle_oneKey (by simp) (.lost rfl)).swap hab.symm
  have h₃ := h₂.own isSingle_oneKey (by simp) (.started rfl)
  have h₄ := h₃.send hab isSingle_oneKey fits_oneKey (by simp) (by simp) rfl rfl rfl
  have h₅ := h₄.send hab isSingle_oneKey fits_oneKey (by simp) (by simp) rfl rfl rfl
  -- the lesser one calls the roll while the link of the greater one is down
  have h₆ := (h₅.own isSingle_oneKey (by simp) (.lost rfl)).swap hab
  have h₇ := (h₆.own isSingle_oneKey (by simp) (.reopened rfl)).own isSingle_oneKey (by simp)
    (.started rfl)
  have h₈ := h₇.own isSingle_oneKey hhandle (.recovered rfl rfl)
  have h₉ := h₈.send hab.symm isSingle_oneKey fits_oneKey (by simp) (by simp) rfl rfl rfl
  have h₁₀ := h₉.send hab.symm isSingle_oneKey fits_oneKey (by simp) (by simp) rfl rfl rfl
  have h₁₁ := (h₁₀.send hab.symm isSingle_oneKey fits_oneKey (by simp) (by simp) rfl rfl
    rfl).swap hab.symm
  -- the greater one comes back and calls the roll, and the lesser one answers
  have h₁₂ := (h₁₁.own isSingle_oneKey (by simp) (.reopened rfl)).own isSingle_oneKey hhandle
    (.recovered rfl rfl)
  have h₁₃ := (h₁₂.send hab isSingle_oneKey fits_oneKey (by simp) (by simp) rfl rfl rfl).swap hab
  have h₁₄ := h₁₃.own isSingle_oneKey hhandle (.answered rfl rfl rfl)
  have h₁₅ := (h₁₄.send hab.symm isSingle_oneKey fits_oneKey (by simp) (by simp) rfl rfl
    rfl).swap hab.symm
  exact h₁₅.own isSingle_oneKey hhandle (.heard rfl rfl rfl hthree)

/-! ## Who is active in the end -/

/-- Once the network has settled after any outages, an introducer is active just
    if all those that outrank it missed its last roll call. -/
theorem election_recovers (hkeys : keys.CanSeal) {history : History} {net : Network}
    (h : Runs keys history net) (hs : Settled net) (hup : AllUp net) :
    (∀ x y mx my, x ≠ y → net x = some mx → net y = some my →
      mx.election.isActive = true → outranks my.election.level mx.election.level = true →
      missed x y history = true) ∧
    (CrashFree history → ∀ x mx, net x = some mx →
      (mx.election.isActive = true ↔ ∀ y my, y ≠ x → net y = some my →
        outranks my.election.level mx.election.level = true → missed x y history = true)) ∧
    (HeardTruly net → (∀ x y, missed x y history = false) → NoneBelow net) := by
  have hmissed : ∀ x y mx my, x ≠ y → net x = some mx → net y = some my →
      mx.election.isActive = true → outranks my.election.level mx.election.level = true →
      missed x y history = true :=
    fun x y mx my hxy hx hy hactive hrank => missed_of_active hkeys h hs hup hxy hx hy hactive hrank
  refine ⟨hmissed, ?_, ?_⟩
  · intro hcrash x mx hx
    constructor
    · intro hactive y my hyx hy hrank
      exact hmissed x y mx my (fun he => hyx he.symm) hx hy hactive hrank
    · intro hall
      rcases Bool.eq_false_or_eq_true mx.election.isActive with hactive | hstandby
      · exact hactive
      · -- whoever took it out of office was not missed
        obtain ⟨y, my, hyx, hy, hrank, hnot⟩ := outranked_of_standby hkeys h hcrash x mx hx hstandby
        rw [hall y my hyx hy hrank] at hnot
        cases hnot
  · intro htruly hnone x y mx my hx hy hactive hlt
    have hrank : outranks my.election.level mx.election.level = true := by
      rw [outranks_of_truly (htruly y my hy)]
      exact decide_eq_true hlt
    have hm := hmissed x y mx my (ne_of_level_lt hx hy hlt) hx hy hactive hrank
    rw [hnone x y] at hm
    cases hm

/-- The greater one was missed by the roll call of the lesser one. -/
theorem election_recovers_missed :
    ∃ history net, Runs oneKey history net ∧ Settled net ∧ AllUp net ∧
      missed "b" "a" history = true := by
  obtain ⟨history, hrun, -⟩ := reached_missed_duo
  have hrecovers := election_recovers isSingle_oneKey.canSeal hrun settled_missed_duo
    allUp_missed_duo
  have hmissed := hrecovers.1 "b" "a" lesserMember greaterMember (by decide)
    (duo_second (by decide) ..) (duo_first ..) rfl (by decide +kernel)
  exact ⟨history, _, hrun, settled_missed_duo, allUp_missed_duo, hmissed⟩

/-- Two introducers whose links were down in turn both stay active, although each
    level is heard as it is. -/
theorem both_active_after_outages :
    ∃ history net, Runs oneKey history net ∧ CrashFree history ∧ Settled net ∧ AllUp net ∧
      HeardTruly net ∧ ¬ NoneBelow net := by
  obtain ⟨history, hrun, hcrash⟩ := reached_missed_duo
  refine ⟨history, _, hrun, hcrash, settled_missed_duo, allUp_missed_duo, ?_, ?_⟩
  · intro id m hm
    rcases duo_cases hm with ⟨-, rfl⟩ | ⟨-, rfl⟩ <;> decide +kernel
  · intro hnone
    exact hnone "b" "a" _ _ (duo_second (by decide) ..) (duo_first ..) rfl (by decide +kernel)

end MessageBus.Introducer
