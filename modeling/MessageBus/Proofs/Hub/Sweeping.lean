import MessageBus.Proofs.Hub.Registration

/-! # What a sweep does

    While the registry is on a sweep, its realms and their clients go on.  A realm
    that is asked answers with the number of clients that it has at that moment.
    No client is let in meanwhile, so behind the question there is nothing in the
    mailbox of a realm but what clients posted, and a realm that retires leaves
    nobody waiting.

    * `sweep_forgets_empty`: a sweep asks every registered realm once, and forgets
      exactly those that had no clients when they were asked.
    * `outboxes_of_isSweeping`: a sweep detaches nobody. -/

namespace MessageBus.Dispatch

/-- The number of clients with which the realm of an incarnation answers. -/
def Event.answer? (n : Nat) : Event → Option Nat
  | .answered m clients => if m = n then some clients else none
  | _ => none

/-- The answers of the realm of an incarnation. -/
def answersOf (n : Nat) (trace : Trace) : List Nat := (eventsOf trace).filterMap (Event.answer? n)

/-- The realm `x` is asked whether it may retire.  Nobody is about to be let in
    behind the question. -/
structure Asked (n : Nat) (x : Realm) (st : Stage Dispatch Action Event) : Prop where
  realm : st.before.registry.realm? n = some x
  running : x.running = true
  move : st.move = .work n
  question : ∃ rest, st.before.mail n = .retireIfEmpty :: rest ∧ ∀ c ∈ rest, c.isClients = true
  answer : st.events = [.answered n x.count]

/-- The moves of a sweep itself, a realm's answer included. -/
def IsSweeping (d : Dispatch) : Action → Prop
  | .setOut .. | .ask | .conclude => True
  | .work n => ∃ rest, d.mail n = .retireIfEmpty :: rest
  | _ => False

variable {d d' d₁ d₂ d₃ : Dispatch} {a : Action} {events : List Event} {middle : Trace}

/-! ## Along a sweep -/

/-- The registry is on a sweep over the realms of a table.  What it has been told
    is what the realms have answered since it set out. -/
def OnSweep (table : Table Nat) (middle : Trace) (d : Dispatch) : Prop :=
  ∃ unasked answers,
    (d.phase = .round .sweep unasked answers ∨
      ∃ name n, d.phase = .waiting .sweep name n unasked answers) ∧
    d.registry.current = table ∧
    (∀ a ∈ answers, ∃ st ∈ middle, ∃ x, Asked a.incarnation x st ∧ a.clients = x.count) ∧
    ∀ n, answersOf n middle
      = answers.filterMap fun a => if a.incarnation = n then some a.clients else none

theorem answersOf_snoc (n : Nat) (st : Stage Dispatch Action Event) :
    answersOf n (middle ++ [st]) = answersOf n middle ++ st.events.filterMap (Event.answer? n) := by
  simp [answersOf]

/-- A move that the registry has no part in. -/
theorem OnSweep.quiet {table : Table Nat} (h : OnSweep table middle d)
    (hphase : d'.phase = d.phase) (hcurrent : d'.registry.current = d.registry.current)
    (hevents : ∀ n, events.filterMap (Event.answer? n) = []) :
    OnSweep table (middle ++ [⟨d, a, events⟩]) d' := by
  obtain ⟨unasked, answers, hround, htable, hasked, hanswers⟩ := h
  refine ⟨unasked, answers, by rwa [hphase], hcurrent.trans htable, ?_, ?_⟩
  · intro answer hanswer
    obtain ⟨st, hst, x, hx⟩ := hasked answer hanswer
    exact ⟨st, List.mem_append_left _ hst, x, hx⟩
  · intro n
    rw [answersOf_snoc, hevents, List.append_nil, hanswers]

/-- The registry stays on a sweep until it concludes it. -/
theorem OnSweep.moves {table : Table Nat} (h : OnSweep table middle d) (ho : Orderly d)
    (hm : Moves d a d' events) (ha : a ≠ .conclude) :
    OnSweep table (middle ++ [⟨d, a, events⟩]) d' := by
  have hbusy : d.phase ≠ .idle := by
    obtain ⟨_, _, hround | ⟨_, _, hround⟩, -⟩ := h
    · rw [hround]
      intro hidle
      cases hidle
    · rw [hround]
      intro hidle
      cases hidle
  cases hm with
  -- the registry neither lets anybody in nor sets out again before it concludes
  | joined hphase | created hphase | setOut hphase => exact absurd hphase hbusy
  | swept | reported => exact absurd rfl ha
  | posted => exact h.quiet (phase_put ..) (by rw [registry_put]) fun n => rfl
  | @obeyed n x c =>
    apply h.quiet rfl rfl
    intro m
    rw [List.filterMap_map]
    exact List.filterMap_eq_nil_iff.mpr fun _ _ => rfl
  | took => exact h.quiet rfl rfl fun n => rfl
  | abandoned => exact h.quiet rfl rfl fun n => rfl
  | unanswered hphase hstopped =>
    obtain ⟨x, hx, -, hrun⟩ := ho.running_of_pending (.inl hphase)
    rw [isRunning_iff.mpr ⟨x, hx, hrun⟩] at hstopped
    cases hstopped
  | @asked errand name n unasked answers hphase =>
    obtain ⟨unasked', answers', hround, htable, hasked, hanswers⟩ := h
    have hsame : errand = .sweep ∧ answers' = answers := by
      rcases hround with hround | ⟨_, _, hround⟩
      · rw [hphase] at hround
        cases hround
        exact ⟨rfl, rfl⟩
      · rw [hphase] at hround
        cases hround
    obtain ⟨rfl, rfl⟩ := hsame
    refine ⟨unasked, answers', .inr ⟨name, n, rfl⟩, ?_, ?_, ?_⟩
    · exact (congrArg Registry.current (registry_put ..)).trans htable
    · intro answer hanswer
      obtain ⟨st, hst, x, hx⟩ := hasked answer hanswer
      exact ⟨st, List.mem_append_left _ hst, x, hx⟩
    · intro m
      rw [answersOf_snoc, hanswers]
      exact List.append_nil _
  | @answered n x c rest hx hrun hmail hc =>
    obtain ⟨⟨errand, name, unasked, answers, hphase, hquestion⟩, hrest⟩ :=
      ho.waiting_of_question hmail hc
    obtain ⟨unasked', answers', hround, htable, hasked, hanswers⟩ := h
    have hsame : errand = .sweep ∧ answers' = answers := by
      rcases hround with hround | ⟨_, _, hround⟩
      · rw [hphase] at hround
        cases hround
      · rw [hphase] at hround
        cases hround
        exact ⟨rfl, rfl⟩
    obtain ⟨rfl, rfl⟩ := hsame
    refine ⟨unasked, answers' ++ [⟨name, n, x.count⟩], .inl ?_, htable, ?_, ?_⟩
    · show hear x.count d.phase = _
      rw [hphase]
      rfl
    · intro answer hanswer
      rcases List.mem_append.mp hanswer with hanswer | hanswer
      · obtain ⟨st, hst, y, hy⟩ := hasked answer hanswer
        exact ⟨st, List.mem_append_left _ hst, y, hy⟩
      · obtain rfl := List.mem_singleton.mp hanswer
        have hmail : d.mail n = .retireIfEmpty :: rest := by rw [hmail, hquestion]; rfl
        exact ⟨_, List.mem_append_right _ (List.mem_singleton.mpr rfl), x,
          ⟨hx, hrun, rfl, ⟨rest, hmail, hrest⟩, rfl⟩, rfl⟩
    · intro m
      rw [answersOf_snoc, hanswers, List.filterMap_append]
      by_cases hm : n = m <;> simp [Event.answer?, hm]

/-- From the move with which the registry sets out to the one with which it
    concludes, it is on the sweep. -/
theorem onSweep {table : Table Nat} (ho : Orderly d₁) (hstart : OnSweep table [] d₁)
    (hrun : Run act d₁ middle d₂) (hmiddle : ∀ st ∈ middle, st.move ≠ .conclude) :
    Orderly d₂ ∧ OnSweep table middle d₂ := by
  induction hrun with
  | start => exact ⟨ho, hstart⟩
  | @move middle d d' a events _ hm ih =>
    obtain ⟨ho, hsweep⟩ := ih fun st hst => hmiddle st (List.mem_append_left _ hst)
    have hmoves := moves_of_act hm
    have ha : a ≠ .conclude := hmiddle ⟨d, a, events⟩ (by simp)
    exact ⟨ho.moves hmoves, hsweep.moves ho hmoves ha⟩

/-! ## What is forgotten -/

/-- No two names are registered for one incarnation. -/
theorem Orderly.nodup_incarnations (h : Orderly d) : (d.registry.current.map Prod.snd).Nodup := by
  have hsorted := h.consistent.sorted
  refine List.pairwise_map.mpr (hsorted.imp_of_mem fun {e f} he hf hlt heq => ?_)
  have hnamed : ∀ entry ∈ d.registry.current,
      ∃ x, d.registry.realm? entry.2 = some x ∧ x.name = entry.1 := by
    intro entry hentry
    obtain ⟨x, hx, hname, -⟩ := h.consistent.registered entry.1 entry.2
      ((Table.get?_eq_some_iff hsorted).mpr hentry)
    exact ⟨x, hx, hname⟩
  obtain ⟨x, hx, hxname⟩ := hnamed e he
  obtain ⟨y, hy, hyname⟩ := hnamed f hf
  rw [heq] at hx
  obtain rfl : x = y := Option.some.inj (hx.symm.trans hy)
  rw [← hxname, hyname] at hlt
  exact String.lt_irrefl _ hlt

/-- A sweep asks every registered realm once, and forgets exactly those that had
    no clients when they were asked. -/
theorem Orderly.sweep_forgets_empty (h : Orderly d) {order : List (String × Nat)}
    {events₁ events₃ : List Event}
    (hout : d.act (.setOut .sweep order) = some (d₁, events₁))
    (hrun : Run act d₁ middle d₂) (hmiddle : ∀ st ∈ middle, st.move ≠ .conclude)
    (hback : d₂.act .conclude = some (d₃, events₃)) :
    d₃.registry.current.Sublist d.registry.current ∧
    ∀ name n, (name, n) ∈ d.registry.current → ∃ st ∈ middle, ∃ x, Asked n x st ∧
      answersOf n middle = [x.count] ∧ ((name, n) ∈ d₃.registry.current ↔ x.count ≠ 0) := by
  have hout := moves_of_act hout
  have ho₁ := h.moves hout
  cases hout with | setOut hphase hperm =>
  have hstart : OnSweep d.registry.current [] { d with phase := .round .sweep order [] } :=
    ⟨order, [], .inl rfl, rfl, (fun _ hanswer => nomatch hanswer), fun n => rfl⟩
  obtain ⟨ho₂, unasked, answers, hround, htable, hasked, hanswers⟩ :=
    onSweep ho₁ hstart hrun hmiddle
  -- the registry concludes only when every realm has answered
  have hmoves := moves_of_act hback
  cases hmoves with
  | reported hphase₂ =>
    rw [hphase₂] at hround
    rcases hround with hround | ⟨_, _, hround⟩ <;> cases hround
  | swept hphase₂ =>
    rw [hphase₂] at hround
    rcases hround with hround | ⟨_, _, hround⟩
    · cases hround
      have hanswered : (answers.map fun a => (a.name, a.incarnation)).Perm d.registry.current := by
        have hround := ho₂.round (answers.map fun a => (a.name, a.incarnation))
          (by rw [hphase₂]; rfl)
        rwa [htable] at hround
      -- one answer for each name and for each incarnation, since each has one realm
      have hnames : (answers.map (·.name)).Nodup := by
        have hnames := (hanswered.map Prod.fst).nodup_iff.mpr
          (Table.nodup_names h.consistent.sorted)
        rwa [List.map_map] at hnames
      have hincarnations : (answers.map (·.incarnation)).Nodup := by
        have hnumbers := (hanswered.map Prod.snd).nodup_iff.mpr h.nodup_incarnations
        rwa [List.map_map] at hnumbers
      have hcurrent : (d₂.forget answers).registry.current
          = d.registry.current.filter fun entry => !(emptied answers).contains entry.1 := by
        rw [← htable]
        rfl
      rw [hcurrent]
      refine ⟨List.filter_sublist, fun name n hentry => ?_⟩
      obtain ⟨answer, hanswer, heq⟩ := List.mem_map.mp (hanswered.mem_iff.mpr hentry)
      obtain ⟨rfl, rfl⟩ := Prod.mk.inj heq
      obtain ⟨st, hst, x, hx, hcount⟩ := hasked answer hanswer
      refine ⟨st, hst, x, hx, ?_, ?_⟩
      · rw [hanswers, filterMap_eq_of_nodup hincarnations hanswer]
        · simp [hcount]
        · intro other hother
          exact if_neg hother
      · have hemptied : answer.name ∈ emptied answers ↔ x.count = 0 := by
          rw [mem_emptied, ← hcount]
          constructor
          · rintro ⟨other, hother, hname, hzero⟩
            rwa [← List.inj_on_of_nodup_map hnames hother hanswer hname]
          · intro hzero
            exact ⟨answer, hanswer, rfl, hzero⟩
        rw [List.mem_filter]
        simp [hentry, hemptied]
    · cases hround

/-! ## Who is detached -/

/-- A sweep detaches nobody, and takes nothing from any send buffer. -/
theorem outboxes_of_isSweeping (hm : Moves d a d' events) (ha : IsSweeping d a) (m : Nat) :
    (d'.registry.realm? m).map (·.outboxes) = (d.registry.realm? m).map (·.outboxes) := by
  cases hm with
  | joined | created | posted | took | abandoned => exact absurd ha id
  | setOut | unanswered | swept | reported => rfl
  | asked => rw [registry_put]
  | @obeyed n x c rest hx hrun hmail hc | @answered n x c rest hx hrun hmail hc =>
    -- the command at the head of the mailbox is the question of the sweep
    obtain ⟨rest', hquestion⟩ := ha
    rw [hmail] at hquestion
    obtain ⟨rfl, -⟩ := List.cons.inj hquestion
    show ((d.registry.modify n (·.obey .retireIfEmpty)).realm? m).map (·.outboxes) = _
    rw [Registry.realm?_modify fun y => y.incarnation_obey _, Option.map_map]
    apply congrFun
    apply congrArg
    funext y
    simp only [Function.comp]
    split
    · exact y.outboxes_retireIfEmpty
    · rfl

end MessageBus.Dispatch
