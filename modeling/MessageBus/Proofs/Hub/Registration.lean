import MessageBus.Proofs.Hub.Mailboxes

/-! # What a registry knows of its realms

    Whatever a registry, its realms and their clients do in whatever order, the
    registry knows every realm that runs.  It forgets a realm only at the end of a
    sweep, and in the meantime the realms that have stopped are those that
    answered that they were empty.  Three groups of facts carry this.

    * `Registry.Consistent`: the registered realms against those that run.
    * `Dispatch.Posted`: what may wait in a mailbox, and where the question stands
      that the registry waits for.
    * `Dispatch.Orderly`: both, and that a round is about every registered realm
      once.

    Every move keeps them (`Dispatch.Orderly.moves`), so they hold along every run
    (`Dispatch.orderly`). -/

namespace MessageBus

/-! ## Registered and running -/

/-- The registered realms are those that run, and those on a list that stopped
    since. -/
structure Registry.Consistent (r : Registry) (retired : List String) : Prop where
  ascending : r.Ascending
  sorted : Table.Sorted r.current
  registered : ∀ name n, r.current.get? name = some n →
    ∃ x, r.realm? n = some x ∧ x.name = name ∧ (x.running = true ↔ name ∉ retired)
  running : ∀ n x, r.realm? n = some x → x.running = true → r.current.get? x.name = some n
  stopped : ∀ n x, r.realm? n = some x → x.running = false → x.count = 0

namespace Registry.Consistent

variable {r : Registry} {retired : List String} {n : Nat} {x : Realm} {name : String}

theorem start : Consistent .start [] where
  ascending := ⟨List.Pairwise.nil, fun _ hx => nomatch hx⟩
  sorted := Table.sorted_nil
  registered _ _ h := nomatch h
  running _ _ h := nomatch h
  stopped _ _ h := nomatch h

/-- A change that leaves the name of a realm alone and does not stop it. -/
theorem modify {change : Realm → Realm} (h : Consistent r retired)
    (hinc : ∀ x, (change x).incarnation = x.incarnation) (hx : r.realm? n = some x)
    (hname : (change x).name = x.name) (hrunning : (change x).running = x.running)
    (hcount : x.running = false → (change x).count = 0) :
    Consistent (r.modify n change) retired where
  ascending := h.ascending.modify hinc
  sorted := h.sorted
  registered name m hm := by
    obtain ⟨y, hy, hnamed, hretired⟩ := h.registered name m hm
    by_cases hmn : m = n
    · subst hmn
      obtain rfl : x = y := Option.some.inj (hx.symm.trans hy)
      exact ⟨change x, realm?_modify_self hinc hx, hname.trans hnamed, by rwa [hrunning]⟩
    · exact ⟨y, (realm?_modify_ne hinc hmn).trans hy, hnamed, hretired⟩
  running m y hy hrun := by
    by_cases hmn : m = n
    · subst hmn
      obtain rfl : change x = y := Option.some.inj ((realm?_modify_self hinc hx).symm.trans hy)
      rw [hname]
      exact h.running m x hx (hrunning.symm.trans hrun)
    · exact h.running m y ((realm?_modify_ne hinc hmn).symm.trans hy) hrun
  stopped m y hy hstop := by
    by_cases hmn : m = n
    · subst hmn
      obtain rfl : change x = y := Option.some.inj ((realm?_modify_self hinc hx).symm.trans hy)
      exact hcount (hrunning.symm.trans hstop)
    · exact h.stopped m y ((realm?_modify_ne hinc hmn).symm.trans hy) hstop

/-- A realm is started under a name that is not registered. -/
theorem create (h : Consistent r []) (hnew : r.current.get? name = none) :
    Consistent (r.create name).2 [] where
  ascending := h.ascending.create
  sorted := Table.sorted_insert h.sorted _ _
  registered other m hm := by
    rw [realm?_create h.ascending]
    by_cases hother : other = name
    · subst hother
      obtain rfl : r.started + 1 = m :=
        Option.some.inj ((Table.get?_insert r.current other _).symm.trans hm)
      exact ⟨_, if_pos rfl, rfl, by simp [Realm.start]⟩
    · have hold : r.current.get? other = some m :=
        (Table.get?_insert_ne r.current _ hother).symm.trans hm
      obtain ⟨y, hy, hnamed, hretired⟩ := h.registered other m hold
      have hle := h.ascending.le_started y (mem_of_realm? hy)
      rw [incarnation_of_realm? hy] at hle
      exact ⟨y, by rw [if_neg (by omega)]; exact hy, hnamed, hretired⟩
  running m y hy hrun := by
    rw [realm?_create h.ascending] at hy
    split at hy
    · next hm =>
      obtain rfl := Option.some.inj hy
      rw [hm]
      exact Table.get?_insert r.current name _
    · have hold := h.running m y hy hrun
      have hother : y.name ≠ name := by
        intro heq
        rw [heq, hnew] at hold
        cases hold
      exact (Table.get?_insert_ne r.current _ hother).trans hold
  stopped m y hy hstop := by
    rw [realm?_create h.ascending] at hy
    split at hy
    · obtain rfl := Option.some.inj hy
      cases hstop
    · exact h.stopped m y hy hstop

/-- A realm without clients retires. -/
theorem retire (h : Consistent r retired) (hx : r.realm? n = some x) (hrun : x.running = true)
    (hempty : x.count = 0) :
    Consistent (r.modify n (·.obey .retireIfEmpty)) (retired ++ [x.name]) := by
  have hinc : ∀ y : Realm, (y.obey .retireIfEmpty).incarnation = y.incarnation :=
    fun y => y.incarnation_obey _
  have hself := realm?_modify_self hinc hx
  have hstopped : (x.obey .retireIfEmpty).running = false := by
    simp [Realm.obey, Realm.running_retireIfEmpty, hempty]
  refine ⟨h.ascending.modify hinc, h.sorted, fun name m hm => ?_, fun m y hy hy' => ?_,
    fun m y hy _ => ?_⟩
  · obtain ⟨y, hy, hnamed, hretired⟩ := h.registered name m hm
    by_cases hmn : m = n
    · subst hmn
      obtain rfl : x = y := Option.some.inj (hx.symm.trans hy)
      exact ⟨_, hself, (x.name_obey _).trans hnamed, by simp [hstopped, hnamed]⟩
    · -- only one realm runs under the name of the one that retires
      have hother : name ≠ x.name := by
        rintro rfl
        exact hmn (Option.some.inj (hm.symm.trans (h.running n x hx hrun)))
      exact ⟨y, (realm?_modify_ne hinc hmn).trans hy, hnamed, by simpa [hother] using hretired⟩
  · by_cases hmn : m = n
    · subst hmn
      obtain rfl := Option.some.inj (hself.symm.trans hy)
      rw [hstopped] at hy'
      cases hy'
    · exact h.running m y ((realm?_modify_ne hinc hmn).symm.trans hy) hy'
  · by_cases hmn : m = n
    · subst hmn
      obtain rfl := Option.some.inj (hself.symm.trans hy)
      simp [Realm.obey, Realm.retireIfEmpty, hempty, Realm.count_stop]
    · next hy' => exact h.stopped m y ((realm?_modify_ne hinc hmn).symm.trans hy) hy'

/-- The realms that have retired are forgotten. -/
theorem forget (h : Consistent r retired) :
    Consistent { r with
      current := r.current.filter fun entry => !retired.contains entry.1 } [] := by
  have hsorted := Table.sorted_filter h.sorted fun entry => !retired.contains entry.1
  have hkept : ∀ name m, Table.get? (r.current.filter fun entry => !retired.contains entry.1) name
      = some m ↔ r.current.get? name = some m ∧ name ∉ retired := by
    intro name m
    rw [Table.get?_eq_some_iff hsorted, Table.get?_eq_some_iff h.sorted, List.mem_filter]
    simp
  refine ⟨⟨h.ascending.1, h.ascending.2⟩, hsorted, fun name m hm => ?_, fun m y hy hrun => ?_,
    h.stopped⟩
  · obtain ⟨hm, hstays⟩ := (hkept name m).mp hm
    obtain ⟨y, hy, hnamed, hretired⟩ := h.registered name m hm
    exact ⟨y, hy, hnamed, by simp [hretired.mpr hstays]⟩
  · have hold := h.running m y hy hrun
    obtain ⟨y', hy', -, hretired⟩ := h.registered y.name m hold
    obtain rfl : y = y' := Option.some.inj (hy.symm.trans hy')
    exact (hkept y.name m).mpr ⟨hold, hretired.mp hrun⟩

/-- How many send buffers were ever made does not matter. -/
theorem withNextOutbox (h : Consistent r retired) (k : Nat) :
    Consistent { r with nextOutbox := k } retired :=
  ⟨⟨h.ascending.1, h.ascending.2⟩, h.sorted, h.registered, h.running, h.stopped⟩

/-- While nothing has stopped, a client is handed the realm that is registered,
    whether or not realms that have stopped still take mail. -/
theorem handed?_eq (h : Consistent r []) (lingers : Bool) :
    r.handed? lingers name = r.current.get? name := by
  rw [handed?]
  cases hget : r.current.get? name with
  | none => rfl
  | some n =>
    obtain ⟨x, hx, -, hrunning⟩ := h.registered name n hget
    have hrun : x.running = true := hrunning.mpr (List.not_mem_nil)
    simp [hx, hrun]

end Registry.Consistent

namespace Dispatch

/-! ## What waits in a mailbox -/

/-- The question that the registry has put to the realm of an incarnation. -/
def Phase.question? (n : Nat) : Phase → Option Realm.Command
  | .waiting errand _ m _ _ => if m = n then some errand.question else none
  | _ => none

/-- A mailbox holds the question that was put, if any, and behind it nothing but
    commands of clients. -/
inductive Tidy : Option Realm.Command → List Realm.Command → Prop where
  | unasked {box : List Realm.Command} :
      (∀ c ∈ box, c.isQuestion = false) → Tidy none box
  | asked {question : Realm.Command} {front behind : List Realm.Command} :
      question.isQuestion = true → (∀ c ∈ front, c.isQuestion = false) →
      (∀ c ∈ behind, c.isClients = true) → Tidy (some question) (front ++ question :: behind)

theorem isQuestion_of_isClients {c : Realm.Command} (h : c.isClients = true) :
    c.isQuestion = false := by
  cases c with
  | remove | broadcast => rfl
  | add | count | retireIfEmpty => cases h

theorem isQuestion_question (errand : Errand) : errand.question.isQuestion = true := by
  cases errand <;> rfl

namespace Tidy

variable {q? : Option Realm.Command} {c : Realm.Command} {box : List Realm.Command}

/-- A client posts. -/
theorem post (h : Tidy q? box) (hc : c.isClients = true) : Tidy q? (box ++ [c]) := by
  cases h with
  | unasked hbox =>
    refine .unasked fun c' hc' => ?_
    rcases List.mem_append.mp hc' with hc' | hc'
    · exact hbox c' hc'
    · rw [List.mem_singleton.mp hc']
      exact isQuestion_of_isClients hc
  | asked hquestion hfront hbehind =>
    rw [List.append_assoc, List.cons_append]
    refine .asked hquestion hfront fun c' hc' => ?_
    rcases List.mem_append.mp hc' with hc' | hc'
    · exact hbehind c' hc'
    · rwa [List.mem_singleton.mp hc']

/-- A client is let in while no question stands. -/
theorem enroll (h : Tidy none box) (client number capacity : Nat) :
    Tidy none (box ++ [.add client number capacity]) := by
  cases h with
  | unasked hbox =>
    refine .unasked fun c' hc' => ?_
    rcases List.mem_append.mp hc' with hc' | hc'
    · exact hbox c' hc'
    · rw [List.mem_singleton.mp hc']
      rfl

/-- The question is put. -/
theorem ask (h : Tidy none box) (hc : c.isQuestion = true) : Tidy (some c) (box ++ [c]) := by
  cases h with
  | unasked hbox => exact .asked hc hbox (fun c' hc' => nomatch hc')

/-- A command that is no question is obeyed. -/
theorem obey (h : Tidy q? (c :: box)) (hc : c.isQuestion = false) : Tidy q? box := by
  generalize hall : c :: box = all at h
  cases h with
  | unasked hbox =>
    subst hall
    exact .unasked fun c' hc' => hbox c' (List.mem_cons_of_mem _ hc')
  | @asked question front behind hquestion hfront hbehind =>
    cases front with
    | nil =>
      obtain ⟨rfl, -⟩ := List.cons.inj hall
      rw [hc] at hquestion
      cases hquestion
    | cons first front =>
      obtain ⟨-, rfl⟩ := List.cons.inj hall
      exact .asked hquestion (fun c' hc' => hfront c' (List.mem_cons_of_mem _ hc')) hbehind

/-- The question is answered. -/
theorem answer (h : Tidy q? (c :: box)) (hc : c.isQuestion = true) :
    q? = some c ∧ ∀ c' ∈ box, c'.isClients = true := by
  generalize hall : c :: box = all at h
  cases h with
  | unasked hbox =>
    subst hall
    rw [hbox c (List.mem_cons_self ..)] at hc
    cases hc
  | @asked question front behind hquestion hfront hbehind =>
    cases front with
    | nil =>
      obtain ⟨rfl, rfl⟩ := List.cons.inj hall
      exact ⟨rfl, hbehind⟩
    | cons first front =>
      obtain ⟨rfl, -⟩ := List.cons.inj hall
      rw [hfront c (List.mem_cons_self ..)] at hc
      cases hc

theorem of_clients (h : ∀ c ∈ box, c.isClients = true) : Tidy none box :=
  .unasked fun c hc => isQuestion_of_isClients (h c hc)

end Tidy

/-- What may wait in the mailboxes: nothing before a realm is started, only
    commands of clients once it has stopped. -/
structure Posted (d : Dispatch) : Prop where
  unborn : ∀ n, d.registry.realm? n = none → d.mail n = []
  stopped : ∀ n x, d.registry.realm? n = some x → x.running = false →
    ∀ c ∈ d.mail n, c.isClients = true
  tidy : ∀ n, Tidy (d.phase.question? n) (d.mail n)

variable {d d' : Dispatch} {n : Nat} {x : Realm}

theorem isRunning_iff :
    d.isRunning n = true ↔ ∃ x, d.registry.realm? n = some x ∧ x.running = true := by
  cases h : d.registry.realm? n with
  | none => simp [isRunning, h]
  | some x => simp [isRunning, h]

namespace Posted

theorem start : Posted .start where
  unborn _ _ := rfl
  stopped _ _ h := nomatch h
  tidy _ := .unasked fun _ hc => nomatch hc

/-- What happens to the realms does not matter here, as long as none stops. -/
theorem withRegistry {r : Registry} {phase : Phase} (h : Posted d)
    (hborn : ∀ n, r.realm? n = none → d.registry.realm? n = none)
    (hstopped : ∀ n x, r.realm? n = some x → x.running = false →
      ∃ y, d.registry.realm? n = some y ∧ y.running = false)
    (hquestion : ∀ n, phase.question? n = d.phase.question? n) :
    Posted { d with registry := r, phase := phase } where
  unborn n hn := h.unborn n (hborn n hn)
  stopped n x hx hrun := by
    obtain ⟨y, hy, hstop⟩ := hstopped n x hx hrun
    exact h.stopped n y hy hstop
  tidy n := by
    rw [hquestion n]
    exact h.tidy n

/-- The mailbox of one realm is changed. -/
theorem withMail {r : Registry} {phase : Phase} {box : List Realm.Command} (h : Posted d)
    (hborn : ∀ m, r.realm? m = none → d.registry.realm? m = none)
    (hstopped : ∀ m x, r.realm? m = some x → x.running = false → m ≠ n →
      ∃ y, d.registry.realm? m = some y ∧ y.running = false)
    (hquestion : ∀ m, m ≠ n → phase.question? m = d.phase.question? m)
    (hrealm : r.realm? n = some x) (hclients : x.running = false → ∀ c ∈ box, c.isClients = true)
    (htidy : Tidy (phase.question? n) box) :
    Posted { d with registry := r, mail := Function.update d.mail n box, phase := phase } where
  unborn m hm := by
    by_cases hmn : m = n
    · subst hmn
      rw [hrealm] at hm
      cases hm
    · exact (Function.update_of_ne hmn ..).trans (h.unborn m (hborn m hm))
  stopped m y hy hstop := by
    by_cases hmn : m = n
    · subst hmn
      obtain rfl := Option.some.inj (hrealm.symm.trans hy)
      simpa using hclients hstop
    · obtain ⟨z, hz, hzstop⟩ := hstopped m y hy hstop hmn
      simpa [hmn] using h.stopped m z hz hzstop
  tidy m := by
    by_cases hmn : m = n
    · subst hmn
      simpa using htidy
    · rw [hquestion m hmn]
      simpa [hmn] using h.tidy m

/-- A running realm gets mail. -/
theorem mailed {r : Registry} {phase : Phase} {box : List Realm.Command} (h : Posted d)
    (hrealms : ∀ m, r.realm? m = d.registry.realm? m) (hx : d.registry.realm? n = some x)
    (hrun : x.running = true) (hquestion : ∀ m, m ≠ n → phase.question? m = d.phase.question? m)
    (htidy : Tidy (phase.question? n) box) :
    Posted { d with registry := r, mail := Function.update d.mail n box, phase := phase } := by
  apply h.withMail _ _ hquestion ((hrealms n).trans hx) _ htidy
  · intro m hm
    rwa [← hrealms]
  · intro m y hy hstop _
    exact ⟨y, (hrealms m).symm.trans hy, hstop⟩
  · intro hstop
    rw [hrun] at hstop
    cases hstop

/-- A realm does something with its mail. -/
theorem worked {change : Realm → Realm} {phase : Phase} {box : List Realm.Command} (h : Posted d)
    (hinc : ∀ x, (change x).incarnation = x.incarnation) (hx : d.registry.realm? n = some x)
    (hquestion : ∀ m, m ≠ n → phase.question? m = d.phase.question? m)
    (hclients : (change x).running = false → ∀ c ∈ box, c.isClients = true)
    (htidy : Tidy (phase.question? n) box) :
    Posted { d with
      registry := d.registry.modify n change, mail := Function.update d.mail n box
      phase := phase } := by
  apply h.withMail _ _ hquestion (Registry.realm?_modify_self hinc hx) hclients htidy
  · intro m hm
    rw [Registry.realm?_modify hinc] at hm
    exact Option.map_eq_none_iff.mp hm
  · intro m y hy hstop hmn
    rw [Registry.realm?_modify_ne hinc hmn] at hy
    exact ⟨y, hy, hstop⟩

end Posted

/-! ## Rounds -/

/-- The entries that a round is about: one is being asked, some are yet to be
    asked, and the others have answered. -/
def Phase.entries? : Phase → Option (List (String × Nat))
  | .idle => none
  | .round _ unasked answers => some (unasked ++ answers.map fun a => (a.name, a.incarnation))
  | .waiting _ name n unasked answers =>
    some ((name, n) :: (unasked ++ answers.map fun a => (a.name, a.incarnation)))

/-- The names of the realms that have retired on the sweep that the registry is
    on. -/
def Phase.retired : Phase → List String
  | .round .sweep _ answers | .waiting .sweep _ _ _ answers => emptied answers
  | _ => []

/-- The registered realms, the mailboxes, and the round that the registry is
    on. -/
structure Orderly (d : Dispatch) : Prop where
  consistent : d.registry.Consistent d.phase.retired
  posted : d.Posted
  round : ∀ entries, d.phase.entries? = some entries → entries.Perm d.registry.current

theorem mem_emptied {answers : List RealmStats} {name : String} :
    name ∈ emptied answers ↔ ∃ a ∈ answers, a.name = name ∧ a.clients = 0 := by
  simp only [emptied, List.mem_map, List.mem_filter, beq_iff_eq]
  constructor
  · rintro ⟨a, ⟨ha, hclients⟩, hname⟩
    exact ⟨a, ha, hname, hclients⟩
  · rintro ⟨a, ha, hname, hclients⟩
    exact ⟨a, ⟨ha, hclients⟩, hname⟩

theorem emptied_snoc (answers : List RealmStats) (a : RealmStats) :
    emptied (answers ++ [a]) = emptied answers ++ if a.clients = 0 then [a.name] else [] := by
  by_cases h : a.clients = 0 <;> simp [emptied, h]

/-- A realm that is registered under one name only has not answered before it
    was asked. -/
theorem notMem_emptied {table unasked : Table Nat} {answers : List RealmStats} {name : String}
    (hsorted : Table.Sorted table)
    (hperm : ((name, n) :: (unasked ++ answers.map fun a => (a.name, a.incarnation))).Perm table) :
    name ∉ emptied answers := by
  have hnodup := (hperm.map Prod.fst).nodup_iff.mpr (Table.nodup_names hsorted)
  rw [List.map_cons, List.nodup_cons, List.map_append, List.mem_append, List.map_map] at hnodup
  intro hemptied
  obtain ⟨a, ha, hname, -⟩ := mem_emptied.mp hemptied
  exact hnodup.1 (.inr (List.mem_map.mpr ⟨a, ha, hname⟩))

namespace Orderly

/-- The realm that is asked next, or that is being asked, runs under the name
    that it is registered under. -/
theorem running_of_pending (h : Orderly d) {errand : Errand} {name : String}
    {unasked : List (String × Nat)} {answers : List RealmStats}
    (hphase : d.phase = .round errand ((name, n) :: unasked) answers ∨
      d.phase = .waiting errand name n unasked answers) :
    ∃ x, d.registry.realm? n = some x ∧ x.name = name ∧ x.running = true := by
  have hentries : d.phase.entries? =
      some ((name, n) :: (unasked ++ answers.map fun a => (a.name, a.incarnation))) := by
    rcases hphase with hphase | hphase <;> rw [hphase] <;> rfl
  have hretired : d.phase.retired = emptied answers ∨ d.phase.retired = [] := by
    rcases hphase with hphase | hphase <;> rw [hphase] <;> cases errand
    · exact .inl rfl
    · exact .inr rfl
    · exact .inl rfl
    · exact .inr rfl
  have hperm := h.round _ hentries
  have hget : d.registry.current.get? name = some n :=
    (Table.get?_eq_some_iff h.consistent.sorted).mpr (hperm.subset (List.mem_cons_self ..))
  obtain ⟨x, hx, hname, hrunning⟩ := h.consistent.registered name n hget
  refine ⟨x, hx, hname, hrunning.mpr ?_⟩
  rcases hretired with hretired | hretired
  · rw [hretired]
    exact notMem_emptied h.consistent.sorted hperm
  · rw [hretired]
    exact List.not_mem_nil

/-- Whom the registry hears is the realm that it waits for. -/
theorem waiting_of_question (h : Orderly d) {c : Realm.Command} {rest : List Realm.Command}
    (hmail : d.mail n = c :: rest) (hc : c.isQuestion = true) :
    (∃ errand name unasked answers, d.phase = .waiting errand name n unasked answers ∧
      c = errand.question) ∧ ∀ c' ∈ rest, c'.isClients = true := by
  have htidy := h.posted.tidy n
  rw [hmail] at htidy
  obtain ⟨hasked, hrest⟩ := htidy.answer hc
  refine ⟨?_, hrest⟩
  cases hphase : d.phase with
  | idle | round => simp [hphase, Phase.question?] at hasked
  | waiting errand name m unasked answers =>
    simp only [hphase, Phase.question?, Option.ite_none_right_eq_some, Option.some.injEq] at hasked
    obtain ⟨rfl, rfl⟩ := hasked
    exact ⟨errand, name, unasked, answers, rfl, rfl⟩

end Orderly

/-! ## Every move keeps order -/

theorem registry_put (n : Nat) (c : Realm.Command) : (d.put n c).registry = d.registry := by
  unfold put
  split <;> rfl

theorem phase_put (n : Nat) (c : Realm.Command) : (d.put n c).phase = d.phase := by
  unfold put
  split <;> rfl

theorem put_of_running {c : Realm.Command} (h : d.isRunning n = true) :
    d.put n c = { d with mail := Function.update d.mail n (d.mail n ++ [c]) } := if_pos h

theorem put_of_stopped {c : Realm.Command} (h : d.isRunning n = false) : d.put n c = d :=
  if_neg (by simp [h])

theorem enroll_of_running {client capacity : Nat} (h : d.isRunning n = true) :
    d.enroll n client capacity =
      { d with
        registry := { d.registry with nextOutbox := d.registry.nextOutbox + 1 }
        mail := Function.update d.mail n
          (d.mail n ++ [.add client d.registry.nextOutbox capacity]) } := if_pos h

namespace Orderly

/-- One realm is changed in a way that neither stops nor renames it, and takes
    a command from its mailbox or not. -/
theorem change {change : Realm → Realm} {box : List Realm.Command} (h : Orderly d)
    (hx : d.registry.realm? n = some x) (hinc : ∀ x, (change x).incarnation = x.incarnation)
    (hname : (change x).name = x.name) (hrunning : (change x).running = x.running)
    (hcount : x.running = false → (change x).count = 0)
    (hclients : x.running = false → ∀ c ∈ box, c.isClients = true)
    (htidy : Tidy (d.phase.question? n) box) :
    Orderly { d with
      registry := d.registry.modify n change, mail := Function.update d.mail n box } := by
  refine ⟨h.consistent.modify hinc hx hname hrunning hcount, ?_, h.round⟩
  apply h.posted.worked hinc hx _ _ htidy
  · intro m _
    rfl
  · intro hstop
    exact hclients (hrunning.symm.trans hstop)

/-- Between its rounds the registry hands out the realm that is registered, which
    runs. -/
theorem handed (h : Orderly d) (hphase : d.phase = .idle) {name : String} {lingers : Bool}
    (hhanded : d.registry.handed? lingers name = some n) :
    d.registry.current.get? name = some n ∧
      ∃ x, d.registry.realm? n = some x ∧ x.name = name ∧ x.running = true := by
  have hconsistent := h.consistent
  rw [hphase] at hconsistent
  rw [hconsistent.handed?_eq] at hhanded
  obtain ⟨x, hx, hname, hrunning⟩ := hconsistent.registered name n hhanded
  exact ⟨hhanded, x, hx, hname, hrunning.mpr List.not_mem_nil⟩

/-- Between its rounds the registry starts a realm just if none is registered. -/
theorem unregistered (h : Orderly d) (hphase : d.phase = .idle) {name : String} {lingers : Bool}
    (hhanded : d.registry.handed? lingers name = none) :
    d.registry.current.get? name = none := by
  have hconsistent := h.consistent
  rw [hphase] at hconsistent
  rwa [hconsistent.handed?_eq] at hhanded

/-- The registry lets a client into a realm that is registered. -/
theorem joined (h : Orderly d) (hphase : d.phase = .idle) {name : String} {client capacity : Nat}
    {lingers : Bool} (hhanded : d.registry.handed? lingers name = some n) :
    Orderly (d.enroll n client capacity) := by
  obtain ⟨-, x, hx, -, hrun⟩ := h.handed hphase hhanded
  rw [enroll_of_running (isRunning_iff.mpr ⟨x, hx, hrun⟩)]
  refine ⟨h.consistent.withNextOutbox _, ?_, h.round⟩
  apply h.posted.mailed _ hx hrun
  · intro m _
    rfl
  · have htidy := h.posted.tidy n
    simp only [hphase, Phase.question?] at htidy ⊢
    exact htidy.enroll client _ capacity
  · intro m
    rfl

/-- The registry starts a realm for a client. -/
theorem created (h : Orderly d) (hphase : d.phase = .idle) {name : String} {client capacity : Nat}
    {lingers : Bool} (hhanded : d.registry.handed? lingers name = none) :
    Orderly ({ d with registry := (d.registry.create name).2 }.enroll (d.registry.started + 1)
      client capacity) := by
  have hconsistent := h.consistent
  rw [hphase] at hconsistent
  have hcreate : ∀ m, (d.registry.create name).2.realm? m
      = if m = d.registry.started + 1 then some (.start name m) else d.registry.realm? m :=
    fun m => Registry.realm?_create hconsistent.ascending
  have hnew : (d.registry.create name).2.realm? (d.registry.started + 1)
      = some (.start name (d.registry.started + 1)) := by rw [hcreate, if_pos rfl]
  rw [enroll_of_running (isRunning_iff.mpr ⟨_, hnew, rfl⟩)]
  refine ⟨?_, ?_, ?_⟩
  · show Registry.Consistent _ d.phase.retired
    rw [hphase]
    exact (hconsistent.create (h.unregistered hphase hhanded)).withNextOutbox _
  · apply h.posted.withMail
    · intro m hm
      have hm : (d.registry.create name).2.realm? m = none := hm
      rw [hcreate] at hm
      split at hm
      · cases hm
      · exact hm
    · intro m y hy hstop hmn
      have hy : (d.registry.create name).2.realm? m = some y := hy
      rw [hcreate, if_neg hmn] at hy
      exact ⟨y, hy, hstop⟩
    · intro m _
      rfl
    · exact hnew
    · intro hstop
      cases hstop
    · have htidy := h.posted.tidy (d.registry.started + 1)
      simp only [hphase, Phase.question?] at htidy ⊢
      exact htidy.enroll client _ capacity
  · intro entries hentries
    simp [hphase, Phase.entries?] at hentries

/-- A client posts. -/
theorem put (h : Orderly d) {c : Realm.Command} (hc : c.isClients = true) :
    Orderly (d.put n c) := by
  by_cases hrunning : d.isRunning n = true
  · obtain ⟨x, hx, hrun⟩ := isRunning_iff.mp hrunning
    rw [put_of_running hrunning]
    refine ⟨h.consistent, ?_, h.round⟩
    apply h.posted.mailed _ hx hrun
    · intro m _
      rfl
    · exact (h.posted.tidy n).post hc
    · intro m
      rfl
  · rw [put_of_stopped (Bool.not_eq_true _ ▸ hrunning)]
    exact h

/-- A realm obeys a command that is no question. -/
theorem obeyed (h : Orderly d) (hx : d.registry.realm? n = some x) (hrun : x.running = true)
    {c : Realm.Command} {rest : List Realm.Command} (hmail : d.mail n = c :: rest)
    (hc : c.isQuestion = false) : Orderly (d.obey n c rest) := by
  have htidy := h.posted.tidy n
  rw [hmail] at htidy
  apply h.change hx (fun y => y.incarnation_obey c) (x.name_obey c) _ _ _ (htidy.obey hc)
  · apply x.running_obey
    rintro rfl
    cases hc
  · intro hstop
    rw [hrun] at hstop
    cases hstop
  · intro hstop
    rw [hrun] at hstop
    cases hstop

/-- A realm answers the question that it was asked. -/
theorem answered (h : Orderly d) (hx : d.registry.realm? n = some x) (hrun : x.running = true)
    {c : Realm.Command} {rest : List Realm.Command} (hmail : d.mail n = c :: rest)
    (hc : c.isQuestion = true) :
    Orderly { d.obey n c rest with phase := hear x.count d.phase } := by
  obtain ⟨⟨errand, name, unasked, answers, hphase, hquestion⟩, hrest⟩ :=
    h.waiting_of_question hmail hc
  obtain ⟨y, hy, hname, -⟩ := h.running_of_pending (.inr hphase)
  obtain rfl : x = y := Option.some.inj (hx.symm.trans hy)
  -- only an empty realm that is asked on a sweep changes, and its name joins the emptied ones
  have hinc : ∀ y : Realm, (y.obey c).incarnation = y.incarnation := fun y => y.incarnation_obey c
  have hconsistent := h.consistent
  refine ⟨?_, ?_, ?_⟩
  · show (d.registry.modify n (·.obey c)).Consistent _
    have hstays : ¬ (c = .retireIfEmpty ∧ x.count = 0) →
        (d.registry.modify n (·.obey c)).Consistent d.phase.retired := by
      intro hnot
      have hsame : x.obey c = x := (x.obey_question hc).trans (if_neg hnot)
      exact hconsistent.modify hinc hx (by rw [hsame]) (by rw [hsame])
        (by rw [hsame]; exact hconsistent.stopped n x hx)
    rw [hphase] at hstays ⊢
    cases errand with
    | overview => exact hstays fun hboth => by rw [hquestion] at hboth; cases hboth.1
    | sweep =>
      simp only [hear, Phase.retired, emptied_snoc] at hstays ⊢
      by_cases hempty : x.count = 0
      · rw [hphase] at hconsistent
        rw [if_pos hempty, hquestion, ← hname]
        exact hconsistent.retire hx hrun hempty
      · rw [if_neg hempty, List.append_nil]
        exact hstays fun hboth => hempty hboth.2
  · apply h.posted.worked hinc hx
    · intro m hmn
      rw [hphase]
      exact (if_neg (Ne.symm hmn)).symm
    · intro _
      exact hrest
    · rw [hphase]
      exact .of_clients hrest
  · intro entries hentries
    have hperm := h.round ((name, n) :: (unasked ++ answers.map fun a => (a.name, a.incarnation)))
      (by rw [hphase]; rfl)
    rw [hphase] at hentries
    obtain rfl := Option.some.inj hentries
    -- whoever has answered goes from the front to the back
    refine List.Perm.trans ?_ hperm
    rw [List.map_append, ← List.append_assoc]
    exact List.perm_append_singleton (name, n) _

/-- A client takes from its send buffer, or stops doing so. -/
theorem modifyOutbox (h : Orderly d) {seat : Seat} {o : Outbox} {change : Outbox → Outbox}
    (ho : d.registry.outbox? seat = some o)
    (hchange : ∀ p, (change p).attached = p.attached ∨ (change p).attached = o.attached) :
    Orderly { d with registry := d.registry.modifyOutbox seat change } := by
  obtain ⟨x, hx, hfind⟩ := Option.bind_eq_some_iff.mp ho
  have hmem : o ∈ x.outboxes := List.mem_of_find?_eq_some hfind
  have hmail : Function.update d.mail seat.incarnation (d.mail seat.incarnation) = d.mail :=
    Function.update_eq_self _ _
  show Orderly
    { d with registry := d.registry.modify seat.incarnation (·.modify seat.outbox change) }
  rw [← hmail]
  apply h.change hx
  · intro y
    rfl
  · rfl
  · rfl
  · intro hstop
    rw [Realm.count_eq_zero_iff]
    have hdetached := (Realm.count_eq_zero_iff x).mp (h.consistent.stopped _ x hx hstop)
    intro p hp
    obtain ⟨q, hq, rfl⟩ := List.mem_map.mp hp
    by_cases hnumber : q.number = seat.outbox
    · rw [if_pos hnumber]
      rcases hchange q with hsame | hsame
      · exact hsame.trans (hdetached q hq)
      · exact hsame.trans (hdetached o hmem)
    · rw [if_neg hnumber]
      exact hdetached q hq
  · exact h.posted.stopped _ x hx
  · exact h.posted.tidy _

/-- The registry asks the next realm. -/
theorem asked (h : Orderly d) {errand : Errand} {name : String} {unasked : List (String × Nat)}
    {answers : List RealmStats} (hphase : d.phase = .round errand ((name, n) :: unasked) answers) :
    Orderly { d.put n errand.question with phase := .waiting errand name n unasked answers } := by
  obtain ⟨x, hx, -, hrun⟩ := h.running_of_pending (.inl hphase)
  rw [put_of_running (isRunning_iff.mpr ⟨x, hx, hrun⟩)]
  refine ⟨?_, ?_, ?_⟩
  · have hconsistent := h.consistent
    rw [hphase] at hconsistent
    cases errand <;> exact hconsistent
  · apply h.posted.mailed _ hx hrun
    · intro m hmn
      rw [hphase]
      exact if_neg (Ne.symm hmn)
    · have htidy := h.posted.tidy n
      simp only [hphase, Phase.question?, if_true] at htidy ⊢
      exact htidy.ask (isQuestion_question errand)
    · intro m
      rfl
  · intro entries hentries
    obtain rfl := Option.some.inj hentries
    exact h.round _ (by rw [hphase]; rfl)

/-- The registry sets out, or comes back. -/
theorem withPhase (h : Orderly d) {r : Registry} {phase : Phase}
    (hrealms : ∀ m, r.realm? m = d.registry.realm? m) (hconsistent : r.Consistent phase.retired)
    (hbefore : ∀ m, d.phase.question? m = none) (hafter : ∀ m, phase.question? m = none)
    (hround : ∀ entries, phase.entries? = some entries → entries.Perm r.current) :
    Orderly { d with registry := r, phase := phase } := by
  refine ⟨hconsistent, ?_, hround⟩
  apply h.posted.withRegistry
  · intro m hm
    rwa [← hrealms]
  · intro m y hy hstop
    exact ⟨y, (hrealms m).symm.trans hy, hstop⟩
  · intro m
    rw [hbefore, hafter]

theorem moves {a : Action} {events : List Event} (h : Orderly d) (hm : Moves d a d' events) :
    Orderly d' := by
  cases hm with
  | joined hphase hhanded => exact h.joined hphase hhanded
  | created hphase hhanded => exact h.created hphase hhanded
  | posted hc => exact h.put hc
  | obeyed hx hrun hmail hc => exact h.obeyed hx hrun hmail hc
  | answered hx hrun hmail hc => exact h.answered hx hrun hmail hc
  | took ho => exact h.modifyOutbox ho fun p => .inr rfl
  | abandoned ho => exact h.modifyOutbox ho fun p => .inl rfl
  | @setOut errand order hphase hperm =>
    apply h.withPhase
    · intro m
      rfl
    · have hconsistent := h.consistent
      rw [hphase] at hconsistent
      cases errand <;> exact hconsistent
    · intro m
      rw [hphase]
      rfl
    · intro m
      rfl
    · intro entries hentries
      obtain rfl := Option.some.inj hentries
      simpa using hperm
  | asked hphase => exact h.asked hphase
  | unanswered hphase hstopped =>
    -- a realm that is yet to be asked runs, so this never happens
    obtain ⟨x, hx, -, hrun⟩ := h.running_of_pending (.inl hphase)
    rw [isRunning_iff.mpr ⟨x, hx, hrun⟩] at hstopped
    cases hstopped
  | swept hphase =>
    apply h.withPhase
    · intro m
      rfl
    · have hconsistent := h.consistent
      rw [hphase] at hconsistent
      exact hconsistent.forget
    · intro m
      rw [hphase]
      rfl
    · intro m
      rfl
    · intro entries hentries
      cases hentries
  | reported hphase =>
    apply h.withPhase
    · intro m
      rfl
    · have hconsistent := h.consistent
      rw [hphase] at hconsistent
      exact hconsistent
    · intro m
      rw [hphase]
      rfl
    · intro m
      rfl
    · intro entries hentries
      cases hentries

theorem start : Orderly .start :=
  ⟨.start, .start, fun _ hentries => nomatch hentries⟩

end Orderly

/-- Along every run the registry knows the realms that run, and the mailboxes
    are in order. -/
theorem orderly {trace : Trace} (h : Runs trace d) : Orderly d :=
  h.invariant (fun _ _ _ _ hs hm => hs.moves (moves_of_act hm)) .start

end Dispatch

end MessageBus
