import MessageBus.Proofs.Hub.Sweeping

/-! # One realm for each name

    Retiring, letting clients in and removing them meet in the mailboxes of a
    registry and of its realms.  Still no two realms of one name ever have clients
    at the same time, whatever the order in which all of that happens.

    * `creations_eq`: realms are started one after the other, with ascending
      incarnations.
    * `Orderly.letIn`: where a client is when the registry has let it in.
    * `one_realm_per_name`: what the registry guarantees along every run. -/

namespace MessageBus

namespace Realm

variable {x : Realm} {mail : List Command}

/-- The realm when it has worked through its mailbox. -/
def obeyAll (x : Realm) (mail : List Command) : Realm := mail.foldl obey x

theorem obeyAll_snoc (x : Realm) (mail : List Command) (c : Command) :
    x.obeyAll (mail ++ [c]) = (x.obeyAll mail).obey c := by
  simp [obeyAll]

theorem running_obeyAll (h : ∀ c ∈ mail, c.isQuestion = false) :
    (x.obeyAll mail).running = x.running := by
  induction mail generalizing x with
  | nil => rfl
  | cons c mail ih =>
    have hc : c ≠ .retireIfEmpty := by
      rintro rfl
      have hquestion := h .retireIfEmpty (List.mem_cons_self ..)
      cases hquestion
    exact (ih fun c' hc' => h c' (List.mem_cons_of_mem _ hc')).trans (x.running_obey hc)

theorem mem_clients_add (x : Realm) (client number capacity : Nat) :
    client ∈ (x.add client number capacity).clients := by
  simp [clients, add]

end Realm

namespace Dispatch

/-! ## Creations -/

/-- The name and the incarnation of a realm that is started. -/
def Event.creation? : Event → Option (String × Nat)
  | .created name n => some (name, n)
  | _ => none

/-- The realms that were started. -/
def creations (trace : Trace) : List (String × Nat) :=
  (eventsOf trace).filterMap Event.creation?

variable {d d' : Dispatch} {a : Action} {events : List Event} {trace : Trace} {n : Nat} {x : Realm}

/-- The names and the incarnations of realms. -/
def identities (realms : List Realm) : List (String × Nat) :=
  realms.map fun x => (x.name, x.incarnation)

theorem identities_modify {r : Registry} {change : Realm → Realm}
    (hname : ∀ x, (change x).name = x.name)
    (hinc : ∀ x, (change x).incarnation = x.incarnation) :
    identities (r.modify n change).realms = identities r.realms := by
  simp only [identities, Registry.modify, List.map_map]
  apply List.map_congr_left
  intro x _
  by_cases hx : x.incarnation = n <;> simp [hx, hname, hinc]

/-- The realms after a move are those before it and the one that it starts. -/
theorem identities_moves (hm : Moves d a d' events) : identities d'.registry.realms
    = identities d.registry.realms ++ events.filterMap Event.creation? := by
  have hsame : ∀ (d : Dispatch) n c, identities (d.put n c).registry.realms
      = identities d.registry.realms := by
    intro d n c
    rw [registry_put]
  have hbuffer : ∀ (n : Nat) (events : List Realm.Event),
      (events.map (Event.buffer n)).filterMap Event.creation? = [] := by
    intro n events
    rw [List.filterMap_map]
    exact List.filterMap_eq_nil_iff.mpr fun _ _ => rfl
  cases hm with
  | joined => exact (hsame ..).trans (List.append_nil _).symm
  | created =>
    refine (hsame ..).trans ?_
    simp [identities, Registry.create, Event.creation?, Realm.start]
  | posted => exact (hsame ..).trans (List.append_nil _).symm
  | obeyed =>
    rw [hbuffer, List.append_nil]
    exact identities_modify (fun y => y.name_obey _) fun y => y.incarnation_obey _
  | answered =>
    refine Eq.trans ?_ (List.append_nil _).symm
    exact identities_modify (fun y => y.name_obey _) fun y => y.incarnation_obey _
  | took | abandoned =>
    refine Eq.trans ?_ (List.append_nil _).symm
    exact identities_modify (fun _ => rfl) fun _ => rfl
  | asked => exact (hsame ..).trans (List.append_nil _).symm
  | setOut | unanswered | swept | reported => exact (List.append_nil _).symm

/-- The registry remembers every realm that was started, in that order. -/
theorem creations_eq (h : Runs trace d) : creations trace = identities d.registry.realms := by
  induction h with
  | start => rfl
  | @move trace d d' a events _ hm ih =>
    rw [identities_moves (moves_of_act hm), ← ih]
    simp [creations]

/-! ## Letting clients in -/

/-- The registry has handed the realm `x` of an incarnation to a client.  The
    command that lets the client in is the last one in the mailbox of the realm,
    and when the realm gets to it the client belongs to it. -/
structure LetIn (d d' : Dispatch) (name : String) (client capacity n : Nat) (x : Realm) : Prop where
  registered : d'.registry.current.get? name = some n
  realm : d'.registry.realm? n = some x
  named : x.name = name
  running : x.running = true
  posted : d'.mail n = d.mail n ++ [.add client d.registry.nextOutbox capacity]
  stays : (x.obeyAll (d'.mail n)).running = true
  member : client ∈ (x.obeyAll (d'.mail n)).clients

/-- While the registry takes requests, no realm has a question in its mailbox. -/
theorem Orderly.isQuestion_of_idle (h : Orderly d) (hphase : d.phase = .idle) :
    ∀ c ∈ d.mail n, c.isQuestion = false := by
  have htidy := h.posted.tidy n
  rw [hphase] at htidy
  generalize d.mail n = box at htidy
  cases htidy with
  | unasked hbox => exact hbox

theorem phase_enroll (n client capacity : Nat) : (d.enroll n client capacity).phase = d.phase :=
  phase_put n _

/-- A client is let into the realm that is registered, if there is one, and
    otherwise into a new one that nobody else has ever been in. -/
theorem Orderly.letIn (h : Orderly d) {name : String} {client capacity : Nat} {lingers : Bool}
    (hm : Moves d (.attach name client capacity lingers) d' events) :
    ∃ n x, LetIn d d' name client capacity n x ∧
      (d.registry.current.get? name = some n ∨
        d.registry.current.get? name = none ∧ (∀ y ∈ d.registry.realms, y.incarnation < n) ∧
          x = .start name n ∧ (x.obeyAll (d'.mail n)).clients = [client]) := by
  have ho := h.moves hm
  cases hm with
  | @joined _ _ _ n _ hphase hhanded =>
    obtain ⟨hget, x, hx, hname, hrun⟩ := h.handed hphase hhanded
    have hrunning := isRunning_iff.mpr ⟨x, hx, hrun⟩
    have hquestion : ∀ c ∈ (d.enroll n client capacity).mail n, c.isQuestion = false :=
      ho.isQuestion_of_idle ((phase_enroll ..).trans hphase)
    have hmail : (d.enroll n client capacity).mail n
        = d.mail n ++ [.add client d.registry.nextOutbox capacity] := by
      rw [enroll_of_running hrunning]
      exact Function.update_self ..
    refine ⟨n, x, ⟨?_, ?_, hname, hrun, hmail, ?_, ?_⟩, .inl hget⟩
    · rw [enroll_of_running hrunning]
      exact hget
    · rw [enroll_of_running hrunning]
      exact hx
    · exact (Realm.running_obeyAll hquestion).trans hrun
    · rw [hmail, Realm.obeyAll_snoc]
      exact Realm.mem_clients_add ..
  | created hphase hhanded =>
    have hnew := h.unregistered hphase hhanded
    have hascending := h.consistent.ascending
    have hunborn : d.mail (d.registry.started + 1) = [] :=
      h.posted.unborn _ (Registry.realm?_next hascending)
    have hrealm : (d.registry.create name).2.realm? (d.registry.started + 1)
        = some (.start name (d.registry.started + 1)) := by
      rw [Registry.realm?_create hascending, if_pos rfl]
    have hrunning : isRunning { d with registry := (d.registry.create name).2 }
        (d.registry.started + 1) = true := isRunning_iff.mpr ⟨_, hrealm, rfl⟩
    have hmail : (enroll { d with registry := (d.registry.create name).2 }
        (d.registry.started + 1) client capacity).mail (d.registry.started + 1)
        = [.add client d.registry.nextOutbox capacity] := by
      rw [enroll_of_running hrunning]
      refine (Function.update_self ..).trans ?_
      rw [hunborn]
      rfl
    refine ⟨d.registry.started + 1, _, ⟨?_, ?_, rfl, rfl, ?_, ?_, ?_⟩, .inr ⟨hnew, ?_, rfl, ?_⟩⟩
    · rw [enroll_of_running hrunning]
      exact Table.get?_insert ..
    · rw [enroll_of_running hrunning]
      exact hrealm
    · rw [hmail, hunborn]
      rfl
    · rw [hmail]
      rfl
    · rw [hmail]
      exact Realm.mem_clients_add ..
    · intro y hy
      exact Nat.lt_succ_of_le (hascending.le_started y hy)
    · rw [hmail]
      rfl

/-! ## Main theorem -/

/-- A client belongs to a realm, or the command that lets it in is in the mailbox
    of the realm. -/
def Attached (d : Dispatch) (x : Realm) (client : Nat) : Prop :=
  client ∈ x.clients ∨
    ∃ number capacity, .add client number capacity ∈ d.mail x.incarnation

/-- A realm that has stopped has no clients and gets none. -/
theorem Orderly.running_of_attached (h : Orderly d) (hx : d.registry.realm? n = some x)
    {client : Nat} (hclient : Attached d x client) : x.running = true := by
  by_contra hstop
  have hstop : x.running = false := Bool.not_eq_true _ ▸ hstop
  rcases hclient with hclient | ⟨number, capacity, hclient⟩
  · obtain ⟨o, ho, -⟩ := List.mem_map.mp hclient
    obtain ⟨ho, hattached⟩ := List.mem_filter.mp ho
    have hnobody := (Realm.count_eq_zero_iff x).mp (h.consistent.stopped n x hx hstop) o ho
    rw [hnobody] at hattached
    cases hattached
  · rw [Registry.incarnation_of_realm? hx] at hclient
    have hclients := h.posted.stopped n x hx hstop _ hclient
    cases hclients

/-- Whatever a registry, its realms and their clients do, and in whatever order:
    while the registry takes requests, the realms that run are exactly those that
    are registered, each under its own name.  Realms are started with ascending
    incarnations.  Whoever is let in comes into the realm that is registered
    under the name from then on, which runs and goes on to do so, and which is new
    and has no other clients if no realm was registered.  A sweep asks every registered
    realm once, forgets exactly those that had no clients when they were asked,
    and detaches nobody.  So clients that are attached under the same name at the
    same time are in the same realm. -/
theorem one_realm_per_name (h : Runs trace d) :
    (d.phase = .idle →
      (∀ name n, d.registry.current.get? name = some n →
        ∃ x ∈ d.registry.realms, x.incarnation = n ∧ x.name = name ∧ x.running = true) ∧
      ∀ x ∈ d.registry.realms, x.running = true →
        d.registry.current.get? x.name = some x.incarnation) ∧
    (creations trace = identities d.registry.realms ∧ (creations trace).Pairwise (·.2 < ·.2)) ∧
    (∀ name client capacity lingers d' events,
      d.act (.attach name client capacity lingers) = some (d', events) →
      ∃ n x, LetIn d d' name client capacity n x ∧
        (d.registry.current.get? name = some n ∨
          d.registry.current.get? name = none ∧ (∀ y ∈ d.registry.realms, y.incarnation < n) ∧
            x = .start name n ∧ (x.obeyAll (d'.mail n)).clients = [client])) ∧
    (∀ order middle d₁ d₂ d₃ events₁ events₃,
      d.act (.setOut .sweep order) = some (d₁, events₁) → Run act d₁ middle d₂ →
      (∀ st ∈ middle, st.move ≠ .conclude) → d₂.act .conclude = some (d₃, events₃) →
      d₃.registry.current.Sublist d.registry.current ∧
      ∀ name n, (name, n) ∈ d.registry.current → ∃ st ∈ middle, ∃ x, Asked n x st ∧
        answersOf n middle = [x.count] ∧ ((name, n) ∈ d₃.registry.current ↔ x.count ≠ 0)) ∧
    (∀ a d' events, d.act a = some (d', events) → IsSweeping d a → ∀ n,
      (d'.registry.realm? n).map (·.outboxes) = (d.registry.realm? n).map (·.outboxes)) ∧
    ∀ x ∈ d.registry.realms, ∀ y ∈ d.registry.realms, ∀ client₁ client₂,
      Attached d x client₁ → Attached d y client₂ → x.name = y.name → x = y := by
  have ho := orderly h
  have hascending := ho.consistent.ascending
  refine ⟨?_, ⟨creations_eq h, ?_⟩, ?_, ?_, ?_, ?_⟩
  · intro hphase
    have hconsistent := ho.consistent
    rw [hphase] at hconsistent
    refine ⟨?_, ?_⟩
    · intro name n hget
      obtain ⟨x, hx, hname, hrunning⟩ := hconsistent.registered name n hget
      exact ⟨x, Registry.mem_of_realm? hx, Registry.incarnation_of_realm? hx, hname,
        hrunning.mpr List.not_mem_nil⟩
    · intro x hx hrun
      exact hconsistent.running x.incarnation x (Registry.realm?_of_mem hascending hx) hrun
  · rw [creations_eq h]
    have hpairwise := hascending.ascending
    rw [List.pairwise_map] at hpairwise
    exact List.pairwise_map.mpr hpairwise
  · intro name client capacity lingers d' events hact
    exact ho.letIn (moves_of_act hact)
  · intro order middle d₁ d₂ d₃ events₁ events₃ hout hrun hmiddle hback
    exact ho.sweep_forgets_empty hout hrun hmiddle hback
  · intro a d' events hact hsweeping
    exact outboxes_of_isSweeping (moves_of_act hact) hsweeping
  · intro x hx y hy client₁ client₂ hclient₁ hclient₂ hname
    have hx' := Registry.realm?_of_mem hascending hx
    have hy' := Registry.realm?_of_mem hascending hy
    have hgetx := ho.consistent.running _ x hx' (ho.running_of_attached hx' hclient₁)
    have hgety := ho.consistent.running _ y hy' (ho.running_of_attached hy' hclient₂)
    rw [hname, hgety] at hgetx
    rw [← Option.some.inj hgetx, hy'] at hx'
    exact (Option.some.inj hx').symm

/-- A realm is left by its client, retires at a sweep, and comes back under its
    name as a new one; another one keeps its client throughout. -/
theorem one_realm_per_name_after_sweep :
    ∃ (trace : Trace) (d : Dispatch), Runs trace d ∧
      d.registry.current = [("/pmb/busy/", 2), ("/pmb/idle/", 3)] ∧
      creations trace = [("/pmb/idle/", 1), ("/pmb/busy/", 2), ("/pmb/idle/", 3)] ∧
      creations trace = identities d.registry.realms ∧
      ∃ x ∈ d.registry.realms, x.incarnation = 3 ∧ x.name = "/pmb/idle/" ∧ x.running = true := by
  have hstart : Runs [] start := .start
  have hjoined := (hstart.move (m := .attach "/pmb/idle/" 1 4 false) rfl).move
    (m := .attach "/pmb/busy/" 2 4 false) rfl
  have hleft := ((hjoined.move (m := .post 1 (.remove 1)) rfl).move (m := .work 1) rfl).move
    (m := .work 1) rfl
  have hasked := ((hleft.move
    (m := .setOut .sweep [("/pmb/busy/", 2), ("/pmb/idle/", 1)]) rfl).move (m := .ask) rfl).move
    (m := .work 2) rfl
  have hbusy := hasked.move (m := .work 2) rfl
  have hswept := ((hbusy.move (m := .ask) rfl).move (m := .work 1) rfl).move (m := .conclude) rfl
  have hback := hswept.move (m := .attach "/pmb/idle/" 3 4 false) rfl
  obtain ⟨hidle, ⟨hcreations, -⟩, -⟩ := one_realm_per_name hback
  exact ⟨_, _, hback, rfl, rfl, hcreations, (hidle rfl).1 "/pmb/idle/" 3 rfl⟩

end Dispatch

end MessageBus
