import MessageBus.Proofs.Hub.OneRealmPerName
import MessageBus.Proofs.Hub.Sockets

/-! # Realms keep apart

    A text gets into a send buffer by way of the mailbox of a realm, and into the
    mailbox from a session that was handed that realm.  A client gets into a realm
    by way of a mailbox, too, and there from a path that leads to the realm's
    name.  So whatever a client is sent was read from somebody who asked for the
    same path and was handed the same incarnation, and who asks for a path that
    leads nowhere neither sends nor gets anything.

    * `Dispatch.Carries.moves`: what realms and their mailboxes hold comes from
      what is put into the mailboxes.
    * `Switchboard.Isolated.moves`: where that comes from.
    * `Switchboard.realm_isolation`: realms keep apart along every run. -/

namespace MessageBus

/-! ## In a send buffer -/

namespace Outbox

theorem client_obey (o : Outbox) (c : Realm.Command) : (o.obey c).client = o.client :=
  o.client_after (.obey c)

/-- What is in a send buffer after a command was there before or is broadcast by
    it. -/
theorem mem_buffer_obey {o : Outbox} {c : Realm.Command} {line : String}
    (h : line ∈ (o.obey c).buffer) : line ∈ o.buffer ∨ c = .broadcast line := by
  have hturn := turn_after o (.obey c)
  have hafter : o.after (.obey c) = o.obey c := rfl
  rw [hafter] at hturn
  generalize o.obey c = o' at h hturn
  cases hturn with
  | kept | left => exact .inl h
  | gained hobey =>
    rcases List.mem_append.mp h with h | h
    · exact .inl h
    · obtain rfl := List.mem_singleton.mp h
      cases hobey
      exact .inr rfl
  | yielded _ hbuffer =>
    rw [hbuffer]
    exact .inl (List.mem_cons_of_mem _ h)
  | abandoned => cases h

end Outbox

/-- The text that an event is about. -/
def Realm.Event.text? : Realm.Event → Option String
  | .accepted _ text | .took _ text => some text
  | .ended _ => none

/-! ## Behind the sockets -/

namespace Dispatch

variable {member : String → Nat → Prop} {allowed : Nat → String → String → Prop}
  {d d' : Dispatch} {n : Nat} {x : Realm} {a : Action} {events : List Event}

/-- Whether a command may be in the mailbox of a realm with some name, according
    to who may be in it and what it may broadcast. -/
def Fits (member : String → Nat → Prop) (allowed : Nat → String → String → Prop) (n : Nat)
    (name : String) : Realm.Command → Prop
  | .add client _ _ => member name client
  | .broadcast line => allowed n name line
  | _ => True

/-- Every realm has only clients that may be in it, and holds only texts that it
    may broadcast, for them or in its mailbox. -/
structure Carries (member : String → Nat → Prop) (allowed : Nat → String → String → Prop)
    (d : Dispatch) : Prop where
  buffers : ∀ n x, d.registry.realm? n = some x → ∀ o ∈ x.outboxes,
    member x.name o.client ∧ ∀ line ∈ o.buffer, allowed n x.name line
  mail : ∀ n x, d.registry.realm? n = some x → ∀ c ∈ d.mail n, Fits member allowed n x.name c

namespace Carries

theorem start : Carries member allowed .start :=
  ⟨(fun _ _ h => nomatch h), fun _ _ h => nomatch h⟩

theorem mono {member' : String → Nat → Prop} {allowed' : Nat → String → String → Prop}
    (h : Carries member allowed d)
    (hmember : ∀ name client, member name client → member' name client)
    (hallowed : ∀ n name line, allowed n name line → allowed' n name line) :
    Carries member' allowed' d := by
  refine ⟨?_, ?_⟩
  · intro n x hx o ho
    obtain ⟨hclient, hlines⟩ := h.buffers n x hx o ho
    exact ⟨hmember _ _ hclient, fun line hline => hallowed _ _ _ (hlines line hline)⟩
  · intro n x hx c hc
    have hfits := h.mail n x hx c hc
    cases c with
    | add => exact hmember _ _ hfits
    | broadcast => exact hallowed _ _ _ hfits
    | remove | count | retireIfEmpty => exact hfits

/-- What else the registry knows does not matter. -/
theorem withRegistry {r : Registry} {phase : Phase} (h : Carries member allowed d)
    (hrealms : ∀ m, r.realm? m = d.registry.realm? m) :
    Carries member allowed { d with registry := r, phase := phase } := by
  refine ⟨?_, ?_⟩
  · intro n x hx
    exact h.buffers n x ((hrealms n).symm.trans hx)
  · intro n x hx
    exact h.mail n x ((hrealms n).symm.trans hx)

theorem put {c : Realm.Command} (h : Carries member allowed d)
    (hc : ∀ x, d.registry.realm? n = some x → Fits member allowed n x.name c) :
    Carries member allowed (d.put n c) := by
  by_cases hrunning : d.isRunning n = true
  · rw [put_of_running hrunning]
    refine ⟨h.buffers, ?_⟩
    intro m x hx c' hc'
    by_cases hm : m = n
    · subst hm
      have hc' : c' ∈ d.mail m ++ [c] := by simpa using hc'
      rcases List.mem_append.mp hc' with hc' | hc'
      · exact h.mail m x hx c' hc'
      · rw [List.mem_singleton.mp hc']
        exact hc x hx
    · have hc' : c' ∈ d.mail m := by simpa [hm] using hc'
      exact h.mail m x hx c' hc'
  · rw [put_of_stopped (Bool.not_eq_true _ ▸ hrunning)]
    exact h

/-- A realm changes what its clients have in their send buffers, and has `box` in
    its mailbox afterwards. -/
theorem change {change : Realm → Realm} {box : List Realm.Command} {phase : Phase}
    (h : Carries member allowed d) (hinc : ∀ x, (change x).incarnation = x.incarnation)
    (hname : ∀ x, (change x).name = x.name)
    (hbuffers : ∀ x, d.registry.realm? n = some x → ∀ o ∈ (change x).outboxes,
      member x.name o.client ∧ ∀ line ∈ o.buffer, allowed n x.name line)
    (hbox : ∀ c ∈ box, c ∈ d.mail n) :
    Carries member allowed { d with
      registry := d.registry.modify n change
      mail := Function.update d.mail n box
      phase := phase } := by
  -- every realm after the change was there before it, changed or as it is
  have hold : ∀ m y, (d.registry.modify n change).realm? m = some y →
      ∃ x, d.registry.realm? m = some x ∧ y = (if m = n then change x else x) := by
    intro m y hy
    rw [Registry.realm?_modify hinc] at hy
    obtain ⟨x, hx, heq⟩ := Option.map_eq_some_iff.mp hy
    exact ⟨x, hx, heq.symm⟩
  refine ⟨?_, ?_⟩
  · intro m y hy o ho
    obtain ⟨x, hx, rfl⟩ := hold m y hy
    by_cases hm : m = n
    · subst hm
      rw [if_pos rfl] at ho ⊢
      rw [hname]
      exact hbuffers x hx o ho
    · rw [if_neg hm] at ho ⊢
      exact h.buffers m x hx o ho
  · intro m y hy c hc
    obtain ⟨x, hx, rfl⟩ := hold m y hy
    by_cases hm : m = n
    · subst hm
      rw [if_pos rfl, hname]
      exact h.mail m x hx c (hbox c (by simpa using hc))
    · rw [if_neg hm]
      exact h.mail m x hx c (by simpa [hm] using hc)

/-- A realm obeys a command from its mailbox. -/
theorem obey {c : Realm.Command} {rest : List Realm.Command} {phase : Phase}
    (h : Carries member allowed d) (hmail : d.mail n = c :: rest) :
    Carries member allowed { d.obey n c rest with phase := phase } := by
  apply h.change
  · intro x
    exact x.incarnation_obey c
  · intro x
    exact x.name_obey c
  · intro x hx o ho
    have hfits : Fits member allowed n x.name c :=
      h.mail n x hx c (by rw [hmail]; exact List.mem_cons_self ..)
    have ho : o ∈ (x.obey c).outboxes := ho
    rw [Realm.outboxes_obey] at ho
    rcases List.mem_append.mp ho with ho | ho
    · obtain ⟨p, hp, rfl⟩ := List.mem_map.mp ho
      obtain ⟨hclient, hlines⟩ := h.buffers n x hx p hp
      refine ⟨by rwa [p.client_obey], ?_⟩
      intro line hline
      rcases Outbox.mem_buffer_obey hline with hline | rfl
      · exact hlines line hline
      · exact hfits
    · -- the new send buffer of a client that comes in is empty
      cases c with
      | add client number capacity =>
        obtain rfl := List.mem_singleton.mp ho
        exact ⟨hfits, fun line hline => nomatch hline⟩
      | remove | broadcast | count | retireIfEmpty => cases ho
  · intro c' hc'
    rw [hmail]
    exact List.mem_cons_of_mem _ hc'

/-- A client takes from its send buffer, or stops doing so. -/
theorem modifyOutbox {seat : Seat} {o : Outbox} {change : Outbox → Outbox}
    (h : Carries member allowed d) (ho : d.registry.outbox? seat = some o)
    (hchange : ∀ p, ((change p).client = p.client ∧ (change p).buffer ⊆ p.buffer) ∨
      ((change p).client = o.client ∧ (change p).buffer ⊆ o.buffer)) :
    Carries member allowed { d with registry := d.registry.modifyOutbox seat change } := by
  obtain ⟨x, hx, hfind⟩ := Option.bind_eq_some_iff.mp ho
  have hmem : o ∈ x.outboxes := List.mem_of_find?_eq_some hfind
  -- to change a realm and to leave its mailbox as it is
  have hmail : Function.update d.mail seat.incarnation (d.mail seat.incarnation) = d.mail :=
    Function.update_eq_self _ _
  show Carries member allowed
    { d with registry := d.registry.modify seat.incarnation (·.modify seat.outbox change) }
  rw [← hmail]
  apply h.change
  · intro y
    rfl
  · intro y
    rfl
  · intro y hy p hp
    obtain rfl : x = y := Option.some.inj (hx.symm.trans hy)
    obtain ⟨q, hq, rfl⟩ := List.mem_map.mp hp
    by_cases hnumber : q.number = seat.outbox
    · rw [if_pos hnumber]
      rcases hchange q with ⟨hclient, hbuffer⟩ | ⟨hclient, hbuffer⟩
      · obtain ⟨hq, hlines⟩ := h.buffers _ x hx q hq
        exact ⟨by rwa [hclient], fun line hline => hlines line (hbuffer hline)⟩
      · obtain ⟨ho, hlines⟩ := h.buffers _ x hx o hmem
        exact ⟨by rwa [hclient], fun line hline => hlines line (hbuffer hline)⟩
    · rw [if_neg hnumber]
      exact h.buffers _ x hx q hq
  · intro c hc
    exact hc

/-- A realm is started, and nothing is in its mailbox yet. -/
theorem create {name : String} (h : Carries member allowed d)
    (hascending : d.registry.Ascending) (hunborn : d.mail (d.registry.started + 1) = []) :
    Carries member allowed { d with registry := (d.registry.create name).2 } := by
  refine ⟨?_, ?_⟩
  · intro m x hx
    have hx : (d.registry.create name).2.realm? m = some x := hx
    rw [Registry.realm?_create hascending] at hx
    split at hx
    · obtain rfl := Option.some.inj hx
      exact fun o ho => nomatch ho
    · exact h.buffers m x hx
  · intro m x hx c hc
    have hx : (d.registry.create name).2.realm? m = some x := hx
    rw [Registry.realm?_create hascending] at hx
    split at hx
    · next hm =>
      rw [hm] at hc
      have hc : c ∈ d.mail (d.registry.started + 1) := hc
      rw [hunborn] at hc
      cases hc
    · exact h.mail m x hx c hc

/-- What realms and their mailboxes hold comes from what is put into the
    mailboxes. -/
theorem moves (h : Carries member allowed d) (ho : Orderly d) (hm : Moves d a d' events)
    (hattach : ∀ name client capacity lingers, a = .attach name client capacity lingers →
      member name client)
    (hpost : ∀ n x line, a = .post n (.broadcast line) → d.registry.realm? n = some x →
      allowed n x.name line) :
    Carries member allowed d' := by
  cases hm with
  | @joined name client capacity n lingers hphase hhanded =>
    obtain ⟨-, x, hx, hname, -⟩ := ho.handed hphase hhanded
    have hcarries : Carries member allowed
        { d with registry := { d.registry with nextOutbox := d.registry.nextOutbox + 1 } } :=
      h.withRegistry fun _ => rfl
    apply hcarries.put
    intro y hy
    obtain rfl : x = y := Option.some.inj (hx.symm.trans hy)
    rw [hname]
    exact hattach name client capacity lingers rfl
  | @created name client capacity lingers hphase hhanded =>
    have hascending := ho.consistent.ascending
    have hunborn := ho.posted.unborn _ (Registry.realm?_next hascending)
    have hcreate : Carries member allowed { d with registry := (d.registry.create name).2 } :=
      h.create hascending hunborn
    have hcarries : Carries member allowed
        { d with registry :=
            { (d.registry.create name).2 with nextOutbox := d.registry.nextOutbox + 1 } } :=
      hcreate.withRegistry fun _ => rfl
    apply hcarries.put
    intro y hy
    have hy : (d.registry.create name).2.realm? (d.registry.started + 1) = some y := hy
    rw [Registry.realm?_create hascending, if_pos rfl] at hy
    obtain rfl := Option.some.inj hy
    exact hattach name client capacity lingers rfl
  | @posted n x c hc hx =>
    apply h.put
    intro y hy
    cases c with
    | broadcast line => exact hpost n y line rfl hy
    | remove => exact trivial
    | add | count | retireIfEmpty => cases hc
  | obeyed _ _ hmail => exact h.obey hmail
  | answered _ _ hmail => exact h.obey hmail
  | @took seat o text rest hfind hbuffer =>
    apply h.modifyOutbox hfind
    intro p
    refine .inr ⟨rfl, ?_⟩
    rw [hbuffer]
    exact List.subset_cons_self ..
  | abandoned hfind =>
    apply h.modifyOutbox hfind
    intro p
    exact .inl ⟨rfl, List.nil_subset _⟩
  | @asked errand name n =>
    have hput : Carries member allowed (d.put n errand.question) := by
      apply h.put
      intro y hy
      cases errand <;> exact trivial
    exact hput.withRegistry fun _ => rfl
  | setOut | unanswered | swept | reported => exact h.withRegistry fun _ => rfl

/-- What is put into a send buffer or taken from one may be broadcast there. -/
theorem of_event (h : Carries member allowed d) (hm : Moves d a d' events) {e : Realm.Event}
    {line : String} (he : .buffer n e ∈ events) (htext : e.text? = some line) :
    ∃ x, d.registry.realm? n = some x ∧ allowed n x.name line ∧
      ∃ o ∈ x.outboxes, o.number = e.number ∧ member x.name o.client := by
  cases hm with
  | joined | posted | abandoned | setOut | asked | swept => cases he
  | created | answered | unanswered | reported => simp at he
  | @obeyed m x c rest hx _ hmail =>
    obtain ⟨e', he', heq⟩ := List.mem_map.mp he
    cases heq
    cases c with
    | add | remove | count | retireIfEmpty => cases he'
    | broadcast text =>
      obtain ⟨o, ho, hevent⟩ := List.mem_filterMap.mp he'
      obtain ⟨hclient, -⟩ := h.buffers n x hx o ho
      split at hevent
      · cases hevent
      · cases hevent
        cases htext
        have hfits := h.mail n x hx (.broadcast line) (by rw [hmail]; exact List.mem_cons_self ..)
        exact ⟨x, hx, hfits, o, ho, rfl, hclient⟩
  | @took seat o text rest hfind hbuffer =>
    obtain ⟨rfl, rfl⟩ := Event.buffer.inj (List.mem_singleton.mp he)
    cases htext
    obtain ⟨x, hx, ho⟩ := Option.bind_eq_some_iff.mp hfind
    have hmem : o ∈ x.outboxes := List.mem_of_find?_eq_some ho
    have hnumber : o.number = seat.outbox := by simpa using List.find?_some ho
    obtain ⟨hclient, hlines⟩ := h.buffers _ x hx o hmem
    exact ⟨x, hx, hlines line (by rw [hbuffer]; exact List.mem_cons_self ..), o, hmem, hnumber,
      hclient⟩

end Carries

end Dispatch

/-! ## Where it comes from -/

namespace Switchboard

/-- The client of a number asked for a path that leads to a realm. -/
def Accepted (trace : Trace) (client : Nat) (name : String) : Prop :=
  ∃ st ∈ trace, ∃ path, st.move = .upgrade path ∧ st.before.nextClient = client ∧
    Hub.realmOfPath? path = some name

/-- The client of a number asked for a path that leads to no realm. -/
def Refused (trace : Trace) (client : Nat) : Prop :=
  ∃ st ∈ trace, ∃ path, st.move = .upgrade path ∧ st.before.nextClient = client ∧
    Hub.realmOfPath? path = none

/-- A text frame was read from a session whose client was handed the realm of an
    incarnation, having asked for a path that leads to its name. -/
def Contributed (trace : Trace) (n : Nat) (name line : String) : Prop :=
  ∃ st ∈ trace, ∃ k text s, st.move = .receive k text ∧ st.before.sessions[k]? = some s ∧
    s.seat.incarnation = n ∧ Accepted trace s.client name ∧ Frame.normalize text = line

variable {settings : HubSettings} {trace trace' : Trace} {b b' : Switchboard} {a : Action}
  {events : List Dispatch.Event} {client n : Nat} {name line : String}

theorem Accepted.mono (h : Accepted trace client name) (hsub : trace ⊆ trace') :
    Accepted trace' client name := by
  obtain ⟨st, hst, path, hpath⟩ := h
  exact ⟨st, hsub hst, path, hpath⟩

theorem Contributed.mono (h : Contributed trace n name line) (hsub : trace ⊆ trace') :
    Contributed trace' n name line := by
  obtain ⟨st, hst, k, text, s, hmove, hs, hseat, haccepted, hline⟩ := h
  exact ⟨st, hsub hst, k, text, s, hmove, hs, hseat, haccepted.mono hsub, hline⟩

/-- Whoever waits or is in a session asked for a path that leads to the realm in
    question, and so did every client of a realm; every text in a realm was read
    from somebody who was handed it. -/
structure Isolated (trace : Trace) (b : Switchboard) : Prop where
  waiting : ∀ client name, (client, name) ∈ b.waiting → Accepted trace client name
  sessions : ∀ s ∈ b.sessions, ∃ x, b.dispatch.registry.realm? s.seat.incarnation = some x ∧
    Accepted trace s.client x.name
  carries : b.dispatch.Carries (fun name client => Accepted trace client name) (Contributed trace)

end Switchboard

namespace Dispatch.Orderly

variable {d d' : Dispatch} {a : Dispatch.Action} {events : List Dispatch.Event} {n : Nat}
  {x : Realm}

/-- A realm keeps its name. -/
theorem exists_realm (ho : d.Orderly) (hm : Dispatch.Moves d a d' events)
    (hx : d.registry.realm? n = some x) :
    ∃ x', d'.registry.realm? n = some x' ∧ x'.name = x.name := by
  have hmem : (x.name, n) ∈ identities d'.registry.realms := by
    rw [identities_moves hm]
    apply List.mem_append_left
    refine List.mem_map.mpr ⟨x, Registry.mem_of_realm? hx, ?_⟩
    rw [Registry.incarnation_of_realm? hx]
  obtain ⟨x', hx', heq⟩ := List.mem_map.mp hmem
  obtain ⟨hname, rfl⟩ := Prod.mk.inj heq
  exact ⟨x', Registry.realm?_of_mem (ho.moves hm).consistent.ascending hx', hname⟩

/-- Whom the registry lets in is handed a realm of the name. -/
theorem exists_handed {name : String} {client capacity : Nat} {lingers : Bool} (ho : d.Orderly)
    (hm : Dispatch.Moves d (.attach name client capacity lingers) d' events) :
    ∃ x, d'.registry.realm? (d.nextSeat lingers name).incarnation = some x ∧ x.name = name := by
  cases hm with
  | joined hphase hhanded =>
    obtain ⟨-, x, hx, hname, hrun⟩ := ho.handed hphase hhanded
    refine ⟨x, ?_, hname⟩
    rw [enroll_of_running (isRunning_iff.mpr ⟨x, hx, hrun⟩), nextSeat, hhanded]
    exact hx
  | created hphase hhanded =>
    have hrealm : (d.registry.create name).2.realm? (d.registry.started + 1)
        = some (.start name (d.registry.started + 1)) := by
      rw [Registry.realm?_create ho.consistent.ascending, if_pos rfl]
    refine ⟨.start name (d.registry.started + 1), ?_, rfl⟩
    rw [enroll_of_running (isRunning_iff.mpr ⟨_, hrealm, rfl⟩), nextSeat, hhanded]
    exact hrealm

end Dispatch.Orderly

namespace Switchboard

variable {settings : HubSettings} {trace trace' : Trace} {b b' : Switchboard} {a : Action}
  {events : List Dispatch.Event} {client n : Nat} {name line : String}

namespace Isolated

theorem start : Isolated [] (start settings) :=
  ⟨(fun _ _ h => nomatch h), (fun _ h => nomatch h), .start⟩

theorem mono (h : Isolated trace b) (hsub : trace ⊆ trace') : Isolated trace' b := by
  refine ⟨fun client name hwaiting => (h.waiting client name hwaiting).mono hsub, ?_, ?_⟩
  · intro s hs
    obtain ⟨x, hx, haccepted⟩ := h.sessions s hs
    exact ⟨x, hx, haccepted.mono hsub⟩
  · apply h.carries.mono
    · intro name client haccepted
      exact haccepted.mono hsub
    · intro n name line hcontributed
      exact hcontributed.mono hsub

/-- Something happens behind the sockets that puts nothing into a mailbox which
    may not be there. -/
theorem pass {d : Dispatch} {da : Dispatch.Action} (h : Isolated trace b)
    (ho : b.dispatch.Orderly) (hm : Dispatch.Moves b.dispatch da d events)
    (hattach : ∀ name client capacity lingers, da = .attach name client capacity lingers →
      Accepted trace client name)
    (hpost : ∀ n x line, da = .post n (.broadcast line) →
      b.dispatch.registry.realm? n = some x → Contributed trace n x.name line) :
    Isolated trace { b with dispatch := d } := by
  refine ⟨h.waiting, ?_, h.carries.moves ho hm hattach hpost⟩
  intro s hs
  obtain ⟨x, hx, haccepted⟩ := h.sessions s hs
  obtain ⟨x', hx', hname⟩ := ho.exists_realm hm hx
  refine ⟨x', hx', ?_⟩
  rwa [hname]

/-- Sessions of clients that are in sessions already. -/
theorem withSessions {sessions : List Session} (h : Isolated trace b)
    (hsessions : ∀ s ∈ sessions, ∃ s' ∈ b.sessions, s.client = s'.client ∧ s.seat = s'.seat) :
    Isolated trace { b with sessions := sessions } := by
  refine ⟨h.waiting, ?_, h.carries⟩
  intro s hs
  obtain ⟨s', hs', hclient, hseat⟩ := hsessions s hs
  rw [hclient, hseat]
  exact h.sessions s' hs'

/-- Every move keeps realms apart. -/
theorem moves (h : Isolated trace b) (ho : b.dispatch.Orderly) (hm : Moves b a b' events) :
    Isolated (trace ++ [⟨b, a, events⟩]) b' := by
  have hsub : trace ⊆ trace ++ [⟨b, a, events⟩] := List.subset_append_left ..
  have hlast : ⟨b, a, events⟩ ∈ trace ++ [⟨b, a, events⟩] :=
    List.mem_append_right _ (List.mem_singleton.mpr rfl)
  have hmono := h.mono hsub
  cases hm with
  | @accepted path name hpath =>
    refine ⟨?_, hmono.sessions, hmono.carries⟩
    intro client name' hwaiting
    rcases List.mem_append.mp hwaiting with hwaiting | hwaiting
    · exact hmono.waiting client name' hwaiting
    · obtain ⟨rfl, rfl⟩ := Prod.mk.inj (List.mem_singleton.mp hwaiting)
      exact ⟨_, hlast, path, rfl, rfl, hpath⟩
  | refused => exact ⟨hmono.waiting, hmono.sessions, hmono.carries⟩
  | @admitted index client lingers name d events hwaiting hm =>
    have haccepted := hmono.waiting client name (List.mem_of_getElem? hwaiting)
    have hpassed := hmono.pass ho hm (fun _ _ _ _ heq => by cases heq; exact haccepted)
      (fun _ _ _ heq => nomatch heq)
    refine ⟨?_, ?_, hpassed.carries⟩
    · intro client' name' hwaiting'
      exact hpassed.waiting client' name' (List.mem_of_mem_eraseIdx hwaiting')
    · intro s hs
      rcases List.mem_append.mp hs with hs | hs
      · exact hpassed.sessions s hs
      · obtain rfl := List.mem_singleton.mp hs
        obtain ⟨x, hx, hname⟩ := ho.exists_handed hm
        refine ⟨x, hx, ?_⟩
        rwa [hname]
  | @received k text s d events hs hm =>
    apply hmono.pass ho hm
    · intro name client capacity lingers heq
      cases heq
    · intro n x line heq hx
      cases heq
      -- the realm that the text goes to is the one that the session was handed
      obtain ⟨y, hy, haccepted⟩ := hmono.sessions s (List.mem_of_getElem? hs)
      obtain rfl : x = y := Option.some.inj (hx.symm.trans hy)
      exact ⟨_, hlast, k, text, s, rfl, hs, rfl, haccepted, rfl⟩
  | @left k s d events hs hm =>
    have hpassed := hmono.pass ho hm (fun _ _ _ _ heq => nomatch heq)
      (fun _ _ _ heq => nomatch heq)
    apply hpassed.withSessions
    intro s' hs'
    rcases List.mem_or_eq_of_mem_set hs' with hs' | rfl
    · exact ⟨s', hs', rfl, rfl⟩
    · exact ⟨s, List.mem_of_getElem? hs, rfl, rfl⟩
  | sent _ hm =>
    exact hmono.pass ho hm (fun _ _ _ _ heq => nomatch heq)
      (fun _ _ _ heq => nomatch heq)
  | @muted k s d events hs hm =>
    have hpassed := hmono.pass ho hm (fun _ _ _ _ heq => nomatch heq)
      (fun _ _ _ heq => nomatch heq)
    apply hpassed.withSessions
    intro s' hs'
    rcases List.mem_or_eq_of_mem_set hs' with hs' | rfl
    · exact ⟨s', hs', rfl, rfl⟩
    · exact ⟨s, List.mem_of_getElem? hs, rfl, rfl⟩
  | worked ha hm =>
    apply hmono.pass ho hm
    · rintro name client capacity lingers rfl
      cases ha
    · rintro n x line rfl
      cases ha

end Isolated

/-- Along every run realms are kept apart. -/
theorem isolated (h : Runs settings trace b) : Isolated trace b := by
  induction h with
  | start => exact .start
  | move hrun hact ih => exact ih.moves (orderly_dispatch hrun) (moves_of_act hact)

/-! ## Numbers of clients -/

/-- Every number is given out once. -/
theorem numbered (h : Runs settings trace b) :
    (∀ st ∈ trace, ∀ path, st.move = .upgrade path → st.before.nextClient < b.nextClient) ∧
    ∀ st₁ ∈ trace, ∀ st₂ ∈ trace, ∀ path₁ path₂,
      st₁.move = .upgrade path₁ → st₂.move = .upgrade path₂ →
      st₁.before.nextClient = st₂.before.nextClient → path₁ = path₂ := by
  induction h with
  | start => exact ⟨(fun _ hst => nomatch hst), fun _ hst => nomatch hst⟩
  | @move trace b b' a events _ hact ih =>
    obtain ⟨hlt, hunique⟩ := ih
    have hle : b.nextClient ≤ b'.nextClient ∧
        ∀ path, a = .upgrade path → b'.nextClient = b.nextClient + 1 := by
      cases moves_of_act hact with
      | accepted | refused => exact ⟨Nat.le_succ _, fun _ _ => rfl⟩
      | admitted | received | left | sent | muted | worked =>
        exact ⟨Nat.le_refl _, fun _ heq => nomatch heq⟩
    refine ⟨?_, ?_⟩
    · intro st hst path hmove
      rcases List.mem_append.mp hst with hst | hst
      · exact Nat.lt_of_lt_of_le (hlt st hst path hmove) hle.1
      · obtain rfl := List.mem_singleton.mp hst
        rw [hle.2 path hmove]
        exact Nat.lt_succ_self _
    · intro st₁ hst₁ st₂ hst₂ path₁ path₂ hmove₁ hmove₂ hsame
      rcases List.mem_append.mp hst₁ with hst₁ | hst₁
      · rcases List.mem_append.mp hst₂ with hst₂ | hst₂
        · exact hunique st₁ hst₁ st₂ hst₂ path₁ path₂ hmove₁ hmove₂ hsame
        · obtain rfl := List.mem_singleton.mp hst₂
          exact absurd hsame (Nat.ne_of_lt (hlt st₁ hst₁ path₁ hmove₁))
      · obtain rfl := List.mem_singleton.mp hst₁
        rcases List.mem_append.mp hst₂ with hst₂ | hst₂
        · exact absurd hsame.symm (Nat.ne_of_lt (hlt st₂ hst₂ path₂ hmove₂))
        · obtain rfl := List.mem_singleton.mp hst₂
          rw [hmove₁] at hmove₂
          cases hmove₂
          rfl

/-- Who was refused was not accepted. -/
theorem not_accepted_of_refused (h : Runs settings trace b) (hrefused : Refused trace client) :
    ¬ Accepted trace client name := by
  rintro ⟨st₁, hst₁, path₁, hmove₁, hclient₁, hpath₁⟩
  obtain ⟨st₂, hst₂, path₂, hmove₂, hclient₂, hpath₂⟩ := hrefused
  have hsame := (numbered h).2 st₁ hst₁ st₂ hst₂ path₁ path₂ hmove₁ hmove₂
    (hclient₁.trans hclient₂.symm)
  rw [hsame, hpath₂] at hpath₁
  cases hpath₁

/-- A client is nowhere in the hub. -/
structure Absent (b : Switchboard) (client : Nat) : Prop where
  waiting : ∀ name, (client, name) ∉ b.waiting
  sessions : ∀ s ∈ b.sessions, s.client ≠ client
  realms : ∀ x ∈ b.dispatch.registry.realms, ∀ o ∈ x.outboxes, o.client ≠ client
  mail : ∀ n number capacity, .add client number capacity ∉ b.dispatch.mail n

/-- Only who was accepted is in the hub. -/
theorem Isolated.absent (h : Isolated trace b) (ho : b.dispatch.Orderly)
    (hnever : ∀ name, ¬ Accepted trace client name) : Absent b client := by
  have hrealm := fun x (hx : x ∈ b.dispatch.registry.realms) =>
    Registry.realm?_of_mem ho.consistent.ascending hx
  refine ⟨?_, ?_, ?_, ?_⟩
  · intro name hwaiting
    exact hnever name (h.waiting client name hwaiting)
  · rintro s hs rfl
    obtain ⟨x, -, haccepted⟩ := h.sessions s hs
    exact hnever x.name haccepted
  · rintro x hx o hmem rfl
    exact hnever x.name (h.carries.buffers _ x (hrealm x hx) o hmem).1
  · intro n number capacity hmail
    cases hx : b.dispatch.registry.realm? n with
    | none =>
      rw [ho.posted.unborn n hx] at hmail
      cases hmail
    | some x => exact hnever x.name (h.carries.mail n x hx _ hmail)

/-! ## Main theorem -/

/-- Whatever sockets, the registry and realms do, and in whatever order: every
    text that is put into the send buffer of a client, or taken from it, was read
    before from a session whose client was handed the same incarnation of the
    realm, and both clients had asked for a path that leads to its name.  Who asks
    for a path that leads nowhere is never in a session or in a realm, nor about
    to be let in. -/
theorem realm_isolation (h : Runs settings trace b) :
    (∀ before st after, trace = before ++ st :: after →
      ∀ n e line, .buffer n e ∈ st.events → e.text? = some line →
        ∃ x, st.before.dispatch.registry.realm? n = some x ∧ Contributed before n x.name line ∧
          ∃ o ∈ x.outboxes, o.number = e.number ∧ Accepted before o.client x.name) ∧
    (∀ x ∈ b.dispatch.registry.realms, ∀ o ∈ x.outboxes, Accepted trace o.client x.name ∧
      ∀ line ∈ o.buffer, Contributed trace x.incarnation x.name line) ∧
    ∀ client, Refused trace client →
      Absent b client ∧ ∀ st ∈ trace, Absent st.before client := by
  refine ⟨?_, ?_, ?_⟩
  · rintro before ⟨b₁, a, events⟩ after hsplit n e line hevent htext
    obtain ⟨hrun, b₂, hact⟩ := h.split hsplit
    have hcarries := (isolated hrun).carries
    cases moves_of_act hact with
    | accepted | refused => cases hevent
    | admitted _ hm | received _ hm | left _ hm | sent _ hm | muted _ hm | worked _ hm =>
      exact hcarries.of_event hm hevent htext
  · intro x hx o hmem
    have hascending := (orderly_dispatch h).consistent.ascending
    exact (isolated h).carries.buffers _ x (Registry.realm?_of_mem hascending hx) o hmem
  · intro client hrefused
    have hnever : ∀ name, ¬ Accepted trace client name :=
      fun name => not_accepted_of_refused h hrefused
    refine ⟨(isolated h).absent (orderly_dispatch h) hnever, ?_⟩
    intro st hst
    obtain ⟨⟨earlier, hearlier, hrun⟩, -⟩ := h.stage_reached hst
    apply (isolated hrun).absent (orderly_dispatch hrun)
    intro name haccepted
    exact hnever name (haccepted.mono hearlier.subset)

/-- Two clients meet in one realm while a third is in another, and a fourth asks
    for a path that leads nowhere. -/
theorem realm_isolation_two_realms :
    ∃ (trace : Trace) (b : Switchboard), Runs .default trace b ∧
      (∃ x ∈ b.dispatch.registry.realms, x.name = "/pmb/a/" ∧
        ∃ o ∈ x.outboxes, o.client = 2 ∧ o.buffer = ["hi"] ∧
          Contributed trace x.incarnation "/pmb/a/" "hi") ∧
      Refused trace 4 ∧ Absent b 4 := by
  have hstart : Runs .default [] (start .default) := .start
  have hasked := ((hstart.move (m := .upgrade "/pmb/a/") rfl).move
    (m := .upgrade "/pmb/a/") rfl).move (m := .upgrade "/pmb/b/") rfl
  have hadmitted := ((hasked.move (m := .letIn 0 false) rfl).move (m := .letIn 0 false) rfl).move
    (m := .letIn 0 false) rfl
  have hjoined := (hadmitted.move (m := .internal (.work 1)) rfl).move
    (m := .internal (.work 1)) rfl
  have hread := (hjoined.move (m := .receive 0 " hi\n") rfl).move (m := .internal (.work 1)) rfl
  have hrefused := hread.move (m := .upgrade "/other/") rfl
  obtain ⟨-, hbuffers, habsent⟩ := realm_isolation hrefused
  have hfirst := hbuffers _ (List.mem_cons_self ..) _
    (List.mem_cons_of_mem _ (List.mem_cons_self ..))
  refine ⟨_, _, hrefused,
    ⟨_, List.mem_cons_self .., rfl, _, List.mem_cons_of_mem _ (List.mem_cons_self ..), rfl, rfl,
      hfirst.2 "hi" (List.mem_cons_self ..)⟩,
    ?refused, (habsent 4 ?refused).1⟩
  exact ⟨_, List.mem_append_right _ (List.mem_singleton.mpr rfl), "/other/", rfl, rfl, rfl⟩

end Switchboard

end MessageBus
