import MessageBus.Proofs.Hub.Sockets

/-! # Mail that is worked off at once

    `Hub.step` moves a realm along with whoever posts to it, as if every mailbox
    were worked off before anything else happens.  That is one of the ways in
    which the mailboxes can be worked off: each move of `Hub.step` is a few moves
    of the mailboxes, from one state in which no mail waits to the next one.

    * `exists_attach`, `exists_post`, `exists_sweep`: what the registry and the
      realms do at once, by way of the mailboxes.
    * `Switchboard.exists_runs`: every run of a hub is a run of its mailboxes.
    * `Switchboard.consistent_of_steps`: so the registry of a hub knows the realms
      that run. -/

namespace MessageBus

namespace Dispatch

variable {d d' : Dispatch} {r : Registry} {n : Nat} {x : Realm}

/-- A registry that takes requests while no mail waits. -/
def atRest (r : Registry) : Dispatch := ⟨r, fun _ => [], .idle⟩

/-- What the registry and the realms do on their own leads from one state to
    another. -/
abbrev Settles (d d' : Dispatch) : Prop := Leads act (·.isInternal = true) d d'

/-! ## Posting -/

theorem update_nil (n : Nat) (box : List Realm.Command) :
    Function.update (Function.update (fun _ => []) n box) n ([] : List Realm.Command)
      = fun _ => [] := by
  rw [Function.update_idem]
  exact Function.update_eq_self n _

/-- The only command in a mailbox is obeyed. -/
theorem act_work {c : Realm.Command} {phase : Phase} (hx : r.realm? n = some x)
    (hrun : x.running = true) :
    act ⟨r, Function.update (fun _ => []) n [c], phase⟩ (.work n)
      = some (⟨r.modify n (·.obey c), fun _ => [],
            if c.isQuestion then hear x.count phase else phase⟩,
          if c.isQuestion then [.answered n x.count]
          else (x.acceptances c).map (.buffer n)) := by
  have hfilter : (r.realm? n).filter (·.running) = some x := by simp [hx, hrun]
  simp only [act, obey, hfilter, Function.update_self, update_nil]
  split <;> rfl

/-- Commands of clients leave a realm alone that has stopped. -/
theorem modify_stopped {c : Realm.Command} (h : r.Consistent []) (hx : r.realm? n = some x)
    (hstop : x.running = false) (hc : c.isClients = true) : r.modify n (·.obey c) = r := by
  -- nobody is left in a realm that has stopped, so there is nobody to remove or to serve
  have hdetached := (Realm.count_eq_zero_iff x).mp (h.stopped n x hx hstop)
  have hsame : x.obey c = x := by
    cases c with
    | add | count | retireIfEmpty => cases hc
    | remove client =>
      have hmap : x.outboxes.map (fun o => if o.client = client then o.detach else o)
          = x.outboxes.map id := by
        apply List.map_congr_left
        intro o ho
        rw [Outbox.detach_of_detached (hdetached o ho), ite_self]
        rfl
      simp only [Realm.obey, Realm.remove, hmap, List.map_id]
    | broadcast text =>
      have hmap : x.outboxes.map (Outbox.offer text) = x.outboxes.map id := by
        apply List.map_congr_left
        intro o ho
        exact o.offer_detached text (hdetached o ho)
      simp only [Realm.obey, Realm.broadcast, hmap, List.map_id]
  have hrealms : r.realms.map (fun y => if y.incarnation = n then y.obey c else y)
      = r.realms.map id := by
    apply List.map_congr_left
    intro y hy
    split
    · next hyn =>
      have hy' := Registry.realm?_of_mem h.ascending hy
      rw [hyn, hx] at hy'
      obtain rfl := Option.some.inj hy'
      exact hsame
    · rfl
  simp only [Registry.modify, hrealms, List.map_id]

/-- What a client posts is obeyed at once, if anybody is there to obey. -/
theorem exists_post {c : Realm.Command} (h : r.Consistent []) (hx : r.realm? n = some x)
    (hc : c.isClients = true) : (atRest r).act (.post n c) = some ((atRest r).put n c, []) ∧
      Settles ((atRest r).put n c) (atRest (r.modify n (·.obey c))) := by
  refine ⟨?_, ?_⟩
  · have hroom : (atRest r).hasRoom n = true := hasRoom_of_nil rfl
    simp only [act, hc, hroom, Bool.true_and, Bool.and_true]
    exact if_pos (by rw [show (atRest r).registry.realm? n = some x from hx]; rfl)
  · cases hrun : x.running with
    | false =>
      -- the mail is lost, and `Hub.step` lets the realm obey, to no effect
      have hrunning : (atRest r).isRunning n = false := by simp [isRunning, atRest, hx, hrun]
      rw [put_of_stopped hrunning, modify_stopped h hx hrun hc]
      exact .refl _
    | true =>
      rw [put_of_running (isRunning_iff.mpr ⟨x, hx, hrun⟩)]
      have hwork : act ⟨r, Function.update (fun _ => []) n [c], .idle⟩ (.work n)
          = some (atRest (r.modify n (·.obey c)), (x.acceptances c).map (.buffer n)) := by
        rw [act_work hx hrun, isQuestion_of_isClients hc]
        rfl
      exact .single rfl hwork

/-! ## What stays -/

/-- Whether a send buffer has a place in a realm. -/
def Seated (r : Registry) (seat : Seat) : Prop :=
  ∃ x, r.realm? seat.incarnation = some x ∧ ∃ o ∈ x.outboxes, o.number = seat.outbox

theorem exists_outbox_of_seated {seat : Seat} (h : Seated r seat) :
    ∃ o, r.outbox? seat = some o := by
  obtain ⟨x, hx, o, ho, hnumber⟩ := h
  have hfind : (x.outbox? seat.outbox).isSome = true :=
    List.find?_isSome.mpr ⟨o, ho, by simpa using hnumber⟩
  obtain ⟨o', ho'⟩ := Option.isSome_iff_exists.mp hfind
  exact ⟨o', by simp [Registry.outbox?, hx, ho']⟩

theorem seated_modify {seat : Seat} {change : Realm → Realm} (h : Seated r seat)
    (hinc : ∀ x, (change x).incarnation = x.incarnation)
    (hnumbers : ∀ x : Realm, ∀ o ∈ x.outboxes, ∃ o' ∈ (change x).outboxes, o'.number = o.number) :
    Seated (r.modify n change) seat := by
  obtain ⟨x, hx, o, ho, hnumber⟩ := h
  rw [Seated, Registry.realm?_modify hinc, hx]
  refine ⟨_, rfl, ?_⟩
  split
  · obtain ⟨o', ho', hsame⟩ := hnumbers x o ho
    exact ⟨o', ho', hsame.trans hnumber⟩
  · exact ⟨o, ho, hnumber⟩

theorem seated_obey {seat : Seat} (h : Seated r seat) (c : Realm.Command) :
    Seated (r.modify n (·.obey c)) seat := by
  apply seated_modify h
  · intro y
    exact y.incarnation_obey c
  · intro y o ho
    refine ⟨o.obey c, ?_, o.number_obey c⟩
    rw [Realm.outboxes_obey]
    exact List.mem_append_left _ (List.mem_map_of_mem ho)

/-- No move takes a place away, nor cancels the registry. -/
theorem kept_moves {a : Action} {events : List Event} (ho : Orderly d) (hm : Moves d a d' events) :
    d'.registry.cancelled = d.registry.cancelled ∧
      ∀ seat, Seated d.registry seat → Seated d'.registry seat := by
  cases hm with
  | joined =>
    rw [enroll, registry_put]
    exact ⟨rfl, fun _ h => h⟩
  | posted | asked => exact ⟨by rw [registry_put], fun _ h => by rwa [registry_put]⟩
  | created =>
    rw [enroll, registry_put]
    refine ⟨rfl, ?_⟩
    rintro seat ⟨x, hx, hseat⟩
    refine ⟨x, ?_, hseat⟩
    -- the new realm has an incarnation of its own
    have hle := ho.consistent.ascending.le_started x (Registry.mem_of_realm? hx)
    rw [Registry.incarnation_of_realm? hx] at hle
    refine (Registry.realm?_create ho.consistent.ascending).trans ?_
    rw [if_neg (by omega)]
    exact hx
  | obeyed | answered => exact ⟨rfl, fun _ h => seated_obey h _⟩
  | @took seat o text rest hfind =>
    refine ⟨rfl, fun seat' h => seated_modify h (fun _ => rfl) ?_⟩
    intro y p hp
    obtain ⟨x, -, hfound⟩ := Option.bind_eq_some_iff.mp hfind
    have hnumber : o.number = seat.outbox := by simpa using List.find?_some hfound
    refine ⟨_, List.mem_map_of_mem hp, ?_⟩
    split
    · next hp => exact hnumber.trans hp.symm
    · rfl
  | abandoned =>
    refine ⟨rfl, fun seat' h => seated_modify h (fun _ => rfl) ?_⟩
    intro y p hp
    refine ⟨_, List.mem_map_of_mem hp, ?_⟩
    split <;> rfl
  | setOut | unanswered | swept | reported => exact ⟨rfl, fun _ h => h⟩

/-! ## Letting clients in -/

theorem serving_eq (r : Registry) (name : String) : r.serving name
    = ((r.handed? false name).map fun n => (n, r)).getD (r.create name) := by
  simp only [Registry.serving, Registry.handed?, Bool.false_or]
  cases r.current.get? name with
  | none => rfl
  | some n => cases h : (r.realm? n).any (·.running) <;> simp [Option.filter_some, h]

/-- The registry lets a client in, and the realm obeys at once. -/
theorem exists_attach (h : (atRest r).Orderly) (hcancelled : r.cancelled = false) (name : String)
    (client capacity : Nat) :
    (r.attach name client capacity).1 = .ok ((atRest r).nextSeat false name) ∧
    Seated (r.attach name client capacity).2 ((atRest r).nextSeat false name) ∧
    ∃ d events, (atRest r).act (.attach name client capacity false) = some (d, events) ∧
      Settles d (atRest (r.attach name client capacity).2) := by
  have hattach : ∀ n r', r.serving name = (n, r') → r.attach name client capacity
      = (.ok ⟨n, r'.nextOutbox⟩,
        { r'.modify n (·.add client r'.nextOutbox capacity) with
          nextOutbox := r'.nextOutbox + 1 }) := by
    intro n r' hserving
    simp [Registry.attach, hcancelled, hserving]
  -- the realm that is handed out runs, so it obeys what is put into its mailbox
  have hsettles : ∀ n (r' : Registry) y, r'.realm? n = some y → y.running = true →
      Settles ((atRest r').enroll n client capacity)
        (atRest { r'.modify n (·.add client r'.nextOutbox capacity) with
          nextOutbox := r'.nextOutbox + 1 }) := by
    intro n r' y hy hrun
    have hy' : Registry.realm? { r' with nextOutbox := r'.nextOutbox + 1 } n = some y := hy
    have hrunning : (atRest r').isRunning n = true := isRunning_iff.mpr ⟨y, hy, hrun⟩
    rw [enroll_of_running hrunning]
    exact .single rfl (act_work hy' hrun)
  have hseated : ∀ n (r' : Registry) y, r'.realm? n = some y →
      Seated { r'.modify n (·.add client r'.nextOutbox capacity) with
        nextOutbox := r'.nextOutbox + 1 } ⟨n, r'.nextOutbox⟩ := by
    intro n r' y hy
    exact ⟨_, Registry.realm?_modify_self (fun _ => rfl) hy, _,
      List.mem_append_right _ (List.mem_singleton.mpr rfl), rfl⟩
  cases hhanded : r.handed? false name with
  | some n =>
    obtain ⟨-, x, hx, -, hrun⟩ := h.handed rfl hhanded
    have hseat : (atRest r).nextSeat false name = ⟨n, r.nextOutbox⟩ := by
      simp [nextSeat, atRest, hhanded]
    have hserving : r.serving name = (n, r) := by rw [serving_eq, hhanded]; rfl
    rw [hattach n r hserving, hseat]
    refine ⟨rfl, hseated n r x hx, _, [], ?_, hsettles n r x hx hrun⟩
    simp only [act, atRest, hhanded]
    exact if_pos (hasRoom_of_nil rfl)
  | none =>
    have hserving : r.serving name = r.create name := by rw [serving_eq, hhanded]; rfl
    have hseat : (atRest r).nextSeat false name
        = ⟨r.started + 1, (r.create name).2.nextOutbox⟩ := by
      simp [nextSeat, atRest, hhanded, Registry.create]
    have hascending : r.Ascending := h.consistent.ascending
    have hrealm : (r.create name).2.realm? (r.started + 1)
        = some (.start name (r.started + 1)) := by
      rw [Registry.realm?_create hascending, if_pos rfl]
    rw [hattach (r.started + 1) (r.create name).2 hserving, hseat]
    refine ⟨rfl, hseated _ _ _ hrealm, _, [.created name (r.started + 1)], ?_,
      hsettles _ _ _ hrealm rfl⟩
    simp only [act, atRest, hhanded]
    rfl

/-! ## Sweeping -/

/-- The realms of some incarnations retire if they are empty. -/
def retireAll (r : Registry) (ns : List Nat) : Registry :=
  { r with
    realms := r.realms.map fun x =>
      if ns.contains x.incarnation then x.retireIfEmpty else x }

/-- How many clients the realm of an incarnation has. -/
def clientsOf (r : Registry) (n : Nat) : Nat := ((r.realm? n).map Realm.count).getD 0

theorem count_retireIfEmpty (x : Realm) : x.retireIfEmpty.count = x.count := by
  rw [Realm.count, x.outboxes_retireIfEmpty]
  rfl

theorem retireIfEmpty_retireIfEmpty (x : Realm) :
    x.retireIfEmpty.retireIfEmpty = x.retireIfEmpty := by
  by_cases hempty : x.count = 0
  · have hstop : x.retireIfEmpty = x.stop := if_pos hempty
    have hagain : x.stop.retireIfEmpty = x.stop.stop := if_pos x.count_stop
    rw [hstop, hagain]
    simp [Realm.stop, Outbox.detach]
  · have hsame : x.retireIfEmpty = x := if_neg hempty
    rw [hsame, hsame]

theorem retireAll_modify (r : Registry) (n : Nat) (ns : List Nat) :
    retireAll (r.modify n (·.obey .retireIfEmpty)) ns = retireAll r (n :: ns) := by
  have hinc : ∀ y : Realm, y.retireIfEmpty.incarnation = y.incarnation :=
    fun y => y.incarnation_obey .retireIfEmpty
  simp only [retireAll, Registry.modify, List.map_map]
  congr 1
  apply List.map_congr_left
  intro y _
  by_cases hn : y.incarnation = n
  · simp [hn, hinc, Realm.obey, retireIfEmpty_retireIfEmpty]
  · simp [hn]

theorem clientsOf_modify (r : Registry) (n m : Nat) :
    clientsOf (r.modify n (·.obey .retireIfEmpty)) m = clientsOf r m := by
  rw [clientsOf, Registry.realm?_modify fun y => y.incarnation_obey _, clientsOf]
  cases r.realm? m with
  | none => rfl
  | some y =>
    simp only [Option.map_some, Option.getD_some]
    split
    · exact count_retireIfEmpty y
    · rfl

/-- The realms that are yet to be asked answer one after the other. -/
theorem settles_round {unasked : List (String × Nat)} {answers : List RealmStats}
    (h : Orderly ⟨r, fun _ => [], .round .sweep unasked answers⟩) :
    Settles ⟨r, fun _ => [], .round .sweep unasked answers⟩
      ⟨retireAll r (unasked.map Prod.snd), fun _ => [],
        .round .sweep []
          (answers ++ unasked.map fun entry => ⟨entry.1, entry.2, clientsOf r entry.2⟩)⟩ := by
  -- along the realms that are yet to be asked: one question and one answer for each
  induction unasked generalizing r answers with
  | nil =>
    simp only [List.map_nil, List.append_nil]
    have hsame : retireAll r [] = r := by simp [retireAll]
    rw [hsame]
    exact .refl _
  | cons entry unasked ih =>
    obtain ⟨name, n⟩ := entry
    obtain ⟨x, hx, -, hrun⟩ := h.running_of_pending (.inl rfl)
    have hask : act ⟨r, fun _ => [], .round .sweep ((name, n) :: unasked) answers⟩ .ask
        = some (⟨r, Function.update (fun _ => []) n [.retireIfEmpty],
            .waiting .sweep name n unasked answers⟩, []) := by
      have hrunning : isRunning ⟨r, fun _ => [], .round .sweep ((name, n) :: unasked) answers⟩ n
          = true := isRunning_iff.mpr ⟨x, hx, hrun⟩
      simp only [act, hrunning, if_true, put_of_running hrunning]
      exact if_pos (hasRoom_of_nil rfl)
    have hwork : act ⟨r, Function.update (fun _ => []) n [.retireIfEmpty],
          .waiting .sweep name n unasked answers⟩ (.work n)
        = some (⟨r.modify n (·.obey .retireIfEmpty), fun _ => [],
            .round .sweep unasked (answers ++ [⟨name, n, x.count⟩])⟩, [.answered n x.count]) :=
      act_work hx hrun
    have ho := (h.moves (moves_of_act hask)).moves (moves_of_act hwork)
    have hrest := ih ho
    have hcount : clientsOf r n = x.count := by
      have hx : r.realm? n = some x := hx
      simp [clientsOf, hx]
    -- the later realms answer as if the first one had not been asked
    rw [retireAll_modify] at hrest
    simp only [clientsOf_modify, List.append_assoc] at hrest
    simp only [List.map_cons, hcount]
    exact .trans (.single rfl hask) (.trans (.single rfl hwork) hrest)

/-- The realms that were empty are those that do not stay. -/
theorem not_emptied_eq_stays (h : r.Consistent []) {entry : String × Nat}
    (hentry : entry ∈ r.current) :
    (!(emptied (r.current.map fun e => ⟨e.1, e.2, clientsOf r e.2⟩)).contains entry.1)
      = r.stays entry.2 := by
  have hget := (Table.get?_eq_some_iff h.sorted).mpr hentry
  obtain ⟨x, hx, -, hrunning⟩ := h.registered entry.1 entry.2 hget
  have hrun : x.running = true := hrunning.mpr List.not_mem_nil
  have hcount : clientsOf r entry.2 = x.count := by simp [clientsOf, hx]
  have hemptied : entry.1 ∈ emptied (r.current.map fun e => ⟨e.1, e.2, clientsOf r e.2⟩)
      ↔ x.count = 0 := by
    rw [mem_emptied, ← hcount]
    constructor
    · rintro ⟨a, ha, hname, hzero⟩
      obtain ⟨e, he, rfl⟩ := List.mem_map.mp ha
      have hother := (Table.get?_eq_some_iff h.sorted).mpr he
      have hname : e.1 = entry.1 := hname
      rw [hname, hget] at hother
      rwa [Option.some.inj hother]
    · intro hzero
      exact ⟨_, List.mem_map_of_mem hentry, rfl, hzero⟩
  have hstays : r.stays entry.2 = (x.count != 0) := by simp [Registry.stays, hx, hrun]
  rw [hstays, Bool.eq_iff_iff]
  simp [hemptied]

/-- A sweep, all realms answering at once. -/
theorem exists_sweep (h : (atRest r).Orderly) (hcancelled : r.cancelled = false) :
    Settles (atRest r) (atRest r.sweep) := by
  have hconsistent : r.Consistent [] := h.consistent
  have hout : (atRest r).act (.setOut .sweep r.current)
      = some (⟨r, fun _ => [], .round .sweep r.current []⟩, []) := if_pos (List.Perm.refl _)
  have hround := settles_round (h.moves (moves_of_act hout))
  have hsweep : r.sweep = { retireAll r (r.current.map Prod.snd) with
      current := r.current.filter fun entry => r.stays entry.2 } := by
    simp [Registry.sweep, hcancelled, retireAll]
  have hback : act ⟨retireAll r (r.current.map Prod.snd), fun _ => [], .round .sweep []
      ([] ++ r.current.map fun entry => ⟨entry.1, entry.2, clientsOf r entry.2⟩)⟩ .conclude
      = some (atRest r.sweep, []) := by
    rw [hsweep, ← List.filter_congr fun _ hentry => not_emptied_eq_stays hconsistent hentry]
    rfl
  exact .trans (.single rfl hout) (.trans hround (.single rfl hback))

end Dispatch

/-! ## Hubs -/

namespace Switchboard

variable {b b' : Switchboard} {h : Hub}

/-- A hub while no mail waits. -/
def ofHub (h : Hub) : Switchboard := ⟨h.settings, .atRest h.registry, [], h.sessions, h.nextClient⟩

/-- Some moves lead from one state to another. -/
abbrev Reaches (b b' : Switchboard) : Prop := Leads act (fun _ => True) b b'

/-- What goes on behind the sockets goes on in the hub. -/
theorem reaches_of_settles {d : Dispatch} (hsettles : Dispatch.Settles b.dispatch d) :
    Reaches b { b with dispatch := d } := by
  obtain ⟨trace, hinternal, hrun⟩ := hsettles
  induction hrun with
  | start => exact .refl b
  | @move trace d₁ d₂ a events _ hact ih =>
    have ha : a.isInternal = true := hinternal ⟨d₁, a, events⟩ (by simp)
    refine (ih fun st hst => hinternal st (List.mem_append_left _ hst)).trans ?_
    apply Leads.single trivial
    show act _ (.internal a) = some _
    simp only [act, ha, if_true, pass, hact]
    rfl

/-- What the moves of a hub keep. -/
theorem kept_of_reaches (ho : b.dispatch.Orderly) (hreaches : Reaches b b') :
    b'.dispatch.Orderly ∧ b'.dispatch.registry.cancelled = b.dispatch.registry.cancelled ∧
      ∀ seat, Dispatch.Seated b.dispatch.registry seat →
        Dispatch.Seated b'.dispatch.registry seat := by
  obtain ⟨trace, -, hrun⟩ := hreaches
  induction hrun with
  | start => exact ⟨ho, rfl, fun _ hseat => hseat⟩
  | move _ hact ih =>
    obtain ⟨ho', hcancelled, hseated⟩ := ih
    cases moves_of_act hact with
    | accepted | refused => exact ⟨ho', hcancelled, hseated⟩
    | admitted _ hm | received _ hm | left _ hm | sent _ hm | muted _ hm | worked _ hm =>
      obtain ⟨hcancelled', hseated'⟩ := Dispatch.kept_moves ho' hm
      exact ⟨ho'.moves hm, hcancelled'.trans hcancelled,
        fun seat hseat => hseated' seat (hseated seat hseat)⟩

/-- What the runs of a hub keep. -/
structure Kept (h : Hub) : Prop where
  orderly : (Dispatch.atRest h.registry).Orderly
  uncancelled : h.registry.cancelled = false
  seated : ∀ s ∈ h.sessions, Dispatch.Seated h.registry s.seat

/-- A client posts to a realm, which obeys at once. -/
theorem reaches_of_post (b b' : Switchboard) {r : Registry} {n : Nat} {x : Realm}
    {c : Realm.Command} {a : Action} (hconsistent : r.Consistent [])
    (hx : r.realm? n = some x) (hc : c.isClients = true)
    (hact : b.act a = { b' with dispatch := .atRest r }.pass (.post n c)) :
    Reaches b { b' with dispatch := .atRest (r.modify n (·.obey c)) } := by
  obtain ⟨hpost, hsettles⟩ := Dispatch.exists_post hconsistent hx hc
  have hposted : b.act a = some ({ b' with dispatch := (Dispatch.atRest r).put n c }, []) := by
    rw [hact, pass, hpost]
    rfl
  exact .trans (.single trivial hposted) (reaches_of_settles hsettles)

/-- The realm of a path is handed to whoever asks for it. -/
theorem welcome_eq {path name : String} {seat : Seat} (hpath : Hub.realmOfPath? path = some name)
    (hseat : (h.registry.attach name h.nextClient h.settings.sendBuffer).1 = .ok seat) :
    (h.welcome path).1 = { h with
      registry := (h.registry.attach name h.nextClient h.settings.sendBuffer).2
      sessions := h.sessions ++ [⟨h.nextClient, seat, true, true⟩]
      nextClient := h.nextClient + 1 } := by
  cases hattach : h.registry.attach name h.nextClient h.settings.sendBuffer with
  | mk result r =>
    rw [hattach] at hseat
    have hresult : result = .ok seat := hseat
    simp only [Hub.welcome, hpath, hattach, hresult]

namespace Kept

theorem start (settings : HubSettings) : Kept (Hub.start settings) :=
  ⟨.start, rfl, fun _ hs => nomatch hs⟩

/-- A client asks for a path. -/
theorem reaches_welcome (hk : Kept h) (path : String) :
    Reaches (ofHub h) (ofHub (h.welcome path).1) := by
  cases hpath : Hub.realmOfPath? path with
  | none =>
    simp only [Hub.welcome, hpath]
    apply Leads.single trivial
    show act (ofHub h) (.upgrade path) = _
    simp only [act, hpath]
    rfl
  | some name =>
    obtain ⟨hseat, -, d, events, hattach, hsettles⟩ := Dispatch.exists_attach hk.orderly
      hk.uncancelled name h.nextClient h.settings.sendBuffer
    have hupgrade : (ofHub h).act (.upgrade path) = some ({ ofHub h with
        waiting := [(h.nextClient, name)], nextClient := h.nextClient + 1 }, []) := by
      simp only [act, hpath]
      rfl
    have hletIn : act { ofHub h with
          waiting := [(h.nextClient, name)], nextClient := h.nextClient + 1 } (.letIn 0 false)
        = some ({ ofHub h with
            dispatch := d
            sessions := h.sessions ++
              [⟨h.nextClient, (Dispatch.atRest h.registry).nextSeat false name, true, true⟩]
            nextClient := h.nextClient + 1 }, events) := by
      simp only [act, List.getElem?_cons_zero]
      exact congrArg (Option.map _) hattach
    rw [welcome_eq hpath hseat]
    exact .trans (.single trivial hupgrade)
      (.trans (.single trivial hletIn) (reaches_of_settles hsettles))

/-- Each move of a hub is a few moves of its mailboxes. -/
theorem reaches (hk : Kept h) (a : Hub.Action) : Reaches (ofHub h) (ofHub (h.step a).1) := by
  have hmem : ∀ {k s p}, (h.session? k).filter p = some s →
      h.sessions[k]? = some s ∧ Dispatch.Seated h.registry s.seat := by
    intro k s p hs
    have hs := (Option.filter_eq_some_iff.mp hs).1
    exact ⟨hs, hk.seated s (List.mem_of_getElem? hs)⟩
  cases a with
  | upgrade path => exact hk.reaches_welcome path
  | receive k text =>
    simp only [Hub.step, Hub.hand]
    cases hs : (h.session? k).filter (·.reading) with
    | none => exact .refl _
    | some s =>
      obtain ⟨-, x, hx, -⟩ := hmem hs
      have hc : (Realm.Command.broadcast (Frame.normalize text)).isClients = true := rfl
      apply reaches_of_post (ofHub h) (ofHub h) hk.orderly.consistent hx hc
      show act (ofHub h) (.receive k text) = _
      have hs' : (ofHub h).sessions[k]?.filter (·.reading) = some s := hs
      simp only [act, hs']
      rfl
  | endReading k =>
    simp only [Hub.step, Hub.endReading]
    cases hs : (h.session? k).filter (·.reading) with
    | none => exact .refl _
    | some s =>
      obtain ⟨-, x, hx, -⟩ := hmem hs
      have hc : (Realm.Command.remove s.client).isClients = true := rfl
      apply reaches_of_post (ofHub h) ((ofHub h).deafen k s) hk.orderly.consistent hx hc
      show act (ofHub h) (.endReading k) = _
      have hs' : (ofHub h).sessions[k]?.filter (·.reading) = some s := hs
      simp only [act, hs']
      rfl
  | send k =>
    simp only [Hub.step, Hub.takeNext]
    cases hs : (h.session? k).filter (·.writing) with
    | none => exact .refl _
    | some s =>
      have hs' : (ofHub h).sessions[k]?.filter (·.writing) = some s := hs
      simp only
      split
      · next text o htake =>
        have htake' : ((ofHub h).dispatch.registry.outbox? s.seat).map Outbox.take
            = some (some text, o) := htake
        apply Leads.single trivial
        show act (ofHub h) (.send k) = _
        simp only [act, hs', pass, Dispatch.act, htake']
        rfl
      · exact .refl _
  | endWriting k =>
    simp only [Hub.step, Hub.endWriting]
    cases hs : (h.session? k).filter (·.writing) with
    | none => exact .refl _
    | some s =>
      have hs' : (ofHub h).sessions[k]?.filter (·.writing) = some s := hs
      obtain ⟨o, ho⟩ := Dispatch.exists_outbox_of_seated (hmem hs).2
      have ho' : ((ofHub h).mute k s).dispatch.registry.outbox? s.seat = some o := ho
      apply Leads.single trivial
      show act (ofHub h) (.endWriting k) = _
      simp only [act, hs', pass, Dispatch.act, ho']
      rfl
  | sweep => exact reaches_of_settles (Dispatch.exists_sweep hk.orderly hk.uncancelled)

/-- What has a place keeps it, and who comes gets one. -/
theorem step (hk : Kept h) (a : Hub.Action) : Kept (h.step a).1 := by
  obtain ⟨horderly, hcancelled, hseated⟩ := kept_of_reaches hk.orderly (hk.reaches a)
  refine ⟨horderly, hcancelled.trans hk.uncancelled, ?_⟩
  have hold : ∀ s ∈ h.sessions, Dispatch.Seated (h.step a).1.registry s.seat :=
    fun s hs => hseated s.seat (hk.seated s hs)
  -- a session that is changed keeps its seat
  have hset : ∀ k s s', (∃ p, (h.session? k).filter p = some s) → s'.seat = s.seat →
      ∀ t ∈ h.sessions.set k s', Dispatch.Seated (h.step a).1.registry t.seat := by
    rintro k s s' ⟨p, hs⟩ hseat t ht
    have hmem : s ∈ h.sessions := List.mem_of_getElem? (Option.filter_eq_some_iff.mp hs).1
    rcases List.mem_or_eq_of_mem_set ht with ht | rfl
    · exact hold t ht
    · rw [hseat]
      exact hold s hmem
  cases a with
  | upgrade path =>
    cases hpath : Hub.realmOfPath? path with
    | none =>
      have hsame : (h.step (.upgrade path)).1.sessions = h.sessions := by
        rw [Hub.upgrade_elsewhere h path hpath]
      rwa [hsame]
    | some name =>
      obtain ⟨hseat, hnew, -⟩ := Dispatch.exists_attach hk.orderly hk.uncancelled name h.nextClient
        h.settings.sendBuffer
      have hwelcome : (h.step (.upgrade path)).1 = _ := welcome_eq hpath hseat
      rw [hwelcome] at hold ⊢
      intro s hs
      rcases List.mem_append.mp hs with hs | hs
      · exact hold s hs
      · rw [List.mem_singleton.mp hs]
        exact hnew
  | receive k text =>
    have hsame : (h.step (.receive k text)).1.sessions = h.sessions := by
      simp only [Hub.step, Hub.hand]
      split <;> rfl
    rwa [hsame]
  | endReading k =>
    simp only [Hub.step, Hub.endReading] at hold hset ⊢
    cases hs : (h.session? k).filter (·.reading) with
    | none =>
      rw [hs] at hold
      exact hold
    | some s =>
      rw [hs] at hset
      exact hset k s _ ⟨_, hs⟩ rfl
  | send k =>
    have hsame : (h.step (.send k)).1.sessions = h.sessions := by
      simp only [Hub.step, Hub.takeNext]
      split
      · rfl
      · split <;> rfl
    rwa [hsame]
  | endWriting k =>
    simp only [Hub.step, Hub.endWriting] at hold hset ⊢
    cases hs : (h.session? k).filter (·.writing) with
    | none =>
      rw [hs] at hold
      exact hold
    | some s =>
      rw [hs] at hset
      exact hset k s _ ⟨_, hs⟩ rfl
  | sweep => exact hold

end Kept

/-- Every run of a hub is a run of its mailboxes, in which the mail is worked off
    at once. -/
theorem exists_runs (settings : HubSettings) (actions : List Hub.Action) :
    ∃ trace, Runs settings trace
      (ofHub (actions.foldl (fun h a => (h.step a).1) (Hub.start settings))) := by
  suffices hreaches : ∀ h, Kept h →
      Reaches (ofHub h) (ofHub (actions.foldl (fun h a => (h.step a).1) h)) by
    obtain ⟨trace, -, hrun⟩ := hreaches _ (.start settings)
    exact ⟨trace, hrun⟩
  induction actions with
  | nil => exact fun h _ => .refl _
  | cons a actions ih => exact fun h hk => (hk.reaches a).trans (ih _ (hk.step a))

/-- After any moves of a hub its registered realms are those that run. -/
theorem consistent_of_steps (settings : HubSettings) (actions : List Hub.Action) :
    (actions.foldl (fun h a => (h.step a).1) (Hub.start settings)).registry.Consistent [] := by
  obtain ⟨trace, hrun⟩ := exists_runs settings actions
  exact (orderly_dispatch hrun).consistent

end Switchboard

end MessageBus
