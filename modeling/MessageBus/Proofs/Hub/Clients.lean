import Mathlib.Data.List.Nodup
import MessageBus.Proofs.Hub.Commands
import MessageBus.Proofs.Run

/-! # A realm, one client at a time

    A realm works through its commands while its clients take frames from their
    send buffers or stop doing so, in any order.  A move changes the send buffer
    of each client on its own (`outboxes_act`), and what it can do to one is
    listed in `Outbox.Turn`.

    A client attends a realm from the moment it joins until it is removed, or
    until a broadcast finds its send buffer full or nobody taking from it.

    * `attending_after`: a move that a client attends gives it the text.
    * `leaving_after`: the move with which it leaves gives it nothing.
    * `events_act`: what a move reports is what it did. -/

namespace MessageBus

/-! ## Runs of a realm -/

/-- What a realm does, and what clients do with their send buffers. -/
inductive Realm.Action where
  | obey (command : Realm.Command)
  /-- The next frame is taken from a send buffer. -/
  | take (number : Nat)
  /-- Nobody takes from a send buffer any more. -/
  | abandon (number : Nat)
  deriving DecidableEq, Repr

/-- What a move made happen to a send buffer. -/
inductive Realm.Event where
  /-- A text was put into it. -/
  | accepted (number : Nat) (text : String)
  | took (number : Nat) (text : String)
  /-- It is empty, and nothing will be put into it any more. -/
  | ended (number : Nat)
  deriving DecidableEq, Repr

/-- What a move does to the send buffer of a client that joined before it. -/
def Outbox.after (o : Outbox) : Realm.Action → Outbox
  | .obey command => o.obey command
  | .take number => if o.number = number then o.take.2 else o
  | .abandon number => if o.number = number then o.abandon else o

namespace Realm

/-- Whether a client that joins, and its send buffer, are new to the realm. -/
def isFresh (r : Realm) : Command → Bool
  | .add client number _ => r.outboxes.all fun o => o.client != client && o.number != number
  | _ => true

/-- The send buffers that a command puts a text into. -/
def acceptances (r : Realm) : Command → List Event
  | .broadcast text => r.outboxes.filterMap fun o =>
    if (o.offer text).buffer = o.buffer then none else some (.accepted o.number text)
  | _ => []

/-- The realm after a move with what it made happen, `none` for a move that is
    not possible. -/
def act (r : Realm) : Action → Option (Realm × List Event)
  | .obey command =>
    if r.running && r.isFresh command then some (r.obey command, r.acceptances command) else none
  | .take number =>
    match r.outbox? number with
    | none => none
    | some o =>
      match o.listening, o.take with
      | true, (some text, o) => some (r.modify number fun _ => o, [.took number text])
      -- a client waits for the next frame as long as it belongs to the realm
      | true, (none, o) => if o.attached then none else some (r, [.ended number])
      | false, _ => none
  | .abandon number =>
    if (r.outbox? number).any (·.listening) then some (r.modify number Outbox.abandon, [])
    else none

/-- A trace of a realm. -/
abbrev Trace := List (Stage Realm Action Event)

/-! ## Reading a trace -/

/-- The text that a move broadcasts. -/
def Action.text? : Action → Option String
  | .obey (.broadcast text) => some text
  | _ => none

/-- The send buffer that a move adds. -/
def Action.newcomer? : Action → Option Outbox
  | .obey command => command.newcomer?
  | _ => none

/-- The send buffer that an event is about. -/
def Event.number : Event → Nat
  | accepted number _ | took number _ | ended number => number

/-- The text that an event puts into a send buffer. -/
def Event.accepted? (number : Nat) : Event → Option String
  | accepted n text => if n = number then some text else none
  | _ => none

/-- The text that an event takes from a send buffer. -/
def Event.took? (number : Nat) : Event → Option String
  | took n text => if n = number then some text else none
  | _ => none

/-- The texts that were broadcast. -/
def broadcasts (trace : Trace) : List String := trace.filterMap (·.move.text?)

/-- The texts that were put into a send buffer. -/
def accepted (number : Nat) (trace : Trace) : List String :=
  (eventsOf trace).filterMap (Event.accepted? number)

/-- The texts that were taken from a send buffer. -/
def taken (number : Nat) (trace : Trace) : List String :=
  (eventsOf trace).filterMap (Event.took? number)

section snoc
variable (number : Nat) (trace : Trace) (st : Stage Realm Action Event)

@[simp] theorem broadcasts_snoc :
    broadcasts (trace ++ [st]) = broadcasts trace ++ st.move.text?.toList := by
  cases h : st.move.text? <;> simp [broadcasts, h]

@[simp] theorem accepted_snoc : accepted number (trace ++ [st])
    = accepted number trace ++ st.events.filterMap (Event.accepted? number) := by
  simp [accepted]

@[simp] theorem taken_snoc : taken number (trace ++ [st])
    = taken number trace ++ st.events.filterMap (Event.took? number) := by
  simp [taken]

end snoc

/-- The move with which a client leaves: it is removed, or a broadcast finds its
    send buffer full or nobody taking from it. -/
def Leaves (client number : Nat) (st : Stage Realm Action Event) : Prop :=
  st.move = .obey (.remove client) ∨
  ∃ text, st.move = .obey (.broadcast text) ∧ ∃ o ∈ st.before.outboxes,
    o.number = number ∧ (o.capacity ≤ o.buffer.length ∨ o.listening = false)

/-- The client belongs to the realm before a move and does not leave with it. -/
def Attends (client number : Nat) (st : Stage Realm Action Event) : Prop :=
  (∃ o ∈ st.before.outboxes, o.client = client ∧ o.number = number ∧ o.attached = true) ∧
    ¬ Leaves client number st

end Realm

/-! ## What a move does to one send buffer -/

namespace Outbox

variable {o : Outbox}

theorem accepts_iff : o.accepts = true ↔ o.listening = true ∧ o.buffer.length < o.capacity := by
  simp [accepts]

theorem offer_accepted (text : String) (h : o.attached = true) (ha : o.accepts = true) :
    o.offer text = { o with buffer := o.buffer ++ [text] } := by
  simp [offer, h, ha]

theorem offer_refused (text : String) (h : o.attached = true) (ha : ¬ o.accepts = true) :
    o.offer text = o.detach := by
  simp [offer, detach, h, ha]

theorem offer_detached (text : String) (h : o.attached = false) : o.offer text = o := by
  simp [offer, h]

/-- What a move puts into the send buffer. -/
def gains (o : Outbox) : Realm.Action → List String
  | .obey (.broadcast text) => if (o.offer text).buffer = o.buffer then [] else [text]
  | _ => []

/-- What a move takes from the send buffer. -/
def yields (o : Outbox) : Realm.Action → List String
  | .take number => if o.number = number then o.take.1.toList else []
  | _ => []

/-- What a move can do to a send buffer, one constructor for each outcome. -/
inductive Turn (o : Outbox) (a : Realm.Action) : Outbox → Prop where
  | kept : (a.text?.isSome = true → o.attached = false) → o.gains a = [] → o.yields a = [] →
      Turn o a o
  | left :
      (a = .obey (.remove o.client) ∨
        (∃ number capacity, a = .obey (.add o.client number capacity)) ∨
        ∃ text, a = .obey (.broadcast text) ∧ ¬ o.accepts = true) →
      o.gains a = [] → o.yields a = [] → Turn o a o.detach
  | gained {text : String} : a = .obey (.broadcast text) → o.attached = true →
      o.accepts = true → o.gains a = [text] → o.yields a = [] →
      Turn o a { o with buffer := o.buffer ++ [text] }
  | yielded {text : String} {rest : List String} : a.text? = none → o.buffer = text :: rest →
      o.gains a = [] → o.yields a = [text] → Turn o a { o with buffer := rest }
  | abandoned : a.text? = none → o.gains a = [] → o.yields a = [] → Turn o a o.abandon

theorem turn_after (o : Outbox) (a : Realm.Action) : Turn o a (o.after a) := by
  cases a with
  | obey command =>
    cases command with
    | broadcast text =>
      simp only [after, obey]
      cases hattached : o.attached with
      | false =>
        rw [o.offer_detached text hattached]
        exact .kept (fun _ => hattached) (if_pos (by rw [o.offer_detached text hattached])) rfl
      | true =>
        by_cases haccepts : o.accepts = true
        · have hoffer := o.offer_accepted text hattached haccepts
          rw [hoffer]
          exact .gained rfl hattached haccepts (if_neg (by simp [hoffer])) rfl
        · have hoffer := o.offer_refused text hattached haccepts
          rw [hoffer]
          exact .left (.inr (.inr ⟨text, rfl, haccepts⟩)) (if_pos (by rw [hoffer]; rfl)) rfl
    | add client number capacity =>
      simp only [after, obey]
      split
      · next hclient =>
        subst hclient
        exact .left (.inr (.inl ⟨number, capacity, rfl⟩)) rfl rfl
      · exact .kept (fun h => by cases h) rfl rfl
    | remove client =>
      simp only [after, obey]
      split
      · next hclient =>
        subst hclient
        exact .left (.inl rfl) rfl rfl
      · exact .kept (fun h => by cases h) rfl rfl
    | count | retireIfEmpty => exact .kept (fun h => by cases h) rfl rfl
  | take number =>
    simp only [after]
    split
    · next hnumber =>
      cases hbuffer : o.buffer with
      | nil =>
        have htake : o.take = (none, o) := by rw [take, hbuffer]
        rw [htake]
        exact .kept (fun h => by cases h) rfl (by rw [yields, if_pos hnumber, htake]; rfl)
      | cons text rest =>
        have htake := o.take_cons text rest hbuffer
        rw [htake]
        exact .yielded rfl hbuffer rfl (by rw [yields, if_pos hnumber, htake]; rfl)
    · next hnumber => exact .kept (fun h => by cases h) rfl (if_neg hnumber)
  | abandon number =>
    simp only [after]
    split
    · exact .abandoned rfl rfl rfl
    · exact .kept (fun h => by cases h) rfl rfl

/-- No move changes which client a send buffer belongs to, nor its size. -/
theorem after_fixed (o : Outbox) (a : Realm.Action) :
    (o.after a).number = o.number ∧ (o.after a).client = o.client ∧
      (o.after a).capacity = o.capacity := by
  generalize hafter : o.after a = o'
  have hturn := turn_after o a
  rw [hafter] at hturn
  cases hturn <;> exact ⟨rfl, rfl, rfl⟩

@[simp] theorem number_after (o : Outbox) (a : Realm.Action) : (o.after a).number = o.number :=
  (after_fixed o a).1

@[simp] theorem client_after (o : Outbox) (a : Realm.Action) : (o.after a).client = o.client :=
  (after_fixed o a).2.1

@[simp] theorem capacity_after (o : Outbox) (a : Realm.Action) :
    (o.after a).capacity = o.capacity :=
  (after_fixed o a).2.2

/-- Nothing reaches a client that does not belong to the realm. -/
theorem detached_after (a : Realm.Action) (h : o.attached = false) :
    (o.after a).attached = false ∧ o.gains a = [] := by
  generalize hafter : o.after a = o'
  have hturn := turn_after o a
  rw [hafter] at hturn
  cases hturn with
  | kept _ hgains | yielded _ _ hgains | abandoned _ hgains => exact ⟨h, hgains⟩
  | left _ hgains => exact ⟨rfl, hgains⟩
  | gained _ hattached =>
    rw [h] at hattached
    cases hattached

/-- As long as somebody takes from a send buffer, it holds what was put into it
    and not taken yet. -/
theorem yields_append_buffer (a : Realm.Action) (h : (o.after a).listening = true) :
    o.listening = true ∧ o.yields a ++ (o.after a).buffer = o.buffer ++ o.gains a := by
  generalize hafter : o.after a = o' at h ⊢
  have hturn := turn_after o a
  rw [hafter] at hturn
  cases hturn with
  | kept _ hgains hyields => exact ⟨h, by rw [hgains, hyields, List.append_nil]; rfl⟩
  | left _ hgains hyields => exact ⟨h, by rw [hgains, hyields, List.append_nil]; rfl⟩
  | gained _ _ _ hgains hyields => exact ⟨h, by rw [hgains, hyields]; rfl⟩
  | yielded _ hbuffer hgains hyields =>
    exact ⟨h, by rw [hgains, hyields, hbuffer, List.append_nil]; rfl⟩
  | abandoned => cases h

/-- Once nobody takes from a send buffer it stays empty. -/
theorem abandoned_after (a : Realm.Action) (h : (o.after a).listening = false)
    (hempty : o.listening = false → o.buffer = []) :
    (o.after a).buffer = [] ∧ o.yields a = [] ∧ o.gains a = [] := by
  generalize hafter : o.after a = o' at h ⊢
  have hturn := turn_after o a
  rw [hafter] at hturn
  cases hturn with
  | kept _ hgains hyields | left _ hgains hyields => exact ⟨hempty h, hyields, hgains⟩
  | gained _ _ haccepts =>
    have hlistening : o.listening = false := h
    rw [(accepts_iff.mp haccepts).1] at hlistening
    cases hlistening
  | yielded _ hbuffer =>
    rw [hempty h] at hbuffer
    cases hbuffer
  | abandoned _ hgains hyields => exact ⟨rfl, hyields, hgains⟩

theorem yields_of_empty (a : Realm.Action) (h : o.buffer = []) : o.yields a = [] := by
  cases a with
  | take number => simp [yields, take, h]
  | obey command | abandon number => rfl

end Outbox

namespace Realm

/-! ## Moves, one send buffer at a time -/

/-- No two send buffers of a realm have one number. -/
def Distinct (r : Realm) : Prop := (r.outboxes.map (·.number)).Nodup

/-- The possible moves, one constructor for each outcome. -/
inductive Acts (r : Realm) : Action → Realm → List Event → Prop where
  | obeyed {command : Command} :
      r.running = true → r.isFresh command = true →
      Acts r (.obey command) (r.obey command) (r.acceptances command)
  | took {o : Outbox} {text : String} {rest : List String} :
      o ∈ r.outboxes → o.listening = true → o.buffer = text :: rest →
      Acts r (.take o.number) (r.modify o.number fun _ => o.take.2) [.took o.number text]
  | ended {o : Outbox} :
      o ∈ r.outboxes → o.listening = true → o.buffer = [] → o.attached = false →
      Acts r (.take o.number) r [.ended o.number]
  | abandoned {o : Outbox} :
      o ∈ r.outboxes → o.listening = true →
      Acts r (.abandon o.number) (r.modify o.number Outbox.abandon) []

variable {r r' : Realm} {a : Action} {events : List Event} {o : Outbox}

theorem mem_of_outbox {number : Nat} (h : r.outbox? number = some o) :
    o ∈ r.outboxes ∧ o.number = number :=
  ⟨List.mem_of_find?_eq_some h, by simpa using List.find?_some h⟩

theorem Distinct.eq {p : Outbox} (hd : Distinct r) (ho : o ∈ r.outboxes) (hp : p ∈ r.outboxes)
    (h : o.number = p.number) : o = p :=
  List.inj_on_of_nodup_map hd ho hp h

theorem Distinct.outbox_eq (hd : Distinct r) (ho : o ∈ r.outboxes) :
    r.outbox? o.number = some o := by
  cases h : r.outbox? o.number with
  | none => exact absurd (List.find?_eq_none.mp h o ho) (by simp)
  | some p =>
    obtain ⟨hp, hnumber⟩ := mem_of_outbox h
    rw [hd.eq hp ho hnumber]

/-- Every possible move is one of the listed ones. -/
theorem acts_of_act (h : r.act a = some (r', events)) : Acts r a r' events := by
  cases a with
  | obey command =>
    simp only [act] at h
    split at h
    · next hguard =>
      rw [Bool.and_eq_true] at hguard
      cases h
      exact .obeyed hguard.1 hguard.2
    · cases h
  | take number =>
    simp only [act] at h
    split at h
    · cases h
    · next o hnumber =>
      obtain ⟨ho, rfl⟩ := mem_of_outbox hnumber
      split at h
      · next text o' hlistening htake =>
        cases hbuffer : o.buffer with
        | nil => simp [Outbox.take, hbuffer] at htake
        | cons text' rest =>
          rw [o.take_cons text' rest hbuffer] at htake
          cases htake
          cases h
          have hmove := Acts.took ho hlistening hbuffer
          rwa [o.take_cons text rest hbuffer] at hmove
      · next o' hlistening htake =>
        cases hbuffer : o.buffer with
        | cons text rest =>
          rw [o.take_cons text rest hbuffer] at htake
          cases htake
        | nil =>
          simp only [Outbox.take, hbuffer] at htake
          obtain rfl := (Prod.mk.inj htake).2
          split at h
          · cases h
          · next hattached =>
            cases h
            exact .ended ho hlistening hbuffer (by simpa using hattached)
      · cases h
  | abandon number =>
    simp only [act] at h
    split at h
    · next hguard =>
      obtain ⟨o, hnumber, hlistening⟩ := (Option.any_eq_true _ _).mp hguard
      obtain ⟨ho, rfl⟩ := mem_of_outbox hnumber
      cases h
      exact .abandoned ho hlistening
    · cases h

/-- A move changes each send buffer on its own and may add one. -/
theorem outboxes_act (hd : Distinct r) (h : Acts r a r' events) :
    r'.outboxes = r.outboxes.map (·.after a) ++ a.newcomer?.toList := by
  cases h with
  | @obeyed command => exact outboxes_obey r command
  | @took o text rest ho hlistening hbuffer =>
    simp only [modify, Action.newcomer?, Option.toList_none, List.append_nil]
    refine List.map_congr_left fun p hp => ?_
    simp only [Outbox.after]
    split
    · next hnumber => rw [hd.eq hp ho hnumber]
    · rfl
  | @ended o ho hlistening hbuffer hattached =>
    -- taking from an empty buffer changes nothing
    have hsame : ∀ p ∈ r.outboxes, p.after (.take o.number) = p := by
      intro p hp
      simp only [Outbox.after]
      split
      · next hnumber => rw [hd.eq hp ho hnumber, Outbox.take, hbuffer]
      · rfl
    rw [List.map_congr_left hsame]
    simp [Action.newcomer?]
  | abandoned ho hlistening =>
    simp only [modify, Action.newcomer?, Option.toList_none, List.append_nil]
    rfl

/-- A client that joins is new, and so is its send buffer. -/
theorem newcomer_fresh (h : Acts r a r' events) {newcomer : Outbox}
    (hnew : a.newcomer? = some newcomer) :
    a = .obey (.add newcomer.client newcomer.number newcomer.capacity) ∧
      newcomer = .joining newcomer.client newcomer.number newcomer.capacity ∧
      ∀ o ∈ r.outboxes, o.client ≠ newcomer.client ∧ o.number ≠ newcomer.number := by
  cases h with
  | @obeyed command hrunning hfresh =>
    cases command with
    | add client number capacity =>
      cases hnew
      refine ⟨rfl, rfl, fun o ho => ?_⟩
      have hne := List.all_eq_true.mp hfresh o ho
      simpa [Outbox.joining] using hne
    | _ => cases hnew
  | _ => cases hnew

theorem distinct_acts (hd : Distinct r) (h : Acts r a r' events) : Distinct r' := by
  have hnumbers : (r.outboxes.map (·.after a)).map (·.number) = r.outboxes.map (·.number) := by
    simp [Function.comp_def]
  rw [Distinct, outboxes_act hd h, List.map_append, hnumbers]
  cases hnew : a.newcomer? with
  | none => rwa [Option.toList_none, List.map_nil, List.append_nil]
  | some newcomer =>
    obtain ⟨-, -, hfresh⟩ := newcomer_fresh h hnew
    refine List.Nodup.append hd (List.nodup_singleton _) ?_
    intro number hold hnewer
    obtain ⟨o, ho, rfl⟩ := List.mem_map.mp hold
    exact (hfresh o ho).2 (List.mem_singleton.mp hnewer)

/-! ## What the clients get -/

/-- A client that attends a move is given its text, if it has one. -/
theorem attending_after (hd : Distinct r) (ho : o ∈ r.outboxes) (h : Acts r a r' events)
    (hattends : Attends o.client o.number ⟨r, a, events⟩) :
    (o.after a).attached = true ∧ o.gains a = a.text?.toList := by
  obtain ⟨⟨p, hp, -, hnumber, hattached⟩, hstays⟩ := hattends
  obtain rfl := hd.eq hp ho hnumber
  generalize hafter : p.after a = p'
  have hturn := p.turn_after a
  rw [hafter] at hturn
  cases hturn with
  | kept hquiet hgains =>
    refine ⟨hattached, ?_⟩
    cases htext : a.text? with
    | none => exact hgains
    | some text =>
      have hdetached := hquiet (by rw [htext]; rfl)
      rw [hattached] at hdetached
      cases hdetached
  | gained hmove _ _ hgains =>
    subst hmove
    exact ⟨hattached, hgains⟩
  | yielded htext _ hgains | abandoned htext hgains =>
    rw [htext]
    exact ⟨hattached, hgains⟩
  | left hreason =>
    -- whatever detaches a client is a reason to leave
    rcases hreason with rfl | ⟨number, capacity, rfl⟩ | ⟨text, rfl, hrefused⟩
    · exact absurd (.inl rfl) hstays
    · obtain ⟨-, -, hfresh⟩ := newcomer_fresh h rfl
      exact absurd rfl (hfresh p hp).1
    · refine absurd (.inr ⟨text, rfl, p, hp, rfl, ?_⟩) hstays
      cases hlistening : p.listening with
      | false => exact .inr rfl
      | true =>
        refine .inl (Nat.le_of_not_lt fun hroom => ?_)
        exact hrefused (Outbox.accepts_iff.mpr ⟨hlistening, hroom⟩)

/-- What a client gets that leaves: nothing. -/
theorem leaving_after (hd : Distinct r) (ho : o ∈ r.outboxes)
    (hleaves : Leaves o.client o.number ⟨r, a, events⟩) :
    (o.after a).attached = false ∧ o.gains a = [] := by
  cases hattached : o.attached with
  | false => exact o.detached_after a hattached
  | true =>
    rcases hleaves with hmove | ⟨text, hmove, p, hp, hnumber, hfull⟩
    · obtain rfl : a = .obey (.remove o.client) := hmove
      exact ⟨by simp [Outbox.after, Outbox.obey, Outbox.detach], rfl⟩
    · obtain rfl : a = .obey (.broadcast text) := hmove
      obtain rfl := hd.eq hp ho hnumber
      have haccepts : ¬ p.accepts = true := by
        rw [Outbox.accepts_iff]
        rintro ⟨hlistening, hroom⟩
        rcases hfull with hfull | hclosed
        · omega
        · rw [hclosed] at hlistening
          cases hlistening
      have hoffer := p.offer_refused text hattached haccepts
      refine ⟨?_, if_pos (by rw [hoffer]; rfl)⟩
      simp only [Outbox.after, Outbox.obey, hoffer]
      rfl

/-- What happened to a send buffer is what the move did to it. -/
theorem events_act (hd : Distinct r) (ho : o ∈ r.outboxes) (h : Acts r a r' events) :
    events.filterMap (Event.accepted? o.number) = o.gains a ∧
      events.filterMap (Event.took? o.number) = o.yields a := by
  cases h with
  | @obeyed command hrunning hfresh =>
    cases command with
    | broadcast text =>
      simp only [acceptances, List.filterMap_filterMap, Outbox.yields]
      refine ⟨?_, ?_⟩
      · rw [filterMap_eq_of_nodup hd ho]
        · simp only [Outbox.gains]
          split <;> simp [Event.accepted?]
        · intro p hp
          split <;> simp [Event.accepted?, hp]
      · rw [filterMap_eq_of_nodup hd ho]
        · split <;> simp [Event.took?]
        · intro p hp
          split <;> simp [Event.took?]
    | _ => exact ⟨rfl, rfl⟩
  | @took p text rest hp hlistening hbuffer =>
    refine ⟨rfl, ?_⟩
    simp only [Outbox.yields, List.filterMap_cons, List.filterMap_nil, Event.took?]
    by_cases hnumber : p.number = o.number
    · obtain rfl := hd.eq hp ho hnumber
      simp [Outbox.take, hbuffer]
    · simp [hnumber, Ne.symm hnumber]
  | @ended p hp hlistening hbuffer hattached =>
    refine ⟨rfl, ?_⟩
    simp only [Outbox.yields, List.filterMap_cons, List.filterMap_nil, Event.took?]
    split
    · next hnumber =>
      obtain rfl := hd.eq hp ho hnumber.symm
      simp [Outbox.take, hbuffer]
    · rfl
  | abandoned => exact ⟨rfl, rfl⟩

/-- Every event is about a send buffer of the realm. -/
theorem number_of_event (h : Acts r a r' events) {e : Event} (he : e ∈ events) :
    ∃ o ∈ r.outboxes, o.number = e.number := by
  cases h with
  | @obeyed command hrunning hfresh =>
    cases command with
    | broadcast text =>
      obtain ⟨o, ho, hevent⟩ := List.mem_filterMap.mp he
      split at hevent
      · cases hevent
      · cases hevent
        exact ⟨o, ho, rfl⟩
    | _ => cases he
  | took ho | ended ho =>
    obtain rfl := List.mem_singleton.mp he
    exact ⟨_, ho, rfl⟩
  | abandoned => cases he

end Realm

end MessageBus
