import MessageBus.Proofs.Link.MemoryLinks

/-! # Runs of a bus in memory

    Whatever is done on a bus, each of its links buffers what is sent as long as
    the link lasts, and its receiver gets that, in order, before it sees the end.

    * `Turn.gained_eq`, `Turn.flow`: what one operation does to a link.
    * `fared_step`, `fares_of_run`: what a link went through, along every run.
    * `serves_of_run`: what a run of a bus comes to. -/

namespace MessageBus

namespace MemoryBus

variable {b b' : MemoryBus} {op : Operation} {k : Nat} {l l' : MemoryLink} {trace : Trace}
  {st : Stage MemoryBus Operation Event} {events : List Event}

/-! ## Turns -/

namespace Turn

variable {sent gained taken : List String} {cut ended : Bool}

theorem cut_eq (h : Turn l sent gained taken cut ended l') : cut = l.isCut l' := by
  cases h <;> simp [MemoryLink.isCut, *]

/-- A link that is attached was attached. -/
theorem attached_of (h : Turn l sent gained taken cut ended l') (hl' : l'.attached = true) :
    l.attached = true := by
  cases h with
  | severed hattached => exact hattached
  | _ => exact hl'

theorem detached (h : Turn l sent gained taken cut ended l') (hl : l.attached = false) :
    l'.attached = false := by
  cases hl' : l'.attached with
  | false => rfl
  | true => rw [← hl, h.attached_of hl']

/-- A link that stays attached buffers what is sent. -/
theorem gained_eq (h : Turn l sent gained taken cut ended l') :
    gained = if l'.attached then sent else [] := by
  cases h <;> simp [*]

/-- Taking from a buffer makes it shorter at its front, and what it gains is at its end. -/
theorem flow (h : Turn l sent gained taken cut ended l') (hl' : l'.listening = true) :
    l.listening = true ∧ taken ++ l'.buffer = l.buffer ++ gained := by
  cases h <;> simp_all

theorem taken_prefix (h : Turn l sent gained taken cut ended l') :
    taken <+: l.buffer := by
  cases h <;> simp_all

/-- The buffer of a link that was given up stays empty. -/
theorem buffer_of_deaf (h : Turn l sent gained taken cut ended l')
    (hl : l.listening = false → l.buffer = []) (hl' : l'.listening = false) : l'.buffer = [] := by
  cases h <;> simp_all

/-- The end is seen by a receiver that has taken everything. -/
theorem of_ended (h : Turn l sent gained taken cut true l') :
    l.listening = true ∧ l.attached = false ∧ l.buffer = [] ∧ taken = [] ∧ l' = l := by
  cases h with
  | ended hlistening hattached hbuffer => exact ⟨hlistening, hattached, hbuffer, rfl, rfl⟩

end Turn

/-! ## What a link went through -/

/-- A link is opened at a stage. -/
def Opens (k : Nat) (st : Stage MemoryBus Operation Event) : Prop := .opened k ∈ st.events

/-- A link is severed at a stage. -/
def Cuts (k : Nat) (st : Stage MemoryBus Operation Event) : Prop := .severed k ∈ st.events

/-- What a link went through along a trace. -/
structure Fared (k : Nat) (trace : Trace) (l : MemoryLink) : Prop where
  /-- It buffered all that was sent from when it was opened to when it was severed. -/
  served : ∃ during, Tenure (Opens k) (Cuts k) l.attached trace during ∧
    bufferedIn k (eventsOf trace) = sentIn (eventsOf during)
  severed : .severed k ∈ eventsOf trace ↔ l.attached = false
  /-- What was taken from it and what it still buffers is what it buffered. -/
  flows : l.listening = true →
    takenFrom k (eventsOf trace) ++ l.buffer = bufferedIn k (eventsOf trace)
  emptied : l.listening = false → l.buffer = []
  taken : takenFrom k (eventsOf trace) <+: bufferedIn k (eventsOf trace)
  ended : .ended k ∈ eventsOf trace →
    l.attached = false ∧ takenFrom k (eventsOf trace) = bufferedIn k (eventsOf trace)

/-- The turn that a link takes at a stage. -/
abbrev TurnAt (k : Nat) (st : Stage MemoryBus Operation Event) (l l' : MemoryLink) : Prop :=
  Turn l (sentIn st.events) (bufferedIn k st.events) (takenFrom k st.events)
    (decide (.severed k ∈ st.events)) (decide (.ended k ∈ st.events)) l'

theorem bufferedIn_snoc (k : Nat) (trace : Trace) (st : Stage MemoryBus Operation Event) :
    bufferedIn k (eventsOf (trace ++ [st]))
      = bufferedIn k (eventsOf trace) ++ bufferedIn k st.events := by
  rw [eventsOf_snoc, bufferedIn, List.filterMap_append]

theorem takenFrom_snoc (k : Nat) (trace : Trace) (st : Stage MemoryBus Operation Event) :
    takenFrom k (eventsOf (trace ++ [st]))
      = takenFrom k (eventsOf trace) ++ takenFrom k st.events := by
  rw [eventsOf_snoc, takenFrom, List.filterMap_append]

theorem sentIn_snoc (trace : Trace) (st : Stage MemoryBus Operation Event) :
    sentIn (eventsOf (trace ++ [st])) = sentIn (eventsOf trace) ++ sentIn st.events := by
  rw [eventsOf_snoc, sentIn, List.filterMap_append]

theorem Fared.served_step (h : Fared k trace l) (hturn : TurnAt k st l l') :
    ∃ during, Tenure (Opens k) (Cuts k) l'.attached (trace ++ [st]) during ∧
      bufferedIn k (eventsOf (trace ++ [st])) = sentIn (eventsOf during) := by
  obtain ⟨during, htenure, hbuffered⟩ := h.served
  have hgained := hturn.gained_eq
  have hcut : Cuts k st ↔ l.isCut l' = true := by
    rw [← hturn.cut_eq, decide_eq_true_iff, Cuts]
  rw [bufferedIn_snoc, hbuffered, hgained]
  cases hattached : l.attached with
  | false =>
    -- what was severed is over
    have hattached' := hturn.detached hattached
    rw [hattached] at htenure
    rw [hattached']
    exact ⟨during, htenure.past st, by simp⟩
  | true =>
    rw [hattached] at htenure
    cases hattached' : l'.attached with
    | true =>
      refine ⟨during ++ [st], htenure.stay ?_, ?_⟩
      · rw [hcut]
        simp [MemoryLink.isCut, hattached']
      · rw [if_pos rfl, sentIn_snoc]
    | false =>
      refine ⟨during, htenure.leave ?_, by simp⟩
      rw [hcut]
      simp [MemoryLink.isCut, hattached, hattached']

/-- One move adds one turn to what a link went through. -/
theorem fared_step (h : Fared k trace l) (hturn : TurnAt k st l l') :
    Fared k (trace ++ [st]) l' := by
  have hcut : .severed k ∈ st.events ↔ l.isCut l' = true := by
    rw [← hturn.cut_eq, decide_eq_true_iff]
  refine ⟨h.served_step hturn, ?_, ?_, hturn.buffer_of_deaf h.emptied, ?_, ?_⟩
  · rw [eventsOf_snoc, List.mem_append, h.severed, hcut]
    have hattached := hturn.attached_of
    cases hl : l.attached <;> cases hl' : l'.attached <;> simp_all [MemoryLink.isCut]
  · intro hlistening
    obtain ⟨hbefore, hflow⟩ := hturn.flow hlistening
    rw [takenFrom_snoc, bufferedIn_snoc, ← h.flows hbefore, List.append_assoc, hflow,
      List.append_assoc]
  · rw [takenFrom_snoc, bufferedIn_snoc]
    cases hlistening : l.listening with
    | true =>
      rw [← h.flows hlistening, List.append_assoc, List.prefix_append_right_inj]
      exact hturn.taken_prefix.trans (List.prefix_append ..)
    | false =>
      have hnone : takenFrom k st.events = [] := by
        have hprefix := hturn.taken_prefix
        rwa [h.emptied hlistening, List.prefix_nil] at hprefix
      rw [hnone, List.append_nil]
      exact h.taken.trans (List.prefix_append ..)
  · intro hended
    have hover : l.attached = false ∧ l.buffer = [] ∧
        takenFrom k (eventsOf trace) = bufferedIn k (eventsOf trace) := by
      rw [eventsOf_snoc, List.mem_append] at hended
      rcases hended with hended | hended
      · obtain ⟨hattached, heq⟩ := h.ended hended
        refine ⟨hattached, ?_, heq⟩
        cases hlistening : l.listening with
        | true => simpa [← heq] using h.flows hlistening
        | false => exact h.emptied hlistening
      · rw [TurnAt, decide_eq_true hended] at hturn
        obtain ⟨hlistening, hattached, hbuffer, -, -⟩ := hturn.of_ended
        have hflows := h.flows hlistening
        rw [hbuffer, List.append_nil] at hflows
        exact ⟨hattached, hbuffer, hflows⟩
    obtain ⟨hattached, hbuffer, heq⟩ := hover
    have hdetached := hturn.detached hattached
    have hnone : takenFrom k st.events = [] := by
      have hprefix := hturn.taken_prefix
      rwa [hbuffer, List.prefix_nil] at hprefix
    have hgained : bufferedIn k st.events = [] := by
      rw [hturn.gained_eq, hdetached]
      rfl
    rw [takenFrom_snoc, bufferedIn_snoc, hnone, hgained, heq]
    exact ⟨hdetached, rfl⟩

/-! ## Links that are not there yet -/

/-- The link that an event tells of, but for its opening. -/
def Event.about? : Event → Option Nat
  | .took link _ | .ended link | .buffered link _ | .severed link => some link
  | .opened _ | .refused _ | .sent _ | .unsent _ => none

/-- Nothing has happened to a link. -/
def Untold (k : Nat) (events : List Event) : Prop := ∀ e ∈ events, e.about? ≠ some k

theorem Untold.bufferedIn (h : Untold k events) : bufferedIn k events = [] := by
  apply List.filterMap_eq_nil_iff.mpr
  intro e he
  have habout := h e he
  cases e <;> simp_all [Event.about?]

theorem Untold.takenFrom (h : Untold k events) : takenFrom k events = [] := by
  apply List.filterMap_eq_nil_iff.mpr
  intro e he
  have habout := h e he
  cases e <;> simp_all [Event.about?]

theorem Untold.append {events' : List Event} (h : Untold k events) (h' : Untold k events') :
    Untold k (events ++ events') :=
  fun e he => (List.mem_append.mp he).elim (h e) (h' e)

/-- Nothing happens to a link that was not there before. -/
theorem untold_of_act (hn : IsNumbered b) (h : b.act op = some (b', events))
    (hk : b.nextLink ≤ k) : Untold k events := by
  obtain ⟨answer, hperforms, rfl⟩ := performs_of_act h
  have hold : ∀ {id l}, b.find? id = some l → id ≠ k := by
    intro id l hl
    have hlt := hn.lt_of_find hl
    omega
  refine Untold.append ?_ ?_
  · intro e he
    cases hperforms <;> simp_all [Event.about?]
  · intro e he
    obtain ⟨l, hl, ⟨body, rfl⟩ | rfl⟩ := mem_changes he
    all_goals
      simp only [Event.about?, ne_eq, Option.some.injEq]
      exact hold (hn.find_of_mem hl)

/-- A link that was not there before was opened, and is new. -/
theorem new_of_act (hn : IsNumbered b) (h : b.act op = some (b', events)) (hk : b.nextLink ≤ k)
    (hl' : b'.find? k = some l') : .opened k ∈ events ∧ l' = ⟨k, true, true, []⟩ := by
  obtain ⟨answer, hperforms, rfl⟩ := performs_of_act h
  obtain ⟨hmem, hid⟩ := mem_of_find hl'
  rw [links_of_performs hn hperforms] at hmem
  rcases List.mem_append.mp hmem with hmem | hmem
  · obtain ⟨l, hl, rfl⟩ := List.mem_map.mp hmem
    rw [id_turned] at hid
    have hlt := hn.lt_of_find (hn.find_of_mem hl)
    omega
  · obtain ⟨link, hlink, rfl⟩ := List.mem_map.mp hmem
    obtain rfl : link = k := hid
    obtain ⟨e, he, heq⟩ := List.mem_filterMap.mp hlink
    cases e with
    | opened link =>
      obtain rfl := Option.some.inj heq
      exact ⟨List.mem_append_left _ he, rfl⟩
    | _ => cases heq

theorem fared_new (htrace : Untold k (eventsOf trace)) (hst : Untold k st.events)
    (hopened : .opened k ∈ st.events) : Fared k (trace ++ [st]) ⟨k, true, true, []⟩ := by
  have huntold : Untold k (eventsOf (trace ++ [st])) := by
    rw [eventsOf_snoc]
    exact htrace.append hst
  refine ⟨⟨[], Tenure.begin hopened, ?_⟩, ?_, fun _ => ?_, fun _ => rfl, ?_, ?_⟩
  · rw [huntold.bufferedIn]
    rfl
  · simpa using fun hmem => huntold _ hmem rfl
  · rw [huntold.takenFrom, huntold.bufferedIn]
    rfl
  · rw [huntold.takenFrom]
    exact List.nil_prefix
  · exact fun hmem => absurd rfl (huntold _ hmem)

/-! ## Along a run -/

/-- What a run keeps. -/
structure Keeps (trace : Trace) (b : MemoryBus) : Prop where
  numbered : IsNumbered b
  opened : openedIn (eventsOf trace) = List.range b.nextLink
  untold : ∀ k, b.nextLink ≤ k → Untold k (eventsOf trace)
  fared : ∀ k l, b.find? k = some l → Fared k trace l

theorem keeps_start (name : String) : Keeps [] (create name) where
  numbered := rfl
  opened := rfl
  untold := fun _ _ _ he => nomatch he
  fared := fun _ _ hl => nomatch hl

theorem keeps_step (h : Keeps trace b) (hact : b.act op = some (b', events)) :
    Keeps (trace ++ [⟨b, op, events⟩]) b' := by
  have hrange := range_of_act hact
  have hle : b.nextLink ≤ b'.nextLink := by
    have hlength := congrArg List.length hrange
    simp only [List.length_append, List.length_range] at hlength
    omega
  refine ⟨isNumbered_of_act h.numbered hact, ?_, fun k hk => ?_, fun k l' hl' => ?_⟩
  · rw [eventsOf_snoc, openedIn, List.filterMap_append, hrange, ← h.opened]
  · rw [eventsOf_snoc]
    exact (h.untold k (by omega)).append (untold_of_act h.numbered hact (by omega))
  · by_cases hk : k < b.nextLink
    · obtain ⟨l, hl⟩ := h.numbered.find_of_lt hk
      obtain ⟨l₁, hl₁, hturn⟩ := turn_of_act h.numbered hl hact
      obtain rfl := Option.some.inj (hl'.symm.trans hl₁)
      exact fared_step (h.fared k l hl) hturn
    · have hk : b.nextLink ≤ k := by omega
      obtain ⟨hopened, rfl⟩ := new_of_act h.numbered hact hk hl'
      exact fared_new (h.untold k hk) (untold_of_act h.numbered hact hk) hopened

theorem keeps_of_run {name : String} (h : Run act (create name) trace b) : Keeps trace b := by
  induction h with
  | start => exact keeps_start name
  | move _ hact ih => exact keeps_step ih hact

/-! ## Attempts to open -/

/-- What happened at each attempt to open. -/
def attempts (trace : Trace) : List (List Event) :=
  trace.filterMap fun st => if st.move = .openLink then some st.events else none

theorem attempts_snoc (trace : Trace) (st : Stage MemoryBus Operation Event) :
    attempts (trace ++ [st])
      = attempts trace ++ if st.move = .openLink then [st.events] else [] := by
  rw [attempts, List.filterMap_append, ← attempts]
  by_cases hmove : st.move = .openLink <;> simp [hmove]

/-- An attempt to open. -/
theorem opening_of_act (hn : IsNumbered b) (h : b.act .openLink = some (b', events)) :
    (b.failingOpens = 0 ∧ b'.failingOpens = 0 ∧ ∃ link, .opened link ∈ events) ∨
      (b.failingOpens = b'.failingOpens + 1 ∧ ∃ e, events = [.refused e]) := by
  obtain ⟨answer, hperforms, rfl⟩ := performs_of_act h
  cases hperforms with
  | opened hfailing => exact .inl ⟨hfailing, hfailing, b.nextLink, by simp⟩
  | refused hfailing =>
    refine .inr ⟨hfailing, .transport ("memory bus " ++ b.name ++ " refused link"), ?_⟩
    exact List.append_right_eq_self.mpr (changes_of_links_eq hn rfl)

/-- Nothing else changes how many attempts are made to fail. -/
theorem failingOpens_of_act (h : b.act op = some (b', events)) (hop : op ≠ .openLink)
    (hscript : ∀ n, op ≠ .failNextOpens n) : b'.failingOpens = b.failingOpens := by
  obtain ⟨answer, hperforms, rfl⟩ := performs_of_act h
  cases hperforms with
  | opened | refused => exact absurd rfl hop
  | scripted n => exact absurd rfl (hscript n)
  | disconnectedOldest =>
    unfold disconnectOldest
    split <;> rfl
  | _ => rfl

/-- As long as nothing else is scripted, as many attempts to open fail as were made to, and all
attempts after them succeed. -/
theorem scripted_of_run (hn : IsNumbered b) (h : Run act b trace b')
    (hscript : ∀ st ∈ trace, ∀ n, st.move ≠ .failNextOpens n) :
    IsNumbered b' ∧ b'.failingOpens = b.failingOpens - (attempts trace).length ∧
      (∀ events ∈ (attempts trace).take b.failingOpens, ∃ e, events = [.refused e]) ∧
      ∀ events ∈ (attempts trace).drop b.failingOpens, ∃ link, .opened link ∈ events := by
  induction h with
  | start => exact ⟨hn, rfl, by simp [attempts], by simp [attempts]⟩
  | @move trace b₁ b₂ op events _ hact ih =>
    obtain ⟨hn₁, hfailing, hrefused, hopened⟩ :=
      ih fun st hst => hscript st (List.mem_append_left _ hst)
    have hscript₁ : ∀ n, op ≠ .failNextOpens n := hscript ⟨b₁, op, events⟩ (by simp)
    refine ⟨isNumbered_of_act hn₁ hact, ?_⟩
    rw [attempts_snoc]
    by_cases hop : op = .openLink
    · subst hop
      rw [if_pos rfl, List.length_append, List.length_singleton, List.take_append,
        List.drop_append]
      rcases opening_of_act hn₁ hact with ⟨hzero, hzero', hlink⟩ | ⟨hsucc, hrefusal⟩
      · have hover : b.failingOpens - (attempts trace).length = 0 := by omega
        refine ⟨by omega, ?_, ?_⟩
        · simpa [hover] using hrefused
        · simpa [hover, or_imp, forall_and] using ⟨hopened, hlink⟩
      · obtain ⟨n, hn⟩ : ∃ n, b.failingOpens - (attempts trace).length = n + 1 :=
          ⟨_, hfailing.symm.trans hsucc⟩
        refine ⟨by omega, ?_, ?_⟩
        · simpa [hn, or_imp, forall_and] using ⟨hrefused, hrefusal⟩
        · simpa [hn] using hopened
    · rw [if_neg hop, List.append_nil, failingOpens_of_act hact hop hscript₁]
      exact ⟨hfailing, hrefused, hopened⟩

/-! ## What a severed link still has -/

/-- Taking from a link happens to no other. -/
theorem changes_receive (hn : IsNumbered b) (hl : b.find? k = some l) {body : String}
    {rest : List String} (hbuffer : l.buffer = body :: rest) :
    b.changes (b.modify k fun l => { l with buffer := rest }) = [] := by
  apply changes_eq_nil
  intro l₀ hl₀
  refine ⟨_, by rw [find_modify_buffer, hn.find_of_mem hl₀, Option.map_some], ?_⟩
  split
  · next hid =>
    rw [← hid, hn.find_of_mem hl₀] at hl
    obtain rfl := Option.some.inj hl
    simp [MemoryLink.gained?, MemoryLink.isCut, hbuffer]
  · exact ⟨l₀.gained_self, l₀.isCut_self⟩

/-- The receiver of a severed link gets everything that is buffered, and then sees the end. -/
theorem drains (hn : IsNumbered b) (hl : b.find? k = some l) (hlistening : l.listening = true)
    (hattached : l.attached = false) :
    ∃ rest b', Run act b rest b' ∧ (∀ st ∈ rest, st.move = .receive k) ∧
      eventsOf rest = l.buffer.map (.took k) ++ [.ended k] := by
  generalize hbuffer : l.buffer = buffer
  induction buffer generalizing b l with
  | nil =>
    have hact : b.act (.receive k) = some (b, [.ended k]) := by
      simp [act, perform, hl, hlistening, receive, hbuffer, hattached, changes_of_links_eq hn]
    exact ⟨_, b, Run.start.move hact, by simp, by simp [eventsOf]⟩
  | cons body buffer ih =>
    have hact : b.act (.receive k)
        = some (b.modify k fun l => { l with buffer := buffer }, [.took k body]) := by
      simp [act, perform, hl, hlistening, receive, hbuffer, changes_receive hn hl hbuffer]
    have hl' : (b.modify k fun l => { l with buffer := buffer }).find? k
        = some { l with buffer := buffer } := by
      rw [find_modify_buffer, hl, Option.map_some, if_pos (mem_of_find hl).2]
    obtain ⟨rest, b', hrun, hmoves, hevents⟩ :=
      ih (isNumbered_of_act hn hact) hl' hlistening hattached rfl
    refine ⟨_, b', (Run.start.move hact).append hrun, ?_, ?_⟩
    · simpa using hmoves
    · rw [eventsOf_append, hevents]
      simp [eventsOf]

/-! ## What a run comes to -/

/-- What a run of a bus comes to. -/
structure Serves (trace : Trace) (b : MemoryBus) : Prop where
  /-- The links are those that were opened, numbered in that order. -/
  opened : b.links.map (·.id) = openedIn (eventsOf trace) ∧
    openedIn (eventsOf trace) = List.range (openedIn (eventsOf trace)).length
  /-- A link buffers what is sent while it lasts: after it was opened and before it is severed. -/
  buffered : ∀ k, .opened k ∈ eventsOf trace →
    ∃ during, Tenure (Opens k) (Cuts k) (decide (.severed k ∉ eventsOf trace)) trace during ∧
      bufferedIn k (eventsOf trace) = sentIn (eventsOf during)
  /-- A link is severed where there is a cause, and nowhere else. -/
  severed : ∀ st ∈ trace, ∀ k, .severed k ∈ st.events ↔ st.before.Severs st.move k
  /-- Sending succeeds until the link is severed; from then on it fails and nothing else happens. -/
  sent : ∀ earlier st later link body, trace = earlier ++ st :: later →
    st.move = .send link body →
      if .severed link ∈ eventsOf earlier then st.events = [.unsent MemoryBus.severed]
      else .sent body ∈ st.events
  /-- What is taken from a link is what it buffered, from the first on. -/
  taken : ∀ k l, b.find? k = some l →
    takenFrom k (eventsOf trace) <+: bufferedIn k (eventsOf trace) ∧
      (l.listening = true →
        takenFrom k (eventsOf trace) ++ l.buffer = bufferedIn k (eventsOf trace))
  /-- A receiver sees the end of a link that was severed, and has taken everything by then. -/
  ended : ∀ k, .ended k ∈ eventsOf trace →
    .severed k ∈ eventsOf trace ∧ takenFrom k (eventsOf trace) = bufferedIn k (eventsOf trace)
  /-- The receiver of a severed link can take everything that is left, and then sees the end. -/
  drained : ∀ k l, b.find? k = some l → l.listening = true → .severed k ∈ eventsOf trace →
    ∃ rest b', Run act b rest b' ∧ (∀ st ∈ rest, st.move = .receive k) ∧
      eventsOf rest = l.buffer.map (.took k) ++ [.ended k]
  /-- Of the attempts to open after `failNextOpens n`, the first `n` fail and nothing else happens,
  and all others open a link. -/
  scripted : ∀ earlier st later n, trace = earlier ++ st :: later → st.move = .failNextOpens n →
    (∀ st' ∈ later, ∀ m, st'.move ≠ .failNextOpens m) →
      (∀ events ∈ (attempts later).take n, ∃ e, events = [.refused e]) ∧
        ∀ events ∈ (attempts later).drop n, ∃ link, .opened link ∈ events
  /-- The links that are counted were opened and are not severed. -/
  counted : b.linkCount
    = (openedIn (eventsOf trace)).countP fun k => decide (.severed k ∉ eventsOf trace)

theorem opened_mem_iff : .opened k ∈ events ↔ k ∈ openedIn events := by
  rw [List.mem_filterMap]
  constructor
  · intro hopened
    exact ⟨_, hopened, rfl⟩
  · intro hread
    obtain ⟨e, he, hopened⟩ := hread
    cases e with
    | opened link =>
      obtain rfl := Option.some.inj hopened
      exact he
    | _ => cases hopened

namespace Keeps

/-- A link was opened just when it is there. -/
theorem find_of_opened (h : Keeps trace b) (hk : .opened k ∈ eventsOf trace) :
    ∃ l, b.find? k = some l := by
  rw [opened_mem_iff, h.opened, List.mem_range] at hk
  exact h.numbered.find_of_lt hk

theorem attached_eq (h : Keeps trace b) (hl : b.find? k = some l) :
    l.attached = decide (.severed k ∉ eventsOf trace) := by
  rw [Bool.eq_iff_iff, decide_eq_true_iff, (h.fared k l hl).severed]
  simp

theorem linkCount_eq (h : Keeps trace b) : b.linkCount
    = (openedIn (eventsOf trace)).countP fun k => decide (.severed k ∉ eventsOf trace) := by
  rw [linkCount, h.opened, ← h.numbered, List.countP_map]
  apply List.countP_congr
  intro l hl
  rw [h.attached_eq (h.numbered.find_of_mem hl)]
  rfl

/-- Sending succeeds just when the link was not severed before. -/
theorem sends (h : Keeps trace b) {link : Nat} {body : String}
    (hact : b.act (.send link body) = some (b', events)) :
    if .severed link ∈ eventsOf trace then events = [.unsent MemoryBus.severed]
    else .sent body ∈ events := by
  obtain ⟨answer, hperforms, rfl⟩ := performs_of_act hact
  cases hperforms with
  | @sent _ l _ hl hattached =>
    rw [h.numbered.isAttached_eq hl, h.attached_eq hl, decide_eq_true_iff] at hattached
    simp [hattached]
  | @unsent _ l _ hl hcut =>
    rw [h.numbered.isAttached_eq hl, h.attached_eq hl, decide_eq_false_iff_not, not_not] at hcut
    rw [if_pos hcut, changes_of_links_eq h.numbered rfl, List.append_nil]

end Keeps

/-- Whatever is done on a bus, every link is served alike. -/
theorem serves_of_run {name : String} (h : Run act (create name) trace b) : Serves trace b := by
  have hkeeps := keeps_of_run h
  refine ⟨?_, ?_, ?_, ?_, ?_, ?_, ?_, ?_, hkeeps.linkCount_eq⟩
  · rw [hkeeps.opened, List.length_range]
    exact ⟨hkeeps.numbered, rfl⟩
  · intro k hk
    obtain ⟨l, hl⟩ := hkeeps.find_of_opened hk
    rw [← hkeeps.attached_eq hl]
    exact (hkeeps.fared k l hl).served
  · intro st hst k
    obtain ⟨⟨earlier, -, hrun⟩, s', hact⟩ := h.stage_reached hst
    exact severed_mem_iff (keeps_of_run hrun).numbered hact
  · intro earlier st later link body hsplit hmove
    obtain ⟨hrun, s', hact⟩ := h.split hsplit
    rw [hmove] at hact
    exact (keeps_of_run hrun).sends hact
  · intro k l hl
    exact ⟨(hkeeps.fared k l hl).taken, (hkeeps.fared k l hl).flows⟩
  · intro k hended
    have hk : k < b.nextLink := by
      by_contra hk
      exact hkeeps.untold k (by omega) _ hended rfl
    obtain ⟨l, hl⟩ := hkeeps.numbered.find_of_lt hk
    have hfared := hkeeps.fared k l hl
    obtain ⟨hattached, heq⟩ := hfared.ended hended
    exact ⟨hfared.severed.mpr hattached, heq⟩
  · intro k l hl hlistening hsevered
    exact drains hkeeps.numbered hl hlistening ((hkeeps.fared k l hl).severed.mp hsevered)
  · intro earlier st later n hsplit hmove hscript
    obtain ⟨hrun, s', hact⟩ := h.split hsplit
    rw [hsplit, ← List.singleton_append, ← List.append_assoc] at h
    obtain ⟨s₁, hrun₁, hrun₂⟩ := h.of_append
    obtain ⟨-, hact₁⟩ := hrun₁.of_snoc
    have hfailing : s₁.failingOpens = n := by
      rw [hmove] at hact₁
      obtain ⟨answer, hperforms, -⟩ := performs_of_act hact₁
      cases hperforms with
      | scripted => rfl
    have hscripted := scripted_of_run (keeps_of_run hrun₁).numbered hrun₂ hscript
    rw [hfailing] at hscripted
    exact hscripted.2.2

/-- Of two links one is given up and is severed by the next body, which the other one buffers; that
one is the oldest then, and after a refused attempt to open it is severed, and drained. -/
theorem serves_two_links :
    ∃ trace b, Run act (create "spare") trace b ∧ Serves trace b ∧
      trace.map (·.move) = [.openLink, .openLink, .drop 1, .send 0 "tea", .failNextOpens 1,
        .openLink, .disconnectOldest, .send 0 "milk", .receive 0, .receive 0] ∧
      eventsOf trace = [.opened 0, .opened 1, .sent "tea", .buffered 0 "tea", .severed 1,
        .refused (.transport "memory bus spare refused link"), .severed 0, .unsent severed,
        .took 0 "tea", .ended 0] := by
  have hstart : Run act (create "spare") [] (create "spare") := .start
  have hrun :=
    (((((((((hstart.move (m := .openLink) rfl).move (m := .openLink) rfl).move (m := .drop 1)
      rfl).move (m := .send 0 "tea") rfl).move (m := .failNextOpens 1) rfl).move
      (m := .openLink) rfl).move (m := .disconnectOldest) rfl).move (m := .send 0 "milk")
      rfl).move (m := .receive 0) rfl).move (m := .receive 0) rfl
  exact ⟨_, _, hrun, serves_of_run hrun, rfl, rfl⟩

end MemoryBus

end MessageBus
