import MessageBus.Link.MemoryBus
import MessageBus.Proofs.Run

/-! # A bus in memory, one link at a time

    Links are opened on a bus, bodies are sent from them and taken from them, and
    the bus severs links.  What an operation does to a link is seen on the link
    alone: it may be given the body that was sent, severed, or left as it is.
    `MemoryBus.Turn` lists that, and everything said about a run of a bus is
    proved of one turn of one link.

    * `act`: what can be done on a bus, with what it made happen.
    * `Severs`: what severs a link.
    * `performs_of_perform`: what an operation leads to.
    * `turn_of_act`, `severed_mem_iff`: what it does to each of the links. -/

namespace MessageBus

/-- The body that was put into the buffer of a link. -/
def MemoryLink.gained? (l l' : MemoryLink) : Option String := l'.buffer[l.buffer.length]?

/-- Whether a link was severed. -/
def MemoryLink.isCut (l l' : MemoryLink) : Bool := l.attached && !l'.attached

@[simp] theorem MemoryLink.gained_self (l : MemoryLink) : l.gained? l = none := by
  simp [gained?]

@[simp] theorem MemoryLink.isCut_self (l : MemoryLink) : l.isCut l = false := by
  simp [isCut]

namespace MemoryBus

/-! ## Links that are looked up -/

variable {b b' : MemoryBus} {id link : Nat} {l : MemoryLink} {body : String} {e : BusError}

theorem mem_of_find (h : b.find? id = some l) : l ∈ b.links ∧ l.id = id :=
  ⟨List.mem_of_find?_eq_some h, by simpa using List.find?_some h⟩

theorem isAttached_of_find (h : b.find? id = some l) (hl : l.attached = true) :
    b.isAttached id = true := by
  obtain ⟨hmem, rfl⟩ := mem_of_find h
  exact List.any_eq_true.mpr ⟨l, hmem, by simp [hl]⟩

/-- A change of all links that keeps their numbers is seen on the link that is looked up. -/
theorem find_map {change : MemoryLink → MemoryLink} (hid : ∀ l, (change l).id = l.id) (id : Nat) :
    { b with links := b.links.map change }.find? id = (b.find? id).map change := by
  unfold find?
  rw [List.find?_map]
  simp only [Function.comp_def, hid]

/-- A change of one buffer is seen there and nowhere else. -/
theorem find_modify_buffer (id k : Nat) (rest : List String) :
    (b.modify id fun l => { l with buffer := rest }).find? k
      = (b.find? k).map fun l => if l.id = id then { l with buffer := rest } else l := by
  refine find_map (fun l => ?_) k
  split <;> rfl

theorem id_offer (l : MemoryLink) : (offer body l).id = l.id := by
  unfold offer
  split <;> try split
  all_goals rfl

theorem listening_offer (l : MemoryLink) : (offer body l).listening = l.listening := by
  unfold offer
  split <;> try split
  all_goals rfl

/-- No body attaches a link that was cut off. -/
theorem attached_of_offer (h : (offer body l).attached = true) : l.attached = true := by
  unfold offer at h
  split at h
  · exact h
  · next hl => simpa using hl

/-- A link that is listened to and that a body does not cut off has buffered the body. -/
theorem offer_of_attached (hl : l.listening = true) (h : (offer body l).attached = true) :
    offer body l = { l with buffer := l.buffer ++ [body] } := by
  have hattached := attached_of_offer h
  unfold offer at h ⊢
  by_cases hroom : l.buffer.length < linkBuffer <;> simp_all

theorem of_openLink (h : b.openLink = (.ok link, b')) :
    link = b.nextLink ∧ b'.links = b.links ++ [⟨link, true, true, []⟩] ∧
      b'.nextLink = link + 1 := by
  simp only [openLink] at h
  split at h
  · cases h
  · cases h
    exact ⟨rfl, rfl, rfl⟩

theorem of_openLink_error (h : b.openLink = (.error e, b')) :
    b'.links = b.links ∧ b'.nextLink = b.nextLink := by
  simp only [openLink] at h
  split at h
  · cases h
    exact ⟨rfl, rfl⟩
  · cases h

theorem find_openLink_of_ne (h : b.openLink = (.ok link, b')) (hne : id ≠ link) :
    b'.find? id = b.find? id := by
  rw [find?, (of_openLink h).2.1, List.find?_append, ← find?]
  simp [hne.symm]

/-- A new link has nothing in its buffer. -/
theorem find_openLink_self (h : b.openLink = (.ok link, b'))
    (hused : ∀ l ∈ b.links, l.id < b.nextLink) :
    b'.find? link = some ⟨link, true, true, []⟩ := by
  obtain ⟨rfl, hlinks, -⟩ := of_openLink h
  rw [find?, hlinks, List.find?_append, List.find?_eq_none.mpr]
  · simp
  · intro l hl
    have hlt := hused l hl
    simp only [beq_iff_eq]
    omega

/-! ## Operations -/

/-- What is done on a bus. -/
inductive Operation where
  | openLink
  | send (link : Nat) (body : String)
  /-- The next body of a link is taken. -/
  | receive (link : Nat)
  /-- Nobody takes from a link any more. -/
  | drop (link : Nat)
  | disconnectOldest
  | disconnectAll
  /-- The next attempts to open are made to fail. -/
  | failNextOpens (n : Nat)
  deriving DecidableEq, Repr

/-- What an operation made happen. -/
inductive Event where
  | opened (link : Nat)
  | refused (e : BusError)
  | sent (body : String)
  /-- Sending failed. -/
  | unsent (e : BusError)
  | took (link : Nat) (body : String)
  /-- Taking failed. -/
  | ended (link : Nat)
  /-- A body was put into the buffer of a link. -/
  | buffered (link : Nat) (body : String)
  | severed (link : Nat)
  deriving DecidableEq, Repr

/-- The link that was opened. -/
@[simp] def Event.opened? : Event → Option Nat
  | .opened link => some link
  | _ => none

/-- The body that was sent. -/
@[simp] def Event.sent? : Event → Option String
  | .sent body => some body
  | _ => none

/-- The body that was put into the buffer of a link. -/
@[simp] def Event.buffered? (k : Nat) : Event → Option String
  | .buffered link body => if link = k then some body else none
  | _ => none

/-- The body that was taken from a link. -/
@[simp] def Event.taken? (k : Nat) : Event → Option String
  | .took link body => if link = k then some body else none
  | _ => none

/-- The links that were opened. -/
abbrev openedIn (events : List Event) : List Nat := events.filterMap Event.opened?

/-- The bodies that were sent. -/
abbrev sentIn (events : List Event) : List String := events.filterMap Event.sent?

/-- The bodies that were put into the buffer of a link. -/
abbrev bufferedIn (k : Nat) (events : List Event) : List String :=
  events.filterMap (Event.buffered? k)

/-- The bodies that were taken from a link. -/
abbrev takenFrom (k : Nat) (events : List Event) : List String :=
  events.filterMap (Event.taken? k)

/-- The bus after an operation, with what that returned; `none` where there is no link, or no
receiver of it any more. -/
def perform (b : MemoryBus) : Operation → Option (MemoryBus × List Event)
  | .openLink =>
    match b.openLink with
    | (.ok link, b) => some (b, [.opened link])
    | (.error e, b) => some (b, [.refused e])
  | .send link body =>
    if (b.find? link).isSome then
      match b.send link body with
      | (.ok _, b) => some (b, [.sent body])
      | (.error e, b) => some (b, [.unsent e])
    else none
  | .receive link =>
    if (b.find? link).any (·.listening) then
      match b.receive link with
      | (.body body, b) => some (b, [.took link body])
      | (.severed, b) => some (b, [.ended link])
      | (.waiting, b) => some (b, [])
    else none
  | .drop link => if (b.find? link).any (·.listening) then some (b.drop link, []) else none
  | .disconnectOldest => some (b.disconnectOldest, [])
  | .disconnectAll => some (b.disconnectAll, [])
  | .failNextOpens n => some (b.failNextOpens n, [])

/-- What happened to the links of a bus, link by link. -/
def changes (b b' : MemoryBus) : List Event :=
  b.links.filterMap (fun l => ((b'.find? l.id).bind l.gained?).map (.buffered l.id)) ++
    b.links.filterMap fun l =>
      if (b'.find? l.id).any l.isCut then some (.severed l.id) else none

/-- The bus after an operation, with all that it made happen. -/
def act (b : MemoryBus) (op : Operation) : Option (MemoryBus × List Event) :=
  (b.perform op).map fun (b', answer) => (b', answer ++ b.changes b')

/-- A trace of a bus. -/
abbrev Trace := List (Stage MemoryBus Operation Event)

/-- Why an operation severs a link: it disconnects all links, or the oldest and no link that is
attached is older, or it is a send that succeeds and finds no room in the buffer of the link or
nobody taking from it. -/
def HasCause (b : MemoryBus) (op : Operation) (l : MemoryLink) : Prop :=
  match op with
  | .disconnectAll => True
  | .disconnectOldest => ∀ older ∈ b.links, older.attached = true → l.id ≤ older.id
  | .send sender _ => b.isAttached sender = true ∧ (256 ≤ l.buffer.length ∨ l.listening = false)
  | .openLink | .receive _ | .drop _ | .failNextOpens _ => False

/-- An operation severs a link that is attached when it has a cause to. -/
def Severs (b : MemoryBus) (op : Operation) (k : Nat) : Prop :=
  ∃ l, b.find? k = some l ∧ l.attached = true ∧ b.HasCause op l

/-! ## What an operation leads to -/

/-- The operations that are possible, with the bus after them and what they return. -/
inductive Performs (b : MemoryBus) : Operation → MemoryBus → List Event → Prop where
  | opened :
      b.failingOpens = 0 →
      Performs b .openLink
        { b with opens := b.opens + 1, links := b.links ++ [⟨b.nextLink, true, true, []⟩],
                 nextLink := b.nextLink + 1 }
        [.opened b.nextLink]
  | refused {n : Nat} :
      b.failingOpens = n + 1 →
      Performs b .openLink { b with opens := b.opens + 1, failingOpens := n }
        [.refused (.transport ("memory bus " ++ b.name ++ " refused link"))]
  | sent {link : Nat} {l : MemoryLink} {body : String} :
      b.find? link = some l → b.isAttached link = true →
      Performs b (.send link body) { b with links := b.links.map (offer body) } [.sent body]
  | unsent {link : Nat} {l : MemoryLink} {body : String} :
      b.find? link = some l → b.isAttached link = false →
      Performs b (.send link body) b [.unsent severed]
  | took {link : Nat} {l : MemoryLink} {body : String} {rest : List String} :
      b.find? link = some l → l.listening = true → l.buffer = body :: rest →
      Performs b (.receive link) (b.modify link fun l => { l with buffer := rest })
        [.took link body]
  | ended {link : Nat} {l : MemoryLink} :
      b.find? link = some l → l.listening = true → l.buffer = [] → l.attached = false →
      Performs b (.receive link) b [.ended link]
  | waited {link : Nat} {l : MemoryLink} :
      b.find? link = some l → l.listening = true → l.buffer = [] → l.attached = true →
      Performs b (.receive link) b []
  | dropped {link : Nat} {l : MemoryLink} :
      b.find? link = some l → l.listening = true → Performs b (.drop link) (b.drop link) []
  | disconnectedOldest : Performs b .disconnectOldest b.disconnectOldest []
  | disconnectedAll : Performs b .disconnectAll b.disconnectAll []
  | scripted (n : Nat) : Performs b (.failNextOpens n) (b.failNextOpens n) []

variable {op : Operation} {answer events : List Event}

theorem performs_of_perform (h : b.perform op = some (b', answer)) : Performs b op b' answer := by
  cases op with
  | openLink =>
    cases hfailing : b.failingOpens with
    | zero =>
      simp only [perform, openLink, hfailing] at h
      cases h
      simpa only [hfailing] using Performs.opened hfailing
    | succ n =>
      simp only [perform, openLink, hfailing] at h
      cases h
      exact .refused hfailing
  | send link body =>
    simp only [perform, Option.ite_none_right_eq_some] at h
    obtain ⟨hlink, h⟩ := h
    obtain ⟨l, hl⟩ := Option.isSome_iff_exists.mp hlink
    cases hattached : b.isAttached link with
    | true =>
      simp only [send, hattached, if_true] at h
      cases h
      exact .sent hl hattached
    | false =>
      simp only [send, hattached, Bool.false_eq_true, if_false] at h
      cases h
      exact .unsent hl hattached
  | receive link =>
    simp only [perform, Option.ite_none_right_eq_some] at h
    obtain ⟨hlink, h⟩ := h
    obtain ⟨l, hl, hlistening⟩ := (Option.any_eq_true ..).mp hlink
    cases hbuffer : l.buffer with
    | cons body rest =>
      simp only [receive, hl, hbuffer] at h
      cases h
      exact .took hl hlistening hbuffer
    | nil =>
      cases hattached : l.attached with
      | true =>
        simp only [receive, hl, hbuffer, hattached, if_true] at h
        cases h
        exact .waited hl hlistening hbuffer hattached
      | false =>
        simp only [receive, hl, hbuffer, hattached, Bool.false_eq_true, if_false] at h
        cases h
        exact .ended hl hlistening hbuffer hattached
  | drop link =>
    simp only [perform, Option.ite_none_right_eq_some] at h
    obtain ⟨hlink, h⟩ := h
    obtain ⟨l, hl, hlistening⟩ := (Option.any_eq_true ..).mp hlink
    cases h
    exact .dropped hl hlistening
  | disconnectOldest =>
    cases h
    exact .disconnectedOldest
  | disconnectAll =>
    cases h
    exact .disconnectedAll
  | failNextOpens n =>
    cases h
    exact .scripted n

/-! ## Links by their numbers -/

/-- The links have the numbers that were given out, in that order. -/
def IsNumbered (b : MemoryBus) : Prop := b.links.map (·.id) = List.range b.nextLink

theorem IsNumbered.nodup (h : IsNumbered b) : (b.links.map (·.id)).Nodup := by
  rw [h]
  exact List.nodup_range

theorem IsNumbered.sorted (h : IsNumbered b) : b.links.Pairwise (·.id < ·.id) := by
  rw [← List.pairwise_map, h]
  exact List.pairwise_lt_range

theorem IsNumbered.find_of_mem (h : IsNumbered b) (hl : l ∈ b.links) : b.find? l.id = some l := by
  obtain ⟨front, back, hlinks⟩ := List.append_of_mem hl
  have hsorted := h.sorted
  rw [hlinks] at hsorted
  rw [find?, hlinks, List.find?_append, List.find?_eq_none.mpr]
  · simp
  · intro l' hl'
    have hlt := List.pairwise_append.mp hsorted |>.2.2 l' hl' l (by simp)
    simp only [beq_iff_eq]
    omega

theorem IsNumbered.lt_of_find (h : IsNumbered b) (hl : b.find? id = some l) : id < b.nextLink := by
  obtain ⟨hmem, rfl⟩ := mem_of_find hl
  rw [← List.mem_range, ← h]
  exact List.mem_map_of_mem hmem

theorem IsNumbered.find_of_lt (h : IsNumbered b) (hid : id < b.nextLink) :
    ∃ l, b.find? id = some l := by
  rw [← List.mem_range, ← h] at hid
  obtain ⟨l, hl, rfl⟩ := List.mem_map.mp hid
  exact ⟨l, h.find_of_mem hl⟩

theorem IsNumbered.isAttached_eq (h : IsNumbered b) (hl : b.find? id = some l) :
    b.isAttached id = l.attached := by
  rw [Bool.eq_iff_iff]
  constructor
  · intro hattached
    obtain ⟨l', hl', hid⟩ := List.any_eq_true.mp hattached
    simp only [Bool.and_eq_true, beq_iff_eq] at hid
    obtain ⟨rfl, hattached⟩ := hid
    rw [h.find_of_mem hl'] at hl
    rwa [← Option.some.inj hl]
  · exact isAttached_of_find hl

/-- The first link that is attached is the oldest. -/
theorem IsNumbered.oldest_le {oldest : MemoryLink} (h : IsNumbered b)
    (ho : b.links.find? (·.attached) = some oldest) (hl : l ∈ b.links)
    (hattached : l.attached = true) : oldest.id ≤ l.id := by
  obtain ⟨-, front, back, hlinks, hfront⟩ := List.find?_eq_some_iff_append.mp ho
  have hsorted := h.sorted
  rw [hlinks] at hl hsorted
  rcases List.mem_append.mp hl with hl | hl
  · exact absurd hattached (by simpa using hfront l hl)
  · rcases List.mem_cons.mp hl with rfl | hl
    · exact Nat.le_refl _
    · have hlt := List.rel_of_pairwise_cons (List.pairwise_append.mp hsorted).2.1 hl
      omega

/-! ## What becomes of a link -/

/-- A link after an operation. -/
def turned (b : MemoryBus) (op : Operation) (l : MemoryLink) : MemoryLink :=
  match op with
  | .openLink | .failNextOpens _ => l
  | .send sender body => if b.isAttached sender then offer body l else l
  | .receive link => if l.id = link then { l with buffer := l.buffer.tail } else l
  | .drop link => if l.id = link then { l with listening := false, buffer := [] } else l
  | .disconnectOldest =>
    if (b.links.find? (·.attached)).any (l.id == ·.id) then { l with attached := false } else l
  | .disconnectAll => { l with attached := false }

theorem id_turned (b : MemoryBus) (op : Operation) (l : MemoryLink) :
    (b.turned op l).id = l.id := by
  unfold turned
  split <;> try split
  all_goals first | rfl | exact id_offer l

/-- Where nothing is buffered, receiving leaves the link as it is. -/
theorem turned_empty (hid : l.id = id) (hbuffer : l.buffer = []) :
    b.turned (.receive id) l = l := by
  simp only [turned, hid, hbuffer, if_true, List.tail_nil]
  rw [← hbuffer, ← hid]

theorem next_of_performs (h : Performs b op b' answer) :
    List.range b'.nextLink = List.range b.nextLink ++ openedIn answer := by
  cases h with
  | opened => exact List.range_succ
  | disconnectedOldest =>
    unfold disconnectOldest
    split <;> simp [modify]
  | _ => simp [openedIn, modify, drop, disconnectAll, failNextOpens]

/-- Every link is turned, and an opened one is new. -/
theorem links_of_performs (hn : IsNumbered b) (h : Performs b op b' answer) :
    b'.links = b.links.map (b.turned op) ++ (openedIn answer).map (⟨·, true, true, []⟩) := by
  -- the link of a number is the only one of that number
  have honly : ∀ {k l₀ l}, b.find? k = some l₀ → l ∈ b.links → l.id = k → l = l₀ := by
    intro k l₀ l hl₀ hl hid
    rw [← hid, hn.find_of_mem hl] at hl₀
    exact Option.some.inj hl₀
  cases h with
  | opened =>
    show _ = b.links.map id ++ [_]
    rw [List.map_id]
  | refused | scripted =>
    show b.links = b.links.map id ++ []
    rw [List.map_id, List.append_nil]
  | @sent link l body hl hattached =>
    show b.links.map (offer body) = b.links.map (b.turned _) ++ []
    rw [List.append_nil]
    exact List.map_congr_left fun l _ => by simp [turned, hattached]
  | @unsent link l body hl hattached =>
    show b.links = b.links.map (b.turned _) ++ []
    rw [List.append_nil]
    symm
    calc
      b.links.map (b.turned (.send link body)) = b.links.map id :=
        List.map_congr_left fun l _ => by simp [turned, hattached]
      _ = b.links := List.map_id _
  | @took link l₀ body rest hl₀ hlistening hbuffer =>
    show b.links.map _ = b.links.map (b.turned _) ++ []
    rw [List.append_nil]
    refine List.map_congr_left fun l hl => ?_
    by_cases hid : l.id = link
    · obtain rfl := honly hl₀ hl hid
      simp [turned, hid, hbuffer]
    · simp [turned, hid]
  | @ended link l₀ hl₀ hlistening hbuffer | @waited link l₀ hl₀ hlistening hbuffer =>
    show b.links = b.links.map (b.turned _) ++ []
    rw [List.append_nil]
    symm
    calc
      b.links.map (b.turned (.receive link)) = b.links.map id := by
        refine List.map_congr_left fun l hl => ?_
        by_cases hid : l.id = link
        · obtain rfl := honly hl₀ hl hid
          exact turned_empty hid hbuffer
        · simp [turned, hid]
      _ = b.links := List.map_id _
  | dropped | disconnectedAll =>
    show b.links.map _ = b.links.map _ ++ []
    rw [List.append_nil]
    rfl
  | disconnectedOldest =>
    show _ = b.links.map (b.turned _) ++ []
    rw [List.append_nil]
    unfold disconnectOldest
    split
    · next oldest holdest =>
      refine List.map_congr_left fun l hl => ?_
      simp [turned, holdest]
    · next hnone =>
      symm
      calc
        b.links.map (b.turned .disconnectOldest) = b.links.map id :=
          List.map_congr_left fun l _ => by simp [turned, hnone]
        _ = b.links := List.map_id _

/-- The next numbers are given to the links that are opened. -/
theorem isNumbered_of_performs (hn : IsNumbered b) (h : Performs b op b' answer) :
    IsNumbered b' := by
  rw [IsNumbered, links_of_performs hn h, next_of_performs h, ← hn]
  simp [Function.comp_def, id_turned]

theorem find_of_performs (hn : IsNumbered b) (h : Performs b op b' answer)
    (hl : b.find? id = some l) : b'.find? id = some (b.turned op l) := by
  rw [find?, links_of_performs hn h, List.find?_append,
    show (b.links.map (b.turned op)).find? (·.id == id) = some (b.turned op l) from ?_]
  · rfl
  · show { b with links := b.links.map (b.turned op) }.find? id = _
    rw [find_map (id_turned b op), hl, Option.map_some]

/-! ## What is seen on a link -/

theorem isCut_offer (hattached : l.attached = true) :
    l.isCut (offer body l) = true ↔ 256 ≤ l.buffer.length ∨ l.listening = false := by
  by_cases hroom : l.buffer.length < 256 <;> cases hlistening : l.listening <;>
    simp [MemoryLink.isCut, offer, linkBuffer, *]
  omega

/-- The links that an operation cuts off are those that it severs. -/
theorem isCut_turned (hn : IsNumbered b) (hl : b.find? id = some l) :
    l.isCut (b.turned op l) = true ↔ b.Severs op id := by
  obtain ⟨hmem, hid⟩ := mem_of_find hl
  have hsevers : b.Severs op id ↔ l.attached = true ∧ b.HasCause op l := by
    simp only [Severs, hl, Option.some.injEq, exists_eq_left']
  rw [hsevers]
  cases hattached : l.attached with
  | false => simp [MemoryLink.isCut, hattached]
  | true =>
    cases op with
    | openLink | failNextOpens n => simp [turned, MemoryLink.isCut, HasCause]
    | receive link | drop link =>
      simp only [turned, HasCause]
      split <;> simp [MemoryLink.isCut]
    | send sender body =>
      cases hsender : b.isAttached sender with
      | true => simp [turned, hsender, isCut_offer hattached, HasCause]
      | false => simp [turned, hsender, MemoryLink.isCut, HasCause]
    | disconnectAll => simp [turned, MemoryLink.isCut, hattached, HasCause]
    | disconnectOldest =>
      obtain ⟨oldest, holdest⟩ : ∃ oldest, b.links.find? (·.attached) = some oldest :=
        Option.isSome_iff_exists.mp (List.find?_isSome.mpr ⟨l, hmem, hattached⟩)
      -- no link that is attached is older, so what it cuts off is the link with that cause
      have hleast := fun l' => hn.oldest_le (l := l') holdest
      have hoattached : oldest.attached = true := by simpa using List.find?_some holdest
      have homem := List.mem_of_find?_eq_some holdest
      simp only [turned, holdest, Option.any_some, beq_iff_eq, HasCause, true_and]
      constructor
      · intro hcut l' hl' hattached'
        split at hcut
        · next heq =>
          rw [heq]
          exact hleast l' hl' hattached'
        · simp [MemoryLink.isCut] at hcut
      · intro hfirst
        have heq : l.id = oldest.id :=
          Nat.le_antisymm (hfirst oldest homem hoattached) (hleast l hmem hattached)
        simp [heq, MemoryLink.isCut, hattached]

theorem mem_changes {event : Event} (h : event ∈ b.changes b') :
    ∃ l ∈ b.links, (∃ body, event = .buffered l.id body) ∨ event = .severed l.id := by
  rcases List.mem_append.mp h with h | h
  · obtain ⟨l, hl, hgained⟩ := List.mem_filterMap.mp h
    obtain ⟨body, -, rfl⟩ := Option.map_eq_some_iff.mp hgained
    exact ⟨l, hl, .inl ⟨body, rfl⟩⟩
  · obtain ⟨l, hl, hcut⟩ := List.mem_filterMap.mp h
    obtain ⟨-, hcut⟩ := Option.ite_none_right_eq_some.mp hcut
    exact ⟨l, hl, .inr (Option.some.inj hcut).symm⟩

/-- What happens to the links is nothing that is read off the answer. -/
theorem filterMap_changes {α : Type} {read? : Event → Option α}
    (hbuffered : ∀ k body, read? (.buffered k body) = none)
    (hsevered : ∀ k, read? (.severed k) = none) : (b.changes b').filterMap read? = [] := by
  apply List.filterMap_eq_nil_iff.mpr
  intro event hevent
  obtain ⟨l, -, ⟨body, rfl⟩ | rfl⟩ := mem_changes hevent
  · exact hbuffered l.id body
  · exact hsevered l.id

/-- Where no link gains a body or is cut off, nothing happens to the links. -/
theorem changes_eq_nil (h : ∀ l ∈ b.links, ∃ l', b'.find? l.id = some l' ∧ l.gained? l' = none ∧
    l.isCut l' = false) : b.changes b' = [] := by
  rw [changes, List.append_eq_nil_iff, List.filterMap_eq_nil_iff, List.filterMap_eq_nil_iff]
  constructor
  · intro l hl
    obtain ⟨l', hl', hgained, -⟩ := h l hl
    rw [hl', Option.bind_some, hgained, Option.map_none]
  · intro l hl
    obtain ⟨l', hl', -, hcut⟩ := h l hl
    rw [hl', Option.any_some, hcut, if_neg Bool.false_ne_true]

theorem changes_of_links_eq (hn : IsNumbered b) (h : b'.links = b.links) : b.changes b' = [] := by
  apply changes_eq_nil
  intro l hl
  refine ⟨l, ?_, l.gained_self, l.isCut_self⟩
  rw [find?, h]
  exact hn.find_of_mem hl

theorem bufferedIn_changes {l' : MemoryLink} (hn : IsNumbered b) (hl : b.find? id = some l)
    (hl' : b'.find? id = some l') : bufferedIn id (b.changes b') = (l.gained? l').toList := by
  obtain ⟨hmem, rfl⟩ := mem_of_find hl
  have hcuts : (b.links.filterMap fun k =>
      if (b'.find? k.id).any k.isCut then some (Event.severed k.id) else none).filterMap
        (Event.buffered? l.id) = [] := by
    rw [List.filterMap_filterMap]
    apply List.filterMap_eq_nil_iff.mpr
    intro k _
    split <;> rfl
  rw [bufferedIn, changes, List.filterMap_append, hcuts, List.append_nil, List.filterMap_filterMap,
    filterMap_eq_of_nodup hn.nodup hmem]
  · rw [hl', Option.bind_some]
    cases l.gained? l' <;> simp
  · intro k hk
    cases (b'.find? k.id).bind k.gained? <;> simp [hk]

theorem severed_mem_changes {l' : MemoryLink} (hn : IsNumbered b) (hl : b.find? id = some l)
    (hl' : b'.find? id = some l') : .severed id ∈ b.changes b' ↔ l.isCut l' = true := by
  obtain ⟨hmem, rfl⟩ := mem_of_find hl
  constructor
  · intro h
    rcases List.mem_append.mp h with h | h
    · obtain ⟨k, -, hgained⟩ := List.mem_filterMap.mp h
      obtain ⟨body, -, heq⟩ := Option.map_eq_some_iff.mp hgained
      cases heq
    · obtain ⟨k, hk, hcut⟩ := List.mem_filterMap.mp h
      obtain ⟨hcut, heq⟩ := Option.ite_none_right_eq_some.mp hcut
      have hid : k.id = l.id := by simpa using heq
      rw [hid, hl'] at hcut
      rw [← hid, hn.find_of_mem hk] at hl
      rw [← Option.some.inj hl]
      simpa using hcut
  · intro hcut
    refine List.mem_append_right _ (List.mem_filterMap.mpr ⟨l, hmem, ?_⟩)
    simp [hl', hcut]

/-- What an operation does to a link, with the bodies that are sent, those that the link buffers and
those that are taken from it, whether it is severed, and whether its end is seen. -/
inductive Turn (l : MemoryLink) :
    (sent gained taken : List String) → (cut ended : Bool) → MemoryLink → Prop where
  | idle : Turn l [] [] [] false false l
  /-- A severed link gets nothing. -/
  | passed {body : String} : l.attached = false → Turn l [body] [] [] false false l
  | given {body : String} :
      l.attached = true → l.listening = true →
      Turn l [body] [body] [] false false { l with buffer := l.buffer ++ [body] }
  /-- A body that severs the link does not reach it. -/
  | severed {sent : List String} :
      l.attached = true → Turn l sent [] [] true false { l with attached := false }
  | yielded {body : String} {rest : List String} :
      l.listening = true → l.buffer = body :: rest →
      Turn l [] [] [body] false false { l with buffer := rest }
  | ended :
      l.listening = true → l.attached = false → l.buffer = [] → Turn l [] [] [] false true l
  | givenUp : Turn l [] [] [] false false { l with listening := false, buffer := [] }

/-- Cutting a link off takes nothing from it. -/
theorem turn_cut (l : MemoryLink) :
    Turn l [] [] [] l.attached false { l with attached := false } := by
  cases hattached : l.attached with
  | true => exact .severed hattached
  | false =>
    obtain ⟨id, attached, listening, buffer⟩ := l
    cases hattached
    exact .idle

theorem turn_offer (body : String) (l : MemoryLink) :
    Turn l [body] (l.gained? (offer body l)).toList [] (l.isCut (offer body l)) false
      (offer body l) := by
  unfold offer
  split
  · next hattached =>
    simpa using Turn.passed (by simpa using hattached)
  · next hattached =>
    simp only [Bool.not_eq_true', Bool.not_eq_false] at hattached
    split
    · next hroom =>
      simp only [Bool.and_eq_true] at hroom
      simpa [MemoryLink.gained?, MemoryLink.isCut] using Turn.given hattached hroom.1
    · simpa [MemoryLink.gained?, MemoryLink.isCut, hattached] using Turn.severed hattached

/-- Every operation turns every link, and what it made happen tells how. -/
theorem turn_of_performs (hl : b.find? id = some l) (h : Performs b op b' answer) :
    Turn l (sentIn answer) (l.gained? (b.turned op l)).toList (takenFrom id answer)
      (l.isCut (b.turned op l)) (decide (.ended id ∈ answer)) (b.turned op l) := by
  obtain ⟨hmem, hid⟩ := mem_of_find hl
  cases h with
  | opened | refused | scripted =>
    simpa [turned, sentIn, takenFrom, List.filterMap_cons] using Turn.idle
  | @sent sender _ body _ hattached =>
    simpa [turned, hattached, sentIn, takenFrom, List.filterMap_cons] using turn_offer body l
  | unsent _ hattached =>
    simpa [turned, hattached, sentIn, takenFrom, List.filterMap_cons] using Turn.idle
  | @took link l₀ body rest hl₀ hlistening hbuffer =>
    by_cases hlink : id = link
    · subst hlink
      obtain rfl := Option.some.inj (hl.symm.trans hl₀)
      simpa [turned, hid, hbuffer, sentIn, takenFrom, List.filterMap_cons, MemoryLink.gained?,
        MemoryLink.isCut] using Turn.yielded hlistening hbuffer
    · simpa [turned, hid, hlink, Ne.symm hlink, sentIn, takenFrom, List.filterMap_cons] using
        Turn.idle
  | @ended link l₀ hl₀ hlistening hbuffer hattached =>
    by_cases hlink : id = link
    · subst hlink
      obtain rfl := Option.some.inj (hl.symm.trans hl₀)
      rw [turned_empty hid hbuffer]
      simpa [sentIn, takenFrom, List.filterMap_cons] using
        Turn.ended hlistening hattached hbuffer
    · simpa [turned, hid, hlink, sentIn, takenFrom, List.filterMap_cons] using Turn.idle
  | @waited link l₀ hl₀ hlistening hbuffer hattached =>
    by_cases hlink : id = link
    · subst hlink
      obtain rfl := Option.some.inj (hl.symm.trans hl₀)
      rw [turned_empty hid hbuffer]
      simpa [sentIn, takenFrom] using Turn.idle
    · simpa [turned, hid, hlink, sentIn, takenFrom] using Turn.idle
  | @dropped link l₀ hl₀ hlistening =>
    by_cases hlink : id = link
    · subst hlink
      simpa [turned, hid, sentIn, takenFrom, List.filterMap_cons, MemoryLink.gained?,
        MemoryLink.isCut] using Turn.givenUp (l := l)
    · simpa [turned, hid, hlink, sentIn, takenFrom, List.filterMap_cons] using Turn.idle
  | disconnectedOldest =>
    simp only [turned]
    split
    · simpa [sentIn, takenFrom, List.filterMap_cons, MemoryLink.gained?, MemoryLink.isCut] using
        turn_cut l
    · simpa [sentIn, takenFrom, List.filterMap_cons] using Turn.idle
  | disconnectedAll =>
    simpa [turned, sentIn, takenFrom, List.filterMap_cons, MemoryLink.gained?,
      MemoryLink.isCut] using turn_cut l

/-! ## One move -/

/-- A move is an operation, and what it answers comes before what happens to the links. -/
theorem performs_of_act (h : b.act op = some (b', events)) :
    ∃ answer, Performs b op b' answer ∧ events = answer ++ b.changes b' := by
  obtain ⟨⟨b₁, answer⟩, hperform, heq⟩ := Option.map_eq_some_iff.mp h
  cases heq
  exact ⟨answer, performs_of_perform hperform, rfl⟩

/-- No answer tells of a buffer or of a cut. -/
theorem quiet_of_performs (h : Performs b op b' answer) (k : Nat) :
    bufferedIn k answer = [] ∧ .severed k ∉ answer := by
  cases h <;> simp [bufferedIn]

theorem range_of_act (h : b.act op = some (b', events)) :
    List.range b'.nextLink = List.range b.nextLink ++ openedIn events := by
  obtain ⟨answer, hperforms, rfl⟩ := performs_of_act h
  rw [openedIn, List.filterMap_append, filterMap_changes (fun _ _ => rfl) (fun _ => rfl),
    List.append_nil, next_of_performs hperforms]

theorem isNumbered_of_act (hn : IsNumbered b) (h : b.act op = some (b', events)) :
    IsNumbered b' := by
  obtain ⟨answer, hperforms, -⟩ := performs_of_act h
  exact isNumbered_of_performs hn hperforms

/-- What is read off a move, link by link. -/
theorem turn_of_act (hn : IsNumbered b) (hl : b.find? id = some l)
    (h : b.act op = some (b', events)) :
    ∃ l', b'.find? id = some l' ∧
      Turn l (sentIn events) (bufferedIn id events) (takenFrom id events)
        (decide (.severed id ∈ events)) (decide (.ended id ∈ events)) l' := by
  obtain ⟨answer, hperforms, rfl⟩ := performs_of_act h
  obtain ⟨hquiet, hcuts⟩ := quiet_of_performs hperforms id
  have hl' := find_of_performs hn hperforms hl
  refine ⟨_, hl', ?_⟩
  have hsent : sentIn (answer ++ b.changes b') = sentIn answer := by
    rw [sentIn, List.filterMap_append, filterMap_changes (fun _ _ => rfl) (fun _ => rfl),
      List.append_nil]
  have htaken : takenFrom id (answer ++ b.changes b') = takenFrom id answer := by
    rw [takenFrom, List.filterMap_append, filterMap_changes (fun _ _ => rfl) (fun _ => rfl),
      List.append_nil]
  have hbuffered : bufferedIn id (answer ++ b.changes b') = (l.gained? (b.turned op l)).toList := by
    rw [← bufferedIn_changes hn hl hl', bufferedIn, List.filterMap_append]
    rw [show answer.filterMap (Event.buffered? id) = [] from hquiet, List.nil_append]
  -- buffers and cuts are told by the changes alone, all else by the answer alone
  have hcut : decide (.severed id ∈ answer ++ b.changes b') = l.isCut (b.turned op l) := by
    rw [Bool.eq_iff_iff, decide_eq_true_iff, List.mem_append, or_iff_right hcuts,
      severed_mem_changes hn hl hl']
  have hended : .ended id ∈ answer ++ b.changes b' ↔ .ended id ∈ answer := by
    refine List.mem_append.trans (or_iff_left fun hmem => ?_)
    obtain ⟨k, -, ⟨body, heq⟩ | heq⟩ := mem_changes hmem <;> cases heq
  rw [hsent, htaken, hbuffered, hcut, decide_eq_decide.mpr hended]
  exact turn_of_performs hl hperforms

/-- A link is severed just when there is a cause. -/
theorem severed_mem_iff (hn : IsNumbered b) (h : b.act op = some (b', events)) :
    .severed id ∈ events ↔ b.Severs op id := by
  obtain ⟨answer, hperforms, rfl⟩ := performs_of_act h
  rw [List.mem_append, or_iff_right (quiet_of_performs hperforms id).2]
  constructor
  · intro hcut
    obtain ⟨l, hl, ⟨body, heq⟩ | heq⟩ := mem_changes hcut
    · cases heq
    · cases heq
      have hfind := hn.find_of_mem hl
      rw [severed_mem_changes hn hfind (find_of_performs hn hperforms hfind)] at hcut
      exact (isCut_turned hn hfind).mp hcut
  · intro hsevers
    obtain ⟨l, hl, hcause⟩ := hsevers
    rw [severed_mem_changes hn hl (find_of_performs hn hperforms hl)]
    exact (isCut_turned hn hl).mpr ⟨l, hl, hcause⟩

end MemoryBus

end MessageBus
