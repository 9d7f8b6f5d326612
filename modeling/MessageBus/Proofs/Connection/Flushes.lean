import Mathlib.Data.List.Pairwise
import MessageBus.Proofs.Connection.Desk
import MessageBus.Proofs.Connection.Receipts

/-! # Calls that see their messages written

    A call learns that its message is written by the receipt for its ticket and in
    no other way, so what a receipt means is what a call means that returns.

    * `Books`: how the calls stand with their receipts, and what keeps it so.
    * `books_run`: every call has the receipt for its ticket, or waits for it.
    * `onWire_of_returned`, `closed_of_dropped`: what a call learns.
    * `flush_means_written`: all that it means that a call returns. -/

namespace MessageBus.Desk

variable {d : Desk} {journal : Journal}

/-! ## Receipts and calls -/

theorem foldl_heed_ended (ticket : Nat) (r : BusResult Unit) (events : List Connection.Event) :
    events.foldl Flush.heed (.ended ticket r) = .ended ticket r := by
  induction events with
  | nil => rfl
  | cons event events ih => exact ih

/-- A call that waits heeds the receipt for its ticket. -/
theorem heed_of_receipt {ticket : Nat} {event : Connection.Event} {r : BusResult Unit}
    (h : event.receipt? = some (some ticket, r)) :
    Flush.heed (.waiting ticket) event = .ended ticket r := by
  cases event with
  | completed other? | abandoned other? =>
    cases h
    simp [Flush.heed]
  | _ => cases h

/-- A call that waits heeds nothing else. -/
theorem heed_of_no_receipt {ticket : Nat} {event : Connection.Event}
    (h : ∀ r, event.receipt? ≠ some (some ticket, r)) :
    Flush.heed (.waiting ticket) event = .waiting ticket := by
  cases event with
  | completed other? | abandoned other? =>
    cases other? with
    | none => rfl
    | some other =>
      refine if_neg ?_
      rintro rfl
      exact h _ rfl
  | _ => rfl

/-- A call that waits has the receipt for its ticket, once there is one. -/
theorem foldl_heed_waiting (ticket : Nat) (events : List Connection.Event) :
    (events.foldl Flush.heed (.waiting ticket) = .waiting ticket ∧
        ∀ r, (some ticket, r) ∉ events.filterMap Connection.Event.receipt?) ∨
      ∃ r, events.foldl Flush.heed (.waiting ticket) = .ended ticket r ∧
        (some ticket, r) ∈ events.filterMap Connection.Event.receipt? := by
  induction events with
  | nil => exact .inl ⟨rfl, by simp⟩
  | cons event events ih =>
    rw [List.foldl_cons]
    by_cases h : ∃ r, event.receipt? = some (some ticket, r)
    · obtain ⟨r, hr⟩ := h
      rw [heed_of_receipt hr, foldl_heed_ended, List.filterMap_cons_some hr]
      exact .inr ⟨r, rfl, List.mem_cons_self ..⟩
    · have hnone : ∀ r, event.receipt? ≠ some (some ticket, r) := fun r hr => h ⟨r, hr⟩
      have hmem : ∀ r, (some ticket, r) ∈ (event :: events).filterMap Connection.Event.receipt? ↔
          (some ticket, r) ∈ events.filterMap Connection.Event.receipt? := by
        intro r
        simp [List.mem_filterMap, hnone r]
      simpa only [heed_of_no_receipt hnone, hmem] using ih

/-- What becomes of a call: it stays as it is, and the one that waits has no receipt
    yet; or it waited and has its receipt now. -/
theorem foldl_heed_cases (flush : Flush) (events : List Connection.Event) :
    (events.foldl Flush.heed flush = flush ∧ ∀ ticket, flush = .waiting ticket →
        ∀ r, (some ticket, r) ∉ events.filterMap Connection.Event.receipt?) ∨
      ∃ ticket r, flush = .waiting ticket ∧ events.foldl Flush.heed flush = .ended ticket r ∧
        (some ticket, r) ∈ events.filterMap Connection.Event.receipt? := by
  cases flush with
  | idle ticket => exact .inl ⟨Flush.foldl_heed_idle ticket events, nofun⟩
  | ended ticket r => exact .inl ⟨foldl_heed_ended ticket r events, nofun⟩
  | waiting ticket =>
    rcases foldl_heed_waiting ticket events with ⟨hsame, hnone⟩ | ⟨r, hended, hnew⟩
    · refine .inl ⟨hsame, ?_⟩
      rintro other ⟨⟩
      exact hnone
    · exact .inr ⟨ticket, r, rfl, hended, hnew⟩

/-- How the calls stand with their receipts.  Who has returned was refused or has
    the receipt; who waits has none yet. -/
structure Books (trace : Connection.Trace) (returned : List (Nat × BusResult Unit))
    (calls : List FlushCall) : Prop where
  issued : ∀ o ∈ Connection.queued trace, ∀ k, o.ticket = some k →
    (calls[k]?).map (·.contents) = some o.contents
  distinct : ((Connection.queued trace).filterMap (·.ticket)).Nodup
  waiting : ∀ k contents j, calls[k]? = some ⟨contents, .waiting j⟩ →
    j = k ∧ ∀ r, (some k, r) ∉ Connection.receipts trace
  ended : ∀ k contents j r, calls[k]? = some ⟨contents, .ended j r⟩ →
    (some k, r) ∈ Connection.receipts trace
  idle : ∀ k contents j, calls[k]? = some ⟨contents, .idle j⟩ → ∃ r, (k, r) ∈ returned
  returned : ∀ k r, (k, r) ∈ returned → k < calls.length ∧
    ((some k, r) ∈ Connection.receipts trace ∨
      r = .error .closed ∧ ∀ o ∈ Connection.queued trace, o.ticket ≠ some k)

namespace Books

variable {trace : Connection.Trace} {returned : List (Nat × BusResult Unit)}
  {calls : List FlushCall} {contents : Fields} {k ticket : Nat} {r : BusResult Unit}
  {st : Stage Connection (Nat × Connection.Action) Connection.Event}

theorem getElem_snoc {call other : FlushCall} (h : (calls ++ [call])[k]? = some other) :
    calls[k]? = some other ∨ k = calls.length ∧ other = call := by
  rcases Nat.lt_or_ge k calls.length with hlt | hge
  · rw [List.getElem?_append_left hlt] at h
    exact .inl h
  · rw [List.getElem?_append_right hge] at h
    obtain ⟨hlt, rfl⟩ := List.getElem?_eq_some_iff.mp h
    rw [List.length_singleton] at hlt
    exact .inr ⟨by omega, by simp⟩

/-- A ticket that is queued is that of a call. -/
theorem lt_of_issued (h : Books trace returned calls) {o : Outgoing}
    (ho : o ∈ Connection.queued trace) (hticket : o.ticket = some k) : k < calls.length := by
  obtain ⟨call, hcall, -⟩ := Option.map_eq_some_iff.mp (h.issued o ho k hticket)
  exact (List.getElem?_eq_some_iff.mp hcall).1

theorem empty : Books [] [] [] := by
  refine ⟨by simp [Connection.queued], by simp [Connection.queued], ?_, ?_, ?_, ?_⟩ <;> simp

/-- A call is refused. -/
theorem refused (h : Books trace returned calls) (contents : Fields) :
    Books trace (returned ++ [(calls.length, .error .closed)])
      (calls ++ [⟨contents, .idle calls.length⟩]) where
  issued o ho k hticket := by
    rw [List.getElem?_append_left (h.lt_of_issued ho hticket)]
    exact h.issued o ho k hticket
  distinct := h.distinct
  waiting k contents j hcall := by
    rcases getElem_snoc hcall with hcall | ⟨-, hnew⟩
    · exact h.waiting k contents j hcall
    · cases hnew
  ended k contents j r hcall := by
    rcases getElem_snoc hcall with hcall | ⟨-, hnew⟩
    · exact h.ended k contents j r hcall
    · cases hnew
  idle k contents j hcall := by
    rcases getElem_snoc hcall with hcall | ⟨rfl, hnew⟩
    · obtain ⟨r, hr⟩ := h.idle k contents j hcall
      exact ⟨r, List.mem_append_left _ hr⟩
    · exact ⟨_, List.mem_append_right _ (List.mem_singleton.mpr rfl)⟩
  returned k r hr := by
    rw [List.length_append, List.length_singleton]
    rcases List.mem_append.mp hr with hr | hr
    · obtain ⟨hlt, hreceipt⟩ := h.returned k r hr
      exact ⟨by omega, hreceipt⟩
    · cases List.mem_singleton.mp hr
      refine ⟨by omega, .inr ⟨rfl, fun o ho hticket => ?_⟩⟩
      -- all tickets that were queued are smaller
      exact absurd (h.lt_of_issued ho hticket) (Nat.lt_irrefl _)

/-- A call queues its message. -/
theorem posted (h : Books trace returned calls)
    (hknown : ∀ k r, (some k, r) ∈ Connection.receipts trace →
      ∃ o ∈ Connection.queued trace, o.ticket = some k)
    (hqueue : Connection.queue? st = some ⟨contents, some calls.length⟩)
    (hevents : st.events = []) :
    Books (trace ++ [st]) returned (calls ++ [⟨contents, .waiting calls.length⟩]) := by
  have hqueued : Connection.queued (trace ++ [st])
      = Connection.queued trace ++ [⟨contents, some calls.length⟩] := by
    rw [Connection.queued_snoc, hqueue]
    rfl
  have hreceipts : Connection.receipts (trace ++ [st]) = Connection.receipts trace := by
    rw [Connection.receipts_snoc, hevents]
    exact List.append_nil _
  refine ⟨?issued, ?distinct, ?waiting, ?ended, ?idle, ?returned⟩
  case issued =>
    intro o ho k hticket
    rw [hqueued] at ho
    rcases List.mem_append.mp ho with ho | ho
    · rw [List.getElem?_append_left (h.lt_of_issued ho hticket)]
      exact h.issued o ho k hticket
    · cases List.mem_singleton.mp ho
      cases hticket
      rw [List.getElem?_concat_length]
      rfl
  case distinct =>
    rw [hqueued, List.filterMap_append]
    refine List.nodup_append.mpr ⟨h.distinct, List.pairwise_singleton _ _, fun k hk new hnew => ?_⟩
    obtain ⟨o, ho, hticket⟩ := List.mem_filterMap.mp hk
    obtain rfl : new = calls.length := List.mem_singleton.mp hnew
    exact Nat.ne_of_lt (h.lt_of_issued ho hticket)
  case waiting =>
    intro k contents j hcall
    rw [hreceipts]
    rcases getElem_snoc hcall with hcall | ⟨rfl, hnew⟩
    · exact h.waiting k contents j hcall
    · cases hnew
      refine ⟨rfl, fun r hr => ?_⟩
      obtain ⟨o, ho, hticket⟩ := hknown _ r hr
      exact Nat.lt_irrefl _ (h.lt_of_issued ho hticket)
  case ended =>
    intro k contents j r hcall
    rw [hreceipts]
    rcases getElem_snoc hcall with hcall | ⟨-, hnew⟩
    · exact h.ended k contents j r hcall
    · cases hnew
  case idle =>
    intro k contents j hcall
    rcases getElem_snoc hcall with hcall | ⟨-, hnew⟩
    · exact h.idle k contents j hcall
    · cases hnew
  case returned =>
    intro k r hr
    obtain ⟨hlt, hreceipt⟩ := h.returned k r hr
    rw [hreceipts, hqueued, List.length_append, List.length_singleton]
    refine ⟨by omega, hreceipt.imp_right fun ⟨hclosed, hnever⟩ => ⟨hclosed, fun o ho => ?_⟩⟩
    rcases List.mem_append.mp ho with ho | ho
    · exact hnever o ho
    · rw [List.mem_singleton.mp ho]
      intro heq
      cases heq
      exact Nat.lt_irrefl _ hlt

/-- A call returns. -/
theorem settled (h : Books trace returned calls)
    (hcall : calls[k]? = some ⟨contents, .ended ticket r⟩) :
    Books trace (returned ++ [(k, r)]) (calls.set k ⟨contents, .idle k⟩) := by
  have hlt : k < calls.length := (List.getElem?_eq_some_iff.mp hcall).1
  have hother : ∀ {j : Nat} {call : FlushCall}, (calls.set k ⟨contents, .idle k⟩)[j]? = some call →
      call = ⟨contents, .idle k⟩ ∧ j = k ∨ calls[j]? = some call := by
    intro j call hj
    by_cases hjk : k = j
    · subst hjk
      rw [List.getElem?_set_self hlt] at hj
      exact .inl ⟨(Option.some.inj hj).symm, rfl⟩
    · rw [List.getElem?_set_ne hjk] at hj
      exact .inr hj
  refine ⟨?issued, h.distinct, ?waiting, ?ended, ?idle, ?returned⟩
  case issued =>
    intro o ho j hticket
    have hissued := h.issued o ho j hticket
    by_cases hjk : k = j
    · subst hjk
      rw [List.getElem?_set_self hlt]
      rw [hcall] at hissued
      exact hissued
    · rwa [List.getElem?_set_ne hjk]
  case waiting =>
    intro j contents' ticket' hj
    rcases hother hj with ⟨hnew, -⟩ | hj
    · cases hnew
    · exact h.waiting j contents' ticket' hj
  case ended =>
    intro j contents' ticket' r' hj
    rcases hother hj with ⟨hnew, -⟩ | hj
    · cases hnew
    · exact h.ended j contents' ticket' r' hj
  case idle =>
    intro j contents' ticket' hj
    rcases hother hj with ⟨-, rfl⟩ | hj
    · exact ⟨r, List.mem_append_right _ (List.mem_singleton.mpr rfl)⟩
    · obtain ⟨r', hr'⟩ := h.idle j contents' ticket' hj
      exact ⟨r', List.mem_append_left _ hr'⟩
  case returned =>
    intro j r' hr'
    rw [List.length_set]
    rcases List.mem_append.mp hr' with hr' | hr'
    · exact h.returned j r' hr'
    · cases List.mem_singleton.mp hr'
      exact ⟨hlt, .inl (h.ended k contents ticket r hcall)⟩

/-- Something happens on the connection. -/
theorem worked (h : Books trace returned calls)
    (hqueue : ∀ o, Connection.queue? st = some o → o.ticket = none) :
    Books (trace ++ [st]) returned (calls.map (·.heed st.events)) := by
  have hqueued : ∀ o ∈ Connection.queued (trace ++ [st]), ∀ k, o.ticket = some k →
      o ∈ Connection.queued trace := by
    intro o ho k hticket
    rw [Connection.queued_snoc] at ho
    rcases List.mem_append.mp ho with ho | ho
    · exact ho
    · rw [hqueue o (Option.mem_toList.mp ho)] at hticket
      cases hticket
  have hbefore : ∀ {k : Nat} {call : FlushCall}, (calls.map (·.heed st.events))[k]? = some call →
      ∃ flush, calls[k]? = some ⟨call.contents, flush⟩ ∧
        call.flush = st.events.foldl Flush.heed flush := by
    intro k call hk
    rw [List.getElem?_map] at hk
    obtain ⟨⟨contents, flush⟩, hcall, rfl⟩ := Option.map_eq_some_iff.mp hk
    exact ⟨flush, hcall, rfl⟩
  refine ⟨?issued, ?distinct, ?waiting, ?ended, ?idle, ?returned⟩
  case issued =>
    intro o ho k hticket
    rw [List.getElem?_map, Option.map_map]
    exact h.issued o (hqueued o ho k hticket) k hticket
  case distinct =>
    rw [Connection.queued_snoc, List.filterMap_append]
    cases hst : Connection.queue? st with
    | none => simpa using h.distinct
    | some o => simpa [hqueue o hst] using h.distinct
  case waiting =>
    intro k contents j hk
    obtain ⟨flush, hcall, hflush⟩ := hbefore hk
    rcases foldl_heed_cases flush st.events with ⟨hsame, hnew⟩ | ⟨j', r, -, hended, -⟩
    · obtain rfl : flush = .waiting j := hsame.symm.trans hflush.symm
      obtain ⟨rfl, hnone⟩ := h.waiting k _ j hcall
      refine ⟨rfl, fun r hr => ?_⟩
      rw [Connection.receipts_snoc] at hr
      exact (List.mem_append.mp hr).elim (hnone r) (hnew j rfl r)
    · cases hflush.trans hended
  case ended =>
    intro k contents j r hk
    rw [Connection.receipts_snoc]
    obtain ⟨flush, hcall, hflush⟩ := hbefore hk
    rcases foldl_heed_cases flush st.events with ⟨hsame, -⟩ | ⟨j', r', rfl, hended, hnew⟩
    · obtain rfl : flush = .ended j r := hsame.symm.trans hflush.symm
      exact List.mem_append_left _ (h.ended k _ j r hcall)
    · cases hflush.trans hended
      obtain ⟨rfl, -⟩ := h.waiting k _ j hcall
      exact List.mem_append_right _ hnew
  case idle =>
    intro k contents j hk
    obtain ⟨flush, hcall, hflush⟩ := hbefore hk
    rcases foldl_heed_cases flush st.events with ⟨hsame, -⟩ | ⟨j', r, -, hended, -⟩
    · obtain rfl : flush = .idle j := hsame.symm.trans hflush.symm
      exact h.idle k _ j hcall
    · cases hflush.trans hended
  case returned =>
    intro k r hr
    obtain ⟨hlt, hreceipt⟩ := h.returned k r hr
    rw [List.length_map, Connection.receipts_snoc]
    refine ⟨hlt, hreceipt.imp (List.mem_append_left _) fun ⟨hclosed, hnever⟩ => ⟨hclosed, ?_⟩⟩
    intro o ho hticket
    exact hnever o (hqueued o ho k hticket) hticket

end Books

variable {codec : Codec} {capacity delay began : Nat} {keys : KeySet}

/-- There are receipts for the tickets of queued messages only. -/
theorem queued_of_receipt {trace : Connection.Trace} {c : Connection}
    (h : Connection.Runs (.start codec capacity delay keys began) trace c) {k : Nat}
    {r : BusResult Unit} (hr : (some k, r) ∈ Connection.receipts trace) :
    ∃ o ∈ Connection.queued trace, o.ticket = some k := by
  have hticket : some k ∈ (Connection.queued trace).map (·.ticket) := by
    rw [Connection.tickets_eq h]
    exact List.mem_append_left _ (List.mem_map_of_mem (f := Prod.fst) hr)
  exact List.mem_map.mp hticket

/-- Every call has the receipt for its ticket, or waits for it. -/
theorem books_run (h : Runs (start (.start codec capacity delay keys began)) journal d) :
    Books (link journal) (returns journal) d.calls := by
  induction h with
  | start => exact .empty
  | @move journal d d' m events hrun hstep ih =>
    obtain ⟨action?, returned?, hmove, hact, hreturn⟩ := moves_of_step hstep
    have hlink := runs_link hrun
    rw [link_snoc, returns_snoc, hact, hreturn]
    generalize m.2 = move at hmove
    cases hmove with
    | refused => simpa using ih.refused _
    | posted hqueue =>
      rw [Option.toList_none, List.append_nil]
      exact ih.posted (fun k r hr => queued_of_receipt hlink hr) rfl rfl
    | settled hcall => simpa using ih.settled hcall
    | @worked a c events hplain hwork =>
      rw [Option.toList_none, List.append_nil]
      have hqueue : ∀ o, Connection.queue? ⟨d.connection, (m.1, a), events⟩ = some o →
          o.ticket = none := by
        intro o ho
        cases a with
        | queue other =>
          obtain rfl := Option.some.inj ho
          obtain ⟨contents, ticket?⟩ := other
          cases ticket? with
          | none => rfl
          | some ticket => cases hplain
        | _ => cases ho
      exact ih.worked hqueue

/-- The messages of the calls are those they were made with. -/
theorem flushes_eq (h : Runs (start (.start codec capacity delay keys began)) journal d) :
    flushes journal = d.calls.map (·.contents) := by
  induction h with
  | start => rfl
  | @move journal d d' m events _ hstep ih =>
    obtain ⟨action?, returned?, hmove, -, -⟩ := moves_of_step hstep
    rw [flushes_snoc, ih]
    obtain ⟨now, move⟩ := m
    simp only at hmove
    cases hmove with
    | refused | posted => simp [flush?]
    | @settled k ticket contents r hcall =>
      -- the call keeps its message
      obtain ⟨hlt, hcall⟩ := List.getElem?_eq_some_iff.mp hcall
      have hlt : k < (d.calls.map (·.contents)).length := by rwa [List.length_map]
      have hsame := List.set_getElem_self hlt
      rw [List.getElem_map, hcall] at hsame
      rw [List.map_set, hsame]
      simp [flush?]
    | worked => simp [flush?, FlushCall.heed, Function.comp_def]

/-! ## What a call learns -/

/-- No ticket has two receipts. -/
theorem nodup_receipts (h : Runs (start (.start codec capacity delay keys began)) journal d) :
    ((Connection.receipts (link journal)).filterMap Prod.fst).Nodup := by
  have hdistinct := (books_run h).distinct
  have htickets : (Connection.queued (link journal)).filterMap (·.ticket)
      = ((Connection.queued (link journal)).map (·.ticket)).filterMap id := by
    rw [List.filterMap_map]
    rfl
  rw [htickets, Connection.tickets_eq (runs_link h), List.filterMap_append, List.filterMap_map]
    at hdistinct
  exact (List.nodup_append.mp hdistinct).1

/-- What is learned of a ticket is learned once. -/
theorem receipt_unique {receipts : List Connection.Receipt}
    (h : (receipts.filterMap Prod.fst).Nodup) {k : Nat} {r r' : BusResult Unit}
    (hr : (some k, r) ∈ receipts) (hr' : (some k, r') ∈ receipts) : r = r' := by
  by_contra hne
  rw [List.Nodup, List.pairwise_filterMap] at h
  have hsymm : Std.Symm fun x y : Connection.Receipt =>
      ∀ b, x.1 = some b → ∀ b', y.1 = some b' → b ≠ b' :=
    ⟨fun x y hxy b hb b' hb' heq => hxy b' hb' b hb heq.symm⟩
  have hpair : ((some k, r) : Connection.Receipt) ≠ (some k, r') :=
    fun heq => hne (Prod.ext_iff.mp heq).2
  exact h.forall hr hr' hpair k rfl k rfl rfl

/-- A call that returns well has its message on the wire. -/
theorem onWire_of_returned (h : Runs (start (.start codec capacity delay keys began)) journal d)
    {k : Nat} (hreturned : (k, .ok ()) ∈ returns journal) :
    ∃ contents, (flushes journal)[k]? = some contents ∧
      Connection.OnWire codec (link journal) ⟨contents, some k⟩ := by
  have hbooks := books_run h
  rcases (hbooks.returned k _ hreturned).2 with hreceipt | ⟨hclosed, -⟩
  · obtain ⟨⟨contents, ticket⟩, rfl, hwire⟩ :=
      Connection.onWire_of_receipt (runs_link h) hreceipt
    refine ⟨contents, ?_, hwire⟩
    obtain ⟨earlier, dequeued, waiting, -, -, hqueued, -⟩ := hwire
    have hmem : (⟨contents, some k⟩ : Outgoing) ∈ Connection.queued (link journal) := by
      rw [hqueued]
      exact List.mem_append_right _ (List.mem_cons_self ..)
    rw [flushes_eq h, List.getElem?_map]
    exact hbooks.issued _ hmem k rfl
  · cases hclosed

/-- A call whose message could not be prepared returns that it is closed. -/
theorem closed_of_dropped (h : Runs (start (.start codec capacity delay keys began)) journal d)
    {dropped : Connection.Dequeue} (hmem : dropped ∈ Connection.dequeued (link journal)) {k : Nat}
    (hticket : dropped.message.ticket = some k) (hbodies : dropped.bodies? codec = none) :
    (k, .ok ()) ∉ returns journal ∧
      ((k, .error .closed) ∈ returns journal ∨
        (d.turn? (.settle k)).bind (·.returned?) = some (k, .error .closed)) := by
  have hbooks := books_run h
  have hunique := nodup_receipts h
  have hreceipt := Connection.receipt_of_rejected (runs_link h) hmem hbodies
  rw [hticket] at hreceipt
  have hclosed : ∀ r, (k, r) ∈ returns journal → r = .error .closed := by
    intro r hr
    rcases (hbooks.returned k r hr).2 with hother | ⟨hclosed, -⟩
    · exact receipt_unique hunique hother hreceipt
    · exact hclosed
  have hnever : (k, .ok ()) ∉ returns journal := by
    intro hok
    cases hclosed _ hok
  refine ⟨hnever, ?_⟩
  -- the ticket is that of a call, which is past its waiting
  obtain ⟨o, ho, hissued⟩ := queued_of_receipt (runs_link h) hreceipt
  obtain ⟨⟨contents, flush⟩, hcall, -⟩ := Option.map_eq_some_iff.mp (hbooks.issued o ho k hissued)
  cases flush with
  | idle ticket =>
    obtain ⟨r, hr⟩ := hbooks.idle k contents ticket hcall
    obtain rfl := hclosed r hr
    exact .inl hr
  | waiting ticket => exact absurd hreceipt ((hbooks.waiting k contents ticket hcall).2 _)
  | ended ticket r =>
    obtain rfl := receipt_unique hunique (hbooks.ended k contents ticket r hcall) hreceipt
    exact .inr (by simp [turn?, hcall])

/-- What the connection does without a call goes on beside the calls. -/
theorem exists_work {c c' : Connection} {trace : Connection.Trace}
    (h : Connection.Runs c trace c') (hown : ∀ st ∈ trace, st.move.2.isOutbound = true)
    (calls : List FlushCall) :
    ∃ journal d, Runs ⟨c, calls⟩ journal d ∧ link journal = trace ∧ d.connection = c' ∧
      ∀ st ∈ journal, ∃ a, st.move.2 = .work a ∧ a.isOutbound = true := by
  induction h with
  | start => exact ⟨[], _, .start, rfl, rfl, fun _ hst => absurd hst List.not_mem_nil⟩
  | @move trace c₁ c₂ m events _ hstep ih =>
    obtain ⟨journal, ⟨c₁, calls'⟩, hrun, hlink, rfl, hwork⟩ :=
      ih fun st hst => hown st (List.mem_append_left _ hst)
    obtain ⟨now, a⟩ := m
    have ha : a.isOutbound = true := hown ⟨c₁, (now, a), events⟩ (by simp)
    have hplain : a.isTicketed = false := by
      cases a with
      | queue o => cases ha
      | _ => rfl
    have hact : c₁.act now (some a) = some (c₂, events) := hstep
    have hmove : step ⟨c₁, calls'⟩ (now, .work a)
        = some (⟨c₂, calls'.map (·.heed events)⟩, events) := by
      simp [step, turn?, hplain, hact]
    refine ⟨_, _, hrun.move hmove, ?_, rfl, ?_⟩
    · rw [link_snoc, hlink]
      simp [act?, turn?, hplain]
    · exact List.forall_mem_append.mpr ⟨hwork, List.forall_mem_singleton.mpr ⟨a, rfl, ha⟩⟩

/-- A message that cannot be prepared is dropped, and what is queued behind it is
    dealt with. -/
theorem exists_drained {since moment : Nat} {handing : Option Envelope} {o : Outgoing}
    {rest : List Outgoing} {occasion : Occasion} {err : BusError}
    (hphase : d.connection.phase = .serving since handing) (hflight : d.connection.inFlight = none)
    (hout : d.connection.outbound = o :: rest)
    (hprepare : d.connection.codec.prepare occasion o.contents d.connection.keys = .error err) :
    ∃ d', d.step (moment, .work (.prepare occasion)) =
        some (d', [.rejected o, .abandoned o.ticket]) ∧
      d'.connection = { d.connection with outbound := rest } ∧
      ∃ journal d'', Runs d' journal d'' ∧ d''.connection.outbound = [] ∧
        (∀ st ∈ journal, ∃ a, st.move.2 = .work a ∧ a.isOutbound = true) ∧
        (Connection.dequeued (link journal)).map (·.message) = rest ∧
        Connection.written (link journal) =
          (Connection.accepted d.connection.codec (link journal)).flatten := by
  have hact : d.connection.act moment (some (.prepare occasion)) =
      some ({ d.connection with outbound := rest }, [.rejected o, .abandoned o.ticket]) := by
    simp [Connection.act, Connection.step, Connection.prepareNext, hphase, hflight, hout, hprepare]
  refine ⟨⟨_, d.calls.map (·.heed [.rejected o, .abandoned o.ticket])⟩, ?_, rfl, ?_⟩
  · simp [step, turn?, Connection.Action.isTicketed, hact]
  · obtain ⟨trace, hdrains⟩ := Connection.exists_drained
      (c := { d.connection with outbound := rest }) hphase hflight rfl
    obtain ⟨journal, d'', hrun, rfl, hconnection, hwork⟩ :=
      exists_work hdrains.run hdrains.outbound
        (d.calls.map (·.heed [.rejected o, .abandoned o.ticket]))
    exact ⟨journal, d'', hrun, by rw [hconnection], hwork, hdrains.dequeued, hdrains.written⟩

/-- A call returns well only when all bodies of its message are on the wire, and all
those of the messages that were queued before it and could be prepared.  Nobody learns twice what
became of a message.  A call whose message cannot be prepared finds the connection closed to it:
no body of such a message is written, and whatever is queued behind it is dealt with. -/
theorem flush_means_written
    (h : Runs (start (.start codec capacity delay keys began)) journal d) :
    (∀ k, (k, .ok ()) ∈ returns journal →
      ∃ contents, (flushes journal)[k]? = some contents ∧
        Connection.OnWire codec (link journal) ⟨contents, some k⟩) ∧
    ((Connection.receipts (link journal)).filterMap Prod.fst).Nodup ∧
    (∀ dropped ∈ Connection.dequeued (link journal), ∀ k, dropped.message.ticket = some k →
      dropped.bodies? codec = none →
      (k, .ok ()) ∉ returns journal ∧
        ((k, .error .closed) ∈ returns journal ∨
          (d.turn? (.settle k)).bind (·.returned?) = some (k, .error .closed))) ∧
    Connection.written (link journal) <+: (Connection.accepted codec (link journal)).flatten ∧
    ∀ moment occasion since handing o rest err,
      d.connection.phase = .serving since handing → d.connection.inFlight = none →
      d.connection.outbound = o :: rest →
      codec.prepare occasion o.contents d.connection.keys = .error err →
      ∃ d', d.step (moment, .work (.prepare occasion)) =
          some (d', [.rejected o, .abandoned o.ticket]) ∧
        d'.connection = { d.connection with outbound := rest } ∧
        ∃ journal' d'', Runs d' journal' d'' ∧ d''.connection.outbound = [] ∧
          (∀ st ∈ journal', ∃ a, st.move.2 = .work a ∧ a.isOutbound = true) ∧
          (Connection.dequeued (link journal')).map (·.message) = rest ∧
          Connection.written (link journal') =
            (Connection.accepted codec (link journal')).flatten := by
  have hcodec : d.connection.codec = codec := Connection.codec_eq (runs_link h)
  refine ⟨?_, nodup_receipts h, ?_, Connection.written_le_accepted (runs_link h), ?_⟩
  · intro k hreturned
    exact onWire_of_returned h hreturned
  · intro dropped hmem k hticket hbodies
    exact closed_of_dropped h hmem hticket hbodies
  · intro moment occasion since handing o rest err hphase hflight hout hprepare
    rw [← hcodec] at hprepare ⊢
    exact exists_drained hphase hflight hout hprepare

/-- The link fails under the message of the first call, which returns when the next link has taken
it.  The message of the second call cannot be prepared, since the only key there is then is too
short; the one that is queued behind it is dealt with all the same. -/
theorem flush_means_written_rejected :
    ∃ (journal later : Journal) (d d' : Desk),
      (Runs (start (.start ⟨"a", default⟩ 2 0 .empty 0)) journal d ∧
        Runs (start (.start ⟨"a", default⟩ 2 0 .empty 0)) later d') ∧
      returns journal = [(0, .ok ())] ∧
      (∃ contents, (flushes journal)[0]? = some contents ∧
        Connection.OnWire ⟨"a", default⟩ (link journal) ⟨contents, some 0⟩) ∧
      d.connection.outbound = [⟨[], some 1⟩, ⟨[], none⟩] ∧
      (∃ rejected, d.step (2, .work (.prepare default)) =
          some (rejected, [.rejected ⟨[], some 1⟩, .abandoned (some 1)]) ∧
        ∃ drained d'', Runs rejected drained d'' ∧ d''.connection.outbound = [] ∧
          (Connection.dequeued (link drained)).map (·.message) = [⟨[], none⟩]) ∧
      (1, .ok ()) ∉ returns later ∧
      ((1, .error .closed) ∈ returns later ∨
        (d'.turn? (.settle 1)).bind (·.returned?) = some (1, .error .closed)) := by
  have hstart : Runs (start (.start ⟨"a", default⟩ 2 0 .empty 0)) [] _ := .start
  have hprepared := (hstart.move (m := (0, .flush [])) rfl).move
    (m := (0, .work (.prepare default))) rfl
  have hfailed := hprepared.move (m := (1, .work (.write false))) rfl
  have hreopened := (hfailed.move (m := (1, .work (.opened true))) rfl).move
    (m := (1, .work .announce)) rfl
  have hwritten := (hreopened.move (m := (1, .work (.write true))) rfl).move
    (m := (1, .work .finish)) rfl
  have hreturned := hwritten.move (m := (1, .settle 0)) rfl
  have hrekeyed := hreturned.move (m := (2, .work (.setKeys ⟨["short"]⟩))) rfl
  have hqueued := (hrekeyed.move (m := (2, .flush [])) rfl).move
    (m := (2, .work (.queue ⟨[], none⟩))) rfl
  have hrejected := hqueued.move (m := (2, .work (.prepare default))) rfl
  obtain ⟨hwire, -, -, -, hdrains⟩ := flush_means_written hqueued
  obtain ⟨-, -, hclosed, -, -⟩ := flush_means_written hrejected
  obtain ⟨rejected, hstep, -, drained, d'', hrun, hempty, -, hmessages, -⟩ :=
    hdrains 2 default _ _ _ _ _ rfl rfl rfl rfl
  obtain ⟨hnever, hends⟩ :=
    hclosed ⟨⟨[], some 1⟩, ⟨["short"]⟩, default⟩ (.tail _ (.head _)) 1 rfl rfl
  exact ⟨_, _, _, _, ⟨hqueued, hrejected⟩, rfl, hwire 0 (.head _), rfl,
    ⟨rejected, hstep, drained, d'', hrun, hempty, hmessages⟩, hnever, hends⟩

end MessageBus.Desk
