import MessageBus.Proofs.Connection.Caller
import MessageBus.Proofs.Connection.Receipts

/-! # Plays on an open connection

    On an open connection nothing keeps a caller from going through its program:
    whatever the program requests is done, and whatever replies may come do come
    in some run.  The connection does its work after every request, so it is at
    rest again before the next one.

    * `IsAtRest.leads_queued`, `IsAtRest.leads_arrived`: what a connection does
      on its own.
    * `runs_outside`, `runs_queue`, `runs_await`: one reply, and the move that
      gives it.
    * `exists_run_of_play`, `exists_run_of_play_done`: every play on an open
      connection is a run. -/

namespace MessageBus

namespace Connection

/-! ## A connection at rest -/

/-- A connection that has nothing to do: its link is up, and its queues are empty. -/
structure IsAtRest (c : Connection) : Prop where
  serving : ∃ since, c.phase = .serving since none
  outbound : c.outbound = []
  inFlight : c.inFlight = none
  inbound : c.inbound = []
  room : 0 < c.capacity

theorem isAtRest_start {codec : Codec} {capacity delay began : Nat} {keys : KeySet}
    (h : 0 < capacity) : IsAtRest (start codec capacity delay keys began) :=
  ⟨⟨began, rfl⟩, rfl, rfl, rfl, h⟩

theorem IsAtRest.isStopped {c : Connection} (h : c.IsAtRest) : c.isStopped = false := by
  obtain ⟨since, hphase⟩ := h.serving
  simp [Connection.isStopped, hphase]

/-- Moves that the connection makes on its own. -/
abbrev Own (m : Nat × Action) : Prop := m.2.isByCaller = false

/-- What a connection does with its queue it does on its own. -/
theorem isByCaller_of_isOutbound {a : Action} (h : a.isOutbound = true) : a.isByCaller = false := by
  cases a with
  | prepare | write | finish => rfl
  | _ => cases h

theorem leads_own {c c' : Connection} {m : Nat × Action} {events : List Event} (hown : Own m)
    (h : timedStep c m = some (c', events)) : Leads timedStep Own c c' := .single hown h

/-- A connection at rest does away with a message. -/
theorem IsAtRest.leads_queued {c : Connection} (h : c.IsAtRest) (o : Outgoing) :
    Leads timedStep Own { c with outbound := [o] } c := by
  obtain ⟨⟨since, hphase⟩, hout, hflight, -, -⟩ := h
  have hsame : { c with outbound := [] } = c := by rw [← hout]
  obtain ⟨trace, hdrains⟩ := drains_next (c := { c with outbound := [o] }) hphase hflight rfl
  have hrun : Runs { c with outbound := [o] } trace { c with outbound := [] } := hdrains.run
  rw [hsame] at hrun
  refine ⟨trace, ?_, hrun⟩
  intro st hst
  exact isByCaller_of_isOutbound (hdrains.outbound st hst)

/-- A connection at rest reads what comes. -/
theorem IsAtRest.leads_arrived {c : Connection} (h : c.IsAtRest) {body : Bytes} {e : Envelope}
    (hparse : c.codec.parse body c.keys = some e) :
    Leads timedStep Own c { c with inbound := [e] } := by
  obtain ⟨⟨since, hphase⟩, -, -, hin, hroom⟩ := h
  have harrive : timedStep c (0, .arrive body) =
      some ({ c with phase := .serving since (some e) }, []) := by
    simp [timedStep, step, receiveBody, hphase, hparse]
  have hdeliver : timedStep { c with phase := .serving since (some e) } (0, .deliver) =
      some ({ c with inbound := [e] }, [.delivered e]) := by
    simp [timedStep, step, deliverEnvelope, hasInboundRoom, hin, hroom, hphase]
  exact (leads_own rfl harrive).trans (leads_own rfl hdeliver)

end Connection

/-- Whether a connection that is open gives a reply, whatever its keys: envelopes come in the
clear. -/
def Reply.IsAtHand (codec : Codec) : Reply → Prop
  | heard e => ∃ body, ∀ keys, codec.parse body keys = some e
  | flushed _ | closed => False
  | _ => True

namespace Caller

variable {α : Type} {c c' : Connection} {program next : Program α} {ticket : Nat}

/-- What a connection does on its own goes on beside any program. -/
theorem runs_work (h : Leads Connection.timedStep Connection.Own c c') :
    ∃ journal : Journal α, Runs ⟨c, program, .idle ticket⟩ journal ⟨c', program, .idle ticket⟩ ∧
      replies journal = [] := by
  obtain ⟨trace, hown, hrun⟩ := h
  induction hrun with
  | start => exact ⟨[], .start, rfl⟩
  | @move trace c₁ c₂ m events _ hstep ih =>
    obtain ⟨journal, hruns, hreplies⟩ := ih fun st hst => hown st (List.mem_append_left _ hst)
    have ha : m.2.isByCaller = false := hown ⟨c₁, m, events⟩ (by simp)
    have hturn : turn? ⟨c₁, program, .idle ticket⟩ (.work m.2) =
        some ⟨some m.2, none, .idle ticket⟩ := by
      simp [turn?, ha]
    have hmove : step ⟨c₁, program, .idle ticket⟩ (m.1, .work m.2) =
        some (⟨c₂, program, .idle ticket⟩, events) :=
      step_eq_some_iff.mpr ⟨_, [], hturn, rfl, hstep, Flush.foldl_heed_idle ticket events⟩
    refine ⟨_, hruns.move hmove, ?_⟩
    rw [replies_snoc, reply_of_turn hturn, hreplies]
    rfl

/-- A move that gives the program a reply. -/
theorem runs_reply {now : Nat} {move : Move} {action? : Option Connection.Action}
    {events : List Connection.Event} {r : Reply} {call? : Option Call}
    (hturn : turn? ⟨c, program, .idle ticket⟩ move = some ⟨action?, some r, .idle ticket⟩)
    (hafter : program.after r = some (call?, next)) (hact : c.act now action? = some (c', events)) :
    ∃ journal : Journal α, Runs ⟨c, program, .idle ticket⟩ journal ⟨c', next, .idle ticket⟩ ∧
      replies journal = [r] := by
  have hplay := Program.play_singleton_iff.mpr ⟨call?, hafter, rfl⟩
  have hmove : step ⟨c, program, .idle ticket⟩ (now, move) =
      some (⟨c', next, .idle ticket⟩, events) :=
    step_eq_some_iff.mpr ⟨_, _, hturn, hplay, hact, Flush.foldl_heed_idle ticket events⟩
  refine ⟨_, Run.start.move hmove, ?_⟩
  rw [replies_snoc, reply_of_turn hturn]
  rfl

/-- A reply from outside leaves the connection as it is. -/
theorem runs_outside (c : Connection) (ticket : Nat) {r : Reply} {call? : Option Call}
    (hr : r.isFromOutside = true) (hafter : program.after r = some (call?, next)) :
    ∃ journal : Journal α, Runs ⟨c, program, .idle ticket⟩ journal ⟨c, next, .idle ticket⟩ ∧
      replies journal = [r] := by
  have hturn : turn? ⟨c, program, .idle ticket⟩ (.reply r) =
      some ⟨none, some r, .idle ticket⟩ := by
    simp [turn?, hr]
  have hact : c.act 0 none = some (c, []) := rfl
  exact runs_reply hturn hafter hact

/-- An open connection takes a message if there is room for it. -/
theorem runs_queue {contents : Fields} {after : BusResult Unit → Program α}
    (hopen : c.isStopped = false) (hroom : c.hasOutboundRoom = true) :
    ∃ journal : Journal α, Runs ⟨c, .queue contents after, .idle ticket⟩ journal
        ⟨{ c with outbound := c.outbound ++ [⟨contents, none⟩] }, after (.ok ()), .idle ticket⟩ ∧
      replies journal = [.queued] := by
  have hturn : turn? ⟨c, .queue contents after, .idle ticket⟩ .proceed =
      some ⟨some (.queue ⟨contents, none⟩), some .queued, .idle ticket⟩ := by
    simp [turn?, hopen]
  have hact : c.act 0 (some (.queue ⟨contents, none⟩)) =
      some ({ c with outbound := c.outbound ++ [⟨contents, none⟩] }, []) := by
    simp [Connection.act, Connection.step, hopen, hroom]
  exact runs_reply hturn rfl hact

/-- Who waits takes the first envelope of the queue. -/
theorem runs_await {limit : Option Nat} {accepts : Message → Bool} {after : Awaited → Program α}
    {e : Envelope} {rest : List Envelope} (hin : c.inbound = e :: rest) :
    ∃ journal : Journal α, Runs ⟨c, .await limit accepts after, .idle ticket⟩ journal
        ⟨{ c with inbound := rest }, (Program.await limit accepts after).afterEnvelope e,
          .idle ticket⟩ ∧
      replies journal = [.heard e] := by
  have hturn : turn? ⟨c, .await limit accepts after, .idle ticket⟩ .proceed =
      some ⟨some .take, some (.heard e), .idle ticket⟩ := by
    simp [turn?, hin]
  have hact : c.act 0 (some .take) = some ({ c with inbound := rest }, [.took e]) := by
    simp [Connection.act, Connection.step, hin]
  exact runs_reply hturn rfl hact

/-- One more reply to a program whose connection is at rest. -/
theorem exists_run_of_after {r : Reply} {call? : Option Call} (hrest : c.IsAtRest)
    (hafter : program.after r = some (call?, next)) (hr : r.IsAtHand c.codec) :
    ∃ (journal : Journal α) (c' : Connection),
      Runs ⟨c, program, .idle ticket⟩ journal ⟨c', next, .idle ticket⟩ ∧
        replies journal = [r] ∧ c'.IsAtRest ∧ c'.codec = c.codec := by
  have outside : r.isFromOutside = true → ∃ (journal : Journal α) (c' : Connection),
      Runs ⟨c, program, .idle ticket⟩ journal ⟨c', next, .idle ticket⟩ ∧
        replies journal = [r] ∧ c'.IsAtRest ∧ c'.codec = c.codec := by
    intro h
    obtain ⟨journal, hrun, hreplies⟩ := runs_outside c ticket h hafter
    exact ⟨journal, c, hrun, hreplies, hrest, rfl⟩
  cases r with
  | expired | rested | entered | exited | drawn => exact outside rfl
  | flushed | closed => exact hr.elim
  | rekeyed =>
    obtain ⟨keys, rfl⟩ := Program.setKeys_of_rekeyed hafter
    have hturn : turn? ⟨c, .setKeys keys next, .idle ticket⟩ .proceed =
        some ⟨some (.setKeys keys), some .rekeyed, .idle ticket⟩ := rfl
    have hact : c.act 0 (some (.setKeys keys)) = some ({ c with keys := keys }, []) := rfl
    obtain ⟨journal, hrun, hreplies⟩ := runs_reply hturn rfl hact
    exact ⟨journal, _, hrun, hreplies, ⟨hrest.1, hrest.2, hrest.3, hrest.4, hrest.5⟩, rfl⟩
  | queued =>
    obtain ⟨contents, after, rfl⟩ := Program.queue_of_queued hafter
    cases hafter
    have hroom : c.hasOutboundRoom = true := by
      simp [Connection.hasOutboundRoom, hrest.outbound, hrest.room]
    obtain ⟨journal, hrun, hreplies⟩ := runs_queue hrest.isStopped hroom
    rw [hrest.outbound, List.nil_append] at hrun
    -- the connection does away with the message
    obtain ⟨journal', hrun', hreplies'⟩ := runs_work (hrest.leads_queued ⟨contents, none⟩)
    refine ⟨journal ++ journal', c, hrun.append hrun', ?_, hrest, rfl⟩
    rw [replies_append, hreplies, hreplies', List.append_nil]
  | heard e =>
    obtain ⟨limit, accepts, after, rfl⟩ := Program.await_of_heard hafter
    cases hafter
    -- the envelope comes first
    obtain ⟨body, hparse⟩ := hr
    obtain ⟨journal, hrun, hreplies⟩ := runs_work (hrest.leads_arrived (hparse c.keys))
    obtain ⟨journal', hrun', hreplies'⟩ := runs_await (c := { c with inbound := [e] }) rfl
    have hsame : { c with inbound := [] } = c := by
      obtain ⟨codec, capacity, delay, keys, outbound, inFlight, inbound, phase⟩ := c
      obtain rfl : inbound = [] := hrest.inbound
      rfl
    rw [hsame] at hrun'
    refine ⟨journal ++ journal', c, hrun.append hrun', ?_, hrest, rfl⟩
    rw [replies_append, hreplies, hreplies']
    rfl

/-- On an open connection a program can be played with any replies that are at hand. -/
theorem exists_run_of_play {rs : List Reply} {calls : List Call} (hrest : c.IsAtRest)
    (hplay : program.play rs = some (calls, next)) (hrs : ∀ r ∈ rs, r.IsAtHand c.codec) :
    ∃ (journal : Journal α) (c' : Connection),
      Runs ⟨c, program, .idle ticket⟩ journal ⟨c', next, .idle ticket⟩ ∧
        replies journal = rs ∧ c'.IsAtRest := by
  induction rs generalizing c program calls with
  | nil =>
    cases hplay
    exact ⟨[], c, .start, rfl, hrest⟩
  | cons r rs ih =>
    obtain ⟨hr, hrs⟩ := List.forall_mem_cons.mp hrs
    obtain ⟨call?, program', rest, hafter, hplay', -⟩ := Program.play_cons_iff.mp hplay
    obtain ⟨journal, c₁, hrun, hreplies, hrest₁, hcodec⟩ :=
      exists_run_of_after hrest hafter hr
    obtain ⟨journal', c₂, hrun', hreplies', hrest₂⟩ := ih hrest₁ hplay' (by rwa [hcodec])
    refine ⟨journal ++ journal', c₂, hrun.append hrun', ?_, hrest₂⟩
    rw [replies_append, hreplies, hreplies']
    rfl

/-- So whatever a program can come to with such replies, it comes to in some run. -/
theorem exists_run_of_play_done {rs : List Reply} {called : List Call} {a : α}
    (hrest : c.IsAtRest) (hplay : program.play rs = some (called, .done a))
    (hrs : ∀ r ∈ rs, r.IsAtHand c.codec) :
    ∃ journal p, Runs (.start c program) journal p ∧ p.connection.isStopped = false ∧
      p.program = .done a ∧ replies journal = rs ∧ calls journal = called := by
  obtain ⟨journal, c', hrun, hreplies, hrest'⟩ := exists_run_of_play hrest hplay hrs
  refine ⟨journal, _, hrun, hrest'.isStopped, rfl, hreplies, ?_⟩
  have hplay' := play_of_done hrun rfl rfl
  rw [hreplies] at hplay'
  exact (Prod.mk.inj (Option.some.inj (hplay'.symm.trans hplay))).1

end Caller

end MessageBus
