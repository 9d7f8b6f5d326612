import MessageBus.Connection.State
import MessageBus.Proofs.Run

/-! # The moves of a connection as a relation

    `Connection.step` decides which move is possible and computes what it
    leads to.  `Connection.Moves` says the same with one constructor per
    outcome, guards included.  An invariant of a connection is proved by cases
    on `Moves`, and nothing below this module opens `step`.

    * `moves_of_step`: every possible move is one of the listed ones.
    * `Runs`: the runs of a connection under any interleaving of what callers
      and links do, at any moments. -/

namespace MessageBus.Connection

/-- `Moves now c a c' events`: the move `a` at the moment `now` leads from `c`
    to `c'` and makes `events` happen. -/
inductive Moves (now : Nat) (c : Connection) : Action → Connection → List Event → Prop where
  | queued {o : Outgoing} :
      c.isStopped = false → c.hasOutboundRoom = true →
      Moves now c (.queue o) { c with outbound := c.outbound ++ [o] } []
  | rekeyed {keys : KeySet} : Moves now c (.setKeys keys) { c with keys := keys } []
  | took {e : Envelope} {rest : List Envelope} :
      c.inbound = e :: rest →
      Moves now c .take { c with inbound := rest } [.took e]
  | prepared {since : Nat} {handing : Option Envelope} {o : Outgoing} {rest : List Outgoing}
      {occasion : Occasion} {bodies : List String} :
      c.phase = .serving since handing → c.inFlight = none → c.outbound = o :: rest →
      c.codec.prepare occasion o.contents c.keys = .ok bodies →
      Moves now c (.prepare occasion)
        { c with outbound := rest, inFlight := some ⟨bodies, 0, o.ticket⟩ } [.prepared o bodies]
  | rejected {since : Nat} {handing : Option Envelope} {o : Outgoing} {rest : List Outgoing}
      {occasion : Occasion} {err : BusError} :
      c.phase = .serving since handing → c.inFlight = none → c.outbound = o :: rest →
      c.codec.prepare occasion o.contents c.keys = .error err →
      Moves now c (.prepare occasion)
        { c with outbound := rest } [.rejected o, .abandoned o.ticket]
  | wrote {since : Nat} {handing : Option Envelope} {f : InFlight} {body : String} :
      c.phase = .serving since handing → c.inFlight = some f → f.bodies[f.sent]? = some body →
      Moves now c (.write true)
        { c with inFlight := some { f with sent := f.sent + 1 } } [.wrote body]
  | writeFailed {since : Nat} {handing : Option Envelope} {f : InFlight} {body : String} :
      c.phase = .serving since handing → c.inFlight = some f → f.bodies[f.sent]? = some body →
      Moves now c (.write false) { c with phase := c.afterFailure now since } []
  | finished {since : Nat} {handing : Option Envelope} {f : InFlight} :
      c.phase = .serving since handing → c.inFlight = some f → f.bodies.length ≤ f.sent →
      Moves now c .finish { c with inFlight := none } [.completed f.ticket]
  | arrived {since : Nat} {body : Bytes} :
      c.phase = .serving since none →
      Moves now c (.arrive body)
        { c with phase := .serving since (c.codec.parse body c.keys) } []
  | delivered {since : Nat} {e : Envelope} :
      c.phase = .serving since (some e) → c.hasInboundRoom = true →
      Moves now c .deliver
        { c with inbound := c.inbound ++ [e], phase := .serving since none } [.delivered e]
  | lost {since : Nat} :
      c.phase = .serving since none →
      Moves now c .loseLink { c with phase := c.afterFailure now since } []
  | resumed {due : Nat} :
      c.phase = .pausing due → due ≤ now → Moves now c .resume { c with phase := .opening } []
  | opened : c.phase = .opening → Moves now c (.opened true) { c with phase := .announcing } []
  | refused :
      c.phase = .opening →
      Moves now c (.opened false) { c with phase := .pausing (now + c.delay) } []
  | announced :
      c.phase = .announcing → c.hasInboundRoom = true →
      Moves now c .announce
        { c with inbound := c.inbound ++ [.reconnected], phase := .serving now none }
        [.delivered .reconnected]
  | cancelled :
      c.isStopped = false →
      Moves now c .cancel { c with outbound := [], inFlight := none, phase := .stopped }
        ((c.inFlight.toList.map (·.ticket) ++ c.outbound.map (·.ticket)).map .abandoned)

/-- Every possible move is one of the listed ones. -/
theorem moves_of_step {now : Nat} {c c' : Connection} {a : Action} {events : List Event}
    (h : c.step now a = some (c', events)) : Moves now c a c' events := by
  cases a with
  | queue o =>
    simp only [step] at h
    split at h
    · next hguard =>
      simp only [Bool.and_eq_true, Bool.not_eq_true'] at hguard
      cases h
      exact .queued hguard.1 hguard.2
    · cases h
  | setKeys keys => cases h; exact .rekeyed
  | take =>
    simp only [step] at h
    split at h
    · next hin => cases h; exact .took hin
    · cases h
  | prepare occasion =>
    simp only [step, prepareNext] at h
    split at h
    · next hphase hflight hout =>
      split at h
      · next hok => cases h; exact .prepared hphase hflight hout hok
      · next herr => cases h; exact .rejected hphase hflight hout herr
    · cases h
  | write ok =>
    simp only [step, writeNext] at h
    split at h
    · next hphase hflight =>
      split at h
      · cases h
      · next hbody =>
        split at h
        · next hok => subst hok; cases h; exact .wrote hphase hflight hbody
        · next hok =>
          simp only [Bool.not_eq_true] at hok
          subst hok; cases h; exact .writeFailed hphase hflight hbody
    · cases h
  | finish =>
    simp only [step, finishMessage] at h
    split at h
    · next hphase hflight =>
      split at h
      · next hsent => cases h; exact .finished hphase hflight hsent
      · cases h
    · cases h
  | arrive body =>
    simp only [step, receiveBody] at h
    split at h
    · next hphase => cases h; exact .arrived hphase
    · cases h
  | deliver =>
    simp only [step, deliverEnvelope] at h
    split at h
    · next hphase =>
      split at h
      · next hroom => cases h; exact .delivered hphase hroom
      · cases h
    · cases h
  | loseLink =>
    simp only [step, loseLink] at h
    split at h
    · next hphase => cases h; exact .lost hphase
    · cases h
  | resume =>
    simp only [step, resume] at h
    split at h
    · next hphase =>
      split at h
      · next hdue => cases h; exact .resumed hphase hdue
      · cases h
    · cases h
  | opened ok =>
    simp only [step, linkOpened] at h
    split at h
    · next hphase =>
      cases h
      cases ok with
      | true => exact .opened hphase
      | false => exact .refused hphase
    · cases h
  | announce =>
    simp only [step, announceLink] at h
    split at h
    · next hphase =>
      split at h
      · next hroom => cases h; exact .announced hphase hroom
      · cases h
    · cases h
  | cancel =>
    simp only [step, shutDown] at h
    split at h
    · cases h
    · next hrunning =>
      have hmove : Moves now c .cancel _ _ := .cancelled (by simpa using hrunning)
      cases hflight : c.inFlight with
      | none => rw [hflight] at h hmove; cases h; exact hmove
      | some f => rw [hflight] at h hmove; cases h; exact hmove

/-- A shutdown happens to the messages that are left and to nothing else. -/
theorem filterMap_abandoned {α : Type} {f : Event → Option α}
    (hf : ∀ ticket, f (.abandoned ticket) = none) (tickets : List (Option Nat)) :
    (tickets.map Event.abandoned).filterMap f = [] := by
  induction tickets with
  | nil => rfl
  | cons ticket rest ih => rw [List.map_cons, List.filterMap_cons, hf, ih]

/-- The keys that a connection has after a move. -/
def keysAfter (c : Connection) : Action → KeySet
  | .setKeys keys => keys
  | _ => c.keys

/-- Only a caller replaces the keys. -/
theorem keys_moves {now : Nat} {c c' : Connection} {a : Action} {events : List Event}
    (hm : Moves now c a c' events) : c'.keys = c.keysAfter a := by
  cases hm <;> rfl

theorem exists_phase_of_isServing {c : Connection} (h : c.isServing = true) :
    ∃ since handing, c.phase = .serving since handing := by
  unfold isServing at h
  split at h
  · exact ⟨_, _, ‹_›⟩
  · cases h

theorem isStopped_of_isServing {c : Connection} (h : c.isServing = true) :
    c.isStopped = false := by
  obtain ⟨since, handing, hphase⟩ := exists_phase_of_isServing h
  simp only [isStopped, hphase]

/-- Whether a move is made by a caller, and not by the connection or its link. -/
def Action.isByCaller : Action → Bool
  | queue _ | setKeys _ | take => true
  | _ => false

/-- The step function of a connection for moves that carry their moment. -/
def timedStep (c : Connection) (m : Nat × Action) : Option (Connection × List Event) :=
  c.step m.1 m.2

/-- A trace of a connection. -/
abbrev Trace := List (Stage Connection (Nat × Action) Event)

/-- A run of a connection: whatever is possible may happen, at any moments. -/
abbrev Runs (c₀ : Connection) (trace : Trace) (c : Connection) : Prop :=
  Run timedStep c₀ trace c

end MessageBus.Connection
