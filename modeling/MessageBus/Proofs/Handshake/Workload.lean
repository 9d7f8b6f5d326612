import Mathlib.Algebra.BigOperators.Fin
import Mathlib.Algebra.Order.BigOperators.Group.Finset
import MessageBus.Proofs.Handshake.Conversation

/-! # How many moves a conversation takes

    A message that waits becomes one body for each key, a body becomes a parcel
    for every station, and a parcel of another station becomes an envelope
    perhaps.  Each of these is a move.  What a station makes of an envelope is
    up to its caller, who spends `cost` moves on it at most, and on what follows
    from it.  So the moves that a bus can still make without its callers are
    bounded: its load, which every move of a station lowers.

    * `load_moves`: what a move does to the load.
    * `canMove_or_inbound`: a station that is not idle can do something, or its
      caller has an envelope to take. -/

namespace MessageBus

variable {ι : Type} [DecidableEq ι]

namespace Conversation

variable (v : Conversation ι) (cost : ι → Nat)

/-- The moves that a parcel of the station `i` takes at `j`, which drops it if it is its own. -/
def parcelCost (i j : ι) : Nat := if i = j then 1 else cost j + 2

/-- The moves that a body of a station takes. -/
def bodyCost [Fintype ι] (i : ι) : Nat := 1 + ∑ j, parcelCost cost i j

/-- The moves that a message of a station takes. -/
def messageCost [Fintype ι] (i : ι) : Nat := 2 + (v.keys i).size * bodyCost cost i

/-- The moves that the message on its way takes. -/
def flightCost [Fintype ι] (i : ι) : Option InFlight → Nat
  | some f => 1 + (f.bodies.length - f.sent) * bodyCost cost i
  | none => 0

/-- The moves that the envelope takes that was read last. -/
def handingCost (i : ι) : Phase → Nat
  | .serving _ (some _) => cost i + 1
  | _ => 0

/-- The moves that are left for a station. -/
def stationLoad [Fintype ι] (i : ι) (s : Station ι) : Nat :=
  (bif s.isAttached then 0 else 1) +
  s.connection.outbound.length * v.messageCost cost i +
  flightCost cost i s.connection.inFlight +
  (s.arriving.map fun p => parcelCost cost p.source i).sum +
  handingCost cost i s.connection.phase +
  s.connection.inbound.length * cost i

/-- The moves that are left on a bus. -/
def load [Fintype ι] (b : Bus ι) : Nat := ∑ i, v.stationLoad cost i (b i)

variable {v cost} {i j : ι}

/-- A body that arrives adds what it costs, at most. -/
theorem stationLoad_expect [Fintype ι] (s : Station ι) (p : Parcel ι) :
    v.stationLoad cost i (s.expect p) ≤ v.stationLoad cost i s + parcelCost cost p.source i := by
  unfold Station.expect
  split
  · simp only [stationLoad, List.map_append, List.sum_append, List.map_cons, List.map_nil,
      List.sum_singleton]
    omega
  · exact Nat.le_add_right ..

/-- The load changes by what the load of one station changes. -/
theorem load_update [Fintype ι] {b : Bus ι} {s : Station ι} {less more : Nat}
    (h : v.stationLoad cost i s + less ≤ v.stationLoad cost i (b i) + more) :
    v.load cost (Function.update b i s) + less ≤ v.load cost b + more := by
  have hsame : ∑ j ∈ Finset.univ.erase i, v.stationLoad cost j (Function.update b i s j)
      = ∑ j ∈ Finset.univ.erase i, v.stationLoad cost j (b j) := by
    refine Finset.sum_congr rfl fun j hj => ?_
    rw [Function.update_of_ne (Finset.ne_of_mem_erase hj)]
  rw [load, load, ← Finset.add_sum_erase _ _ (Finset.mem_univ i),
    ← Finset.add_sum_erase _ _ (Finset.mem_univ i), hsame, Function.update_self]
  omega

theorem load_carry [Fintype ι] (b : Bus ι) (p : Parcel ι) :
    v.load cost (Bus.carry b p) + 1 ≤ v.load cost b + bodyCost cost p.source := by
  have hle : v.load cost (Bus.carry b p)
      ≤ ∑ i, (v.stationLoad cost i (b i) + parcelCost cost p.source i) :=
    Finset.sum_le_sum fun i _ => stationLoad_expect (b i) p
  rw [Finset.sum_add_distrib] at hle
  rw [bodyCost]
  unfold load at *
  omega

end Conversation

namespace Bus

open Conversation

variable {v : Conversation ι} {cost : ι → Nat} {b b' : Bus ι} {i j : ι} {act : Act}
  {events : List (Event ι)}

/-- The moves that a move of a caller adds. -/
def Act.demand [Fintype ι] (v : Conversation ι) (cost : ι → Nat) (i : ι) : Act → Nat
  | .queue _ => v.messageCost cost i
  | _ => 0

/-- The moves that a move takes off. -/
def Act.relief (cost : ι → Nat) (i : ι) : Act → Nat
  | .queue _ | .setKeys _ => 0
  | .take => cost i
  | _ => 1

/-- Every move of a station takes one off the load at least. -/
theorem load_moves [Fintype ι] (h : Follows v b) (hm : Moves b i act b' events)
    (hposted : ∀ m, .posted m ∈ events → m.IsUnmistakable v.known) :
    v.load cost b' + act.relief cost i ≤ v.load cost b + act.demand v cost i := by
  have hi := h i
  cases hm with
  | attached hfresh =>
    refine load_update ?_
    simp only [stationLoad, Station.attach, hfresh, Act.relief, Act.demand, cond_true, cond_false]
    omega
  | queued =>
    refine load_update ?_
    simp only [stationLoad, Station.withConnection, List.length_append, List.length_singleton,
      Act.relief, Act.demand, Nat.add_mul]
    omega
  | rekeyed => exact load_update (Nat.le_refl _)
  | took _ hin =>
    refine load_update ?_
    simp only [stationLoad, Station.withConnection, hin, List.length_cons, Act.relief, Act.demand,
      Nat.add_mul]
    omega
  | @posted since handing occasion o rest bodies _ hfits hphase hnone hout hok =>
    have ho : o ∈ (b i).connection.outbound := hout ▸ List.mem_cons_self ..
    have hsize : bodies.length ≤ (v.keys i).size := by
      obtain ⟨m, -, hcontents⟩ := hi.outbound o ho
      have hall := hi.carries_of_prepare ho hcontents hfits hok
        (hposted _ (List.mem_singleton.mpr rfl))
      exact Nat.le_of_eq hall.length_eq.symm
    have hbodies := Nat.mul_le_mul_right (bodyCost cost i) hsize
    refine load_update ?_
    simp only [stationLoad, Station.withConnection, hnone, hout, List.length_cons, messageCost,
      flightCost, Nat.sub_zero, Act.relief, Act.demand, Nat.add_mul]
    omega
  | @rejected since handing occasion o rest err _ _ _ _ hout _ =>
    refine load_update ?_
    simp only [stationLoad, Station.withConnection, hout, List.length_cons, messageCost, Act.relief,
      Act.demand, Nat.add_mul]
    omega
  | @wrote since handing f body _ _ hflight hbody =>
    obtain ⟨hlt, -⟩ := List.getElem?_eq_some_iff.mp hbody
    have hleft : f.bodies.length - f.sent = f.bodies.length - (f.sent + 1) + 1 := by omega
    -- the body costs what its parcels cost, and a move
    have hput : v.load cost (put b i
          { (b i).connection with inFlight := some { f with sent := f.sent + 1 } })
        + bodyCost cost i ≤ v.load cost b + 0 := by
      refine load_update ?_
      simp only [stationLoad, Station.withConnection, hflight, flightCost, hleft, Nat.add_mul]
      omega
    exact (load_carry _ _).trans hput
  | finished _ _ hflight hsent =>
    refine load_update ?_
    simp only [stationLoad, Station.complete, hflight, flightCost, Act.relief, Act.demand]
    omega
  | @arrived since p rest _ harriving hphase =>
    have hp : v.IsBody p.source p.body := hi.arriving p (harriving ▸ List.mem_cons_self ..)
    refine load_update ?_
    simp only [stationLoad, Station.read, harriving, hphase, List.map_cons, List.sum_cons,
      Act.relief, Act.demand]
    cases hparse : (b i).connection.codec.parse (utf8 p.body) (b i).connection.keys with
    | none =>
      have hpositive : 1 ≤ parcelCost cost p.source i := by unfold parcelCost; split <;> omega
      simp only [handingCost]
      omega
    | some e =>
      -- a station reads nothing of its own
      rw [hi.codec] at hparse
      obtain ⟨m, hheard⟩ := isHeard_of_parse hp (hi.keys.imp_right And.left) hparse
      have hforeign : parcelCost cost p.source i = cost i + 2 := if_neg hheard.other
      simp only [handingCost, hforeign]
      omega
  | @surfaced since e _ hphase =>
    refine load_update ?_
    simp only [stationLoad, Station.withConnection, hphase, handingCost, List.length_append,
      List.length_singleton, Act.relief, Act.demand, Nat.add_mul]
    omega

/-! ## Something to do -/

/-- What a station does without its caller. -/
def Act.isOwn : Act → Bool
  | .attach | .prepare _ | .write | .finish | .arrive | .deliver => true
  | .queue _ | .setKeys _ | .take => false

/-- The station can do something without its caller. -/
def CanMove (b : Bus ι) (i : ι) : Prop :=
  ∃ act b' events, Act.isOwn act = true ∧ Moves b i act b' events

/-- A station with messages to write goes on with them. -/
theorem canMove_of_outgoing (hattached : (b i).isAttached = true)
    (hserving : (b i).connection.isServing = true)
    (h : (b i).connection.inFlight ≠ none ∨ (b i).connection.outbound ≠ []) : CanMove b i := by
  obtain ⟨since, handing, hphase⟩ := Connection.exists_phase_of_isServing hserving
  cases hflight : (b i).connection.inFlight with
  | some f =>
    by_cases hsent : f.bodies.length ≤ f.sent
    · exact ⟨.finish, _, _, rfl, .finished hattached hphase hflight hsent⟩
    · have hbody := List.getElem?_eq_getElem (Nat.lt_of_not_le hsent)
      exact ⟨.write, _, _, rfl, .wrote hattached hphase hflight hbody⟩
  | none =>
    cases hout : (b i).connection.outbound with
    | nil =>
      rw [hflight, hout] at h
      simp at h
    | cons o rest =>
      obtain ⟨occasion, hfits⟩ := Occasion.exists_fits (b i).connection.keys
      cases hprepare : (b i).connection.codec.prepare occasion o.contents (b i).connection.keys with
      | ok bodies =>
        exact ⟨.prepare occasion, _, _, rfl,
          .posted hattached hfits hphase hflight hout hprepare⟩
      | error err =>
        exact ⟨.prepare occasion, _, _, rfl,
          .rejected hattached hfits hphase hflight hout hprepare⟩

/-- A caller can queue a message, or the station can do something to make room for it. -/
theorem exists_queue_or_canMove (h : (b i).Follows v i) (hattached : (b i).isAttached = true)
    (o : Outgoing) : (∃ b' events, Moves b i (.queue o) b' events) ∨ CanMove b i := by
  by_cases hroom : (b i).connection.hasOutboundRoom = true
  · left
    exact ⟨_, _, .queued hattached (Connection.isStopped_of_isServing h.serving) hroom⟩
  · right
    refine canMove_of_outgoing hattached h.serving (.inr fun hnone => hroom ?_)
    rw [Connection.hasOutboundRoom, hnone]
    exact decide_eq_true h.roomy

/-- A station that is not idle can do something, or its caller has an envelope to take. -/
theorem canMove_or_inbound (h : (b i).Follows v i) (hattached : (b i).isAttached = true)
    (hbusy : (b i).isIdle = false) : CanMove b i ∨ (b i).connection.inbound ≠ [] := by
  by_cases hin : (b i).connection.inbound = []
  swap
  · exact .inr hin
  left
  have hserving := h.serving
  by_cases hgoing : (b i).connection.inFlight ≠ none ∨ (b i).connection.outbound ≠ []
  · exact canMove_of_outgoing hattached hserving hgoing
  simp only [not_or, not_not] at hgoing
  cases hphase : (b i).connection.phase with
  | serving since handing =>
    cases handing with
    | some e =>
      have hroom : (b i).connection.hasInboundRoom = true := by
        rw [Connection.hasInboundRoom, hin]
        exact decide_eq_true h.roomy
      exact ⟨.deliver, _, _, rfl, .surfaced hattached hphase hroom⟩
    | none =>
      cases harriving : (b i).arriving with
      | nil => simp [Station.isIdle, hgoing, hin, hphase, harriving] at hbusy
      | cons p rest => exact ⟨.arrive, _, _, rfl, .arrived hattached harriving hphase⟩
  | _ => simp [Connection.isServing, hphase] at hserving

end Bus

end MessageBus
