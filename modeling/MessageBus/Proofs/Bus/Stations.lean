import Mathlib.Data.List.Forall2
import Mathlib.Logic.Function.Basic
import MessageBus.Proofs.Codec.Sealing
import MessageBus.Proofs.Connection.Moves

/-! # Connections on one bus

    Any number of stations, each a connection with the bodies that are on the
    way to it.  Stations attach at any time, and no link fails: a body that a
    station writes goes to every station that is attached at that moment, itself
    included, and arrives there behind everything that was on the way before.

    A body travels as a parcel that also tells which station wrote it, and the
    number that its message has among the messages of that station.  The
    connections see nothing of that; it is there to say which message an
    envelope comes from.

    * `step_eq_some_iff`: what each move does, and when it is possible.
    * `codec_moves`: no move changes a codec. -/

namespace MessageBus

/-! ## The system -/

/-- A body on its way, with the message that it belongs to. -/
structure Parcel (ι : Type) where
  source : ι
  /-- How many messages the station had written before. -/
  number : Nat
  body : String

/-- A connection with what is on the way to it. -/
structure Station (ι : Type) where
  connection : Connection
  isAttached : Bool
  /-- How many messages are written completely. -/
  completed : Nat
  arriving : List (Parcel ι)
  /-- The parcel that was read last. -/
  latest : Option (Parcel ι)

/-- A message at the moment it becomes bodies. -/
structure Posting (ι : Type) where
  source : ι
  number : Nat
  keys : KeySet
  occasion : Occasion
  contents : Fields
  bodies : List String

/-- None of the bodies opens to an object with one of the keys that it was not sealed with. -/
def Posting.IsUnmistakable {ι : Type} (m : Posting ι) (others : List String) : Prop :=
  List.Forall₂
    (fun key body => ∀ other ∈ others, other ≠ key → Codec.openAny? (utf8 body) [other] = none)
    (m.keys.keys.filter Codec.isUsable) m.bodies

/-- With a single key there is no wrong one. -/
theorem Posting.isUnmistakable_of_single {ι : Type} {m : Posting ι} {key body : String}
    {others : List String} (hkeys : m.keys = ⟨[key]⟩) (hbodies : m.bodies = [body])
    (husable : Codec.isUsable key = true) (hothers : ∀ other ∈ others, other = key) :
    m.IsUnmistakable others := by
  rw [IsUnmistakable, hkeys, hbodies, List.filter_cons_of_pos husable, List.filter_nil]
  refine .cons (fun other hother hne => ?_) .nil
  exact absurd (hothers other hother) hne

namespace Station

variable {ι : Type}

/-- A station whose connection is about to be attached. -/
def fresh (codec : Codec) (capacity : Nat) (keys : KeySet) : Station ι :=
  ⟨.start codec capacity 0 keys 0, false, 0, [], none⟩

/-- The station once it is attached. -/
def attach (s : Station ι) : Station ι := { s with isAttached := true }

/-- The station after a move of its connection. -/
def withConnection (s : Station ι) (c : Connection) : Station ι := { s with connection := c }

/-- The station after its connection has written one more message. -/
def complete (s : Station ι) (c : Connection) : Station ι :=
  { s with connection := c, completed := s.completed + 1 }

/-- The station after its connection has read the parcel `p`, with `rest` still on the way. -/
def read (s : Station ι) (c : Connection) (p : Parcel ι) (rest : List (Parcel ι)) : Station ι :=
  { s with connection := c, arriving := rest, latest := some p }

/-- A parcel is on the way to the station. -/
def expect (s : Station ι) (p : Parcel ι) : Station ι :=
  if s.isAttached then { s with arriving := s.arriving ++ [p] } else s

@[simp] theorem connection_expect (s : Station ι) (p : Parcel ι) :
    (s.expect p).connection = s.connection := by
  unfold expect
  split <;> rfl

@[simp] theorem isAttached_expect (s : Station ι) (p : Parcel ι) :
    (s.expect p).isAttached = s.isAttached := by
  unfold expect
  split <;> rfl

end Station

/-- The stations of a bus. -/
abbrev Bus (ι : Type) := ι → Station ι

namespace Bus

/-- What a station does. -/
inductive Act where
  | attach
  /-- A caller queues a message. -/
  | queue (o : Outgoing)
  /-- A caller replaces the keys. -/
  | setKeys (keys : KeySet)
  /-- A caller takes the next envelope. -/
  | take
  /-- The next message is made into bodies, or dropped. -/
  | prepare (occasion : Occasion)
  /-- The next body goes over the bus. -/
  | write
  /-- The message on its way is written completely. -/
  | finish
  /-- The next parcel on the way is read. -/
  | arrive
  /-- The envelope that was read is put into the inbound queue. -/
  | deliver

/-- What a move made happen. -/
inductive Event (ι : Type) where
  | posted (m : Posting ι)
  | carried (p : Parcel ι)
  | read (reader : ι) (p : Parcel ι)
  /-- An envelope from a parcel is in the inbound queue of a station. -/
  | surfaced (reader : ι) (p : Parcel ι) (e : Envelope)

variable {ι : Type} [DecidableEq ι]

/-- The bus with one connection replaced. -/
def put (b : Bus ι) (i : ι) (c : Connection) : Bus ι :=
  Function.update b i ((b i).withConnection c)

omit [DecidableEq ι] in
/-- A parcel goes to every station that is attached. -/
def carry (b : Bus ι) (p : Parcel ι) : Bus ι := fun i => (b i).expect p

omit [DecidableEq ι] in
/-- The message that was made into bodies by the station `i` in state `s`. -/
def posting? (i : ι) (s : Station ι) (occasion : Occasion) : Connection.Event → Option (Event ι)
  | .prepared o bodies =>
    some (.posted ⟨i, s.completed, s.connection.keys, occasion, o.contents, bodies⟩)
  | _ => none

omit [DecidableEq ι] in
/-- The envelope that was put into the queue of the station `i` in state `s`. -/
def surfacing? (i : ι) (s : Station ι) : Connection.Event → Option (Event ι)
  | .delivered e => s.latest.map (.surfaced i · e)
  | _ => none

/-- The next state of the bus, and what happened, after a move of the station
    `i`; `none` for a move that is not possible. -/
def step (b : Bus ι) (i : ι) (act : Act) : Option (Bus ι × List (Event ι)) :=
  let s := b i
  let c := s.connection
  match s.isAttached, act with
  | false, .attach => some (Function.update b i s.attach, [])
  | true, .queue o => (c.step 0 (.queue o)).map fun (c, _) => (put b i c, [])
  | true, .setKeys keys => (c.step 0 (.setKeys keys)).map fun (c, _) => (put b i c, [])
  | true, .take => (c.step 0 .take).map fun (c, _) => (put b i c, [])
  | true, .prepare occasion =>
    if occasion.fits c.keys then
      (c.step 0 (.prepare occasion)).map fun (c, events) =>
        (put b i c, events.filterMap (posting? i s occasion))
    else none
  | true, .write =>
    match c.nextBody? with
    | some body =>
      (c.step 0 (.write true)).map fun (c, _) =>
        (carry (put b i c) ⟨i, s.completed, body⟩, [.carried ⟨i, s.completed, body⟩])
    | none => none
  | true, .finish =>
    (c.step 0 .finish).map fun (c, _) =>
      (Function.update b i (s.complete c), [])
  | true, .arrive =>
    match s.arriving with
    | p :: rest =>
      (c.step 0 (.arrive (utf8 p.body))).map fun (c, _) =>
        (Function.update b i (s.read c p rest), [.read i p])
    | [] => none
  | true, .deliver =>
    (c.step 0 .deliver).map fun (c, events) => (put b i c, events.filterMap (surfacing? i s))
  | _, _ => none

/-! ## Moves as a relation -/

/-- The moves of the station `i`, one constructor for each outcome. -/
inductive Moves (b : Bus ι) (i : ι) : Act → Bus ι → List (Event ι) → Prop where
  | attached :
      (b i).isAttached = false →
      Moves b i .attach (Function.update b i (b i).attach) []
  | queued {o : Outgoing} :
      (b i).isAttached = true → (b i).connection.isStopped = false →
      (b i).connection.hasOutboundRoom = true →
      Moves b i (.queue o)
        (put b i { (b i).connection with outbound := (b i).connection.outbound ++ [o] }) []
  | rekeyed {keys : KeySet} :
      (b i).isAttached = true →
      Moves b i (.setKeys keys) (put b i { (b i).connection with keys := keys }) []
  | took {e : Envelope} {rest : List Envelope} :
      (b i).isAttached = true → (b i).connection.inbound = e :: rest →
      Moves b i .take (put b i { (b i).connection with inbound := rest }) []
  | posted {since : Nat} {handing : Option Envelope} {occasion : Occasion} {o : Outgoing}
      {rest : List Outgoing} {bodies : List String} :
      (b i).isAttached = true → occasion.fits (b i).connection.keys = true →
      (b i).connection.phase = .serving since handing →
      (b i).connection.inFlight = none → (b i).connection.outbound = o :: rest →
      (b i).connection.codec.prepare occasion o.contents (b i).connection.keys = .ok bodies →
      Moves b i (.prepare occasion)
        (put b i { (b i).connection with
          outbound := rest, inFlight := some ⟨bodies, 0, o.ticket⟩ })
        [.posted ⟨i, (b i).completed, (b i).connection.keys, occasion, o.contents, bodies⟩]
  | rejected {since : Nat} {handing : Option Envelope} {occasion : Occasion} {o : Outgoing}
      {rest : List Outgoing} {err : BusError} :
      (b i).isAttached = true → occasion.fits (b i).connection.keys = true →
      (b i).connection.phase = .serving since handing →
      (b i).connection.inFlight = none → (b i).connection.outbound = o :: rest →
      (b i).connection.codec.prepare occasion o.contents (b i).connection.keys = .error err →
      Moves b i (.prepare occasion) (put b i { (b i).connection with outbound := rest }) []
  | wrote {since : Nat} {handing : Option Envelope} {f : InFlight} {body : String} :
      (b i).isAttached = true → (b i).connection.phase = .serving since handing →
      (b i).connection.inFlight = some f →
      f.bodies[f.sent]? = some body →
      Moves b i .write
        (carry (put b i { (b i).connection with inFlight := some { f with sent := f.sent + 1 } })
          ⟨i, (b i).completed, body⟩)
        [.carried ⟨i, (b i).completed, body⟩]
  | finished {since : Nat} {handing : Option Envelope} {f : InFlight} :
      (b i).isAttached = true → (b i).connection.phase = .serving since handing →
      (b i).connection.inFlight = some f → f.bodies.length ≤ f.sent →
      Moves b i .finish
        (Function.update b i ((b i).complete { (b i).connection with inFlight := none })) []
  | arrived {since : Nat} {p : Parcel ι} {rest : List (Parcel ι)} :
      (b i).isAttached = true → (b i).arriving = p :: rest →
      (b i).connection.phase = .serving since none →
      Moves b i .arrive
        (Function.update b i ((b i).read { (b i).connection with
            phase := .serving since
              ((b i).connection.codec.parse (utf8 p.body) (b i).connection.keys) } p rest))
        [.read i p]
  | surfaced {since : Nat} {e : Envelope} :
      (b i).isAttached = true → (b i).connection.phase = .serving since (some e) →
      (b i).connection.hasInboundRoom = true →
      Moves b i .deliver
        (put b i { (b i).connection with
          inbound := (b i).connection.inbound ++ [e], phase := .serving since none })
        ((b i).latest.toList.map (.surfaced i · e))

/-- Every possible move is one of the listed ones. -/
theorem moves_of_step {b b' : Bus ι} {i : ι} {act : Act} {events : List (Event ι)}
    (h : step b i act = some (b', events)) : Moves b i act b' events := by
  cases hattached : (b i).isAttached with
  | false =>
    cases act with
    | attach =>
      simp only [step, hattached] at h
      cases h
      exact .attached hattached
    | _ => simp [step, hattached] at h
  | true =>
    cases act with
    | attach => simp [step, hattached] at h
    | queue o =>
      simp only [step, hattached] at h
      obtain ⟨⟨c, done⟩, hc, heq⟩ := Option.map_eq_some_iff.mp h
      cases heq
      cases Connection.moves_of_step hc with
      | queued hrun hroom => exact .queued hattached hrun hroom
    | setKeys keys =>
      simp only [step, hattached] at h
      obtain ⟨⟨c, done⟩, hc, heq⟩ := Option.map_eq_some_iff.mp h
      cases heq
      cases Connection.moves_of_step hc with
      | rekeyed => exact .rekeyed hattached
    | take =>
      simp only [step, hattached] at h
      obtain ⟨⟨c, done⟩, hc, heq⟩ := Option.map_eq_some_iff.mp h
      cases heq
      cases Connection.moves_of_step hc with
      | took hin => exact .took hattached hin
    | prepare occasion =>
      simp only [step, hattached] at h
      split at h
      · next hfits =>
        obtain ⟨⟨c, done⟩, hc, heq⟩ := Option.map_eq_some_iff.mp h
        cases heq
        cases Connection.moves_of_step hc with
        | prepared hphase hflight hout hok =>
          exact .posted hattached hfits hphase hflight hout hok
        | rejected hphase hflight hout herr =>
          exact .rejected hattached hfits hphase hflight hout herr
      · cases h
    | write =>
      simp only [step, hattached] at h
      split at h
      · next body hbody =>
        obtain ⟨⟨c, done⟩, hc, heq⟩ := Option.map_eq_some_iff.mp h
        cases heq
        cases Connection.moves_of_step hc with
        | wrote hphase hflight hnext =>
          -- what the connection wrote is the body that it had next
          rw [Connection.nextBody?, hflight, Option.bind_some] at hbody
          exact .wrote hattached hphase hflight hbody
      · cases h
    | finish =>
      simp only [step, hattached] at h
      obtain ⟨⟨c, done⟩, hc, heq⟩ := Option.map_eq_some_iff.mp h
      cases heq
      cases Connection.moves_of_step hc with
      | finished hphase hflight hsent => exact .finished hattached hphase hflight hsent
    | arrive =>
      simp only [step, hattached] at h
      split at h
      · next p rest harriving =>
        obtain ⟨⟨c, done⟩, hc, heq⟩ := Option.map_eq_some_iff.mp h
        cases heq
        cases Connection.moves_of_step hc with
        | arrived hphase => exact .arrived hattached harriving hphase
      · cases h
    | deliver =>
      simp only [step, hattached] at h
      obtain ⟨⟨c, done⟩, hc, heq⟩ := Option.map_eq_some_iff.mp h
      cases heq
      cases Connection.moves_of_step hc with
      | @delivered since e hphase hroom =>
        have hevents : [Connection.Event.delivered e].filterMap (surfacing? i (b i))
            = (b i).latest.toList.map (Event.surfaced i · e) := by
          cases hlatest : (b i).latest <;> simp [surfacing?, hlatest]
        rw [hevents]
        exact .surfaced hattached hphase hroom

/-- Every listed move is possible. -/
theorem step_of_moves {b b' : Bus ι} {i : ι} {act : Act} {events : List (Event ι)}
    (h : Moves b i act b' events) : step b i act = some (b', events) := by
  cases h with
  | attached hattached => simp only [step, hattached]
  | queued hattached hrun hroom =>
    simp [step, hattached, Connection.step, hrun, hroom]
  | rekeyed hattached => simp only [step, hattached, Connection.step, Option.map_some]
  | took hattached hin => simp only [step, hattached, Connection.step, hin, Option.map_some]
  | posted hattached hfits hphase hflight hout hok =>
    simp [step, hattached, hfits, Connection.step, Connection.prepareNext, hphase, hflight, hout,
      hok, posting?]
  | rejected hattached hfits hphase hflight hout herr =>
    simp [step, hattached, hfits, Connection.step, Connection.prepareNext, hphase, hflight, hout,
      herr, posting?]
  | wrote hattached hphase hflight hbody =>
    simp [step, hattached, Connection.step, Connection.nextBody?, Connection.writeNext, hphase,
      hflight, hbody]
  | finished hattached hphase hflight hsent =>
    simp [step, hattached, Connection.step, Connection.finishMessage, hphase, hflight, hsent]
  | arrived hattached harriving hphase =>
    simp only [step, hattached, harriving, Connection.step, Connection.receiveBody, hphase,
      Option.map_some]
  | surfaced hattached hphase hroom =>
    cases hlatest : (b i).latest <;>
      simp [step, hattached, Connection.step, Connection.deliverEnvelope, hphase, hroom,
        surfacing?, hlatest]

/-- What each move does, and when it is possible. -/
theorem step_eq_some_iff {b b' : Bus ι} {i : ι} {act : Act} {events : List (Event ι)} :
    step b i act = some (b', events) ↔ Moves b i act b' events :=
  ⟨moves_of_step, step_of_moves⟩

/-! ## The stations after a move -/

section put
variable (b : Bus ι) (i j : ι) (c : Connection)

@[simp] theorem completed_put : (put b i c j).completed = (b j).completed := by
  by_cases h : j = i
  · subst h
    simp [put, Station.withConnection]
  · simp [put, h]

@[simp] theorem arriving_put : (put b i c j).arriving = (b j).arriving := by
  by_cases h : j = i
  · subst h
    simp [put, Station.withConnection]
  · simp [put, h]

@[simp] theorem latest_put : (put b i c j).latest = (b j).latest := by
  by_cases h : j = i
  · subst h
    simp [put, Station.withConnection]
  · simp [put, h]

@[simp] theorem isAttached_put : (put b i c j).isAttached = (b j).isAttached := by
  by_cases h : j = i
  · subst h
    simp [put, Station.withConnection]
  · simp [put, h]

@[simp] theorem connection_put_self : (put b i c i).connection = c := by
  simp [put, Station.withConnection]

theorem put_of_ne {i j : ι} (h : j ≠ i) : put b i c j = b j := Function.update_of_ne h ..

end put

section carry
variable (b : Bus ι) (p : Parcel ι) (j : ι)

omit [DecidableEq ι]

@[simp] theorem connection_carry : (carry b p j).connection = (b j).connection :=
  (b j).connection_expect p

@[simp] theorem completed_carry : (carry b p j).completed = (b j).completed := by
  rw [carry, Station.expect]
  split <;> rfl

@[simp] theorem latest_carry : (carry b p j).latest = (b j).latest := by
  rw [carry, Station.expect]
  split <;> rfl

@[simp] theorem isAttached_carry : (carry b p j).isAttached = (b j).isAttached :=
  (b j).isAttached_expect p

theorem arriving_carry :
    (carry b p j).arriving
      = if (b j).isAttached then (b j).arriving ++ [p] else (b j).arriving := by
  rw [carry, Station.expect]
  split <;> rfl

end carry

/-- To another station nothing happens, except that a body is on the way to it. -/
theorem bystander_moves {b b' : Bus ι} {i j : ι} {act : Act} {events : List (Event ι)}
    (h : Moves b i act b' events) (hj : j ≠ i) : b' j = b j ∨ ∃ p, b' j = (b j).expect p := by
  cases h with
  | @wrote _ _ _ body =>
    refine .inr ⟨⟨i, (b i).completed, body⟩, ?_⟩
    rw [carry, put_of_ne _ _ hj]
  | _ => exact .inl (Function.update_of_ne hj ..)

/-- No move changes a codec. -/
theorem codec_moves {b b' : Bus ι} {i : ι} {act : Act} {events : List (Event ι)}
    (h : Moves b i act b' events) (j : ι) :
    (b' j).connection.codec = (b j).connection.codec := by
  by_cases hj : j = i
  · subst hj
    cases h <;> simp [Station.attach, Station.complete, Station.read]
  · cases h <;> simp [hj, put_of_ne]

/-! ## Runs -/

omit [DecidableEq ι] in
/-- The stations before any of them is attached. -/
def start (codec : ι → Codec) (capacity : ι → Nat) (keys : ι → KeySet) : Bus ι := fun i =>
  .fresh (codec i) (capacity i) (keys i)

/-- A trace of a bus. -/
abbrev Trace (ι : Type) := List (Stage (Bus ι) (ι × Act) (Event ι))

/-- A run of a bus: whatever is possible may happen. -/
abbrev Runs (b₀ : Bus ι) (trace : Trace ι) (b : Bus ι) : Prop :=
  Run (fun b move => step b move.1 move.2) b₀ trace b

end Bus

end MessageBus
