import MessageBus.Proofs.Bus.Stations
import MessageBus.Proofs.Codec.RoundTrip

/-! # How often a message surfaces

    A message goes over the bus as one body for each usable key, or as a single
    one in the clear, and every station reads the bodies one by one.  Nobody
    remembers which bodies belong together.  So what surfaces of a message at
    another station is an envelope for each of its bodies that the station can
    read, and with several keys in common that is more than one.

    Along a run we compare, for every message and every station, the bodies that
    were carried, those that the station has read or has yet to read, and the
    envelopes that surfaced.

    * `traffic_moves`: every move keeps the account of the bodies.
    * `surfaced_le_readable`: how many envelopes surface of a message.
    * `not_surfaced_once`: a message may surface more than once. -/

namespace MessageBus

/-- The message that a parcel belongs to: who wrote it, and its number there. -/
def Parcel.message {ι : Type} (p : Parcel ι) : ι × Nat := (p.source, p.number)

/-- The message that was made into bodies. -/
def Posting.message {ι : Type} (m : Posting ι) : ι × Nat := (m.source, m.number)

namespace Bus

variable {ι : Type} [DecidableEq ι]

/-! ## Reading a trace -/

/-- The body of a message that an event puts on the bus. -/
def Event.carried? (message : ι × Nat) : Event ι → Option String
  | .carried p => if p.message = message then some p.body else none
  | _ => none

/-- The body of a message that a station reads. -/
def Event.read? (j : ι) (message : ι × Nat) : Event ι → Option String
  | .read reader p => if reader = j ∧ p.message = message then some p.body else none
  | _ => none

/-- The envelope of a message that surfaces at a station. -/
def Event.surfaced? (j : ι) (message : ι × Nat) : Event ι → Option Envelope
  | .surfaced reader p e => if reader = j ∧ p.message = message then some e else none
  | _ => none

/-- The bodies of a message that went over the bus. -/
def carriedOf (message : ι × Nat) (events : List (Event ι)) : List String :=
  events.filterMap (Event.carried? message)

/-- The bodies of a message that a station has read. -/
def readOf (j : ι) (message : ι × Nat) (events : List (Event ι)) : List String :=
  events.filterMap (Event.read? j message)

/-- The envelopes of a message that are, or were, in the inbound queue of a station. -/
def surfacedOf (j : ι) (message : ι × Nat) (events : List (Event ι)) : List Envelope :=
  events.filterMap (Event.surfaced? j message)

/-- The bodies of a message that are on the way to a station. -/
def arrivingOf (message : ι × Nat) (s : Station ι) : List String :=
  (s.arriving.filter fun p => p.message = message).map (·.body)

omit [DecidableEq ι] in
/-- The bodies of the message at hand that a station has written. -/
def sentOf (s : Station ι) : List String :=
  match s.connection.inFlight with
  | some f => f.bodies.take f.sent
  | none => []

/-- The envelope of a message that waits for room in the inbound queue. -/
def waitingOf (message : ι × Nat) (s : Station ι) : List Envelope :=
  match s.connection.phase with
  | .serving _ (some e) => if s.latest.map Parcel.message = some message then [e] else []
  | _ => []

/-! ## The account of the bodies -/

/-- What was carried of each message, and where it is. -/
structure Traffic (events : List (Event ι)) (b : Bus ι) : Prop where
  /-- Nothing was carried of messages to come. -/
  later : ∀ i n, (b i).completed < n → carriedOf (i, n) events = []
  /-- Of the message at hand the bodies that are written were carried. -/
  current : ∀ i, carriedOf (i, (b i).completed) events = sentOf (b i)
  /-- A message that became bodies is at hand, or done with. -/
  posted : ∀ m, .posted m ∈ events →
    (m.number < (b m.source).completed ∧ carriedOf m.message events <+: m.bodies) ∨
    (m.number = (b m.source).completed ∧
      ∃ f, (b m.source).connection.inFlight = some f ∧ f.bodies = m.bodies)
  /-- What a station has read or has yet to read was carried, each body once. -/
  reach : ∀ j message,
    (readOf j message events ++ arrivingOf message (b j)).Sublist (carriedOf message events)

variable {b b' : Bus ι} {events new : List (Event ι)} {i j : ι} {message : ι × Nat}

@[simp] theorem carriedOf_append :
    carriedOf message (events ++ new) = carriedOf message events ++ carriedOf message new :=
  List.filterMap_append ..

@[simp] theorem readOf_append :
    readOf j message (events ++ new) = readOf j message events ++ readOf j message new :=
  List.filterMap_append ..

@[simp] theorem surfacedOf_append :
    surfacedOf j message (events ++ new)
      = surfacedOf j message events ++ surfacedOf j message new :=
  List.filterMap_append ..

section singletons
variable (m : Posting ι) (p : Parcel ι) (e : Envelope)

@[simp] theorem carriedOf_carried :
    carriedOf message [.carried p] = if p.message = message then [p.body] else [] := by
  by_cases h : p.message = message <;> simp [carriedOf, Event.carried?, h]

@[simp] theorem carriedOf_posted : carriedOf message [.posted m] = [] := rfl

@[simp] theorem carriedOf_read : carriedOf message [.read i p] = [] := rfl

@[simp] theorem carriedOf_surfaced : carriedOf message [.surfaced i p e] = [] := rfl

@[simp] theorem readOf_carried : readOf j message [.carried p] = [] := rfl

@[simp] theorem readOf_posted : readOf j message [.posted m] = [] := rfl

@[simp] theorem readOf_read :
    readOf j message [.read i p] = if i = j ∧ p.message = message then [p.body] else [] := by
  by_cases h : i = j ∧ p.message = message <;> simp [readOf, Event.read?, h]

@[simp] theorem readOf_surfaced : readOf j message [.surfaced i p e] = [] := rfl

@[simp] theorem surfacedOf_surfaced :
    surfacedOf j message [.surfaced i p e] = if i = j ∧ p.message = message then [e] else [] := by
  by_cases h : i = j ∧ p.message = message <;> simp [surfacedOf, Event.surfaced?, h]

@[simp] theorem surfacedOf_carried : surfacedOf j message [.carried p] = [] := rfl

@[simp] theorem surfacedOf_posted : surfacedOf j message [.posted m] = [] := rfl

@[simp] theorem surfacedOf_read : surfacedOf j message [.read i p] = [] := rfl

end singletons

/-- At the start nothing was carried. -/
theorem Traffic.start (h : ∀ i, (b i).connection.inFlight = none ∧ (b i).arriving = []) :
    Traffic [] b where
  later := fun _ _ _ => rfl
  current := fun i => by rw [sentOf, (h i).1]; rfl
  posted := fun m hm => by cases hm
  reach := fun j message => by simp [arrivingOf, (h j).2, readOf, carriedOf]

/-- A move that makes no bodies, writes nothing and reads nothing. -/
theorem Traffic.idle (h : Traffic events b)
    (hsame : ∀ j, (b' j).completed = (b j).completed ∧
      (b' j).connection.inFlight = (b j).connection.inFlight ∧ (b' j).arriving = (b j).arriving)
    (hcarried : ∀ message, carriedOf message new = [])
    (hread : ∀ j message, readOf j message new = []) (hposted : ∀ m, .posted m ∉ new) :
    Traffic (events ++ new) b' where
  later := fun i n hn => by
    rw [carriedOf_append, hcarried, List.append_nil]
    exact h.later i n ((hsame i).1 ▸ hn)
  current := fun i => by
    rw [carriedOf_append, hcarried, List.append_nil, (hsame i).1, h.current i, sentOf, sentOf,
      (hsame i).2.1]
  posted := fun m hm => by
    rw [carriedOf_append, hcarried, List.append_nil, (hsame m.source).1, (hsame m.source).2.1]
    exact h.posted m ((List.mem_append.mp hm).resolve_right (hposted m))
  reach := fun j message => by
    rw [readOf_append, carriedOf_append, hread, hcarried, List.append_nil, List.append_nil,
      arrivingOf, (hsame j).2.2]
    exact h.reach j message

/-- A connection that keeps its message at hand, with nothing carried and nothing read. -/
theorem Traffic.put (h : Traffic events b) {c : Connection}
    (hflight : c.inFlight = (b i).connection.inFlight)
    (hcarried : ∀ message, carriedOf message new = [])
    (hread : ∀ j message, readOf j message new = []) (hposted : ∀ m, .posted m ∉ new) :
    Traffic (events ++ new) (put b i c) := by
  refine h.idle (fun j => ⟨completed_put .., ?_, arriving_put ..⟩) hcarried hread hposted
  by_cases hj : j = i
  · rw [hj, connection_put_self, hflight]
  · rw [put_of_ne _ _ hj]

/-- A message is made into bodies when none is at hand. -/
theorem traffic_posted (h : Traffic events b) (hnone : (b i).connection.inFlight = none)
    {c : Connection} {bodies : List String} {ticket : Option Nat}
    (hflight : c.inFlight = some ⟨bodies, 0, ticket⟩) {keys : KeySet} {occasion : Occasion}
    {contents : Fields} :
    Traffic (events ++ [.posted ⟨i, (b i).completed, keys, occasion, contents, bodies⟩])
      (put b i c) where
  later := fun j n hn => by
    rw [completed_put] at hn
    simpa using h.later j n hn
  current := fun j => by
    have hsent : sentOf (put b i c j) = sentOf (b j) := by
      by_cases hj : j = i
      · subst hj
        rw [sentOf, sentOf, connection_put_self, hflight, hnone]
        rfl
      · rw [put_of_ne _ _ hj]
    rw [completed_put, hsent, ← h.current j]
    simp
  posted := fun m hm => by
    rw [completed_put, carriedOf_append, carriedOf_posted, List.append_nil]
    rcases List.mem_append.mp hm with hm | hm
    · rcases h.posted m hm with hdone | ⟨hnumber, f, hf, hbodies⟩
      · exact .inl hdone
      · -- no message of this station was at hand
        have hne : m.source ≠ i := by
          rintro rfl
          rw [hnone] at hf
          cases hf
        rw [put_of_ne _ _ hne]
        exact .inr ⟨hnumber, f, hf, hbodies⟩
    · cases List.mem_singleton.mp hm
      exact .inr ⟨rfl, _, by rw [connection_put_self, hflight], rfl⟩
  reach := fun j message => by
    have hsame : arrivingOf message (put b i c j) = arrivingOf message (b j) := by
      rw [arrivingOf, arrivingOf, arriving_put]
    rw [hsame]
    simpa using h.reach j message

/-- The next body of the message at hand goes over the bus. -/
theorem traffic_wrote (h : Traffic events b) {f : InFlight} {body : String}
    (hflight : (b i).connection.inFlight = some f) (hbody : f.bodies[f.sent]? = some body)
    {c : Connection} (hnext : c.inFlight = some { f with sent := f.sent + 1 }) :
    Traffic (events ++ [.carried ⟨i, (b i).completed, body⟩])
      (carry (put b i c) ⟨i, (b i).completed, body⟩) where
  later := fun j n hn => by
    rw [completed_carry, completed_put] at hn
    have hother : (i, (b i).completed) ≠ (j, n) := by
      rintro ⟨⟩
      exact absurd hn (Nat.lt_irrefl _)
    rw [carriedOf_append, h.later j n hn]
    simp [Parcel.message, hother]
  current := fun j => by
    rw [completed_carry, completed_put, carriedOf_append, h.current j, sentOf, sentOf,
      connection_carry]
    by_cases hj : j = i
    · subst hj
      rw [connection_put_self, hnext, hflight]
      simp [Parcel.message, List.take_add_one, hbody]
    · have hother : (i, (b i).completed) ≠ (j, (b j).completed) := by
        rintro ⟨⟩
        exact hj rfl
      rw [put_of_ne _ _ hj]
      simp [Parcel.message, hother]
  posted := fun m hm => by
    rw [completed_carry, completed_put, connection_carry, carriedOf_append]
    have hm : .posted m ∈ events := by simpa using hm
    rcases h.posted m hm with ⟨hlt, hprefix⟩ | ⟨hnumber, g, hg, hbodies⟩
    · have hother : (i, (b i).completed) ≠ m.message := by
        intro heq
        obtain ⟨hsource, hnumber⟩ := Prod.mk.inj heq
        rw [← hnumber, ← hsource] at hlt
        exact absurd hlt (Nat.lt_irrefl _)
      refine .inl ⟨hlt, ?_⟩
      simpa [Parcel.message, hother] using hprefix
    · refine .inr ⟨hnumber, ?_⟩
      by_cases hsource : m.source = i
      · rw [hsource, hflight] at hg
        cases hg
        refine ⟨{ f with sent := f.sent + 1 }, ?_, hbodies⟩
        rw [hsource, connection_put_self, hnext]
      · rw [put_of_ne _ _ hsource]
        exact ⟨g, hg, hbodies⟩
  reach := fun j message => by
    have hreach := h.reach j message
    rw [readOf_append, readOf_carried, List.append_nil, carriedOf_append, arrivingOf,
      arriving_carry, isAttached_put, arriving_put]
    split
    · -- the body is the last one on the way
      rw [List.filter_append, List.map_append, ← List.append_assoc]
      refine hreach.append ?_
      by_cases hmessage : (i, (b i).completed) = message
      · simp [Parcel.message, hmessage]
      · simp [Parcel.message, hmessage]
    · exact hreach.trans (List.sublist_append_left ..)

/-- The message at hand is done with. -/
theorem traffic_finished (h : Traffic events b) {f : InFlight}
    (hflight : (b i).connection.inFlight = some f) {c : Connection} (hnone : c.inFlight = none) :
    Traffic events (Function.update b i ((b i).complete c)) := by
  have hself : ∀ s : Station ι, Function.update b i s i = s := fun s => Function.update_self ..
  have hother : ∀ {j}, j ≠ i → ∀ s : Station ι, Function.update b i s j = b j :=
    fun hj s => Function.update_of_ne hj ..
  refine ⟨?_, ?_, ?_, ?_⟩
  · intro j n hn
    by_cases hj : j = i
    · subst hj
      rw [hself] at hn
      exact h.later j n (Nat.lt_trans (Nat.lt_succ_self _) hn)
    · rw [hother hj] at hn
      exact h.later j n hn
  · intro j
    by_cases hj : j = i
    · subst hj
      rw [hself, sentOf]
      simp only [Station.complete, hnone]
      exact h.later j _ (Nat.lt_succ_self _)
    · rw [hother hj]
      exact h.current j
  · intro m hm
    by_cases hsource : m.source = i
    · subst hsource
      rw [hself]
      refine .inl ?_
      rcases h.posted m hm with ⟨hlt, hprefix⟩ | ⟨hnumber, g, hg, hbodies⟩
      · exact ⟨Nat.lt_succ_of_lt hlt, hprefix⟩
      · have hcarried := h.current m.source
        rw [hflight] at hg
        cases hg
        rw [sentOf, hflight, ← hnumber] at hcarried
        simp only [hbodies] at hcarried
        refine ⟨hnumber ▸ Nat.lt_succ_self _, ?_⟩
        rw [Posting.message, hcarried]
        exact List.take_prefix ..
    · rw [hother hsource]
      exact h.posted m hm
  · intro j message
    by_cases hj : j = i
    · subst hj
      rw [hself]
      exact h.reach j message
    · rw [hother hj]
      exact h.reach j message

/-- The next parcel on the way is read. -/
theorem traffic_arrived (h : Traffic events b) {p : Parcel ι} {rest : List (Parcel ι)}
    (harriving : (b i).arriving = p :: rest) {c : Connection}
    (hflight : c.inFlight = (b i).connection.inFlight) :
    Traffic (events ++ [.read i p]) (Function.update b i ((b i).read c p rest)) where
  later := fun j n hn => by
    have hn : (b j).completed < n := by
      by_cases hj : j = i
      · subst hj
        simpa [Station.read] using hn
      · simpa [hj] using hn
    simpa using h.later j n hn
  current := fun j => by
    by_cases hj : j = i
    · subst hj
      simpa [Station.read, sentOf, hflight] using h.current j
    · simpa [hj] using h.current j
  posted := fun m hm => by
    have hposted := h.posted m (by simpa using hm)
    by_cases hsource : m.source = i
    · subst hsource
      simpa [Station.read, hflight] using hposted
    · simpa [hsource] using hposted
  reach := fun j message => by
    have hreach := h.reach j message
    by_cases hj : j = i
    · subst hj
      -- what was first on the way is now the last that was read
      rw [arrivingOf, harriving] at hreach
      by_cases hmessage : p.message = message
      · simpa [Station.read, arrivingOf, hmessage] using hreach
      · simpa [Station.read, arrivingOf, hmessage] using hreach
    · have hij : i ≠ j := fun heq => hj heq.symm
      simpa [hj, hij] using hreach

/-- Every move keeps the account of the bodies. -/
theorem traffic_moves (h : Traffic events b) {act : Act} (hm : Moves b i act b' new) :
    Traffic (events ++ new) b' := by
  cases hm with
  | attached =>
    refine h.idle (fun j => ?_) (fun _ => rfl) (fun _ _ => rfl) (by simp)
    by_cases hj : j = i
    · subst hj
      simp [Station.attach]
    · simp [hj]
  | queued | rekeyed | took | rejected =>
    exact h.put rfl (fun _ => rfl) (fun _ _ => rfl) (by simp)
  | posted _ _ _ hflight => exact traffic_posted h hflight rfl
  | wrote _ _ hflight hbody => exact traffic_wrote h hflight hbody rfl
  | finished _ _ hflight =>
    rw [List.append_nil]
    exact traffic_finished h hflight rfl
  | arrived _ harriving => exact traffic_arrived h harriving rfl
  | @surfaced since e =>
    refine h.put rfl ?_ ?_ ?_
    · intro message
      cases (b i).latest <;> rfl
    · intro j message
      cases (b i).latest <;> rfl
    · cases (b i).latest <;> simp

/-! ## Envelopes -/

/-- What surfaced of each message at the station `j`, and what waits, is what its connection makes
of the bodies that were read. -/
def Surfaced (codec : Codec) (keys : KeySet) (j : ι) (events : List (Event ι)) (b : Bus ι) : Prop :=
  ∀ message, surfacedOf j message events ++ waitingOf message (b j)
    = (readOf j message events).filterMap fun body => codec.parse (utf8 body) keys

variable {codec : Codec} {keys : KeySet}

/-- A move that reads nothing and delivers nothing at the station. -/
theorem Surfaced.idle (h : Surfaced codec keys j events b)
    (hphase : (b' j).connection.phase = (b j).connection.phase)
    (hlatest : (b' j).latest = (b j).latest)
    (hread : ∀ message, readOf j message new = [])
    (hsurfaced : ∀ message, surfacedOf j message new = []) :
    Surfaced codec keys j (events ++ new) b' := by
  intro message
  have hsame : waitingOf message (b' j) = waitingOf message (b j) := by
    rw [waitingOf, waitingOf, hphase, hlatest]
  rw [surfacedOf_append, readOf_append, hread, hsurfaced, List.append_nil, List.append_nil, hsame]
  exact h message

/-- An envelope that waits is from the parcel that was read last. -/
theorem waitingOf_read (s : Station ι) {c : Connection} {since : Nat}
    {handing : Option Envelope} (hphase : c.phase = .serving since handing) (p : Parcel ι)
    (rest : List (Parcel ι)) :
    waitingOf message (s.read c p rest)
      = if p.message = message then handing.toList else [] := by
  rw [waitingOf, Station.read, hphase]
  cases handing <;> simp

/-- Every move keeps what surfaced as long as the keys are the same. -/
theorem surfaced_moves (hcodec : (b j).connection.codec = codec)
    (hkeys : (b j).connection.keys = keys) (h : Surfaced codec keys j events b) {act : Act}
    (hm : Moves b i act b' new) : Surfaced codec keys j (events ++ new) b' := by
  have hput : ∀ c : Connection, c.phase = (b i).connection.phase →
      (put b i c j).connection.phase = (b j).connection.phase := by
    intro c hc
    by_cases hj : j = i
    · rw [hj, connection_put_self, hc]
    · rw [put_of_ne _ _ hj]
  cases hm with
  | attached =>
    refine h.idle ?_ ?_ (fun _ => rfl) fun _ => rfl
    · by_cases hj : j = i
      · subst hj
        simp [Station.attach]
      · simp [hj]
    · by_cases hj : j = i
      · subst hj
        simp [Station.attach]
      · simp [hj]
  | queued | rekeyed | took | rejected =>
    exact h.idle (hput _ rfl) (latest_put ..) (fun _ => rfl) fun _ => rfl
  | posted => exact h.idle (hput _ rfl) (latest_put ..) (fun _ => rfl) fun _ => rfl
  | wrote =>
    refine h.idle ?_ ?_ (fun _ => rfl) fun _ => rfl
    · rw [connection_carry]
      exact hput _ rfl
    · rw [latest_carry, latest_put]
  | finished =>
    refine h.idle ?_ ?_ (fun _ => rfl) fun _ => rfl
    · by_cases hj : j = i
      · subst hj
        simp [Station.complete]
      · simp [hj]
    · by_cases hj : j = i
      · subst hj
        simp [Station.complete]
      · simp [hj]
  | @arrived since p rest _ _ hphase =>
    by_cases hj : j = i
    · subst hj
      intro message
      have hbefore := h message
      rw [waitingOf, hphase] at hbefore
      rw [surfacedOf_append, surfacedOf_read, Function.update_self, waitingOf_read _ rfl,
        hcodec, hkeys, readOf_append, readOf_read, List.filterMap_append, ← hbefore]
      by_cases hmessage : p.message = message
      · cases hparse : codec.parse (utf8 p.body) keys <;> simp [hmessage, hparse]
      · simp [hmessage]
    · have hij : i ≠ j := fun heq => hj heq.symm
      exact h.idle (by simp [hj]) (by simp [hj]) (fun _ => by simp [hij]) fun _ => rfl
  | @surfaced since e _ hphase =>
    by_cases hj : j = i
    · subst hj
      intro message
      have hbefore := h message
      rw [waitingOf, hphase] at hbefore
      have hwaiting : waitingOf message (put b j { (b j).connection with
          inbound := (b j).connection.inbound ++ [e], phase := .serving since none } j) = [] := by
        rw [waitingOf, connection_put_self]
      -- what waited is what surfaces, whichever message it belongs to
      have hnew : surfacedOf j message ((b j).latest.toList.map (Event.surfaced j · e))
          = if (b j).latest.map Parcel.message = some message then [e] else [] := by
        cases (b j).latest with
        | none => rfl
        | some p => simp
      have hread : readOf j message ((b j).latest.toList.map (Event.surfaced j · e)) = [] := by
        cases (b j).latest <;> rfl
      rw [surfacedOf_append, readOf_append, hwaiting, hnew, hread, List.append_nil,
        List.append_nil]
      exact hbefore
    · have hij : i ≠ j := fun heq => hj heq.symm
      refine h.idle (by rw [put_of_ne _ _ hj]) (latest_put ..) ?_ ?_
      · intro message
        cases (b i).latest <;> rfl
      · intro message
        cases (b i).latest with
        | none => rfl
        | some p => simp [hij]

/-! ## Runs -/

variable {b₀ : Bus ι} {trace : Trace ι}

/-- The codec of a station never changes. -/
theorem codec_eq (h : Runs b₀ trace b) (j : ι) :
    (b j).connection.codec = (b₀ j).connection.codec :=
  Run.invariant (P := fun b => (b j).connection.codec = (b₀ j).connection.codec) h
    (fun _ _ _ _ hb hstep => (codec_moves (moves_of_step hstep) j).trans hb) rfl

/-- Every message has the bodies that its sender made of it. -/
theorem prepare_of_posted (h : Runs b₀ trace b) {m : Posting ι} (hm : .posted m ∈ eventsOf trace) :
    m.occasion.fits m.keys = true ∧
      (b₀ m.source).connection.codec.prepare m.occasion m.contents m.keys = .ok m.bodies := by
  induction h with
  | start => cases hm
  | @move trace b b' move new hrun hstep ih =>
    obtain ⟨i, act⟩ := move
    rw [eventsOf_snoc] at hm
    rcases List.mem_append.mp hm with hm | hm
    · exact ih hm
    · cases moves_of_step hstep with
      | posted _ hfits _ _ _ hok =>
        cases List.mem_singleton.mp hm
        rw [codec_eq hrun] at hok
        exact ⟨hfits, hok⟩
      | surfaced =>
        obtain ⟨p, -, hp⟩ := List.mem_map.mp hm
        cases hp
      | wrote | arrived => simp at hm
      | attached | queued | rekeyed | took | rejected | finished => cases hm

/-- The account of the bodies along every run. -/
theorem traffic (h : Runs b₀ trace b)
    (hstart : ∀ i, (b₀ i).connection.inFlight = none ∧ (b₀ i).arriving = []) :
    Traffic (eventsOf trace) b := by
  induction h with
  | start => exact .start hstart
  | move _ hstep ih =>
    rw [eventsOf_snoc]
    exact traffic_moves ih (moves_of_step hstep)

/-- What surfaces along a run at a station that keeps its keys. -/
theorem surfaced (h : Runs b₀ trace b) {since : Nat}
    (hstart : (b₀ j).connection.phase = .serving since none)
    (hkeys : ∀ st ∈ trace, (st.before j).connection.keys = keys) :
    Surfaced (b₀ j).connection.codec keys j (eventsOf trace) b := by
  induction h with
  | start =>
    intro message
    rw [waitingOf, hstart]
    rfl
  | @move trace b b' move new hrun hstep ih =>
    rw [eventsOf_snoc]
    have hearlier := ih fun st hst => hkeys st (List.mem_append_left _ hst)
    have hkeys := hkeys _ (List.mem_append_right _ (List.mem_singleton.mpr rfl))
    exact surfaced_moves (codec_eq hrun j) hkeys hearlier (moves_of_step hstep)

/-- What surfaces of a message is what the station makes of its bodies, each of them once. -/
theorem surfaced_sublist (h : Runs b₀ trace b) {since : Nat}
    (hempty : ∀ i, (b₀ i).connection.inFlight = none ∧ (b₀ i).arriving = [])
    (hphase : (b₀ j).connection.phase = .serving since none)
    (hkeys : ∀ st ∈ trace, (st.before j).connection.keys = keys) {m : Posting ι}
    (hm : .posted m ∈ eventsOf trace) :
    (surfacedOf j m.message (eventsOf trace)).Sublist
      (m.bodies.filterMap fun body => (b₀ j).connection.codec.parse (utf8 body) keys) := by
  have htraffic := traffic h hempty
  have hread : (readOf j m.message (eventsOf trace)).Sublist m.bodies := by
    have hcarried : (carriedOf m.message (eventsOf trace)).Sublist m.bodies := by
      rcases htraffic.posted m hm with ⟨-, hprefix⟩ | ⟨hnumber, f, hf, hbodies⟩
      · exact hprefix.sublist
      · have hcurrent := htraffic.current m.source
        rw [← hnumber, sentOf, hf] at hcurrent
        simp only [hbodies] at hcurrent
        rw [Posting.message, hcurrent]
        exact List.take_sublist ..
    exact ((List.sublist_append_left ..).trans (htraffic.reach j m.message)).trans hcarried
  have hsurfaced := surfaced h hphase hkeys m.message
  refine List.Sublist.trans ?_ (hread.filterMap _)
  rw [← hsurfaced]
  exact List.sublist_append_left ..

end Bus

/-! ## How many bodies a station can read -/

/-- Of some bodies, each for a key, at most those for the keys at hand say something. -/
theorem length_filterMap_le {α β : Type} {keys : List String} {held : List String} {bodies : List α}
    {f : α → Option β}
    (h : List.Forall₂ (fun key body => key ∉ held → f body = none) keys bodies) :
    (bodies.filterMap f).length ≤ (keys.filter (· ∈ held)).length := by
  induction h with
  | nil => exact Nat.le_refl _
  | @cons key body keys bodies hhead _ ih =>
    by_cases hkey : key ∈ held
    · rw [List.filter_cons_of_pos (by simpa using hkey)]
      cases hf : f body <;> simp [hf] <;> omega
    · rw [List.filter_cons_of_neg (by simpa using hkey), List.filterMap_cons_none (hhead hkey)]
      exact ih

namespace Bus

variable {ι : Type} [DecidableEq ι] {b : Bus ι} {trace : Trace ι}

/-- At every station a message surfaces at most once for each of its bodies that the station can
    read: once if it went out in the clear, and otherwise at most once for each usable key of its
    sender.  Unless a body opens with a wrong key, only the keys count that the station holds
    too. -/
theorem surfaced_le_readable {codec : ι → Codec} {capacity : ι → Nat} {initial : ι → KeySet}
    (h : Runs (start codec capacity initial) trace b) {m : Posting ι}
    (hm : .posted m ∈ eventsOf trace) {j : ι} {keys : KeySet}
    (hkeys : ∀ st ∈ trace, (st.before j).connection.keys = keys) :
    let surfaced := surfacedOf j m.message (eventsOf trace)
    surfaced.Sublist (m.bodies.filterMap fun body => (codec j).parse (utf8 body) keys) ∧
    (m.keys.keys = [] → surfaced.length ≤ 1) ∧
    (m.keys.keys ≠ [] → surfaced.length ≤ (m.keys.keys.filter Codec.isUsable).length ∧
      (m.IsUnmistakable keys.keys → surfaced.length ≤
        ((m.keys.keys.filter Codec.isUsable).filter (· ∈ keys.keys)).length)) := by
  intro surfaced
  obtain ⟨hfits, hprepare⟩ := prepare_of_posted h hm
  have hphase : (start codec capacity initial j).connection.phase = .serving 0 none := rfl
  have hsublist : surfaced.Sublist _ := surfaced_sublist h (fun _ => ⟨rfl, rfl⟩) hphase hkeys hm
  have hbodies : surfaced.length ≤ m.bodies.length :=
    hsublist.length_le.trans (List.length_filterMap_le ..)
  refine ⟨hsublist, ?_, ?_⟩
  · intro hnone
    rw [Codec.prepare] at hprepare
    simp only [KeySet.isEmpty, hnone, List.isEmpty_nil, if_true, Except.ok.injEq] at hprepare
    rwa [← hprepare] at hbodies
  · intro hsome
    obtain ⟨bodies, hsealed, hmade⟩ := Codec.prepare_sealed _ hsome hfits m.contents
    rw [hprepare] at hmade
    have heq : m.bodies = bodies := by
      split at hmade
      · cases hmade
      · exact Except.ok.inj hmade
    rw [← heq] at hsealed
    refine ⟨by rwa [hsealed.length_eq], ?_⟩
    intro hunmistakable
    refine hsublist.length_le.trans (length_filterMap_le ?_)
    refine List.Forall₂.mp ?_ hsealed hunmistakable
    rintro key body ⟨vector, -, hclose⟩ hothers hkey
    have hwrong : ∀ other ∈ keys.keys, Codec.openAny? (utf8 body) [other] = none := by
      intro other hother
      refine hothers other hother ?_
      rintro rfl
      exact hkey hother
    rw [Codec.parse, Codec.decode_sealed_none hclose hwrong]

/-! ## More than one key in common -/

/-- There are ids enough. -/
theorem exists_other_id (x y : Option String) :
    ∃ id : String, id ≠ "a" ∧ x ≠ some id ∧ y ≠ some id := by
  by_contra hno
  simp only [not_exists, not_and, not_not] at hno
  have hb := hno "b" (by decide)
  have hc := hno "c" (by decide)
  have hd := hno "d" (by decide)
  by_cases hx : x = some "b"
  · have hy := hc (by rw [hx]; decide)
    exact absurd (hy.symm.trans (hd (by rw [hx]; decide))) (by decide)
  · have hy := hb hx
    by_cases hxc : x = some "c"
    · exact absurd (hy.symm.trans (hd (by rw [hxc]; decide))) (by decide)
    · exact absurd (hy.symm.trans (hc hxc)) (by decide)

/-- Sender and receiver hold the same two keys, a message is queued once, and the receiver reads
    both bodies. -/
theorem runs_read_twice :
    let keys : KeySet := ⟨["0123456789abcdefghijklmnopqrstuv", "abcdefghijklmnopqrstuvwxyz012345"]⟩
    let occasion : Occasion := ⟨default, List.replicate 2 (List.replicate 16 0)⟩
    ∃ (receiver : Codec) (trace : Trace Bool) (b : Bus Bool) (m : Posting Bool),
      receiver.id ≠ "a" ∧
      Runs (start (fun j : Bool => bif j then receiver else ⟨"a", ⟨none, none⟩⟩) (fun _ => 2)
        fun _ => keys) trace b ∧
      trace.map (·.move) =
        [(false, .attach), (true, .attach), (false, .queue ⟨Message.testAuth.toFields, none⟩),
          (false, .prepare occasion), (false, .write), (false, .write),
          (true, .arrive), (true, .deliver), (true, .arrive), (true, .deliver)] ∧
      .posted m ∈ eventsOf trace ∧ m.message = (false, 0) ∧ m.keys = keys ∧
      (∀ st ∈ trace, (st.before true).connection.keys = keys) ∧
      (surfacedOf true m.message (eventsOf trace)).length = 2 := by
  intro keys occasion
  let sender : Codec := ⟨"a", ⟨none, none⟩⟩
  have hfits : occasion.fits keys = true := by decide
  obtain ⟨bodies, hsealed, hprepare⟩ := sender.prepare_sealed (show keys.keys ≠ [] by decide)
    hfits Message.testAuth.toFields
  have husable : keys.keys.filter Codec.isUsable = keys.keys := by decide
  rw [husable] at hsealed
  obtain ⟨first, others, hfirst, hothers, rfl⟩ := List.forall₂_cons_left_iff.mp hsealed
  obtain ⟨second, more, hsecond, hmore, rfl⟩ := List.forall₂_cons_left_iff.mp hothers
  obtain rfl := List.forall₂_nil_left_iff.mp hmore
  rw [if_neg (List.cons_ne_nil _ _)] at hprepare
  have hread : (Codec.readObject?
      (utf8 (sender.tag occasion.sent Message.testAuth.toFields).write)).isSome = true := by
    decide +kernel
  obtain ⟨raw₁, found₁, hfound₁⟩ := Codec.exists_decode_of_mem hfirst
    (show "0123456789abcdefghijklmnopqrstuv" ∈ keys.keys from List.mem_cons_self ..) hread
  obtain ⟨raw₂, found₂, hfound₂⟩ := Codec.exists_decode_of_mem hsecond
    (show "abcdefghijklmnopqrstuvwxyz012345" ∈ keys.keys by decide) hread
  -- whatever the bodies say of their sender, one of three ids is another one
  obtain ⟨id, hid, h₁, h₂⟩ := exists_other_id (found₁.text? "id") (found₂.text? "id")
  let receiver : Codec := ⟨id, ⟨none, none⟩⟩
  have hparse₁ : receiver.parse (utf8 first) keys = some (.received found₁ raw₁) := by
    simp only [Codec.parse, hfound₁, h₁, if_false, receiver]
  have hparse₂ : receiver.parse (utf8 second) keys = some (.received found₂ raw₂) := by
    simp only [Codec.parse, hfound₂, h₂, if_false, receiver]
  have hstart : Runs (start (fun j : Bool => bif j then receiver else sender) (fun _ => 2)
      fun _ => keys) [] _ := .start
  have hattached := (hstart.move (m := (false, .attach)) (step_of_moves (.attached rfl))).move
    (m := (true, .attach)) (step_of_moves (.attached rfl))
  have hqueued := hattached.move (m := (false, .queue ⟨Message.testAuth.toFields, none⟩))
    (step_of_moves (.queued rfl rfl rfl))
  have hposted := hqueued.move (m := (false, .prepare occasion))
    (step_of_moves (.posted rfl hfits rfl rfl rfl hprepare))
  have hwritten := (hposted.move (m := (false, .write))
    (step_of_moves (.wrote rfl rfl rfl rfl))).move (m := (false, .write))
    (step_of_moves (.wrote rfl rfl rfl rfl))
  have hread₁ := (hwritten.move (m := (true, .arrive)) (step_of_moves (.arrived rfl rfl rfl))).move
    (m := (true, .deliver)) (step_of_moves (.surfaced rfl (congrArg (Phase.serving 0) hparse₁) rfl))
  have hread₂ := (hread₁.move (m := (true, .arrive)) (step_of_moves (.arrived rfl rfl rfl))).move
    (m := (true, .deliver)) (step_of_moves (.surfaced rfl (congrArg (Phase.serving 0) hparse₂) rfl))
  refine ⟨receiver, _, _, ⟨false, 0, keys, occasion, Message.testAuth.toFields, [first, second]⟩,
    hid, hread₂, rfl, ?_, rfl, rfl, ?_, rfl⟩
  · exact List.Mem.head _
  · simp only [List.forall_mem_append, List.forall_mem_singleton]
    and_intros <;> first | rfl | exact List.forall_mem_nil _

/-- A message that is queued once may surface more than once. -/
theorem not_surfaced_once :
    ¬ ∀ (codec : Bool → Codec) (capacity : Bool → Nat) (keys : Bool → KeySet) (trace : Trace Bool)
        (b : Bus Bool) (m : Posting Bool) (j : Bool),
      Runs (start codec capacity keys) trace b → .posted m ∈ eventsOf trace →
      (codec j).id ≠ (codec m.source).id →
      (∀ st ∈ trace, (st.before j).connection.keys = keys j) →
      (surfacedOf j m.message (eventsOf trace)).length ≤ 1 := by
  intro honce
  obtain ⟨receiver, trace, b, m, hid, hrun, -, hposted, hmessage, -, hkeys, htwo⟩ :=
    runs_read_twice
  have hsource : m.source = false := congrArg Prod.fst hmessage
  have hone := honce _ _ _ trace b m true hrun hposted (by rw [hsource]; exact hid) hkeys
  omega

/-- Two bodies are read of a message whose sender has the same two keys. -/
theorem surfaced_le_readable_two_keys :
    let keys : KeySet := ⟨["0123456789abcdefghijklmnopqrstuv", "abcdefghijklmnopqrstuvwxyz012345"]⟩
    ∃ (receiver : Codec) (trace : Trace Bool) (b : Bus Bool) (m : Posting Bool),
      (Runs (start (fun j : Bool => bif j then receiver else ⟨"a", ⟨none, none⟩⟩) (fun _ => 2)
          fun _ => keys) trace b ∧
        .posted m ∈ eventsOf trace ∧ ∀ st ∈ trace, (st.before true).connection.keys = keys) ∧
      (surfacedOf true m.message (eventsOf trace)).length = 2 ∧
      (surfacedOf true m.message (eventsOf trace)).length ≤
        (keys.keys.filter Codec.isUsable).length := by
  intro keys
  obtain ⟨receiver, trace, b, m, -, hrun, -, hposted, -, hmade, hkeys, htwo⟩ := runs_read_twice
  have hbound := (surfaced_le_readable hrun hposted hkeys).2.2
  rw [hmade] at hbound
  exact ⟨receiver, trace, b, m, ⟨hrun, hposted, hkeys⟩, htwo, (hbound (by decide)).1⟩

end Bus

end MessageBus
