import MessageBus.Proofs.Introducer.Hearing
import MessageBus.Proofs.Run

/-! # Introducers on one bus

    Any number of introducers, each known by the id of its connection.  What an
    introducer has to broadcast waits in its outbox.  While the link is up the
    next message is made into bodies, one for each key, and the bodies go over
    the bus one by one.  Then they are on their way to every other introducer
    whose link is up at that moment, and are handled in any order and after any
    time.  An introducer whose link is down misses what is broadcast; when the
    link is up again it is told so by its own connection.

    Introducers attach and start, fall silent, lose their links and crash at any
    time; an id is free again after a crash.  They share their keys.  A body that
    happens to open to an object with a wrong key says anything, so a message is
    only ever made into bodies that are legible; with a single key all are.

    * `moves_of_step`: what a move does, in terms of what the introducer observes.
    * `step_own`, `step_transmit`: moves that are possible. -/

namespace MessageBus.Introducer

/-! ## The system -/

/-- What an introducer has yet to handle. -/
inductive Arrival where
  | broadcast (b : Broadcast)
  | reconnected

/-- An introducer with its link and what is on the way to and from it. -/
structure Member where
  host : HostInfo
  election : Election
  isStarted : Bool
  isUp : Bool
  outbox : List Message
  /-- The bodies of the last message taken from the outbox that are yet to go
      over the bus. -/
  flight : List Broadcast
  arriving : List Arrival

/-- The introducers that are attached, by the ids of their connections. -/
abbrev Network := String → Option Member

/-- Nobody is attached. -/
def Network.empty : Network := fun _ => none

/-- What one introducer can do, or what can happen to it. -/
inductive Act where
  | attach (host : HostInfo) (level : Binary64)
  | start
  /-- The next message of the outbox is made into bodies. -/
  | prepare (occasion : Occasion)
  /-- The next body goes over the bus. -/
  | transmit
  /-- One of the arrivals is handled, whichever. -/
  | handle (index : Nat) (succeeds : Deed → Bool)
  | silence
  | lose
  | reopen
  | crash

/-- A message that an effect hands to the connection. -/
def Effect.message? : Effect → Option Message
  | send m => some m
  | did .. => none

namespace Member

/-- An introducer whose connection was just opened. -/
def fresh (host : HostInfo) (level : Binary64) : Member :=
  ⟨host, .start level, false, true, [], [], []⟩

/-- What is yet to go over the bus. -/
def unsent (m : Member) : List Message := m.flight.map (·.message) ++ m.outbox

/-- The introducer after a reaction; what it sends waits in the outbox. -/
def react (m : Member) (reaction : Election × List Effect) : Member :=
  { m with
    election := reaction.1
    outbox := m.outbox ++ reaction.2.filterMap Effect.message? }

/-- The introducer has observed something. -/
def observe (m : Member) (event : Election.Event) : Member :=
  { m with
    election := m.election.next event
    outbox := m.outbox ++ (m.election.outputs event).map broadcast }

/-- An arrival is on the way to the introducer. -/
def expect (m : Member) (a : Arrival) : Member := { m with arriving := m.arriving ++ [a] }

/-- An arrival is not on the way any more. -/
def take (m : Member) (index : Nat) : Member :=
  { m with arriving := m.arriving.eraseIdx index }

/-- The reaction of the introducer with some id to an arrival. -/
def reaction (keys : KeySet) (id : String) (m : Member) (succeeds : Deed → Bool) :
    Arrival → Election × List Effect
  | .broadcast b => hear ⟨id, m.host⟩ keys succeeds m.election (utf8 b.body)
  | .reconnected => receive keys succeeds m.election .reconnected

end Member

namespace Network

/-- The network with one introducer replaced. -/
def set (net : Network) (id : String) (m? : Option Member) : Network :=
  fun other => if other = id then m? else net other

/-- A broadcast goes to every other introducer whose link is up. -/
def deliver (net : Network) (b : Broadcast) : Network := fun id =>
  (net id).map fun m => if id ≠ b.sender.id ∧ m.isUp then m.expect (.broadcast b) else m

end Network

/-- A move of the introducer `id` that is attached as `m`, with what goes over
    the bus. -/
def stepMember (keys : KeySet) (net : Network) (id : String) (m : Member) :
    Act → Option (Network × List Broadcast)
  | .attach .. => none
  | .start =>
    if m.isStarted then none
    else some (net.set id (some
      { m.react (Introducer.observe m.election .startup) with isStarted := true }), [])
  | .prepare occasion =>
    match m.isUp, m.flight, m.outbox with
    | true, [], message :: rest =>
      let bodies := broadcasts keys ⟨id, m.host⟩ occasion message
      if bodies.all (·.isLegible keys) then
        some (net.set id (some { m with outbox := rest, flight := bodies }), [])
      else none
    | _, _, _ => none
  | .transmit =>
    match m.isUp, m.flight with
    | true, b :: rest => some ((net.set id (some { m with flight := rest })).deliver b, [b])
    | _, _ => none
  | .handle index succeeds =>
    match m.isStarted, m.arriving[index]? with
    | true, some a =>
      some (net.set id (some ((m.take index).react (m.reaction keys id succeeds a))), [])
    | _, _ => none
  | .silence =>
    if m.isStarted then
      some (net.set id (some (m.react (Introducer.observe m.election .silence))), [])
    else none
  | .lose => if m.isUp then some (net.set id (some { m with isUp := false }), []) else none
  | .reopen =>
    if m.isUp then none
    else some (net.set id (some { m.expect .reconnected with isUp := true }), [])
  | .crash => some (net.set id none, [])

/-- The next state of the network with what goes over the bus, `none` for a
    move that is not possible. -/
def stepNetwork (keys : KeySet) (net : Network) :
    String × Act → Option (Network × List Broadcast)
  | (id, act) =>
    match net id, act with
    | some m, act => stepMember keys net id m act
    | none, .attach host level => some (net.set id (some (.fresh host level)), [])
    | none, _ => none

/-- The moves along a run of the network. -/
abbrev History := List (Stage Network (String × Act) Broadcast)

/-- Runs from the network that nobody is attached to. -/
abbrev Runs (keys : KeySet) (history : History) (net : Network) : Prop :=
  Run (stepNetwork keys) Network.empty history net

/-! ## Moves in terms of the election -/

@[simp] theorem Network.set_self (net : Network) (id : String) (m? : Option Member) :
    net.set id m? id = m? := if_pos rfl

theorem Network.set_of_ne (net : Network) {id other : String} (m? : Option Member)
    (h : other ≠ id) : net.set id m? other = net other := if_neg h

theorem Member.react_observe (m : Member) (event : Election.Event) :
    m.react (Introducer.observe m.election event) = m.observe event := by
  have hsend : ∀ outputs : List Election.Output,
      (outputs.map fun o => Effect.send (broadcast o)).filterMap Effect.message?
        = outputs.map broadcast := by
    intro outputs
    induction outputs with
    | nil => rfl
    | cons o outputs ih => simpa [Effect.message?] using ih
  simp only [react, Introducer.observe, Election.step, hsend, observe]

/-- Nothing but the election is talked about: what is yet to be sent are roll
    calls and announcements of the own level, and what is on the way comes from
    others.  Every body is legible. -/
structure WellFormed (keys : KeySet) (net : Network) : Prop where
  unsent : ∀ id m message, net id = some m → message ∈ m.unsent →
    message = .introducerRollCall ∨ message = .introducerPresent m.election.level
  flight : ∀ id m b, net id = some m → b ∈ m.flight →
    b.sender.id = id ∧ b.isLegible keys = true
  arriving : ∀ id m b, net id = some m → .broadcast b ∈ m.arriving →
    b.sender.id ≠ id ∧ b.isLegible keys = true ∧
      (b.message = .introducerRollCall ∨ ∃ level, b.message = .introducerPresent level)

/-- The moves of an introducer that change nothing but itself. -/
inductive OwnMove (keys : KeySet) (id : String) (m : Member) : Act → Member → Prop where
  | started :
      m.isStarted = false →
      OwnMove keys id m .start { m.observe .startup with isStarted := true }
  | prepared {occasion : Occasion} {message : Message} {rest : List Message} :
      m.isUp = true → m.flight = [] → m.outbox = message :: rest →
      broadcasts keys ⟨id, m.host⟩ occasion message ≠ [] →
      (∀ b ∈ broadcasts keys ⟨id, m.host⟩ occasion message, b.isLegible keys = true) →
      OwnMove keys id m (.prepare occasion)
        { m with outbox := rest, flight := broadcasts keys ⟨id, m.host⟩ occasion message }
  | answered {index : Nat} {succeeds : Deed → Bool} {b : Broadcast} :
      m.isStarted = true → m.arriving[index]? = some (.broadcast b) →
      b.message = .introducerRollCall →
      OwnMove keys id m (.handle index succeeds) ((m.take index).observe .rollCall)
  | heard {index : Nat} {succeeds : Deed → Bool} {b : Broadcast} {level l : Binary64} :
      m.isStarted = true → m.arriving[index]? = some (.broadcast b) →
      b.message = .introducerPresent level → heard? level = some l →
      OwnMove keys id m (.handle index succeeds) ((m.take index).observe (.presence l))
  | ignored {index : Nat} {succeeds : Deed → Bool} {b : Broadcast} {level : Binary64} :
      m.isStarted = true → m.arriving[index]? = some (.broadcast b) →
      b.message = .introducerPresent level → heard? level = none →
      OwnMove keys id m (.handle index succeeds) (m.take index)
  | recovered {index : Nat} {succeeds : Deed → Bool} :
      m.isStarted = true → m.arriving[index]? = some .reconnected →
      OwnMove keys id m (.handle index succeeds) ((m.take index).observe .reconnected)
  | silent : m.isStarted = true → OwnMove keys id m .silence (m.observe .silence)
  | lost : m.isUp = true → OwnMove keys id m .lose { m with isUp := false }
  | reopened : m.isUp = false →
      OwnMove keys id m .reopen { m.expect .reconnected with isUp := true }

/-- The moves of the network, one constructor for each outcome. -/
inductive Moves (keys : KeySet) (net : Network) :
    String × Act → Network → List Broadcast → Prop where
  | attached {id : String} {host : HostInfo} {level : Binary64} :
      net id = none →
      Moves keys net (id, .attach host level) (net.set id (some (.fresh host level))) []
  | own {id : String} {act : Act} {m m' : Member} :
      net id = some m → OwnMove keys id m act m' →
      Moves keys net (id, act) (net.set id (some m')) []
  | transmitted {id : String} {m : Member} {b : Broadcast} {rest : List Broadcast} :
      net id = some m → m.isUp = true → m.flight = b :: rest →
      b.sender.id = id → b.isLegible keys = true →
      Moves keys net (id, .transmit) ((net.set id (some { m with flight := rest })).deliver b) [b]
  | crashed {id : String} {m : Member} :
      net id = some m → Moves keys net (id, .crash) (net.set id none) []

variable {keys : KeySet}

/-- An arrival is handled as what it says. -/
theorem ownMove_handle {net : Network} (hw : WellFormed keys net) {id : String} {m : Member}
    (hm : net id = some m) (hstarted : m.isStarted = true) {index : Nat} {a : Arrival}
    (ha : m.arriving[index]? = some a) (succeeds : Deed → Bool) :
    OwnMove keys id m (.handle index succeeds)
      ((m.take index).react (m.reaction keys id succeeds a)) := by
  have hreact : ∀ event, (m.take index).react (Introducer.observe m.election event)
      = (m.take index).observe event := fun event => (m.take index).react_observe event
  cases a with
  | reconnected =>
    rw [Member.reaction, receive_reconnected, hreact]
    exact .recovered hstarted ha
  | broadcast b =>
    -- it is not the introducer's own echo, and it reads as what it was made from
    obtain ⟨hid, hlegible, hmessage⟩ := hw.arriving id m b hm (List.mem_of_getElem? ha)
    have hne : (⟨id, m.host⟩ : Codec).id ≠ b.sender.id := fun he => hid he.symm
    rcases hmessage with hmessage | ⟨level, hmessage⟩
    · rw [Member.reaction, b.hear_rollCall _ _ _ hlegible hne hmessage, hreact]
      exact .answered hstarted ha hmessage
    · rw [Member.reaction, b.hear_presence _ _ _ hlegible hne hmessage]
      cases hheard : heard? level with
      | none =>
        have hnothing : (m.take index).react (m.election, []) = m.take index := by
          simp [Member.react, Member.take]
        simp only [hnothing]
        exact .ignored hstarted ha hmessage hheard
      | some l =>
        simp only [hreact]
        exact .heard hstarted ha hmessage hheard

/-- What a step of the network does. -/
theorem moves_of_step (hkeys : keys.CanSeal) {net net' : Network} {move : String × Act}
    {events : List Broadcast} (hw : WellFormed keys net)
    (h : stepNetwork keys net move = some (net', events)) : Moves keys net move net' events := by
  obtain ⟨id, act⟩ := move
  cases hm : net id with
  | none =>
    cases act <;> simp only [stepNetwork, hm] at h <;> cases h
    exact .attached hm
  | some m =>
    have h : stepMember keys net id m act = some (net', events) := by
      rw [← h]
      simp only [stepNetwork, hm]
    cases act with
    | attach host level => cases h
    | start =>
      simp only [stepMember, Member.react_observe] at h
      split at h
      · cases h
      · next hstarted =>
        cases h
        exact .own hm (.started (by simpa using hstarted))
    | prepare occasion =>
      simp only [stepMember] at h
      split at h
      · next message rest hup hflight houtbox =>
        split at h
        · next hlegible =>
          cases h
          exact .own hm (.prepared hup hflight houtbox (broadcasts_ne_nil hkeys _ _ _)
            (List.all_eq_true.mp hlegible))
        · cases h
      · cases h
    | transmit =>
      simp only [stepMember] at h
      split at h
      · next b rest hup hflight =>
        cases h
        obtain ⟨hid, hlegible⟩ := hw.flight id m b hm (by rw [hflight]; exact List.mem_cons_self ..)
        exact .transmitted hm hup hflight hid hlegible
      · cases h
    | handle index succeeds =>
      simp only [stepMember] at h
      split at h
      · next a hstarted ha =>
        cases h
        exact .own hm (ownMove_handle hw hm hstarted ha succeeds)
      · cases h
    | silence =>
      simp only [stepMember, Member.react_observe] at h
      split at h
      · next hstarted =>
        cases h
        exact .own hm (.silent hstarted)
      · cases h
    | lose =>
      simp only [stepMember] at h
      split at h
      · next hup =>
        cases h
        exact .own hm (.lost hup)
      · cases h
    | reopen =>
      simp only [stepMember] at h
      split at h
      · cases h
      · next hup =>
        cases h
        exact .own hm (.reopened (by simpa using hup))
    | crash =>
      cases h
      exact .crashed hm

/-! ## Possible moves -/

theorem step_attach {net : Network} {id : String} (hm : net id = none) (host : HostInfo)
    (level : Binary64) :
    stepNetwork keys net (id, .attach host level)
      = some (net.set id (some (.fresh host level)), []) := by
  simp only [stepNetwork, hm]

theorem step_transmit {net : Network} {id : String} {m : Member} {b : Broadcast}
    {rest : List Broadcast} (hm : net id = some m) (hup : m.isUp = true)
    (hflight : m.flight = b :: rest) :
    stepNetwork keys net (id, .transmit)
      = some ((net.set id (some { m with flight := rest })).deliver b, [b]) := by
  simp only [stepNetwork, hm, stepMember, hup, hflight]

/-- Every own move is possible, whatever the others do. -/
theorem step_own {net : Network} (hw : WellFormed keys net) {id : String} {m m' : Member}
    {act : Act} (hm : net id = some m) (h : OwnMove keys id m act m') :
    stepNetwork keys net (id, act) = some (net.set id (some m'), []) := by
  have hsender : ∀ {index : Nat} {b : Broadcast}, m.arriving[index]? = some (.broadcast b) →
      (⟨id, m.host⟩ : Codec).id ≠ b.sender.id ∧ b.isLegible keys = true := by
    intro index b hb
    obtain ⟨hid, hlegible, -⟩ := hw.arriving id m b hm (List.mem_of_getElem? hb)
    exact ⟨fun he => hid he.symm, hlegible⟩
  have hreact : ∀ index event, (m.take index).react (Introducer.observe m.election event)
      = (m.take index).observe event := fun index event => (m.take index).react_observe event
  cases h with
  | started hstarted => simp [stepNetwork, hm, stepMember, hstarted, Member.react_observe]
  | prepared hup hflight houtbox _ hlegible =>
    simp only [stepNetwork, hm, stepMember, hup, hflight, houtbox, List.all_eq_true.mpr hlegible,
      if_true]
  | @answered _ _ b hstarted hb hmessage =>
    obtain ⟨hne, hlegible⟩ := hsender hb
    simp only [stepNetwork, hm, stepMember, hstarted, hb, Member.reaction,
      b.hear_rollCall _ _ _ hlegible hne hmessage, hreact]
  | @heard _ _ b _ _ hstarted hb hmessage hl =>
    obtain ⟨hne, hlegible⟩ := hsender hb
    simp only [stepNetwork, hm, stepMember, hstarted, hb, Member.reaction,
      b.hear_presence _ _ _ hlegible hne hmessage, hl, hreact]
  | @ignored index _ b _ hstarted hb hmessage hnone =>
    obtain ⟨hne, hlegible⟩ := hsender hb
    have hnothing : (m.take index).react (m.election, []) = m.take index := by
      simp [Member.react, Member.take]
    simp only [stepNetwork, hm, stepMember, hstarted, hb, Member.reaction,
      b.hear_presence _ _ _ hlegible hne hmessage, hnone, hnothing]
  | recovered hstarted ha =>
    simp only [stepNetwork, hm, stepMember, hstarted, ha, Member.reaction, receive_reconnected,
      hreact]
  | silent hstarted => simp [stepNetwork, hm, stepMember, hstarted, Member.react_observe]
  | lost hup => simp [stepNetwork, hm, stepMember, hup]
  | reopened hup => simp [stepNetwork, hm, stepMember, hup]

end MessageBus.Introducer
