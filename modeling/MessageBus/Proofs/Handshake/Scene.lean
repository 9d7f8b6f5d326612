import MessageBus.Connection.Handshake
import MessageBus.Proofs.Connection.Replies
import MessageBus.Proofs.Handshake.Workload
import MessageBus.Proofs.Introducer.Network
import MessageBus.Proofs.Run

/-! # A client and an introducer on one bus

    A client runs a program over its connection, and an introducer that is there
    already handles what it hears.  Nobody else is on the bus, and no link fails.
    Every step of either is a move of its own, in any order: what the program
    requests next, a reaction of the introducer, a message that it queues, and
    whatever a connection does without its caller.

    There is no clock.  What is answered is answered in time: the wait of the
    client runs out only when nothing is on its way any more and the introducer
    has nothing left to do.  The silence that an introducer notices may come
    whenever it waits.

    * `step_eq_some_iff`: what each move does, and when it is possible.
    * `run_establishKeys`: what the program for a configured key requests. -/

namespace MessageBus

instance : Fintype Role where
  elems := {.client, .introducer}
  complete := fun i => by cases i <;> decide

namespace Handshake

/-! ## The system -/

/-- The two connections with what their callers have yet to do. -/
structure Scene where
  bus : Bus Role
  program : Program (BusResult Unit)
  election : Election
  /-- The messages that the introducer has yet to queue. -/
  pending : List Message

/-- What can happen. -/
inductive Move where
  /-- The client does what its program requests next. -/
  | proceed
  /-- The wait of the client runs out. -/
  | expire
  /-- The introducer takes an envelope; its deeds succeed or fail. -/
  | handle (succeeds : Deed → Bool)
  /-- The introducer queues its next message. -/
  | send
  /-- The introducer notices that nothing has come for a while. -/
  | silence
  /-- A connection does something without its caller. -/
  | work (who : Role) (act : Bus.Act)

namespace Scene

/-- The scene when the client comes: the introducer is there, and the connection of
    the client has no keys yet. -/
def start (codec : Role → Codec) (capacity : Role → Nat) (keys : KeySet)
    (program : Program (BusResult Unit)) (election : Election) (pending : List Message) :
    Scene where
  bus
    | .client => .fresh (codec .client) (capacity .client) .empty
    | .introducer => (Station.fresh (codec .introducer) (capacity .introducer) keys).attach
  program := program
  election := election
  pending := pending

/-- Nothing is on its way, and nothing is left for the introducer. -/
def isQuiet (s : Scene) : Bool :=
  (s.bus .client).isIdle && (s.bus .introducer).isIdle && s.pending.isEmpty

/-- The scene after a reaction of the introducer; what it sends is yet to be queued. -/
def react (s : Scene) (reaction : Election × List Introducer.Effect) : Scene :=
  { s with
    election := reaction.1
    pending := reaction.2.filterMap Introducer.Effect.message? }

/-- The scene after a move of a connection, and what its caller goes on with. -/
def act (s : Scene) (who : Role) (a : Bus.Act) (next : Scene → Scene) :
    Option (Scene × List (Bus.Event Role)) :=
  (s.bus.step who a).map fun (bus, events) => (next { s with bus := bus }, events)

/-- The next state, and what happened; `none` for a move that is not possible. -/
def step (s : Scene) : Move → Option (Scene × List (Bus.Event Role))
  | .proceed =>
    match s.program with
    | .setKeys keys next => s.act .client (.setKeys keys) fun s => { s with program := next }
    | .queue contents next =>
      s.act .client (.queue ⟨contents, none⟩) fun s => { s with program := next (.ok ()) }
    | .await .. =>
      match (s.bus .client).connection.inbound with
      | e :: _ => s.act .client .take fun s => { s with program := s.program.afterEnvelope e }
      | [] => none
    -- whoever has a key configured makes no other requests
    | _ => none
  | .expire =>
    match s.program with
    | .await (some _) _ next =>
      if s.isQuiet then some ({ s with program := next .timedOut }, []) else none
    | _ => none
  | .handle succeeds =>
    match s.pending, (s.bus .introducer).connection.inbound with
    | [], e :: _ =>
      s.act .introducer .take fun s =>
        s.react (Introducer.receive (s.bus .introducer).connection.keys succeeds s.election e)
    | _, _ => none
  | .send =>
    match s.pending with
    | m :: rest => s.act .introducer (.queue ⟨m.toFields, none⟩) fun s => { s with pending := rest }
    | [] => none
  | .silence =>
    match s.pending, (s.bus .introducer).connection.inbound with
    | [], [] => some (s.react (Introducer.observe s.election .silence), [])
    | _, _ => none
  | .work who act => if act.isOwn then s.act who act id else none

/-! ## Moves as a relation -/

/-- The moves, one constructor for each outcome. -/
inductive Moves (s : Scene) : Move → Scene → List (Bus.Event Role) → Prop where
  | rekeyed {keys : KeySet} {next : Program (BusResult Unit)} {bus : Bus Role}
      {events : List (Bus.Event Role)} :
      s.program = .setKeys keys next → Bus.Moves s.bus .client (.setKeys keys) bus events →
      Moves s .proceed { s with bus := bus, program := next } events
  | queued {contents : Fields} {next : BusResult Unit → Program (BusResult Unit)} {bus : Bus Role}
      {events : List (Bus.Event Role)} :
      s.program = .queue contents next →
      Bus.Moves s.bus .client (.queue ⟨contents, none⟩) bus events →
      Moves s .proceed { s with bus := bus, program := next (.ok ()) } events
  | heard {limit : Option Nat} {accepts : Message → Bool}
      {next : Awaited → Program (BusResult Unit)} {e : Envelope} {rest : List Envelope}
      {bus : Bus Role} {events : List (Bus.Event Role)} :
      s.program = .await limit accepts next → (s.bus .client).connection.inbound = e :: rest →
      Bus.Moves s.bus .client .take bus events →
      Moves s .proceed { s with bus := bus, program := s.program.afterEnvelope e } events
  | expired {limit : Nat} {accepts : Message → Bool} {next : Awaited → Program (BusResult Unit)} :
      s.program = .await (some limit) accepts next → s.isQuiet = true →
      Moves s .expire { s with program := next .timedOut } []
  | handled {succeeds : Deed → Bool} {e : Envelope} {rest : List Envelope} {bus : Bus Role}
      {events : List (Bus.Event Role)} :
      s.pending = [] → (s.bus .introducer).connection.inbound = e :: rest →
      Bus.Moves s.bus .introducer .take bus events →
      Moves s (.handle succeeds)
        ({ s with bus := bus }.react
          (Introducer.receive (bus .introducer).connection.keys succeeds s.election e)) events
  | sent {m : Message} {rest : List Message} {bus : Bus Role} {events : List (Bus.Event Role)} :
      s.pending = m :: rest →
      Bus.Moves s.bus .introducer (.queue ⟨m.toFields, none⟩) bus events →
      Moves s .send { s with bus := bus, pending := rest } events
  | idled :
      s.pending = [] → (s.bus .introducer).connection.inbound = [] →
      Moves s .silence (s.react (Introducer.observe s.election .silence)) []
  | worked {who : Role} {act : Bus.Act} {bus : Bus Role} {events : List (Bus.Event Role)} :
      act.isOwn = true → Bus.Moves s.bus who act bus events →
      Moves s (.work who act) { s with bus := bus } events

theorem act_eq_some_iff {s s' : Scene} {who : Role} {a : Bus.Act} {next : Scene → Scene}
    {events : List (Bus.Event Role)} :
    s.act who a next = some (s', events) ↔
      ∃ bus, Bus.Moves s.bus who a bus events ∧ next { s with bus := bus } = s' := by
  rw [act, Option.map_eq_some_iff]
  constructor
  · rintro ⟨⟨bus, events⟩, hstep, heq⟩
    cases heq
    exact ⟨bus, Bus.moves_of_step hstep, rfl⟩
  · rintro ⟨bus, hmoves, rfl⟩
    exact ⟨(bus, events), Bus.step_of_moves hmoves, rfl⟩

variable {s s' : Scene} {move : Move} {events : List (Bus.Event Role)}

/-- Every possible move is one of the listed ones. -/
theorem moves_of_step (h : s.step move = some (s', events)) : s.Moves move s' events := by
  cases move with
  | proceed =>
    simp only [step] at h
    split at h
    · next keys next hprogram =>
      obtain ⟨bus, hmoves, rfl⟩ := act_eq_some_iff.mp h
      exact .rekeyed hprogram hmoves
    · next contents next hprogram =>
      obtain ⟨bus, hmoves, rfl⟩ := act_eq_some_iff.mp h
      exact .queued hprogram hmoves
    · next limit accepts next hprogram =>
      split at h
      · next e rest hin =>
        obtain ⟨bus, hmoves, rfl⟩ := act_eq_some_iff.mp h
        exact .heard hprogram hin hmoves
      · cases h
    · cases h
  | expire =>
    simp only [step] at h
    split at h
    · next limit accepts next hprogram =>
      split at h
      · next hquiet =>
        cases h
        exact .expired hprogram hquiet
      · cases h
    · cases h
  | handle succeeds =>
    simp only [step] at h
    split at h
    · next e rest hpending hin =>
      obtain ⟨bus, hmoves, rfl⟩ := act_eq_some_iff.mp h
      exact .handled hpending hin hmoves
    · cases h
  | send =>
    simp only [step] at h
    split at h
    · next m rest hpending =>
      obtain ⟨bus, hmoves, rfl⟩ := act_eq_some_iff.mp h
      exact .sent hpending hmoves
    · cases h
  | silence =>
    simp only [step] at h
    split at h
    · next hpending hin =>
      cases h
      exact .idled hpending hin
    · cases h
  | work who act =>
    simp only [step] at h
    split at h
    · next hown =>
      obtain ⟨bus, hmoves, rfl⟩ := act_eq_some_iff.mp h
      exact .worked hown hmoves
    · cases h

/-- Every listed move is possible. -/
theorem step_of_moves (h : s.Moves move s' events) : s.step move = some (s', events) := by
  cases h with
  | rekeyed hprogram hmoves =>
    simp only [step, hprogram]
    exact act_eq_some_iff.mpr ⟨_, hmoves, rfl⟩
  | queued hprogram hmoves =>
    simp only [step, hprogram]
    exact act_eq_some_iff.mpr ⟨_, hmoves, rfl⟩
  | heard hprogram hin hmoves =>
    simp only [step, hprogram, hin]
    exact act_eq_some_iff.mpr ⟨_, hmoves, by rw [hprogram]⟩
  | expired hprogram hquiet => simp only [step, hprogram, hquiet, if_true]
  | handled hpending hin hmoves =>
    simp only [step, hpending, hin]
    exact act_eq_some_iff.mpr ⟨_, hmoves, rfl⟩
  | sent hpending hmoves =>
    simp only [step, hpending]
    exact act_eq_some_iff.mpr ⟨_, hmoves, rfl⟩
  | idled hpending hin => simp only [step, hpending, hin]
  | worked hown hmoves =>
    simp only [step, hown, if_true]
    exact act_eq_some_iff.mpr ⟨_, hmoves, rfl⟩

/-- What each move does, and when it is possible. -/
theorem step_eq_some_iff : s.step move = some (s', events) ↔ s.Moves move s' events :=
  ⟨moves_of_step, step_of_moves⟩

/-! ## Runs -/

/-- A trace of the scene. -/
abbrev Trace := List (Stage Scene Move (Bus.Event Role))

/-- A run of the scene: whatever is possible may happen. -/
abbrev Runs (s₀ : Scene) (trace : Trace) (s : Scene) : Prop := Run step s₀ trace s

end Scene

/-! ## The program for a configured key -/

/-- Waiting for the confirmation. -/
def awaitConfirmation (id : String) (limit : Nat) : Program (BusResult Unit) :=
  .await (some limit) (confirms id) fun
    | .matched _ => .done (.ok ())
    | .timedOut => .done (.error .authTimeout)
    | .closed => .done (.error .closed)

/-- Asking whether the keys work. -/
def askConfirmation (id : String) (limit : Nat) : Program (BusResult Unit) :=
  .queue Message.testAuth.toFields fun
    | .ok _ => awaitConfirmation id limit
    | .error e => .done (.error e)

theorem run_testAuth (id : String) (limit : Nat) :
    (testAuth id limit).run = askConfirmation id limit := by
  apply Program.queue_congr
  · exact Program.await_congr (fun _ => rfl) rfl rfl
  · exact fun _ => rfl

/-- A configured key is used, and a client asks whether it works unless it is trusted. -/
theorem run_useConfigured (settings : Settings) (id key : String) (role : Role) :
    (useConfigured settings id key role).run =
      match KeySet.parse key with
      | .error e => .done (.error e)
      | .ok keys =>
        .setKeys keys (if role = .client ∧ settings.trustKey = false then
          askConfirmation id settings.authTimeout else .done (.ok ())) := by
  rw [← run_testAuth]
  unfold useConfigured useConfigured.liftExcept
  cases KeySet.parse key with
  | error e => rfl
  | ok keys =>
    show Program.setKeys keys _ = Program.setKeys keys _
    split <;> rfl

/-- A client with a configured key asks whether it works. -/
theorem run_establishKeys {settings : Settings} {key : String} {keys : KeySet}
    (hkey : settings.key = some key) (hparse : KeySet.parse key = .ok keys)
    (htrust : settings.trustKey = false) (id : String) (answers : List KeyAnswer) :
    (establishKeys settings id .client answers).run
      = .setKeys keys (askConfirmation id settings.authTimeout) := by
  have hsome : key ≠ "" := by
    rintro rfl
    cases hparse
  have hconfigured : configuredKey? settings = some key := by
    simp [configuredKey?, hkey, hsome]
  rw [establishKeys, hconfigured]
  simp only [run_useConfigured, hparse, htrust, and_self, if_true]

end Handshake

end MessageBus
