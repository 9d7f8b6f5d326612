import MessageBus.CommandLine.Command
import MessageBus.Simulation.BusScenario
import MessageBus.Verbosity

/-!
# What commands do

`execute` is a whole run of a command as a function: from the environment, the input and the
configuration files to the output, the exit status and the files afterwards.  Buses in memory live
and end with the run; there is no network.
-/

namespace MessageBus.CommandLine

/-- What a command finds when it starts. -/
structure Host where
  environment : Settings.Environment
  input : Bytes
  store : ConfigStore
  /-- The address of the machine, if it has one. -/
  address : Option String
  seed : Nat

/-- Whether a command comes to an end. -/
inductive Course where
  | ended (status : Nat)
  /-- It goes on until it is interrupted, and perhaps ends well then. -/
  | running (endsWell : Bool)
  deriving DecidableEq, Repr

/-- What a run of a command came to. -/
structure Ending where
  course : Course
  output : String
  /-- What is told to the user if the command failed. -/
  error : Option String
  /-- The milestones that the log tells. -/
  log : List String
  store : ConfigStore
  deriving Repr

namespace Ending

/-- A run that ended well. -/
def succeeded (h : Host) (output : String) : Ending := ⟨.ended 0, output, none, [], h.store⟩

/-- A run that failed. -/
def failed (h : Host) (message : String) : Ending := ⟨.ended 1, "", some message, [], h.store⟩

/-- A run that does not end by itself. -/
def running (h : Host) (endsWell : Bool) (log : List String) : Ending :=
  ⟨.running endsWell, "", none, log, h.store⟩

/-- The end of a run by the result of its last step; there is none when that step does not end. -/
def ofResult (h : Host) (output : String) : Option (Except String Unit) → Ending
  | some (.ok ()) => succeeded h output
  | some (.error message) => { failed h message with output := output }
  | none => { running h false [] with output := output }

end Ending

/-- A result whose failure is worded. -/
def worded {α : Type} (r : BusResult α) : Except String α := r.mapError BusError.message

/-- The settings of a command. -/
def settings (h : Host) (i : Invocation) : Except String Settings :=
  match Settings.load h.store h.environment with
  | .error _ => .error "Failed to load configuration"
  | .ok s => .ok { s with uri? := i.primary.or s.uri?, trustKey := s.trustKey || i.trustKey }

/-- The lines of a text; a carriage return before the end of a line does not count. -/
def linesOf (text : String) : List String :=
  let parts := Text.cut (· == '\n') text.toList
  -- the end of the last line begins no new one
  let parts := if parts.getLast? = some [] then parts.dropLast else parts
  parts.map fun cs => String.ofList (if cs.getLast? = some '\r' then cs.dropLast else cs)

/-- What a person answers who is asked for a key: the first line of the input. -/
def keyAnswers (h : Host) : List KeyAnswer :=
  match (linesOf ((Bytes.text? h.input).getD "")).head? with
  | some line => [.text line]
  | none => []

/-- The name of the connection of a command. -/
def mainName : String := "main"

/-- The name of its sub-channel. -/
def sideName : String := "side"

/-- Gives a client's connection to what a command does with it. -/
def asClient (h : Host) (i : Invocation) (head : String)
    (use : Settings → String → BusScenario → Ending) : Ending :=
  match settings h i with
  | .error message => .failed h message
  | .ok s =>
    let bus := BusScenario.start h.seed
    let (id, e) := Identity.fresh bus.world.entropy head
    let bus := { bus with world := { bus.world with entropy := e } }
    let task := Handshake.establishKeys s id .client (keyAnswers h)
    match bus.connectThen mainName s id none task with
    | (none, _) => .running h false []
    | (some (.error e), _) => .failed h e.message
    | (some (.ok ()), bus) => use s id bus

/-- Runs a task as a client. -/
def clientTask (h : Host) (i : Invocation) (head : String) (task : String → Task BusError Unit) :
    Ending :=
  asClient h i head fun _ _ bus => .ofResult h "" ((bus.perform mainName none task).1.map worded)

/-- Why a hub cannot listen at an address. -/
def addressProblem? (address : String) : Option String :=
  match Text.cutLast? (· == ':') address.toList with
  | none => some "invalid socket address"
  | some (_, port) =>
    let digits := match port with
      | '+' :: rest => rest
      | cs => cs
    if digits.isEmpty || !digits.all Binary64.isDigit || 65535 < Binary64.digitsValue digits then
      some "invalid port value"
    else none

/-- Runs a hub. -/
def broker (h : Host) (address : String) : Ending :=
  match addressProblem? address with
  | some problem => .failed h (BusError.io problem).message
  | none => .running h true ["Broker listening"]

/-- Runs an introducer. -/
def introducer (h : Host) (i : Invocation) (name : String) : Ending :=
  match settings h i with
  | .error message => .failed h message
  | .ok s =>
    match ((BusScenario.start h.seed).connectIntroducer mainName s name).1 with
    | .error e => .failed h e.message
    | .ok _ => .running h true ["Introducer starting"]

/-- Has a text copied. -/
def remoteCopy (h : Host) (i : Invocation) (words : List String) : Ending :=
  let text := if words.isEmpty then Bytes.text? h.input else some (String.intercalate " " words)
  match text with
  | none => .failed h "Error reading all input"
  | some t => clientTask h i "remoteCopy" fun id => Request.remoteCopy id (Text.trim t)

/-- Has a notification shown. -/
def notify (h : Host) (i : Invocation) (message : Option String) (level : Binary64) (url : String)
    (words : List String) : Ending :=
  -- an empty message counts as none
  let text := (message.filter (· != "")).or
    (if words.isEmpty then none else some (String.intercalate " " words))
  match text with
  | none => .failed h "A message is required"
  | some t => clientTask h i "notify" fun id => do
      let _ ← Request.notify id ⟨t, url, level⟩

/-- Prints the keys. -/
def getKey (h : Host) (i : Invocation) : Ending :=
  asClient h i "getKey" fun _ _ bus =>
    .succeeded h (((bus.peer? mainName).map (·.connection.keys.joined)).getD "" ++ "\n")

/-- Has the keys copied. -/
def copyKey (h : Host) (i : Invocation) : Ending :=
  match settings h i with
  | .error message => .failed h message
  | .ok s =>
    let bus := BusScenario.start h.seed
    .ofResult h "" ((bus.connectThen mainName s "copyKey" none Handshake.copyKey).1.map worded)

/-- Sends the lines of the input. -/
def stream (h : Host) (i : Invocation) (name : String) (identifier : Option String) : Ending :=
  match identifier.or h.address with
  | none => .failed h "Unable to determine the local IP, pass --identifier"
  | some identifier =>
    asClient h i "stream" fun s _ bus =>
      match bus.connectSub sideName mainName name s with
      | (.error e, _) => .failed h e.message
      | (.ok _, bus) =>
        match Bytes.text? h.input with
        | none => .failed h "stream did not contain valid UTF-8"
        | some text =>
          .ofResult h "" ((bus.perform sideName none fun _ =>
            (linesOf text).forM (Request.streamLine identifier)).1.map worded)

/-- Prints the lines that others send. -/
def sink (h : Host) (i : Invocation) (name : String) : Ending :=
  asClient h i "sink" fun s _ bus =>
    match (bus.connectSub sideName mainName name s).1 with
    | .error e => .failed h e.message
    | .ok _ => .running h false ["Sinking stream"]

/-- Runs a command of the machine. -/
def run (h : Host) (i : Invocation) (options : RunCommand.Options) (command : List String) :
    Ending :=
  if command.isEmpty then .failed h RunCommand.Failure.noCommand.message
  else
    asClient h i "run" fun _ _ bus =>
      let (r, _) := bus.perform mainName none fun id => RunCommand.run id options command
      let waiting := if options.waitTrigger.isSome then
          ["Waiting for trigger before starting..."] else []
      let outcome := Ending.ofResult h (if r.isSome then Machine.output command else "")
        (r.map (·.mapError RunCommand.Failure.message))
      { outcome with log := waiting }

/-- Looks at the configuration or changes it. -/
def configure (h : Host) (action : ConfigAction) : Ending :=
  match action with
  | .get key =>
    match h.store.get key with
    | .error e => .failed h e.message
    | .ok none => .failed h (key ++ " is not set")
    | .ok (some value) => .succeeded h (value ++ "\n")
  | .set scope key value => changed (h.store.set scope key value)
  | .unset scope key => changed (h.store.unset scope key)
  | .list =>
    match h.store.all with
    | .error e => .failed h e.message
    | .ok entries =>
      .succeeded h (String.join (entries.map fun (key, value) => key ++ "=" ++ value ++ "\n"))
where
  changed : BusResult Unit × ConfigStore → Ending
    | (.error e, _) => .failed h e.message
    | (.ok _, store) => { Ending.succeeded h "" with store := store }

/-- The whole run of a command. -/
def execute (h : Host) (i : Invocation) : Ending :=
  let e := match i.command with
    | .broker address => broker h address
    | .introducer name _ => introducer h i name
    | .remoteCopy words => remoteCopy h i words
    | .openUrl url => clientTask h i "openURL" fun id => Request.openUrl id url
    | .notify message level url words => notify h i message level url words
    | .getKey true => .succeeded h ((KeySet.freshKey ⟨h.seed⟩).1 ++ "\n")
    | .getKey false => getKey h i
    | .copyKey => copyKey h i
    | .dump _ _ => asClient h i "dumpRaw" fun _ _ _ => .running h false []
    | .stream name identifier => stream h i name identifier
    | .sink name => sink h i name
    | .run options command => run h i options command
    | .config action => configure h action
  match LogLevel.ofFlags i.verbosity i.quiet with
  | .warn => { e with log := [] }
  | _ => e

/-- The text for whoever asks for the version. -/
def versionText : String := "pmb 0.1.0\n"

/-- The whole run of a command line. -/
def runArguments (h : Host) (args : List String) : Ending :=
  match Invocation.read args with
  | .ok i => execute h i
  | .error .usage => ⟨.ended 2, "", none, [], h.store⟩
  | .error (.help path) => .succeeded h (((Page.find? path).map Page.render).getD "")
  | .error .version => .succeeded h versionText

/-- Whether a command line reads its input. -/
def readsInput (args : List String) : Bool :=
  match Invocation.read args with
  | .ok i =>
    match i.command with
    | .broker _ | .introducer .. | .copyKey | .getKey true | .config _ => false
    | .remoteCopy words => words.isEmpty
    | .stream .. => true
    | _ => true
  | .error _ => false

end MessageBus.CommandLine
