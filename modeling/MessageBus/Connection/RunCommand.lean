import MessageBus.Connection.Requests

/-!
# Commands that report how they ended

`RunCommand.run` runs a command of the machine, perhaps after a trigger, shows a notification when
it is over and perhaps fires a trigger of its own.
-/

namespace MessageBus

/-- The wording of how a command ended. -/
def CommandOutcome.description : CommandOutcome → String
  | exited 0 => "successfully"
  | exited n => "with error 'exit status: " ++ toString n ++ "'"
  | killed n name => "with error 'signal: " ++ toString n ++ " (" ++ name ++ ")'"
  | notStarted reason => "with error '" ++ reason ++ "'"

/-- Whether a command ended well. -/
def CommandOutcome.isSuccess : CommandOutcome → Bool
  | exited 0 => true
  | _ => false

namespace RunCommand

/-- How to run a command. -/
structure Options where
  message : Option String
  sendTrigger : Option String
  waitTrigger : Option String
  /-- Whether the command runs also after a trigger that tells of a failure. -/
  always : Bool
  level : Binary64
  deriving Repr, DecidableEq

/-- Why a run fails. -/
inductive Failure where
  | bus (e : BusError)
  /-- No command is given. -/
  | noCommand
  /-- The trigger told of a failure. -/
  | previousFailed
  deriving Repr, DecidableEq

/-- The wording of a failure. -/
def Failure.message : Failure → String
  | bus e => e.message
  | noCommand => "A command is required"
  | previousFailed => "Previous command failed, not running."

/-- The level of the notifications about triggers. -/
def triggerLevel : Binary64 := Binary64.ofInt 3

/-- The text of the last notification. -/
def completionMessage (command : String) (message : Option String) (result : String) : String :=
  match message.filter (· != "") with
  | some m => m ++ ". Command completed " ++ result ++ "."
  | none => "Command [" ++ command ++ "] completed " ++ result ++ "."

/-- A task of the bus as a part of a run. -/
def lift {α : Type} (t : Task BusError α) : Task Failure α := ExceptT.mk (t.run.bind fun r =>
  .done (match r with
    | .ok a => .ok a
    | .error e => .error (.bus e)))

/-- Shows a notification; nobody has to confirm it. -/
def note (id text : String) : Task Failure Unit := do
  let _ ← Task.outcome (Request.notify id ⟨text, "", triggerLevel⟩)

/-- Waits for the trigger, if one is asked for. -/
def awaitTrigger (id : String) (o : Options) : Task Failure Unit := do
  match o.waitTrigger with
  | none => return ()
  | some name =>
    let success ← lift (Request.waitForTrigger name)
    note id ("Received trigger " ++ name)
    if o.always = false ∧ success = false then throw .previousFailed

/-- Runs a command and reports how it ended. -/
def run (id : String) (o : Options) (command : List String) : Task Failure Unit := do
  if command.isEmpty then throw .noCommand
  awaitTrigger id o
  let outcome ← Task.execute command
  let line := String.intercalate " " command
  let text := completionMessage line o.message outcome.description
  let notified ← Task.outcome (Request.notify id ⟨text, "", o.level⟩)
  match o.sendTrigger with
  | none => pure ()
  | some name =>
    note id ("Sending trigger " ++ name)
    lift (Request.trigger name outcome.isSuccess)
  match notified with
  | .ok _ => return ()
  | .error e => throw (.bus e)

end RunCommand

end MessageBus
