import MessageBus.Connection.Program

/-!
# Requests and their confirmations

Each request sends one message and waits for the confirmation that names this participant.  Other
messages that arrive meanwhile are gone.
-/

namespace MessageBus.Request

/-- How long a copy may take. -/
def copyLimit : Nat := 5000

/-- How long opening an address may take. -/
def openUrlLimit : Nat := 5000

/-- How long showing a notification may take. -/
def notifyLimit : Nat := 2000

/-- The sender that triggers of finished commands name. -/
def triggerSender : String := "run"

/-- Whether a message confirms a copy. -/
def isCopied (id : String) : Message → Bool
  | .dataCopied origin => origin = id
  | _ => false

/-- Whether a message confirms that an address was opened. -/
def isOpened (id : String) : Message → Bool
  | .urlOpened origin => origin = id
  | _ => false

/-- Whether a message confirms a notification. -/
def isDisplayed (id : String) : Message → Bool
  | .notificationDisplayed origin _ _ => origin = id
  | _ => false

/-- Whether a message is a trigger of a name from a finished command. -/
def isTrigger (name : String) : Message → Bool
  | .trigger n sender _ => n = name && sender = triggerSender
  | _ => false

/-- Whether a message is a line of a stream. -/
def isLine : Message → Bool
  | .stream _ _ => true
  | _ => false

/-- Has an introducer copy a text. -/
def remoteCopy (id data : String) : Task BusError Unit := do
  Task.send (.copyData data)
  let _ ← Task.waitFor copyLimit "DataCopied" (isCopied id)

/-- Has an introducer open an address. -/
def openUrl (id url : String) : Task BusError Unit := do
  Task.send (.openUrl url)
  let _ ← Task.waitFor openUrlLimit "URLOpened" (isOpened id)

/-- A notification to show. -/
structure Notification where
  text : String
  url : String
  level : Binary64
  deriving Repr, DecidableEq

/-- Has an introducer show a notification, and returns its id. -/
def notify (id : String) (n : Notification) : Task BusError String := do
  let note ← Task.freshId "notify"
  Task.send (.notification note n.text n.level n.url)
  let _ ← Task.waitFor notifyLimit "NotificationDisplayed" (isDisplayed id)
  return note

/-- Fires a trigger and waits until it is written. -/
def trigger (name : String) (success : Bool) : Task BusError Unit :=
  Task.sendAndFlush (.trigger name triggerSender success)

/-- Sends a line of a stream and waits until it is written. -/
def streamLine (identifier data : String) : Task BusError Unit :=
  Task.sendAndFlush (.stream identifier data)

/-- The next line of a stream. -/
def nextLine : Task BusError (String × String) := do
  match ← Task.waitUntil isLine with
  | .stream identifier data => return (identifier, data)
  | _ => throw .closed

/-- Waits for a trigger of a name, and returns whether what fired it succeeded. -/
def waitForTrigger (name : String) : Task BusError Bool := do
  match ← Task.waitUntil (isTrigger name) with
  | .trigger _ _ success => return success
  | _ => return false

end MessageBus.Request
