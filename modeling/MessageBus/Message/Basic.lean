import MessageBus.Json.Writer

/-!
# Messages

The typed messages of the bus and the objects that stand for them.  `Message.toFields` writes a
message as an object whose `type` member names its kind; `Message.ofFields` reads it back and says
what is wrong with an object that has not the form of its type.  A type that is not known reads as
`unknown`, so newer participants do not break older ones.
-/

namespace MessageBus

/-- A message of the bus. -/
inductive Message where
  /-- Put `data` on the clipboard. -/
  | copyData (data : String)
  /-- The answer to the `copyData` of `origin`. -/
  | dataCopied (origin : String)
  /-- Open an address. -/
  | openUrl (data : String)
  /-- The answer to the `openUrl` of `origin`. -/
  | urlOpened (origin : String)
  /-- Show a notification. -/
  | notification (id : String) (text : String) (level : Binary64) (url : String)
  /-- The answer to a notification of `origin`. -/
  | notificationDisplayed (origin : String) (id : String) (level : Binary64)
  /-- A participant without keys asks for them. -/
  | requestAuth
  /-- A participant checks that its key works. -/
  | testAuth
  /-- The answer to the `testAuth` of `origin`. -/
  | authValid (origin : String)
  /-- An introducer tells its level. -/
  | introducerPresent (level : Binary64)
  /-- Every introducer has to tell its level. -/
  | introducerRollCall
  /-- A finished command fires a named trigger. -/
  | trigger (name : String) (sender : String) (success : Bool)
  /-- A line of a stream. -/
  | stream (identifier : String) (data : String)
  /-- The link is up again.  Only the connection itself says so; read from the bus it means
  nothing. -/
  | reconnected
  /-- A type that is not known. -/
  | unknown
  deriving DecidableEq, Repr, Inhabited

namespace Message

/-- The name of a kind of message on the bus. -/
def typeName : Message → String
  | copyData _ => "CopyData"
  | dataCopied _ => "DataCopied"
  | openUrl _ => "OpenURL"
  | urlOpened _ => "URLOpened"
  | notification .. => "Notification"
  | notificationDisplayed .. => "NotificationDisplayed"
  | requestAuth => "RequestAuth"
  | testAuth => "TestAuth"
  | authValid _ => "AuthValid"
  | introducerPresent _ => "IntroducerPresent"
  | introducerRollCall => "IntroducerRollCall"
  | trigger .. => "Trigger"
  | stream .. => "Stream"
  | reconnected => "Reconnected"
  | unknown => "Unknown"

/-- The participant that an answer refers to. -/
def origin? : Message → Option String
  | dataCopied o | urlOpened o | notificationDisplayed o _ _ | authValid o => some o
  | _ => none

/-- A number as a member; what is not finite has no JSON number and reads `null`. -/
def levelJson (x : Binary64) : Json := if x.isFinite then .num (.float x) else .null

/-- The members of a message besides its type. -/
def members : Message → List (String × Json)
  | copyData d => [("data", .str d)]
  | dataCopied o => [("origin", .str o)]
  | openUrl d => [("data", .str d)]
  | urlOpened o => [("origin", .str o)]
  | notification i t l u =>
    [("notification-id", .str i), ("message", .str t), ("level", levelJson l), ("url", .str u)]
  | notificationDisplayed o i l =>
    [("origin", .str o), ("notification-id", .str i), ("level", levelJson l)]
  | requestAuth | testAuth | introducerRollCall | reconnected | unknown => []
  | authValid o => [("origin", .str o)]
  | introducerPresent l => [("level", levelJson l)]
  | trigger n s ok => [("trigger", .str n), ("from", .str s), ("success", .bool ok)]
  | stream i d => [("identifier", .str i), ("data", .str d)]

/-- The object that stands for a message. -/
def toFields (m : Message) : Fields :=
  Table.ofList (("type", .str m.typeName) :: m.members)

end Message

end MessageBus
