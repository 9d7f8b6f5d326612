import MessageBus.Url.Parser
import MessageBus.Config.Settings

/-!
# Transports

The address of the bus selects by its scheme how a participant reaches it: through the queues of a
broker, a socket of a realm, polled requests, or a bus in memory.  A sub-channel has the keys of
its parent but traffic of its own.
-/

namespace MessageBus

/-- How a participant reaches the bus. -/
inductive Transport where
  /-- An exchange of a queueing broker, and the queue of the participant. -/
  | queue (address : String) (exchange : String) (queueName : String) (skipsCertificates : Bool)
  /-- A socket of a realm. -/
  | socket (url : Url)
  /-- Bodies are posted to one address and polled from another. -/
  | poll (sendTo : String) (listenAt : String)
  /-- A bus in memory. -/
  | memory (topic : String)
  deriving DecidableEq, Repr

namespace Transport

/-- A name, or that of one of its sub-channels. -/
def channel (name : String) : Option String → String
  | some sub => name ++ "-" ++ sub
  | none => name

/-- The route of a realm below an address. -/
def realmUrl (base : Url) (realm : String) (sub : Option String) : Url :=
  let path := base.path.render.toList.reverse.dropWhile (· == '/')
  base.withPath (String.ofList path.reverse ++ "/pmb/" ++ channel realm sub ++ "/")

/-- The address with its password covered. -/
def redact (address : String) : String :=
  match Url.parse address with
  | .ok u => if u.password.isSome then (u.withPassword "***").render else address
  | .error _ => address

/-- The exchange and the queue for the user that an address names. -/
def queueFor (address : String) (url : Url) (id : String) (sub : Option String)
    (insecure : Bool) : Transport :=
  let user := if url.username = "" then "guest" else url.username
  let name := channel user sub
  .queue address (name ++ "-pmb") (name ++ "-" ++ id) (insecure && url.scheme = "amqps")

/-- The address that bodies are posted to, and the one that they are polled from. -/
def pollAt (url : Url) (id : String) : Transport :=
  let sendTo := String.ofList (url.render.toList.reverse.dropWhile (· == '/')).reverse
  .poll sendTo (sendTo ++ "/" ++ id)

/-- The name of a bus in memory. -/
def topic (url : Url) (sub : Option String) : String :=
  channel (url.hostText?.getD "default") sub

/-- The transport for an address that is read already. -/
def ofUrl (s : Settings) (address : String) (url : Url) (id : String) (sub : Option String) :
    BusResult Transport :=
  match url.scheme with
  | "amqp" | "amqps" => .ok (queueFor address url id sub s.insecure)
  | "ws" | "wss" => .ok (.socket (realmUrl url s.realm sub))
  | "http" | "https" => .ok (pollAt url id)
  | "mem" => .ok (.memory (topic url sub))
  | other => .error (.unsupportedScheme other)

/-- The transport that some settings select. -/
def ofSettings (s : Settings) (id : String) (sub : Option String) : BusResult Transport := do
  let address ← s.uri
  match Url.parse address with
  | .ok url => ofUrl s address url id sub
  | .error e => .error (.invalidUri (redact address ++ ": " ++ e.message))

/-- A short description for people. -/
def describe : Transport → String
  | queue address exchange _ _ => redact address ++ " (exchange " ++ exchange ++ ")"
  | socket url => url.render
  | poll sendTo _ => redact sendTo
  | memory topic => "mem://" ++ topic

end Transport

end MessageBus
