/-!
# What can go wrong on the bus

Every failure of the library is one of these causes; `BusError.message` words it for people.  A
fatal one means that trying again with the same settings cannot help.
-/

namespace MessageBus

/-- The causes of failure. -/
inductive BusError where
  /-- The address of the bus does not parse: the address and what is wrong with it. -/
  | invalidUri (text : String)
  /-- No transport serves the scheme. -/
  | unsupportedScheme (scheme : String)
  /-- No address is configured. -/
  | missingUri
  /-- A participant of that name is attached already. -/
  | duplicateIdentity (id : String)
  /-- A link failed. -/
  | transport (text : String)
  /-- The queueing broker failed. -/
  | amqp (text : String)
  /-- A socket failed. -/
  | webSocket (text : String)
  /-- A web request failed. -/
  | http (text : String)
  /-- A value has no JSON text, or a text is no JSON. -/
  | serialization (text : String)
  /-- A message does not have the form of its type. -/
  | malformedMessage (text : String)
  /-- A body could not be encrypted. -/
  | crypto (text : String)
  /-- A body could not be decrypted. -/
  | decryptionFailed (text : String)
  /-- A text holds no key. -/
  | invalidKey
  /-- Nobody confirmed the key in time. -/
  | authTimeout
  /-- A reply did not come in time. -/
  | timeout (text : String)
  /-- The connection is shut down. -/
  | closed
  /-- A name of a setting is not usable. -/
  | config (text : String)
  /-- A configuration file does not parse. -/
  | configParse (text : String)
  /-- A configuration cannot be written. -/
  | configWrite (text : String)
  /-- The system refused to read or write. -/
  | io (text : String)
  deriving DecidableEq, Repr, Inhabited

namespace BusError

/-- The wording of a failure. -/
def message : BusError → String
  | invalidUri t => "Invalid bus URI: " ++ t
  | unsupportedScheme t => "Unsupported URI scheme: " ++ t
  | missingUri => "No URI found, use '-p' to specify one"
  | duplicateIdentity t => "Another connection with the same id (" ++ t ++ ") already exists."
  | transport t => "Transport error: " ++ t
  | amqp t => "AMQP error: " ++ t
  | webSocket t => "WebSocket error: " ++ t
  | http t => "HTTP error: " ++ t
  | serialization t => "Serialization error: " ++ t
  | malformedMessage t => "Malformed message: " ++ t
  | crypto t => "Crypto error: " ++ t
  | decryptionFailed t => "Decryption failed: " ++ t
  | invalidKey => "Auth key(s) invalid."
  | authTimeout => "Auth key was invalid."
  | timeout t => "Timed out: " ++ t
  | closed => "Connection closed"
  | config t => "Config error: " ++ t
  | configParse t => "Config parse error: " ++ t
  | configWrite t => "Config write error: " ++ t
  | io t => "IO error: " ++ t

/-- Whether the settings have to change before another attempt makes sense. -/
def isFatal : BusError → Bool
  | invalidUri _ | unsupportedScheme _ | missingUri | duplicateIdentity _ => true
  | _ => false

end BusError

/-- A value, or the cause of there being none. -/
abbrev BusResult (α : Type) := Except BusError α

end MessageBus
