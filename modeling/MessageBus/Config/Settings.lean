import MessageBus.Error
import MessageBus.Text.Blank

/-!
# Settings of a participant

`Settings` is what a connection needs to know; every field has a default.
`Settings.layerEnvironment` puts the environment over what is set already.  Periods are in
milliseconds.
-/

namespace MessageBus

/-- The settings of a participant. -/
structure Settings where
  /-- The address of the bus. -/
  uri? : Option String
  /-- A text that holds the shared keys. -/
  key : Option String
  /-- Whether certificates go unchecked. -/
  insecure : Bool
  /-- Whether a key is used without a test. -/
  trustKey : Bool
  /-- The realm of the bus on a hub. -/
  realm : String
  /-- How long to wait between two attempts to open a link. -/
  reconnectDelay : Nat
  /-- How long to wait for the confirmation of a key. -/
  authTimeout : Nat
  /-- How many messages either queue of a connection holds. -/
  queueCapacity : Nat
  deriving DecidableEq, Repr

namespace Settings

/-- The settings where nothing is configured. -/
def default : Settings where
  uri? := none
  key := none
  insecure := false
  trustKey := false
  realm := "default"
  reconnectDelay := 1000
  authTimeout := 10000
  queueCapacity := 10

/-- The address of the bus. -/
def uri (s : Settings) : BusResult String :=
  match s.uri? with
  | some uri => .ok uri
  | none => .error .missingUri

/-- Whether a text says yes. -/
def readFlag (text : String) : Bool :=
  ["1", "true", "yes", "on"].contains ((Text.trim text).map Char.toLower)

/-- The four settings that files and the environment can give, as far as a layer gives them. -/
structure Layer where
  uri : Option String
  key : Option String
  realm : Option String
  insecure : Option String
  deriving DecidableEq, Repr

/-- The settings with those of a layer over them. -/
def layered (s : Settings) (l : Layer) : Settings :=
  { s with
    uri? := l.uri.or s.uri?
    key := l.key.or s.key
    realm := l.realm.getD s.realm
    insecure := (l.insecure.map readFlag).getD s.insecure }

/-- The variables of the environment. -/
abbrev Environment := String → Option String

/-- What a variable holds, unless it is empty. -/
def Environment.nonempty (env : Environment) (name : String) : Option String :=
  (env name).filter (· != "")

/-- The layer of the environment. -/
def Layer.ofEnvironment (env : Environment) : Layer where
  uri := env.nonempty "PMB_PRIMARY_URI"
  key := env.nonempty "PMB_KEY"
  realm := env.nonempty "PMB_REALM"
  insecure := env.nonempty "PMB_SSL_INSECURE_SKIP_VERIFY"

/-- The settings with the environment over them. -/
def layerEnvironment (s : Settings) (env : Environment) : Settings :=
  s.layered (.ofEnvironment env)

/-- The settings from the environment alone. -/
def ofEnvironment (env : Environment) : Settings := default.layerEnvironment env

end Settings

end MessageBus
