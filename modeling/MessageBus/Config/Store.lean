import MessageBus.Config.Settings
import MessageBus.Config.Toml.Reader

/-!
# The configuration store

The store is two files: the one of the user and the one of the system.  Look-ups prefer the file of
the user; changes go to the file that is selected, which is read, changed and written as a whole.
Whatever fails leaves the files alone.
-/

namespace MessageBus

/-- What is at the path of a file. -/
inductive FileState where
  | absent
  | file (content : Bytes)
  | directory
  deriving DecidableEq, Repr, Inhabited

/-- Reads the sections of a file; a file that is absent has none. -/
def FileState.sections (f : FileState) : BusResult Sections :=
  match f with
  | .absent => .ok []
  | .directory => .error (.io "Is a directory (os error 21)")
  | .file content =>
    match Bytes.text? content with
    | none => .error (.io "stream did not contain valid UTF-8")
    | some text =>
      match Toml.read? text with
      | some s => .ok s
      | none => .error (.configParse "no table of tables of texts")

/-- Which of the two files. -/
inductive ConfigScope where
  | user
  | system
  deriving DecidableEq, Repr

/-- The two files. -/
structure ConfigStore where
  user : FileState
  system : FileState
  deriving DecidableEq, Repr, Inhabited

namespace ConfigStore

/-- The file of a scope. -/
def file (s : ConfigStore) : ConfigScope → FileState
  | .user => s.user
  | .system => s.system

/-- The store with another file in a scope. -/
def withFile (s : ConfigStore) (scope : ConfigScope) (f : FileState) : ConfigStore :=
  match scope with
  | .user => { s with user := f }
  | .system => { s with system := f }

/-- The value of a setting.  The file of the system is read only if the user's does not tell. -/
def value? (s : ConfigStore) (k : SettingKey) : BusResult (Option String) := do
  -- a damaged file of the system does no harm as long as nobody has to look into it
  let user ← s.user.sections
  match user.value? k with
  | some v => return some v
  | none =>
    let system ← s.system.sections
    return system.value? k

/-- The value of the setting at an address. -/
def get (s : ConfigStore) (key : String) : BusResult (Option String) := do
  s.value? (← SettingKey.parse key)

/-- Every setting by its address, those of the user over those of the system. -/
def all (s : ConfigStore) : BusResult (Table String) := do
  let system ← s.system.sections
  let user ← s.user.sections
  return Table.overlay user.flat (Table.ofList system.flat)

/-- Reads the selected file, changes its sections and writes it back. -/
def edit (s : ConfigStore) (scope : ConfigScope) (change : Sections → Sections) :
    BusResult Unit × ConfigStore :=
  match (s.file scope).sections with
  | .error e => (.error e, s)
  | .ok sections => (.ok (), s.withFile scope (.file (utf8 (Toml.write (change sections)))))

/-- Sets a setting in the selected file. -/
def set (s : ConfigStore) (scope : ConfigScope) (key value : String) :
    BusResult Unit × ConfigStore :=
  match SettingKey.parse key with
  | .error e => (.error e, s)
  | .ok k => s.edit scope (·.set k value)

/-- Removes a setting from the selected file. -/
def unset (s : ConfigStore) (scope : ConfigScope) (key : String) : BusResult Unit × ConfigStore :=
  match SettingKey.parse key with
  | .error e => (.error e, s)
  | .ok k => s.edit scope (·.unset k)

end ConfigStore

/-- The layer of the store; a look-up that fails makes the whole fail. -/
def Settings.Layer.ofStore (s : ConfigStore) : BusResult Settings.Layer := do
  let uri ← s.get "bus.primary"
  let key ← s.get "bus.key"
  let realm ← s.get "bus.realm"
  let insecure ← s.get "bus.insecure"
  return ⟨uri, key, realm, insecure⟩

/-- The defaults, the store over them and the environment over both. -/
def Settings.load (s : ConfigStore) (env : Settings.Environment) : BusResult Settings := do
  return (Settings.default.layered (← Layer.ofStore s)).layerEnvironment env

end MessageBus
