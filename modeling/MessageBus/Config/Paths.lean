import MessageBus.Config.Settings

/-!
# Where the configuration is

The paths of the two files, from the environment.
-/

namespace MessageBus

/-- The paths of the user's and the system's configuration file. -/
structure ConfigPaths where
  user : String
  system : String
  deriving DecidableEq, Repr

namespace ConfigPaths

/-- A name in a directory. -/
def join (directory name : String) : String :=
  if directory = "" || directory.endsWith "/" then directory ++ name
  else directory ++ "/" ++ name

/-- The directory for the configuration of a user: a relative one does not count. -/
def userDirectory? (env : Settings.Environment) : Option String :=
  match env "XDG_CONFIG_HOME" with
  | some d => if d.startsWith "/" then some d else home?
  | none => home?
where
  home? : Option String :=
    ((env "HOME").filter (· != "")).map fun home => join home ".config"

/-- The paths that the environment selects. -/
def ofEnvironment (env : Settings.Environment) : BusResult ConfigPaths :=
  let system := (env "PMB_SYSTEM_CONFIG").getD "/etc/pmbconfig.toml"
  match env "PMB_CONFIG_DIR" with
  | some d => .ok ⟨join d "config.toml", system⟩
  | none =>
    match userDirectory? env with
    | some d => .ok ⟨join (join d "pmb") "config.toml", system⟩
    | none => .error (.config "unable to determine config directory")

end ConfigPaths

end MessageBus
