import MessageBus.CommandLine.Execute
import MessageBus.Config.Paths

/-!
# The program

Reads the environment, the configuration files and, if the command wants it, the input; runs the
command; writes what changed and tells how it ended.
-/

namespace MessageBus.Startup

/-- The variables of the environment that count. -/
def variableNames : List String :=
  ["PMB_PRIMARY_URI", "PMB_KEY", "PMB_REALM", "PMB_SSL_INSECURE_SKIP_VERIFY", "PMB_CONFIG_DIR",
   "PMB_SYSTEM_CONFIG", "XDG_CONFIG_HOME", "HOME"]

/-- The environment of the program. -/
def readEnvironment : IO Settings.Environment := do
  let entries ← variableNames.mapM fun name => return (name, ← IO.getEnv name)
  return fun name => (entries.lookup name).join

/-- What is at a path. -/
def readState (path : String) : IO FileState := do
  try
    let content ← IO.FS.readBinFile path
    return .file content.toList
  catch
    | .noFileOrDirectory .. => return .absent
    | _ => return .directory

/-- The directory of a path. -/
def parent (path : String) : String :=
  String.ofList ((path.toList.reverse.dropWhile (· != '/')).drop 1).reverse

/-- Writes a file if it changed. -/
def writeState (path : String) (before after : FileState) : IO Unit := do
  if before ≠ after then
    match after with
    | .file content =>
      if parent path ≠ "" then IO.FS.createDirAll (parent path)
      IO.FS.writeBinFile path (ByteArray.mk content.toArray)
    | _ => return ()

/-- The input, if it is wanted. -/
def readInput (wanted : Bool) : IO ByteArray := do
  if wanted then (← IO.getStdin).readBinToEnd else return ByteArray.empty

/-- Waits for ever. -/
partial def sleepOn : IO Unit := do
  IO.sleep 60000
  sleepOn

/-- Runs a command line. -/
def runWith (paths : ConfigPaths) (env : Settings.Environment) (args : List String) :
    IO UInt32 := do
  let store : ConfigStore := ⟨← readState paths.user, ← readState paths.system⟩
  let input ← readInput (CommandLine.readsInput args)
  let seed ← IO.monoNanosNow
  let host : CommandLine.Host := ⟨env, input.toList, store, none, seed⟩
  let ending := CommandLine.runArguments host args
  writeState paths.user store.user ending.store.user
  writeState paths.system store.system ending.store.system
  IO.print ending.output
  for line in ending.log do IO.eprintln line
  match ending.error with
  | some message => IO.eprintln ("Error: " ++ message)
  | none => pure ()
  match ending.course with
  | .ended status => return UInt32.ofNat status
  | .running _ =>
    sleepOn
    return 0

end MessageBus.Startup

open MessageBus in
/-- The program. -/
def main (args : List String) : IO UInt32 := do
  let env ← Startup.readEnvironment
  match ConfigPaths.ofEnvironment env with
  | .ok paths => Startup.runWith paths env args
  | .error e =>
    IO.eprintln ("Error: " ++ e.message)
    return 1
