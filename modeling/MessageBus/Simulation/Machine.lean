import MessageBus.Connection.Program

/-!
# Commands of a simulated machine

How the few commands end that a simulated machine knows: `true`, `false`, `echo`, and a shell that
exits with a status or sends a signal to itself.  Everything else is not installed.
-/

namespace MessageBus.Machine

/-- The names of the signals that a shell sends to itself. -/
def signalName (n : Nat) : String :=
  match n with
  | 1 => "SIGHUP"
  | 2 => "SIGINT"
  | 3 => "SIGQUIT"
  | 4 => "SIGILL"
  | 5 => "SIGTRAP"
  | 6 => "SIGABRT"
  | 7 => "SIGBUS"
  | 8 => "SIGFPE"
  | 9 => "SIGKILL"
  | 10 => "SIGUSR1"
  | 11 => "SIGSEGV"
  | 12 => "SIGUSR2"
  | 13 => "SIGPIPE"
  | 14 => "SIGALRM"
  | _ => "SIGTERM"

/-- The number of a signal that is named with or without its usual beginning. -/
def signalNumber? (word : String) : Option Nat :=
  word.toNat?.or ((List.range 16).find? fun n =>
    n != 0 && (signalName n == word || signalName n == "SIG" ++ word))

/-- How a shell ends that does one thing. -/
def shell (script : String) : CommandOutcome :=
  match (script.splitOn " ").filter (· != "") with
  | ["exit", n] => .exited (n.toNat?.getD 2 % 256)
  | ["kill", signal, "$$"] =>
    match signalNumber? (String.ofList (signal.toList.drop 1)) with
    | some n => .killed n (signalName n)
    | none => .exited 1
  | ["false"] => .exited 1
  | _ => .exited 0

/-- What a command prints. -/
def output (command : List String) : String :=
  match command with
  | "echo" :: words => String.intercalate " " words ++ "\n"
  | _ => ""

/-- How a command ends. -/
def execute (command : List String) : CommandOutcome :=
  match command with
  | "sh" :: "-c" :: script :: _ => shell script
  | "true" :: _ | "echo" :: _ => .exited 0
  | "false" :: _ => .exited 1
  | _ => .notStarted "No such file or directory (os error 2)"

end MessageBus.Machine
