/-!
# How much is logged

The level of the log from the flags of the command line: quiet wins over any verbosity.
-/

namespace MessageBus

/-- The levels of the log, from the least to the most. -/
inductive LogLevel where
  | warn
  | info
  | debug
  | trace
  deriving DecidableEq, Repr

namespace LogLevel

/-- The name of a level. -/
def name : LogLevel → String
  | warn => "warn"
  | info => "info"
  | debug => "debug"
  | trace => "trace"

/-- The level for a number of `-v` flags and the quiet flag. -/
def ofFlags (verbosity : Nat) (quiet : Bool) : LogLevel :=
  if quiet then warn
  else match verbosity with
    | 0 => info
    | 1 => debug
    | _ => trace

end LogLevel

end MessageBus
