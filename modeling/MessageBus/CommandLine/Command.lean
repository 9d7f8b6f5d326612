import MessageBus.CommandLine.Grammar
import MessageBus.CommandLine.Manual
import MessageBus.Config.Store
import MessageBus.Connection.RunCommand
import MessageBus.Number.Decimal

/-!
# Commands

What a user asks for on the command line: the flags that hold for every command, and one command
with its own options and words.  `Invocation.read` reads it from the arguments.
-/

namespace MessageBus.CommandLine

/-- A change of the configuration, or a look at it. -/
inductive ConfigAction where
  | get (key : String)
  | set (scope : ConfigScope) (key value : String)
  | unset (scope : ConfigScope) (key : String)
  | list
  deriving DecidableEq, Repr

/-- A command. -/
inductive Command where
  /-- Runs a hub. -/
  | broker (address : String)
  /-- Runs an introducer. -/
  | introducer (name : String) (level : Binary64)
  /-- Has a text copied; without words it comes from the input. -/
  | remoteCopy (words : List String)
  | openUrl (url : String)
  /-- Has a notification shown, whose text are the words if there is no message. -/
  | notify (message : Option String) (level : Binary64) (url : String) (words : List String)
  /-- Prints the keys, or a fresh one. -/
  | getKey (generate : Bool)
  | copyKey
  /-- Prints messages as they come. -/
  | dump (pretty : Bool) (ignored : List String)
  /-- Sends lines of the input. -/
  | stream (name : String) (identifier : Option String)
  /-- Prints lines that others send. -/
  | sink (name : String)
  | run (options : RunCommand.Options) (command : List String)
  | config (action : ConfigAction)
  deriving DecidableEq, Repr

/-- A command, and what holds for every command. -/
structure Invocation where
  verbosity : Nat
  quiet : Bool
  /-- Whether the log is written as JSON. -/
  json : Bool
  /-- The address of the bus, over all that is configured. -/
  primary : Option String
  trustKey : Bool
  command : Command
  deriving DecidableEq, Repr

namespace Invocation

/-- Any text is a value. -/
def anyText (_ : String) : Bool := true

/-- Whether a text is a level. -/
def isLevel (s : String) : Bool := (Binary64.ofDecimal? s).isSome

/-- An option that takes a text. -/
def textOption (long : String) (short : Option Char) : OptionSpec := ⟨long, short, .value, anyText⟩

/-- An option that takes no value. -/
def flagOption (long : String) (short : Option Char) : OptionSpec := ⟨long, short, .flag, anyText⟩

/-- The option for a level. -/
def levelOption : OptionSpec := ⟨"level", some 'l', .value, isLevel⟩

/-- A grammar with a number of words. -/
def plain (options : List OptionSpec) (least : Nat) (most : Option Nat) : Grammar :=
  ⟨options, [], least, most, false⟩

/-- The names of the commands. -/
def commandNames : List String :=
  ["broker", "introducer", "remote-copy", "rc", "open-url", "notify", "get-key", "copy-key", "dump",
   "stream", "sink", "run", "config", "help"]

/-- What stands before the command. -/
def topGrammar : Grammar where
  options := [⟨"verbose", some 'v', .counter, anyText⟩, flagOption "quiet" (some 'q'),
    flagOption "log-json" (some 'j'), textOption "primary" (some 'p'),
    flagOption "trust-key" (some 't'), flagOption "version" (some 'V')]
  commands := commandNames
  least := 0
  most := some 0
  trailing := false

/-- What stands before a change of the configuration. -/
def configGrammar : Grammar := ⟨[], ["get", "set", "unset", "list", "help"], 0, some 0, false⟩

/-- What follows the command `run`. -/
def runGrammar : Grammar where
  options := [textOption "message" (some 'm'), textOption "send-trigger" (some 's'),
    textOption "wait-trigger" (some 'w'), flagOption "trigger-always" (some 'a'), levelOption]
  commands := []
  least := 0
  most := none
  trailing := true

/-- Reads options and words. -/
def readPlain (g : Grammar) (args : List String) : Reading Given := (g.read args).map (·.1)

/-- The level that was given. -/
def level (g : Given) (default : Int) : Binary64 :=
  ((g.value? "level").bind Binary64.ofDecimal?).getD (Binary64.ofInt default)

/-- The word of a number. -/
def word (g : Given) (n : Nat) : String := g.words.getD n ""

/-- The file that a change is for. -/
def scope (g : Given) : ConfigScope := if g.has "system" then .system else .user

/-- The refusal for whoever asks, inside of some commands, for the page that names lead to. -/
def askedFor (outer path : List String) : Refusal :=
  if (Page.find? (outer ++ path)).isSome then .help path else .usage

/-- Reads a change of the configuration by its name and what follows it. -/
def readConfigAction (name : String) (args : List String) : Reading ConfigAction := do
  let system := flagOption "system" (some 's')
  match name with
  | "get" => return .get (word (← readPlain (plain [] 1 (some 1)) args) 0)
  | "set" =>
    let g ← readPlain (plain [system] 2 (some 2)) args
    return .set (scope g) (word g 0) (word g 1)
  | "unset" =>
    let g ← readPlain (plain [system] 1 (some 1)) args
    return .unset (scope g) (word g 0)
  | _ =>
    let _ ← readPlain (plain [] 0 (some 0)) args
    return .list

/-- Reads a change of the configuration. -/
def readConfig (args : List String) : Reading ConfigAction := do
  match (← configGrammar.read args).2 with
  | some ("help", path) => throw (askedFor ["config"] path)
  | some (name, rest) => (readConfigAction name rest).within name
  | none => throw .usage

/-- Reads a command by its name and what follows it. -/
def readCommand (name : String) (args : List String) : Reading Command := do
  match name with
  | "broker" =>
    let g ← readPlain (plain [textOption "address" (some 'a')] 0 (some 0)) args
    return .broker ((g.value? "address").getD "0.0.0.0:3000")
  | "introducer" =>
    let g ← readPlain (plain [textOption "name" (some 'n'), levelOption] 0 (some 0)) args
    return .introducer ((g.value? "name").getD "introducer") (level g 1)
  | "remote-copy" | "rc" => return .remoteCopy (← readPlain (plain [] 0 none) args).words
  | "open-url" => return .openUrl (word (← readPlain (plain [] 1 (some 1)) args) 0)
  | "notify" =>
    let options := [textOption "message" (some 'm'), levelOption, textOption "url" (some 'u')]
    let g ← readPlain (plain options 0 none) args
    return .notify (g.value? "message") (level g 3) ((g.value? "url").getD "") g.words
  | "get-key" =>
    let g ← readPlain (plain [flagOption "generate" none] 0 (some 0)) args
    return .getKey (g.has "generate")
  | "copy-key" =>
    let _ ← readPlain (plain [] 0 (some 0)) args
    return .copyKey
  | "dump" =>
    let options := [flagOption "pretty" none, ⟨"ignore", some 'i', .values, anyText⟩]
    let g ← readPlain (plain options 0 (some 0)) args
    return .dump (g.has "pretty") (g.values "ignore")
  | "stream" =>
    let options := [textOption "name" (some 'n'), textOption "identifier" (some 'i')]
    let g ← readPlain (plain options 0 (some 0)) args
    return .stream ((g.value? "name").getD "default") (g.value? "identifier")
  | "sink" =>
    let g ← readPlain (plain [textOption "name" (some 'n')] 0 (some 0)) args
    return .sink ((g.value? "name").getD "default")
  | "run" =>
    let g ← readPlain runGrammar args
    return .run ⟨g.value? "message", g.value? "send-trigger", g.value? "wait-trigger",
      g.has "trigger-always", level g 3⟩ g.words
  | "config" => return .config (← readConfig args)
  | _ => throw .usage

/-- Reads the arguments of the command line. -/
def read (args : List String) : Reading Invocation := do
  let (g, command) ← topGrammar.read args
  match command with
  | none => throw .usage
  | some ("help", path) => throw (askedFor [] path)
  | some (name, rest) =>
    return { verbosity := g.count "verbose"
             quiet := g.has "quiet"
             json := g.has "log-json"
             primary := g.value? "primary"
             trustKey := g.has "trust-key"
             command := ← (readCommand name rest).within name }

end Invocation

end MessageBus.CommandLine
