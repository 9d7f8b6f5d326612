/-!
# Arguments of a command line

A grammar says which options there are and how many words may stand beside them.  Options are
written `--name value`, `--name=value`, `-n value`, `-nvalue` or `-n=value`, short ones without a
value also several at once, and `--` ends them.  Options come before or between the words, unless
the first word takes everything after it.

## Main statements

* `readFrom_separator` : after `--` everything is a word.
-/

namespace MessageBus.CommandLine

/-- What an option does with what follows it. -/
inductive OptionKind where
  /-- It takes no value and is given at most once. -/
  | flag
  /-- It takes no value and is counted. -/
  | counter
  /-- It takes a value and is given at most once. -/
  | value
  /-- It takes a value each time that it is given. -/
  | values
  deriving DecidableEq, Repr

/-- An option. -/
structure OptionSpec where
  long : String
  short : Option Char
  kind : OptionKind
  /-- Whether a text is a value of the option. -/
  accepts : String → Bool

/-- The options and words of a command. -/
structure Grammar where
  options : List OptionSpec
  /-- The names of the commands of which one has to follow; then there are no words. -/
  commands : List String
  /-- How many words there have to be. -/
  least : Nat
  /-- How many words there may be, unless any number. -/
  most : Option Nat
  /-- Whether the first word takes everything after it.  It may look like an option then. -/
  trailing : Bool

/-- Why arguments lead to no command. -/
inductive Refusal where
  /-- The arguments are wrong. -/
  | usage
  /-- Help is asked for, on the command that the names lead to. -/
  | help (path : List String)
  /-- The version is asked for. -/
  | version
  deriving DecidableEq, Repr

/-- The options that were given, in order, each with its value, and the words. -/
structure Given where
  options : List (String × String)
  words : List String
  deriving DecidableEq, Repr

namespace Given

/-- Nothing. -/
def empty : Given := ⟨[], []⟩

/-- How often an option was given. -/
def count (g : Given) (name : String) : Nat := g.options.countP (·.1 == name)

/-- Whether an option was given. -/
def has (g : Given) (name : String) : Bool := g.options.any (·.1 == name)

/-- The values of an option. -/
def values (g : Given) (name : String) : List String :=
  (g.options.filter (·.1 == name)).map (·.2)

/-- The value of an option. -/
def value? (g : Given) (name : String) : Option String := (g.values name).head?

end Given

/-- An argument by its looks. -/
inductive Piece where
  | separator
  | word (text : String)
  | long (name : String) (attached : Option String)
  | cluster (letters : List Char)
  deriving DecidableEq, Repr

/-- The piece that an argument is. -/
def Piece.ofArgument (arg : String) : Piece :=
  match arg.toList with
  | ['-', '-'] => .separator
  | '-' :: '-' :: cs =>
    let name := cs.takeWhile (· != '=')
    match cs.drop name.length with
    | _ :: v => .long (String.ofList name) (some (String.ofList v))
    | [] => .long (String.ofList name) none
  | '-' :: c :: cs => .cluster (c :: cs)
  | _ => .word arg

/-- A result of reading, or why there is none. -/
abbrev Reading := Except Refusal

/-- A result of reading inside of a command, on which help is asked for then. -/
def Reading.within {α : Type} (name : String) (r : Reading α) : Reading α :=
  r.mapError fun
    | .help path => .help (name :: path)
    | refusal => refusal

namespace Grammar

/-- The option of a long name. -/
def long? (g : Grammar) (name : String) : Option OptionSpec := g.options.find? (·.long == name)

/-- The option of a letter. -/
def short? (g : Grammar) (c : Char) : Option OptionSpec := g.options.find? (·.short == some c)

/-- Whether a letter is that of an option, or asks for help. -/
def knows (g : Grammar) (c : Char) : Bool := c == 'h' || (g.short? c).isSome

/-- Whether an argument that looks like an option is a word all the same. -/
def isForeign (g : Grammar) : Piece → Bool
  | .long name _ => g.trailing && name != "help" && (g.long? name).isNone
  | .cluster letters => g.trailing && letters.any fun c => !g.knows c
  | _ => false

/-- Notes that an option was given. -/
def note (given : Given) (o : OptionSpec) (value : String) : Reading Given :=
  let once := o.kind = .flag || o.kind = .value
  -- an option that stands for one value cannot be given twice
  if !o.accepts value || (once && given.has o.long) then .error .usage
  else .ok { given with options := given.options ++ [(o.long, value)] }

/-- Whether an option takes a value. -/
def takesValue (o : OptionSpec) : Bool := o.kind = .value || o.kind = .values

/-- Reads options of one letter each; the last may wait for its value. -/
def readCluster (g : Grammar) (given : Given) : List Char → Reading (Given × Option OptionSpec)
  | [] => .ok (given, none)
  | c :: rest =>
    match g.short? c with
    | none => .error (if c = 'h' then .help [] else .usage)
    | some o =>
      if o.long = "version" then .error .version
      else if !takesValue o then do
        let given ← note given o ""
        readCluster g given rest
      else match rest with
        | [] => .ok (given, some o)
        | '=' :: v => (note given o (String.ofList v)).map (·, none)
        | v => (note given o (String.ofList v)).map (·, none)

/-- Reads an option by its long name; it may wait for its value. -/
def readLong (g : Grammar) (given : Given) (name : String) (attached : Option String) :
    Reading (Given × Option OptionSpec) :=
  match g.long? name, attached with
  | none, none => .error (if name = "help" then .help [] else .usage)
  | none, some _ => .error .usage
  | some o, none =>
    if o.long = "version" then .error .version
    else if takesValue o then .ok (given, some o)
    else (note given o "").map (·, none)
  | some o, some v => if takesValue o then (note given o v).map (·, none) else .error .usage

/-- Adds words, if so many may be there. -/
def addWords (g : Grammar) (given : Given) (words : List String) : Reading Given :=
  let words := given.words ++ words
  if g.most.any (· < words.length) then .error .usage else .ok { given with words := words }

/-- What reading one argument leads to. -/
inductive Next where
  /-- Reading goes on; an option may be waiting for its value. -/
  | on (given : Given) (pending : Option OptionSpec)
  /-- Nothing more is read here; a command may have been named. -/
  | ended (given : Given) (command : Option (String × List String))

/-- Reads a word; `rest` is what follows it. -/
def readWord (g : Grammar) (given : Given) (word : String) (rest : List String) : Reading Next :=
  if !g.commands.isEmpty then
    if g.commands.contains word then .ok (.ended given (some (word, rest))) else .error .usage
  else if g.trailing then do
    let given ← g.addWords given (word :: rest)
    return .ended given none
  else do
    let given ← g.addWords given [word]
    return .on given none

/-- Reads an argument; `rest` is what follows it. -/
def readOne (g : Grammar) (given : Given) (pending : Option OptionSpec) (arg : String)
    (rest : List String) : Reading Next :=
  let piece := Piece.ofArgument arg
  match pending, piece with
  | some o, .word text => (note given o text).map (.on · none)
  | some o, piece =>
    -- what no option claims can be a value, though it begins with a hyphen
    if g.isForeign piece then (note given o arg).map (.on · none) else .error .usage
  | none, .separator => (g.addWords given rest).map (.ended · none)
  | none, .word text => g.readWord given text rest
  | none, .long name attached =>
    if g.isForeign piece then g.readWord given arg rest
    else (g.readLong given name attached).map fun (given, pending) => .on given pending
  | none, .cluster letters =>
    if g.isForeign piece then g.readWord given arg rest
    else (g.readCluster given letters).map fun (given, pending) => .on given pending

/-- What was read at the end of the arguments. -/
def finish (g : Grammar) (given : Given) (command : Option (String × List String)) :
    Reading (Given × Option (String × List String)) :=
  if given.words.length < g.least || (command.isNone && !g.commands.isEmpty) then .error .usage
  else .ok (given, command)

/-- Reads arguments up to the name of a command, or to their end.  An option may be waiting for its
value. -/
def readFrom (g : Grammar) (given : Given) (pending : Option OptionSpec) :
    List String → Reading (Given × Option (String × List String))
  | [] => if pending.isSome then .error .usage else g.finish given none
  | arg :: rest =>
    match g.readOne given pending arg rest with
    | .error r => .error r
    | .ok (.on given pending) => readFrom g given pending rest
    | .ok (.ended given command) => g.finish given command

/-- Reads arguments. -/
def read (g : Grammar) (args : List String) : Reading (Given × Option (String × List String)) :=
  g.readFrom .empty none args

theorem readFrom_separator (g : Grammar) (given given' : Given) (rest : List String)
    (h : g.addWords given rest = .ok given') :
    g.readFrom given none ("--" :: rest) = g.finish given' none := by
  simp [readFrom, readOne, Piece.ofArgument, h, Except.map]

end Grammar

end MessageBus.CommandLine
