/-!
# The manual

What is printed for whoever asks for help: a page for the program, for each command, and for each
command of a command.  Names stand in one column and what they mean in another.
-/

namespace MessageBus.CommandLine

/-- A page of the manual: what a command is for, what may follow its name, and rows of names with
what they mean. -/
structure Page where
  about : String
  usage : String
  commands : List (String × String)
  arguments : List (String × String)
  options : List (String × String)
  deriving DecidableEq, Repr

namespace Page

/-- A text with spaces up to a width. -/
def padTo (width : Nat) (s : String) : String :=
  s ++ String.ofList (List.replicate (width - s.length) ' ')

/-- Rows under a heading, if there are any. -/
def rowsUnder (heading : String) (rows : List (String × String)) : List String :=
  if rows.isEmpty then []
  else
    let width := rows.foldl (fun w row => max w row.1.length) 0
    "" :: (heading ++ ":") :: rows.map fun (name, text) => "  " ++ padTo width name ++ "  " ++ text

/-- The text of a page. -/
def render (p : Page) : String :=
  String.join ((p.about :: "" :: ("Usage: pmb " ++ p.usage) :: rowsUnder "Commands" p.commands
    ++ rowsUnder "Arguments" p.arguments ++ rowsUnder "Options" p.options).map (· ++ "\n"))

/-- The row of the command that prints pages. -/
def helpCommand : String × String :=
  ("help", "Print this message or the help of the given subcommand(s)")

/-- The row of the option that prints a page. -/
def helpOption : String × String := ("-h, --help", "Print help")

/-- The row of the option for a level. -/
def levelOption (meaning : String) : String × String := ("-l, --level <LEVEL>", meaning)

/-- The row of the option for the level of a notification. -/
def notificationLevel : String × String :=
  levelOption "Notification level (1-5), higher is more important [default: 3]"

/-- The row of the option that selects the file of the whole machine. -/
def systemOption : String × String := ("-s, --system", "Modify system level configuration")

/-- The row of the option for the name of a stream. -/
def streamName : String × String := ("-n, --name <NAME>", "Stream name [default: default]")

/-- The page of a command without commands of its own. -/
def ofCommand (usage about : String) (arguments options : List (String × String)) : Page :=
  ⟨about, usage, [], arguments, options ++ [helpOption]⟩

/-- The pages of the commands of the configuration. -/
def configPages : List (String × Page) :=
  [("get", ofCommand "config get <KEY>" "Print the effective value of section.name"
      [("<KEY>", "")] []),
    ("set", ofCommand "config set [OPTIONS] <KEY> <VALUE>" "Set section.name"
      [("<KEY>", ""), ("<VALUE>", "")] [systemOption]),
    ("unset", ofCommand "config unset [OPTIONS] <KEY>" "Remove section.name"
      [("<KEY>", "")] [systemOption]),
    ("list", ofCommand "config list" "List current config values" [] [])]

/-- The rows of some pages. -/
def rowsOf (pages : List (String × Page)) : List (String × String) :=
  pages.map fun (name, p) => (name, p.about)

/-- The pages of the commands. -/
def commandPages : List (String × Page) :=
  [("broker", ofCommand "broker [OPTIONS]" "Run a WebSocket broker hub" []
      [("-a, --address <ADDRESS>", "Address to listen on [default: 0.0.0.0:3000]")]),
    ("introducer", ofCommand "introducer [OPTIONS]" "Run an introducer" []
      [("-n, --name <NAME>", "Name of this introducer [default: introducer]"),
        levelOption "Election level; the highest active introducer wins [default: 1]"]),
    ("remote-copy", ofCommand "remote-copy [DATA]..."
      "Copy text (arguments or stdin) to the introducer's clipboard" [("[DATA]...", "")] []),
    ("open-url", ofCommand "open-url <URL>" "Open a URL on the introducer's machine"
      [("<URL>", "")] []),
    ("notify", ofCommand "notify [OPTIONS] [WORDS]..."
      "Display a notification on the introducer's machine"
      [("[WORDS]...", "Message words, used when --message is absent")]
      [("-m, --message <MESSAGE>", "Message to send"), notificationLevel,
        ("-u, --url <URL>", "URL attached to the notification [default: ]")]),
    ("get-key", ofCommand "get-key [OPTIONS]" "Print the encryption key to stdout (low level)" []
      [("    --generate", "Print a freshly generated key instead of fetching one")]),
    ("copy-key", ofCommand "copy-key"
      "Cause the key to be copied into the introducer's paste buffer (low level)" [] []),
    ("dump", ofCommand "dump [OPTIONS]"
      "Print each raw JSON message as it comes through (low level)" []
      [("    --pretty", "Pretty print message contents"),
        ("-i, --ignore <IGNORE>", "Message types to ignore")]),
    ("stream", ofCommand "stream [OPTIONS]" "Stream stdin, line by line, to a named pipe" []
      [streamName, ("-i, --identifier <IDENTIFIER>",
        "Identifier shown next to each line, defaults to the local IP")]),
    ("sink", ofCommand "sink [OPTIONS]" "Print lines arriving on a named pipe" [] [streamName]),
    ("run", ofCommand "run [OPTIONS] [COMMAND]..." "Run a command and notify when it is done"
      [("[COMMAND]...", "Command and its arguments")]
      [("-m, --message <MESSAGE>", "Message to send"),
        ("-s, --send-trigger <SEND_TRIGGER>", "Send trigger message when done"),
        ("-w, --wait-trigger <WAIT_TRIGGER>", "Wait for trigger before running"),
        ("-a, --trigger-always", "Run even if the command behind the trigger failed"),
        notificationLevel]),
    ("config", ⟨"Read and write configuration", "config <COMMAND>",
      rowsOf configPages ++ [helpCommand], [], [helpOption]⟩)]

/-- The page of the program. -/
def program : Page where
  about := "Personal Message Bus - small tools talking across machines"
  usage := "[OPTIONS] <COMMAND>"
  commands := rowsOf commandPages ++ [helpCommand]
  arguments := []
  options := [("-v, --verbose...", "Increase verbosity (-v, -vv)"),
    ("-q, --quiet", "Show as little information as possible"),
    ("-j, --log-json", "Log in JSON format"),
    ("-p, --primary <PRIMARY>", "Primary bus URI (overrides config and PMB_PRIMARY_URI)"),
    ("-t, --trust-key", "Don't verify the key, just send messages blind"),
    helpOption, ("-V, --version", "Print version")]

/-- The page of the command that prints pages; `path` is what stands before its name. -/
def helpPage (path : String) : Page :=
  ⟨helpCommand.2, path ++ "help [COMMAND]...", [],
    [("[COMMAND]...", "Print help for the subcommand(s)")], []⟩

/-- The page that names of commands lead to. -/
def find? : (path : List String) → Option Page
  | [] => some program
  | ["help"] => some (helpPage "")
  | ["config", "help"] => some (helpPage "config ")
  | ["config", name] => configPages.lookup name
  | ["rc"] => commandPages.lookup "remote-copy"
  | [name] => commandPages.lookup name
  | _ => none

end Page

end MessageBus.CommandLine
