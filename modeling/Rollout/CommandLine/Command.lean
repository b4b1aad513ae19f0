/-!
# CommandLine/Command — the commands of the program

A `Level` is a place in the tree of commands: the program itself, a command, or a command of the
daemon.  Each level says what may follow and what its help tells.
-/

namespace Rollout

/-- What to do with the daemon. -/
inductive DaemonCommand where
  | start
  | stop
  | status
  | sync
  deriving DecidableEq, Repr

/-- **What the program can do.** -/
inductive Command where
  | check
  | apply (json : Bool)
  | diff
  | daemon (command : DaemonCommand)
  deriving DecidableEq, Repr

/-- **A command and the files it is given.** -/
structure Invocation where
  /-- The file of the settings. -/
  config : Option String := none
  /-- The state file, instead of the one in the settings. -/
  state : Option String := none
  command : Command
  deriving DecidableEq, Repr

/-- A place in the tree of commands. -/
inductive Level where
  | program
  | check
  | apply
  | diff
  | daemon
  | daemonCommand (command : DaemonCommand)
  deriving DecidableEq, Repr

/-- The options that name a file. -/
inductive FileOption where
  | config
  | state
  deriving DecidableEq, Repr

/-- An option with its value, as help and errors mention it. -/
def FileOption.form : FileOption → String
  | .config => "--config <FILE>"
  | .state => "--state <FILE>"

/-- What an option is for. -/
def FileOption.about : FileOption → String
  | .config => "Instance options file; defaults to ./haconf.yaml when present"
  | .state => "Desired-state file, overriding \x60state_file\x60 from the options"

/-- The name of a command of the daemon. -/
def DaemonCommand.name : DaemonCommand → String
  | .start => "start"
  | .stop => "stop"
  | .status => "status"
  | .sync => "sync"

namespace Level

/-- The words that lead to a level. -/
def path : Level → String
  | .program => "haconf"
  | .check => "haconf check"
  | .apply => "haconf apply"
  | .diff => "haconf diff"
  | .daemon => "haconf daemon"
  | .daemonCommand c => "haconf daemon " ++ c.name

/-- What a level is for. -/
def about : Level → String
  | .program => "Render HAProxy configuration and decide between live updates and reloads"
  | .check => "Parse templates and build the desired state without touching any file"
  | .apply => "Run one update cycle: write, then reload or patch the running proxy"
  | .diff => "Show unified diffs of what \x60apply\x60 would write"
  | .daemon => "Run or talk to the background daemon"
  | .daemonCommand .start => "Run the daemon in the foreground (watcher + socket server)"
  | .daemonCommand .stop => "Request graceful daemon shutdown over the control socket"
  | .daemonCommand .status => "Query daemon runtime status over the control socket"
  | .daemonCommand .sync => "Run one cycle in the daemon now and print its summary"

/-- **The commands that may follow**, by name. -/
def commands : Level → List (String × Level)
  | .program => [("check", .check), ("apply", .apply), ("diff", .diff), ("daemon", .daemon)]
  | .daemon =>
    [DaemonCommand.start, .stop, .status, .sync].map fun c => (c.name, .daemonCommand c)
  | _ => []

/-- Must a command follow? -/
def needsCommand (l : Level) : Bool := !l.commands.isEmpty

/-- The command of a level where none follows. -/
def command? (json : Bool) : Level → Option Command
  | .check => some .check
  | .apply => some (.apply json)
  | .diff => some .diff
  | .daemonCommand c => some (.daemon c)
  | .program | .daemon => none

/-- The options of a level, as help lists them. -/
def options (l : Level) : List (String × String) :=
  [("      " ++ FileOption.config.form, FileOption.config.about)]
    ++ (if l = .apply then [("      --json", "Emit the outcome as JSON")] else [])
    ++ [("      " ++ FileOption.state.form, FileOption.state.about), ("  -h, --help", "Print help")]
    ++ (if l = .program then [("  -V, --version", "Print version")] else [])

/-- How a level is used. -/
def usage (l : Level) : String :=
  "Usage: " ++ l.path ++ " [OPTIONS]" ++ if l.needsCommand then " <COMMAND>" else ""

/-- Rows of two columns, the first as wide as its widest entry. -/
def columns (rows : List (String × String)) : String :=
  let width := rows.foldl (fun w r => max w r.1.length) 0
  String.join <| rows.map fun r =>
    r.1 ++ String.ofList (List.replicate (width - r.1.length + 2) ' ') ++ r.2 ++ "\n"

/-- The rows of the commands that may follow. -/
def commandRows (l : Level) : List (String × String) :=
  (l.commands.map fun c => ("  " ++ c.1, c.2.about))
    ++ [("  help", "Print this message or the help of the given subcommand(s)")]

/-- **The help of a level.** -/
def help (l : Level) : String :=
  l.about ++ "\n\n" ++ l.usage ++ "\n\n"
    ++ (if l.needsCommand then "Commands:\n" ++ columns l.commandRows ++ "\n" else "")
    ++ "Options:\n" ++ columns l.options

end Level

end Rollout
