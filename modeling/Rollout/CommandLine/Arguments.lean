import Rollout.CommandLine.Command

/-!
# CommandLine/Arguments — reading the command line

`Arguments.read` walks the arguments from level to level.  An option may stand before or behind a
command, and behind it counts more.  An option without a value is only reported when the next
known option or the end comes, so an argument that cannot be anything is reported first.
-/

namespace Rollout

/-- **What is wrong with a command line.** -/
inductive UsageError where
  | unknownArgument (argument : String)
  | unknownCommand (name : String)
  | commandMissing (level : Level)
  | valueMissing (option : FileOption)
  /-- A flag was given a value. -/
  | valueUnexpected (flag value : String)
  /-- An option was given twice. -/
  | repeated (form : String)
  deriving DecidableEq, Repr

/-- The wording of an error. -/
def UsageError.message : UsageError → String
  | .unknownArgument a => "unexpected argument '" ++ a ++ "' found"
  | .unknownCommand name => "unrecognized subcommand '" ++ name ++ "'"
  | .commandMissing l =>
    "'" ++ l.path ++ "' requires a subcommand but one was not provided"
  | .valueMissing o => "a value is required for '" ++ o.form ++ "' but none was supplied"
  | .valueUnexpected flag value =>
    "unexpected value '" ++ value ++ "' for '" ++ flag ++ "' found; no more were expected"
  | .repeated form => "the argument '" ++ form ++ "' cannot be used multiple times"

/-- **What a command line asks for.** -/
inductive Wish where
  | run (invocation : Invocation)
  | help (level : Level)
  | version
  /-- No command was given where one is needed, nor anything else. -/
  | lost (level : Level)
  | wrong (level : Level) (error : UsageError)
  deriving DecidableEq, Repr

namespace Arguments

/-- How far the arguments have been read. -/
structure Scan where
  level : Level := .program
  /-- The files given before this level. -/
  outerConfig : Option String := none
  outerState : Option String := none
  /-- The files given at this level. -/
  config : Option String := none
  state : Option String := none
  json : Bool := false
  /-- An option that was read last, and its value if that was read too. -/
  pending : Option (FileOption × Option String) := none

namespace Scan

/-- The value of an option at this level. -/
def value? (s : Scan) : FileOption → Option String
  | .config => s.config
  | .state => s.state

/-- Take the value of an option. -/
def give (s : Scan) (o : FileOption) (value : String) : Except UsageError Scan :=
  if (s.value? o).isSome then .error (.repeated o.form)
  else if value.isEmpty then .error (.valueMissing o)
  else
    match o with
    | .config => .ok { s with config := some value }
    | .state => .ok { s with state := some value }

/-- Settle the option that was read last. -/
def settle (s : Scan) : Except UsageError Scan :=
  let rest := { s with pending := none }
  match s.pending with
  | none => .ok rest
  | some (o, none) => .error (.valueMissing o)
  | some (o, some value) => rest.give o value

/-- Go on to a command. -/
def descend (s : Scan) (l : Level) : Scan where
  level := l
  outerConfig := s.config.or s.outerConfig
  outerState := s.state.or s.outerState

/-- **What is asked for at the end of the arguments.** -/
def finish (s : Scan) : Wish :=
  match s.settle with
  | .error e => .wrong s.level e
  | .ok s =>
    match s.level.command? s.json with
    | some command =>
      .run { config := s.config.or s.outerConfig, state := s.state.or s.outerState, command }
    | none =>
      if s.config.isSome || s.state.isSome then .wrong s.level (.commandMissing s.level)
      else .lost s.level

end Scan

/-- What an argument can be, by its spelling. -/
inductive Shape where
  /-- Two dashes alone: no option follows. -/
  | endOfOptions
  /-- An option, and a value if one is attached. -/
  | long (name : String) (value : Option String)
  | short (letters : List Char)
  | word

/-- A name up to the first equals sign, and what follows it. -/
def splitValue (cs : List Char) : String × Option String :=
  let name := cs.takeWhile (· != '=')
  (String.ofList name,
    if name.length < cs.length then some (String.ofList (cs.drop (name.length + 1))) else none)

/-- The spelling of an argument. -/
def shapeOf (argument : String) : Shape :=
  match argument.toList with
  | ['-', '-'] => .endOfOptions
  | '-' :: '-' :: cs =>
    let (name, value) := splitValue cs
    .long name value
  | '-' :: c :: cs => .short (c :: cs)
  | _ => .word

/-- The option of a name. -/
def fileOption? (name : String) : Option FileOption :=
  if name = "config" then some .config
  else if name = "state" then some .state
  else none

/-- A flag that has no value. -/
inductive Flag where
  | help
  | version
  | json
  deriving DecidableEq

/-- The flag of a name, at a level that has it. -/
def flag? (l : Level) (name : String) : Option Flag :=
  if name = "help" then some .help
  else if name = "version" ∧ l = .program then some .version
  else if name = "json" ∧ l = .apply then some .json
  else none

/-- The flag of a letter, at a level that has it. -/
def shortFlag? (l : Level) (c : Char) : Option Flag :=
  if c = 'h' then some .help
  else if c = 'V' ∧ l = .program then some .version
  else none

/-- Raise a flag: it ends the reading or changes the scan. -/
def raise (s : Scan) (f : Flag) : Except Wish Scan :=
  match s.settle with
  | .error e => .error (.wrong s.level e)
  | .ok s =>
    match f with
    | .help => .error (.help s.level)
    | .version => .error .version
    | .json =>
      if s.json then .error (.wrong s.level (.repeated "--json")) else .ok { s with json := true }

/-- Read an option by its long name. -/
def readLong (s : Scan) (name : String) (value : Option String) : Except Wish Scan :=
  match fileOption? name with
  | some o =>
    let next := do
      let s ← s.settle
      match value with
      | some v => s.give o v
      | none => pure { s with pending := some (o, none) }
    next.mapError (.wrong s.level)
  | none =>
    match flag? s.level name, value with
    | some f, none => raise s f
    | some _, some v => .error (.wrong s.level (.valueUnexpected ("--" ++ name) v))
    | none, _ => .error (.wrong s.level (.unknownArgument ("--" ++ name)))

/-- Read letters behind one dash. -/
def readShort (s : Scan) : List Char → Except Wish Scan
  | [] => .ok s
  | c :: cs =>
    match shortFlag? s.level c with
    | some f => (raise s f).bind fun s => readShort s cs
    | none => .error (.wrong s.level (.unknownArgument (String.ofList ['-', c])))

/-- The level that the words behind `help` lead to. -/
def helpLevel (start : Level) : Level → List String → Wish
  | l, [] => .help l
  | l, word :: rest =>
    match l.commands.lookup word with
    | some l => helpLevel start l rest
    | none => .wrong start (.unknownCommand word)

/-- Read the words behind two dashes: none is expected. -/
def readRest (s : Scan) : List String → Wish
  | [] => s.finish
  | word :: _ =>
    let isStray := !s.level.needsCommand || (s.level.commands.lookup word).isSome
    .wrong s.level (if isStray then .unknownArgument word else .unknownCommand word)

/-- **Read the arguments from a scan on.** -/
def readFrom (s : Scan) : List String → Wish
  | [] => s.finish
  | argument :: rest =>
    match shapeOf argument with
    | .endOfOptions => readRest s rest
    | .long name value =>
      match readLong s name value with
      | .ok s => readFrom s rest
      | .error wish => wish
    | .short letters =>
      match readShort s letters with
      | .ok s => readFrom s rest
      | .error wish => wish
    | .word =>
      match s.pending with
      | some (o, none) => readFrom { s with pending := some (o, some argument) } rest
      | _ =>
        if argument = "help" ∧ s.level.needsCommand then helpLevel s.level s.level rest
        else
          match s.level.commands.lookup argument with
          | some l =>
            match s.settle with
            | .ok s => readFrom (s.descend l) rest
            | .error e => .wrong s.level e
          | none =>
            .wrong s.level <|
              if s.level.needsCommand then .unknownCommand argument else .unknownArgument argument

/-- **What a command line asks for.** -/
def read (arguments : List String) : Wish := readFrom {} arguments

end Arguments

end Rollout
