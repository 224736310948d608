import BraceBalance.Command.Flag
import BraceBalance.Settings.Basic
import BraceBalance.Text.Blank

/-!
# Command/Line — what a command line asks for

The first argument that is neither a flag nor the value of one may name a command; the flags before
it and after it count alike.  Three flags may also be set in the environment: a flag that is given
wins over the environment, and that over the standard value.
-/

namespace BraceBalance

namespace Command

/-- What is asked for. -/
inductive Verb where
  /-- No command is named: paths are checked, if there are any. -/
  | unnamed
  | check
  | init
  | watch
  | help
  deriving DecidableEq

/-- The commands by name. -/
def verbs : List (Bytes × Verb) :=
  [("check", .check), ("completion", .help), ("help", .help), ("init", .init), ("watch", .watch)]

/-! ## Flags -/

namespace Flag

/-- The file the settings are read from. -/
def config : Flag where
  name := "config"
  slot := .text fun v g => { g with config := some v }
  usage := "Configuration file"
  standard := Settings.standardPath.quoted

/-- How long a check may take. -/
def timeout : Flag where
  name := "timeout"
  slot := .duration fun v g => { g with timeout := some v }
  usage := "Set a timeout for the check"
  standard := "5m0s"

/-- The least level that is told. -/
def logLevel : Flag where
  name := "log-level"
  slot := .text fun v g => { g with logLevel := some v }
  usage := "Log level (debug, info, warn, error)"
  standard := "\"warn\""

/-- The format of the output. -/
def format : Flag where
  name := "format"
  slot := .text fun v g => { g with format := v }
  usage := "Output format (text, pretty, json)"
  standard := "\"text\""

/-- The file the output is written to. -/
def output : Flag where
  name := "output"
  letter := some 0x6f
  slot := .text fun v g => { g with output := v }
  usage := "Write the report to this file instead of stdout"

/-- The rules to ignore. -/
def ignore : Flag where
  name := "ignore"
  slot := .text fun v g => { g with ignore := v }
  usage := "Comma-separated list of rules to ignore"

/-- The paths to ignore. -/
def ignorePaths : Flag where
  name := "ignore-paths"
  slot := .text fun v g => { g with ignorePaths := v }
  usage := "Comma-separated list of paths to ignore"

/-- Whether issues make the command fail. -/
def fail : Flag where
  name := "fail"
  slot := .toggle fun v g => { g with fail := v }
  usage := "Exit with status 1 when any file has brace issues that are not ignored"

/-- Whether progress is shown. -/
def progress : Flag where
  name := "progress"
  slot := .toggle fun v g => { g with progress := v }
  usage := "Show a progress bar while checking directories"

/-- The directory of the cache. -/
def cacheDir : Flag where
  name := "cache-dir"
  slot := .text fun v g => { g with cacheDir := v }
  usage := "Directory for caching verdicts of unchanged files"

/-- Whether help is asked for. -/
def help : Flag where
  name := "help"
  letter := some 0x68
  slot := .toggle fun v g => { g with help := v }
  usage := "help for bracecheck"

/-- The flags of every command. -/
def common : List Flag := [config, timeout, logLevel]

/-- The flags of a check. -/
def ofCheck : List Flag := [cacheDir, fail, format, ignore, ignorePaths, output, progress]

end Flag

/-- The flags a command takes, but for the one that asks for help. -/
def Verb.flags : Verb → List Flag
  | unnamed | check => Flag.ofCheck ++ Flag.common
  | watch => [Flag.ignore, Flag.ignorePaths] ++ Flag.common
  | init | help => Flag.common

/-! ## The command -/

/-- Whether an argument holds `=`. -/
def hasValue (argument : Bytes) : Bool := argument.contains 0x3d

/-- Whether an argument that is a flag without `=` takes the next one for its value; nothing, if it
is no such flag. -/
def takesNext? (flags : List Flag) (argument : Bytes) : Option Bool :=
  if hasValue argument then none
  else if (utf8 "--").isPrefixOf argument then
    some !((Flag.named? flags (argument.drop 2)).any (·.isToggle))
  else match argument with
    | [0x2d, letter] =>
      if (Flag.lettered? flags letter).any (·.isToggle) then none else some true
    | _ => none

/-- The arguments before the name of a command, the command and the arguments after it.  `pending`
says that the next argument is the value of a flag. -/
def splitVerb (flags : List Flag) :
    (pending : Bool) → List Bytes → Option (List Bytes × Verb × List Bytes)
  | _, [] => none
  | pending, argument :: rest =>
    let further (pending : Bool) :=
      (splitVerb flags pending rest).map fun (before, verb, after) =>
        (argument :: before, verb, after)
    match takesNext? flags argument with
    | some takes => further takes
    | none =>
      if pending || !isOperand argument then further false
      else (verbs.lookup argument).map fun verb => ([], verb, rest)

/-- What a command line asks for. -/
structure Request where
  verb : Verb
  given : Given
  operands : List Bytes

/-- What is wrong with a command line, and whether that stands before the name of a command. -/
structure Misuse where
  error : UsageError
  beforeVerb : Bool

/-- Reads all arguments by these flags. -/
def readAll (flags : List Flag) (args : List Bytes) (g : Given) :
    Except UsageError (Given × List Bytes) :=
  readFlags flags (args.length + 1) [] args g

/-- What the arguments ask for. -/
def Request.ofArgs (args : List Bytes) : Except Misuse Request := do
  let root := Verb.unnamed.flags
  let (verb, g, args) ←
    match splitVerb root false args with
    | none => pure (Verb.unnamed, ({} : Given), args)
    | some (before, verb, after) =>
      match readAll root before {} with
      | .ok (g, _) => pure (verb, g, after)
      | .error e => throw ⟨e, true⟩
  match readAll (Flag.help :: verb.flags) args g with
  | .ok (given, operands) => return { verb, given, operands }
  | .error e => throw ⟨e, false⟩

/-! ## The environment -/

/-- What the environment says; an empty text says nothing. -/
structure Environment where
  config : Bytes := []
  timeout : Bytes := []
  logLevel : Bytes := []

/-- The variables that are looked at. -/
def Environment.names : List String :=
  ["BRACECHECK_CONFIG", "BRACECHECK_TIMEOUT", "BRACECHECK_LOG_LEVEL"]

/-- The environment of these variables. -/
def Environment.ofList (vars : List (Bytes × Bytes)) : Environment where
  config := (vars.lookup (utf8 "BRACECHECK_CONFIG")).getD []
  timeout := (vars.lookup (utf8 "BRACECHECK_TIMEOUT")).getD []
  logLevel := (vars.lookup (utf8 "BRACECHECK_LOG_LEVEL")).getD []

/-- The value of a variable, if it says anything. -/
def said? (value : Bytes) : Option Bytes := if value.isEmpty then none else some value

/-- A duration as the environment writes it: nanoseconds, unless it has a letter of a unit; no time
at all, if it cannot be read. -/
def environmentDuration (text : Bytes) : Int :=
  let hasUnit := (Utf8.decode text).any ['n', 's', 'u', '\u00b5', 'm', 'h'].contains
  match Duration.ofText (if hasUnit then text else text ++ "ns") with
  | .ok n => n
  | .error _ => 0

/-- How long a check may take when nothing is said, in nanoseconds. -/
def standardTimeout : Int := 5 * 60 * 1000000000

/-- The file the settings are read from. -/
def Request.config (r : Request) (e : Environment) : Bytes :=
  (r.given.config <|> said? e.config).getD Settings.standardPath

/-- How long a check may take, in nanoseconds. -/
def Request.timeout (r : Request) (e : Environment) : Int :=
  (r.given.timeout <|> (said? e.timeout).map environmentDuration).getD standardTimeout

/-- The name of the least level that is told. -/
def Request.logLevel (r : Request) (e : Environment) : Bytes :=
  (r.given.logLevel <|> said? e.logLevel).getD "warn"

/-- The items of a list written with commas, without white space around them and without empty
ones. -/
def splitList (text : Bytes) : List Bytes :=
  ((Bytes.splitOn 0x2c text).map Bytes.trim).filter (!·.isEmpty)

end Command

end BraceBalance
