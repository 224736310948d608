import BraceBalance.Find
import BraceBalance.Report.Issue

/-!
# Settings/Basic — what a settings file says
-/

namespace BraceBalance

/-- What a settings file says. -/
structure Settings where
  name : Bytes
  extensions : List Bytes
  ignorePaths : List Bytes
  report : Options
  /-- The severities of rules, by rule. -/
  rules : List (Bytes × Severity)
  deriving DecidableEq

namespace Settings

/-- The settings when there is no file. -/
def standard : Settings where
  name := "bracecheck"
  extensions := standardExtensions
  ignorePaths := []
  report := .standard
  rules := [(Rule.unexpectedClosing, .error), (Rule.unmatchedOpen, .error),
    (Rule.unclosedInterpolation, .error)]

/-- The file the settings are read from when none is named. -/
def standardPath : Bytes := ".bracecheck.yaml"

/-! ## Writing settings -/

/-- A line of a settings file, indented by `depth` steps of four spaces. -/
def line (depth : Nat) (text : Bytes) : Bytes := Bytes.spaces (4 * depth) ++ text ++ [0x0a]

/-- A key with a value on its line. -/
def entry (depth : Nat) (key value : Bytes) : Bytes := line depth (key ++ ": " ++ value)

/-- A key with a list of texts below it. -/
def list (key : Bytes) (items : List Bytes) : Bytes :=
  line 0 (key ++ ":") ++ items.flatMap fun item => line 1 ("- " ++ item)

/-- The text of a settings file: rules in the order of their names, ignored paths only if there are
any, and every text plain. -/
def render (s : Settings) : Bytes :=
  let rules := s.rules.mergeSort fun a b => Bytes.le a.1 b.1
  entry 0 "name" s.name ++
    list "extensions" s.extensions ++
    (if s.ignorePaths.isEmpty then [] else list "ignore_paths" s.ignorePaths) ++
    line 0 "report:" ++
    entry 1 "tail" (Bytes.ofInt s.report.tail.toInt) ++
    entry 1 "context_before" (Bytes.ofInt s.report.before.toInt) ++
    entry 1 "context_after" (Bytes.ofInt s.report.after.toInt) ++
    line 0 "rules:" ++
    rules.flatMap fun (rule, severity) =>
      line 1 (rule ++ ":") ++ entry 2 "severity" severity.name

end Settings

end BraceBalance
