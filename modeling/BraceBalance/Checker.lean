import BraceBalance.Cache.Basic
import BraceBalance.Log
import BraceBalance.Path.Glob
import BraceBalance.Report.Issue
import BraceBalance.Scan.Run
import BraceBalance.Text.Lines

/-!
# Checker — checking one source

A checker knows how much to report, which rules and paths to ignore, the severities of rules, and
perhaps a cache.  Checking a file may change the cache, in memory and in its file, and nothing
else.
-/

namespace BraceBalance

/-- The outcome of checking one source. -/
structure Result where
  filename : Bytes
  verdict : Verdict
  issues : List Issue
  source : Source
  /-- Whether the verdict came from the cache. -/
  cached : Bool := false
  deriving DecidableEq

/-- The name of a result's class. -/
def Result.status (r : Result) : Bytes := r.verdict.kind.name

/-- How sources are checked. -/
structure Checker where
  options : Options
  severities : List (Bytes × Severity) := []
  ignoredRules : List Bytes := []
  /-- Patterns of paths to ignore, in their shortest spelling. -/
  ignoredPaths : List Bytes := []
  cache : Option Cache := none

namespace Checker

/-- The checker that ignores a rule too. -/
def ignoreRule (c : Checker) (rule : Bytes) : Checker :=
  { c with ignoredRules := c.ignoredRules ++ [rule] }

/-- The checker that ignores the paths of a pattern too. -/
def ignorePath (c : Checker) (pattern : Bytes) : Checker :=
  { c with ignoredPaths := c.ignoredPaths ++ [Path.clean pattern] }

/-- The checker with a severity for a rule; a rule that is off is ignored. -/
def setRule (c : Checker) (rule : Bytes × Severity) : Checker :=
  if rule.2 = .off then c.ignoreRule rule.1 else { c with severities := rule :: c.severities }

/-- A checker with these options and severities of rules. -/
def create (options : Options) (rules : List (Bytes × Severity)) : Except Failure Checker :=
  if options.accepted then .ok (rules.foldl setRule { options }) else .error (.badOptions options)

/-- The checker that ignores these rules and paths too. -/
def ignoring (c : Checker) (rules paths : List Bytes) : Checker :=
  paths.foldl ignorePath (rules.foldl ignoreRule c)

/-! ## Ignored paths -/

/-- Whether a pattern covers a path, both in their shortest spelling: it matches the path or its
last name, or it is the path or a directory above it. -/
def covers (pattern path : Bytes) : Bool :=
  Glob.matches? pattern path || Glob.matches? pattern (Path.base path) || path == pattern ||
    (pattern ++ [Path.separator]).isPrefixOf path

/-- Whether a file is to be ignored. -/
def isIgnored (c : Checker) (file : Bytes) : Bool :=
  c.ignoredPaths.any fun pattern => covers pattern (Path.clean file)

/-! ## Results -/

/-- The issues left once ignored rules are dropped, with the severities set for their rules. -/
def filterIssues (c : Checker) (issues : List Issue) : List Issue :=
  (issues.filter fun issue => !c.ignoredRules.contains issue.rule).map fun issue =>
    { issue with severity := (c.severities.lookup issue.rule).getD issue.severity }

/-- The result of a verdict on a source. -/
def result (c : Checker) (filename : Bytes) (source : Source) (verdict : Verdict) : Result where
  filename
  verdict
  issues := c.filterIssues (Issue.ofVerdict filename verdict c.options)
  source

/-- Checks a source in memory. -/
def runSource (c : Checker) (content : Bytes) : Result × List LogEntry :=
  let source := Source.ofContent content
  let (verdict, trace) := scanTraced source.raw
  (c.result [] source verdict, LogEntry.ofTrace trace)

/-! ## Files -/

/-- What checking a file leaves. -/
structure Checked where
  /-- No result if the file is ignored. -/
  answer : Except Failure (Option Result)
  log : List LogEntry
  checker : Checker
  tree : FileTree

/-- Looks a source up in the cache, if there is one. -/
def lookup (c : Checker) (now : Int) (file : Bytes) (source : Source) : Option Verdict × Checker :=
  match c.cache with
  | none => (none, c)
  | some cache =>
    let (found, cache) := cache.get now file source.raw
    (found, { c with cache := some cache })

/-- Stores a verdict in the cache, if there is one.  A verdict that cannot be kept is only told. -/
def store (c : Checker) (t : FileTree) (now : Int) (file : Bytes) (source : Source)
    (verdict : Verdict) : List LogEntry × Checker × FileTree :=
  match c.cache with
  | none => ([], c, t)
  | some cache =>
    let (cache, written) := cache.set t now file source.raw verdict
    let c := { c with cache := some cache }
    match written with
    | .ok t => ([], c, t)
    | .error failure => ([.notCached file failure], c, t)

/-- Checks a source read from a file. -/
def runRead (c : Checker) (t : FileTree) (now : Int) (file : Bytes) (source : Source) : Checked :=
  match c.lookup now file source with
  | (some verdict, c) =>
    { answer := .ok (some { c.result file source verdict with cached := true })
      log := [.cached file], checker := c, tree := t }
  | (none, c) =>
    let (verdict, trace) := scanTraced source.raw
    let (told, c, t) := c.store t now file source verdict
    { answer := .ok (some (c.result file source verdict))
      log := LogEntry.ofTrace trace ++ told, checker := c, tree := t }

/-- Checks a file. -/
def run (c : Checker) (t : FileTree) (now : Int) (file : Bytes) : Checked :=
  if c.isIgnored file then
    { answer := .ok none, log := [.ignored file], checker := c, tree := t }
  else match t.read file with
    | .ok content => c.runRead t now file (Source.ofContent content)
    | .error error =>
      { answer := .error (.path .readingFile error), log := [], checker := c, tree := t }

end Checker

end BraceBalance
