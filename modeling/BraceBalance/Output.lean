import BraceBalance.Checker
import BraceBalance.Json
import BraceBalance.Pretty.Draft
import BraceBalance.Report.Summary

/-!
# Output — results as they are written

Three formats: the plain text of each verdict, the issues written out, and JSON.  The plain text
shows the verdict itself, whatever rules are ignored.
-/

namespace BraceBalance

/-- A format of results. -/
inductive Format where
  | text
  | pretty
  | json
  deriving DecidableEq

/-- The format with this name. -/
def Format.ofName (name : Bytes) : Except Failure Format :=
  if name = ("text" : Bytes) then .ok .text
  else if name = ("pretty" : Bytes) then .ok .pretty
  else if name = ("json" : Bytes) then .ok .json
  else .error (.unknownFormat name)

namespace Result

/-- Whether issues are left in a result. -/
def hasIssues (r : Result) : Bool := !r.issues.isEmpty

/-- The plain text of a result. -/
def summary (r : Result) (o : Options) : Except Failure Bytes :=
  match r.verdict.summary r.source.lines o with
  | .ok text => .ok text
  | .error code => .error (.unknownVerdict code)

/-- The line a result is announced with. -/
def heading (r : Result) : Bytes := "==> " ++ r.filename ++ "\n"

/-- A position in JSON. -/
def positionJson (filename : Bytes) (p : Position) : Json :=
  .object [("Filename", .text filename), ("Offset", .number 0), ("Line", .number p.line),
    ("Column", .number p.column)]

/-- An issue in JSON. -/
def issueJson (i : Issue) : Json :=
  .object [("Rule", .text i.rule), ("Category", .text i.category), ("Filename", .text i.filename),
    ("Message", .text i.message), ("Suggestion", .text i.suggestion), ("Note", .text i.note),
    ("Start", positionJson i.filename i.start), ("End", positionJson i.filename i.stop),
    ("Severity", .text i.severity.name)]

/-- A result in JSON. -/
def json (r : Result) : Json :=
  .object [("filename", .text r.filename), ("status", .text r.status),
    ("issues", .list (r.issues.map issueJson))]

end Result

namespace Output

/-- How many results have issues left. -/
def problems (results : List Result) : Nat := (results.filter (·.hasIssues)).length

/-- The plain text of results, each under its name if there are several. -/
def text (o : Options) (results : List Result) : Except Failure Bytes := do
  let blocks ← results.mapM fun r => do
    let summary ← r.summary o
    return if results.length > 1 then r.heading ++ summary else summary
  return Bytes.joinWith "\n" blocks

/-- The issues of results written out, and how many files there were. -/
def pretty (colour : Bool) (results : List Result) : Bytes :=
  (results.filter (·.hasIssues)).flatMap
      (fun r => Issue.render colour r.issues (some r.source.lines)) ++
    Bytes.ofNat results.length ++ " file(s) checked, " ++ Bytes.ofNat (problems results) ++
    " with brace issues\n"

/-- Results in JSON. -/
def json (results : List Result) : Bytes := (Json.list (results.map (·.json))).indented ++ "\n"

/-- Results in the format with this name. -/
def write (format : Bytes) (colour : Bool) (o : Options) (results : List Result) :
    Except Failure Bytes := do
  match ← Format.ofName format with
  | .text => text o results
  | .pretty => return pretty colour results
  | .json => return json results

end Output

end BraceBalance
