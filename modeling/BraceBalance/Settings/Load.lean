import BraceBalance.Checker
import BraceBalance.Settings.Decode

/-!
# Settings/Load — settings from a file
-/

namespace BraceBalance

namespace Settings

/-- The settings the content of a file says; of the stream only the first document counts, and
without a document they are the standard ones. -/
def ofContent (path content : Bytes) : Except Failure Settings :=
  match Yaml.document? content with
  | .error _ => .error (.settingsMalformed path)
  | .ok none => .ok standard
  | .ok (some d) =>
    match standard.ofDocument d with
    | .ok (s, false) => .ok s
    | .ok (_, true) => .error (.settingsMistyped path)
    | .error (.malformed _) => .error (.settingsMalformed path)
    | .error (.severity text) => .error (.settingsSeverity path text)

/-- The settings in a file.  They are the standard ones if no file is named, or if it is the
standard one and missing. -/
def load (t : FileTree) (path : Bytes) : Except Failure Settings :=
  if path.isEmpty then .ok standard
  else match t.read path with
    | .ok content => ofContent path content
    | .error e =>
      if e.cause = .notFound ∧ path = standardPath then .ok standard
      else if e.access = .reading then .error (.settingsMalformed path)
      else .error (.path .unnamed e)

/-- The checker that settings ask for. -/
def checker (s : Settings) : Except Failure Checker := do
  let c ← Checker.create s.report s.rules
  return c.ignoring [] s.ignorePaths

/-- Writes the standard settings into a file, the standard one if none is named. -/
def writeStandard (t : FileTree) (path : Bytes) : Except Failure FileTree :=
  match t.create (if path.isEmpty then standardPath else path) standard.render with
  | .ok t => .ok t
  | .error e => .error (.path .unnamed e)

end Settings

end BraceBalance
