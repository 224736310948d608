import BraceBalance.Command.Line

/-!
# Command/Help — the page of help
-/

namespace BraceBalance

namespace Command

/-- What each command does. -/
def summaries : List (Bytes × Bytes) :=
  [("check", "Check brace balance of files or directories"),
    ("completion", "Generate the autocompletion script for the specified shell"),
    ("help", "Help about any command"),
    ("init", "Initialize a new configuration file"),
    ("watch", "Re-check files whenever they are written")]

/-- Rows of two columns, the second `gap` places after the widest entry of the first. -/
def columns (gap : Nat) (rows : List (Bytes × Bytes)) : Bytes :=
  let widest := (rows.map fun r => r.1.length).foldl max 0
  rows.flatMap fun (left, right) =>
    "  " ++ left ++ Bytes.spaces (widest - left.length + gap) ++ right ++ "\n"

/-- The kind of value a flag takes. -/
def Slot.kind : Slot → Bytes
  | text _ => " string"
  | toggle _ => []
  | duration _ => " duration"

/-- How the page shows a flag. -/
def Flag.row (f : Flag) : Bytes × Bytes :=
  let letter :=
    match f.letter with
    | some letter => [0x2d, letter] ++ ", "
    | none => Bytes.spaces 4
  let standard : Bytes := if f.standard.isEmpty then [] else " (default " ++ f.standard ++ ")"
  (letter ++ "--" ++ f.name ++ f.slot.kind, f.usage ++ standard)

/-- The page of help. -/
def helpPage : Bytes :=
  let flags := (Flag.help :: Verb.unnamed.flags).mergeSort fun a b => Bytes.le a.name b.name
  "bracecheck - checks curly brace balance in script sources\n\n" ++
    "Usage:\n  bracecheck [paths...] [flags]\n  bracecheck [command]\n\n" ++
    "Available Commands:\n" ++ columns 2 summaries ++
    "\nFlags:\n" ++ columns 3 (flags.map Flag.row) ++
    "\nUse \"bracecheck [command] --help\" for more information about a command.\n"

end Command

end BraceBalance
