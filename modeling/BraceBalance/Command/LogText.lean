import BraceBalance.Json
import BraceBalance.Log

/-!
# Command/LogText — log entries as lines

An entry is one line: its level, the part of the program, its message and its fields in JSON, with
tabs between them.  Entries below a level are left out, and of a message told over and over only
every hundredth after the first hundred is kept.
-/

namespace BraceBalance

namespace LogValue

/-- The value of a field in JSON. -/
def json : LogValue → Bytes
  | text value => Json.writeText false value
  | number value => Bytes.ofInt value
  | texts values => "[" ++ Bytes.joinWith ", " (values.map (Json.writeText false)) ++ "]"

end LogValue

namespace LogEntry

/-- The fields of an entry in JSON. -/
def fieldsJson (e : LogEntry) : Bytes :=
  let fields := e.fields.map fun (name, value) => Json.writeText false name ++ ": " ++ value.json
  "\x7b" ++ Bytes.joinWith ", " fields ++ "\x7d"

/-- The line of an entry. -/
def line (e : LogEntry) : Bytes :=
  let columns := [e.level.name] ++ (if e.logger.isEmpty then [] else [e.logger]) ++ [e.message] ++
    (if e.fields.isEmpty then [] else [e.fieldsJson])
  Bytes.joinWith "\t" columns ++ "\n"

end LogEntry

namespace LogText

/-- How many entries of one level and message are kept before only some are, and of how many one is
kept then. -/
def burst : Nat := 100

/-- Whether the `n`-th entry of a level and message is kept. -/
def kept (n : Nat) : Bool := n ≤ burst || (n - burst) % burst == 0

/-- The entries that are kept, where `seen` counts those told so far by level and message. -/
def sampledFrom (seen : List ((Level × Bytes) × Nat)) : List LogEntry → List LogEntry
  | [] => []
  | e :: rest =>
    let key := (e.level, e.message)
    let n := (seen.lookup key).getD 0 + 1
    let rest := sampledFrom ((key, n) :: seen.filter (·.1 ≠ key)) rest
    if kept n then e :: rest else rest

/-- The lines of entries from a level on. -/
def write (least : Level) (entries : List LogEntry) : Bytes :=
  (sampledFrom [] (entries.filter fun e => least.rank ≤ e.level.rank)).flatMap LogEntry.line

end LogText

end BraceBalance
