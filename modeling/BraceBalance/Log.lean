import BraceBalance.Failure
import BraceBalance.Scan.State

/-!
# Log — what is told on the way

An entry has a level, a message and named fields.  Each kind of entry is built in one place here.
-/

namespace BraceBalance

/-- How much an entry matters, the least first. -/
inductive Level where
  | debug
  | info
  | warn
  | error
  | dpanic
  | panic
  | fatal
  deriving DecidableEq

namespace Level

/-- The levels, the least first. -/
def all : List Level := [debug, info, warn, error, dpanic, panic, fatal]

/-- The name of a level. -/
def name : Level → Bytes
  | debug => "debug"
  | info => "info"
  | warn => "warn"
  | error => "error"
  | dpanic => "dpanic"
  | panic => "panic"
  | fatal => "fatal"

/-- The place of a level in the order. -/
def rank (l : Level) : Nat := all.idxOf l

/-- The level a text names in any letter case; no text names `info`. -/
def ofName (text : Bytes) : Except Failure Level :=
  if text = [] then .ok info
  else match all.find? fun l => text.isLowerOf l.name with
    | some l => .ok l
    | none => .error (.unknownLevel text)

end Level

/-- The value of a field. -/
inductive LogValue where
  | text (value : Bytes)
  | number (value : Int)
  | texts (values : List Bytes)
  deriving DecidableEq

/-- Something told on the way. -/
structure LogEntry where
  level : Level
  /-- The part of the program that tells it; empty for the program at large. -/
  logger : Bytes := []
  message : Bytes
  fields : List (Bytes × LogValue) := []
  deriving DecidableEq

namespace LogEntry

/-- A field that holds a text. -/
def textField (name value : Bytes) : Bytes × LogValue := (name, .text value)

/-- A field that holds a number. -/
def numberField (name : Bytes) (value : Int) : Bytes × LogValue := (name, .number value)

/-- The field of a failure. -/
def failureField (f : Failure) : Bytes × LogValue := textField "error" f.message

/-- The fields of a place. -/
def placeFields (p : Position) : List (Bytes × LogValue) :=
  [numberField "line" p.line, numberField "column" p.column]

/-- The entry for an event of a scan. -/
def ofEvent (logger : Bytes) : Event → LogEntry
  | .push o =>
    { level := .debug, logger, message := "push",
      fields := placeFields o.position ++ [textField "kind" o.kind.text] }
  | .pop p => { level := .debug, logger, message := "pop", fields := placeFields p }
  | .closeInterpolation p =>
    { level := .debug, logger, message := "close interpolation", fields := placeFields p }
  | .unexpectedClosing p =>
    { level := .debug, logger, message := "unexpected closing brace", fields := placeFields p }

/-- The entries for the trace of a scan made while checking. -/
def ofTrace (trace : List Event) : List LogEntry := trace.map (ofEvent "scanner")

/-- A file was passed over because it is to be ignored. -/
def ignored (file : Bytes) : LogEntry :=
  { level := .debug, message := "Skipping ignored path", fields := [textField "file" file] }

/-- A file's verdict came from the cache. -/
def cached (file : Bytes) : LogEntry :=
  { level := .debug, message := "Using cached verdict", fields := [textField "file" file] }

/-- A file's verdict could not be kept. -/
def notCached (file : Bytes) (f : Failure) : LogEntry :=
  { level := .warn, message := "Failed to cache verdict",
    fields := [textField "file" file, failureField f] }

/-- One of several sources could not be checked. -/
def sourceFailed (index : Nat) (f : Failure) : LogEntry :=
  { level := .error, message := "Error processing source",
    fields := [numberField "source" index, failureField f] }

/-- A file of a directory could not be checked. -/
def fileFailed (file : Bytes) (f : Failure) : LogEntry :=
  { level := .error, message := "Error processing file",
    fields := [textField "file" file, failureField f] }

/-- A path given could not be checked. -/
def pathFailed (path : Bytes) (f : Failure) : LogEntry :=
  { level := .error, message := "Error processing path",
    fields := [textField "path" path, failureField f] }

/-- Something failed that ends or spoils a whole command. -/
def failed (level : Level) (message : Bytes) (f : Failure) : LogEntry :=
  { level, message, fields := [failureField f] }

/-- Something failed with a path that was given on the command line. -/
def failedAt (message name path : Bytes) (f : Failure) : LogEntry :=
  { level := .fatal, message, fields := [textField name path, failureField f] }

/-- Directories are being watched. -/
def watching (dirs : List Bytes) : LogEntry :=
  { level := .info, message := "Watching for changes", fields := [("dirs", .texts dirs)] }

end LogEntry

end BraceBalance
