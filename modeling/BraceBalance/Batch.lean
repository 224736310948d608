import BraceBalance.Checker
import BraceBalance.Find

/-!
# Batch — checking many sources

Paths are checked in the order given; a directory stands for the wanted files under it, in the
order of their paths.  A file of a directory that cannot be checked is told and passed over; any
other failure ends the batch.
-/

namespace BraceBalance

namespace Batch

/-- How one file is checked. -/
abbrev Process := Checker → FileTree → Bytes → Checker.Checked

/-- Where a batch stands. -/
structure Progress where
  checker : Checker
  tree : FileTree
  log : List LogEntry := []

/-- Checks one file. -/
def file (process : Process) (p : Progress) (path : Bytes) :
    Except Failure (Option Result) × Progress :=
  let checked := process p.checker p.tree path
  (checked.answer, ⟨checked.checker, checked.tree, p.log ++ checked.log⟩)

/-- Checks the files of a directory one by one, behind the results already found (`done`, the
newest first). -/
def directoryFiles (process : Process) (done : List Result) (p : Progress) :
    List Bytes → List Result × Progress
  | [] => (done.reverse, p)
  | path :: rest =>
    match file process p path with
    | (.ok result, p) => directoryFiles process (result.toList ++ done) p rest
    | (.error failure, p) =>
      directoryFiles process done { p with log := p.log ++ [.fileFailed path failure] } rest

/-- Checks the wanted files under a directory.  If the batch is interrupted, no file is begun. -/
def directory (process : Process) (interrupted : Option Failure) (extensions : List Bytes)
    (p : Progress) (path : Bytes) : Except Failure (List Result) × Progress :=
  let extensions := if extensions.isEmpty then standardExtensions else extensions
  match Find.files p.tree extensions path with
  | .error error => (.error (.path (.walking path) error), p)
  | .ok found =>
    match interrupted, found with
    | some failure, _ :: _ => (.error failure, p)
    | _, _ =>
      let (results, p) := directoryFiles process [] p (found.map (·.path))
      (.ok results, p)

/-- Checks a path: a directory, or a file whatever its extension. -/
def path (process : Process) (interrupted : Option Failure) (extensions : List Bytes)
    (p : Progress) (path : Bytes) : Except Failure (List Result) × Progress :=
  match p.tree.stat path with
  | .error error => (.error (.path (.accessing path) error), p)
  | .ok .dir => directory process interrupted extensions p path
  | .ok _ =>
    match file process p path with
    | (.ok result, p) => (.ok result.toList, p)
    | (.error failure, p) => (.error failure, p)

/-- Checks paths in turn, behind the results already found; the first failure is told and ends the
batch. -/
def pathsOnto (process : Process) (interrupted : Option Failure) (extensions : List Bytes)
    (done : List Result) (p : Progress) : List Bytes → Except Failure (List Result) × Progress
  | [] => (.ok done, p)
  | next :: rest =>
    match path process interrupted extensions p next with
    | (.ok results, p) => pathsOnto process interrupted extensions (done ++ results) p rest
    | (.error failure, p) =>
      (.error failure, { p with log := p.log ++ [.pathFailed next failure] })

/-- Checks paths in turn. -/
def paths (process : Process) (interrupted : Option Failure) (extensions : List Bytes)
    (p : Progress) (given : List Bytes) : Except Failure (List Result) × Progress :=
  pathsOnto process interrupted extensions [] p given

/-- Checks sources in memory in turn, from the one with the number `index` on. -/
def sourcesFrom (process : Bytes → Except Failure Result) (interrupted : Option Failure)
    (index : Nat) (done : List Result) : List Bytes → Except Failure (List Result) × List LogEntry
  | [] => (.ok done.reverse, [])
  | source :: rest =>
    match interrupted with
    | some failure => (.error failure, [])
    | none =>
      match process source with
      | .ok result => sourcesFrom process interrupted (index + 1) (result :: done) rest
      | .error failure => (.error failure, [.sourceFailed index failure])

/-- Checks sources in memory in turn. -/
def sources (process : Bytes → Except Failure Result) (interrupted : Option Failure)
    (given : List Bytes) : Except Failure (List Result) × List LogEntry :=
  sourcesFrom process interrupted 0 [] given

end Batch

end BraceBalance
