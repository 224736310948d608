import BraceBalance.Command.Run
import BraceBalance.Watch.Watcher

/-!
# Command/Watch — checking again and again

Watching starts with the directories given, or the working directory, and goes on until it is
stopped from outside.  Meanwhile files change, and every check that falls due is printed.
-/

namespace BraceBalance

namespace Command

/-- A watch that goes on. -/
structure Watching where
  task : Task
  report : Options
  checker : Checker
  watcher : Watcher
  tree : FileTree
  /-- What was printed so far. -/
  printed : Bytes := []
  /-- What was told so far. -/
  log : List LogEntry := []

namespace Watching

/-- Starts to watch. -/
def start (k : Task) : Except Outcome Watching := do
  let (s, checker) ← k.prepare
  let dirs := if k.request.operands.isEmpty then [Path.here] else k.request.operands
  match Watcher.start k.world.tree dirs s.extensions with
  | .error f => throw (k.fatal (.failed .fatal "Failed to start watching" f) k.world.tree)
  | .ok watcher =>
    return { task := k, report := s.report, checker, watcher, tree := k.world.tree,
             log := [.watching dirs] }

/-- The watch once a file has been written. -/
def wrote (w : Watching) (after : FileTree) (path : Bytes) : Watching :=
  { w with tree := after, watcher := w.watcher.wrote w.tree after path }

/-- Prints the outcome of one check. -/
def tell (w : Watching) : Except Failure Result → Watching
  | .error f => { w with log := w.log ++ [.failed .error "Error checking file" f] }
  | .ok r =>
    let w := { w with printed := w.printed ++ r.heading }
    match r.summary w.report with
    | .ok text => { w with printed := w.printed ++ text }
    | .error f => { w with log := w.log ++ [.failed .error "Error writing report" f] }

/-- Makes the checks that were put off. -/
def settle (w : Watching) (now : Int) : Watching :=
  let (r, debouncer) := w.watcher.debouncer.recheck w.checker w.tree now
  let w :=
    { w with
      checker := r.checker, tree := r.tree, watcher := { w.watcher with debouncer },
      log := w.log ++ r.log }
  r.outcomes.foldl tell w

/-- The outcome of a watch that is stopped. -/
def stop (w : Watching) : Outcome := w.task.outcome 0 w.printed w.log w.tree

end Watching

/-- How a command goes: it ends, or it watches. -/
inductive Course where
  | ended (outcome : Outcome)
  | watching (watch : Watching)

/-- What a command line does. -/
def run (w : World) (args : List Bytes) : Course :=
  match Task.ofArgs w args with
  | .error outcome => .ended outcome
  | .ok k =>
    match k.request.verb with
    | .unnamed => .ended (if k.request.operands.isEmpty then helped w else k.check)
    | .check => .ended k.check
    | .init => .ended k.writeSettings
    | .help => .ended (helped w)
    | .watch =>
      match Watching.start k with
      | .error outcome => .ended outcome
      | .ok watch => .watching watch

end Command

end BraceBalance
