import BraceBalance.Checker
import BraceBalance.Find
import BraceBalance.Watch.Debouncer

/-!
# Watch/Watcher — checking files as they change

A watcher follows the directories that were under the watched paths when it was started.  A file
written or created there is checked once it has been quiet, if its extension is wanted.
-/

namespace BraceBalance

/-- What happened to a file. -/
inductive FileOperation where
  | create
  | write
  | remove
  | rename
  | chmod
  deriving DecidableEq

namespace FileOperation

/-- The operations by name. -/
def ofName? (name : Bytes) : Option FileOperation :=
  ([("create", create), ("write", write), ("remove", remove), ("rename", rename),
    ("chmod", chmod)] : List (Bytes × FileOperation)).lookup name

end FileOperation

/-- A file and all that happened to it at once. -/
structure FileEvent where
  name : Bytes
  operations : List FileOperation

/-- Whether an event calls for a check: the file was written or created, and has one of the
extensions. -/
def FileEvent.relevant (e : FileEvent) (extensions : List Bytes) : Bool :=
  (e.operations.contains .write || e.operations.contains .create) &&
    extensions.contains (Path.extension e.name)

/-- The debouncer after an event. -/
def Debouncer.handle (d : Debouncer) (extensions : List Bytes) (e : FileEvent) : Debouncer :=
  if e.relevant extensions then d.trigger e.name else d

/-- What the checks made so far found, and what they left. -/
structure Rechecked where
  /-- The outcomes of files that are not ignored. -/
  outcomes : List (Except Failure Result) := []
  log : List LogEntry := []
  checker : Checker
  tree : FileTree

/-- Checks one more file. -/
def Rechecked.run (r : Rechecked) (now : Int) (file : Bytes) : Rechecked :=
  let checked := r.checker.run r.tree now file
  let outcome :=
    match checked.answer with
    | .ok none => []
    | .ok (some result) => [.ok result]
    | .error failure => [.error failure]
  ⟨r.outcomes ++ outcome, r.log ++ checked.log, checked.checker, checked.tree⟩

/-- Checks every file whose check is put off, in the order their timers were armed. -/
def Debouncer.recheck (d : Debouncer) (c : Checker) (t : FileTree) (now : Int) :
    Rechecked × Debouncer :=
  let (due, d) := d.settle
  (due.foldl (·.run now ·) { checker := c, tree := t }, d)

/-- Directories under watch, and the checks put off. -/
structure Watcher where
  /-- The watched directories: where they stand, and how their files are named. -/
  dirs : List (Location × Bytes)
  extensions : List Bytes
  debouncer : Debouncer := {}

namespace Watcher

/-- The watched directory with its location. -/
def placed? (t : FileTree) (path : Bytes) : Option (Location × Bytes) :=
  match t.lstat path with
  | .ok (at_, _) => some (at_, Path.clean path)
  | .error _ => none

/-- Starts to watch the directories at and below these paths. -/
def start (t : FileTree) (paths extensions : List Bytes) : Except Failure Watcher := do
  let dirs ← paths.mapM fun path =>
    match Find.directories t path with
    | .ok dirs => .ok dirs
    | .error error => .error (.path .watching error)
  return { dirs := dirs.flatten.filterMap (placed? t), extensions }

/-- How a node is named if its directory is watched. -/
def nameOf? (w : Watcher) (at_ : Location) : Option Bytes := do
  let dir ← w.dirs.lookup at_.dropLast
  return dir ++ [Path.separator] ++ (← at_.getLast?)

/-- The watcher once the tree has changed by writing the file at `path`: that file and the
directories made on the way were created. -/
def wrote (w : Watcher) (before after : FileTree) (path : Bytes) : Watcher :=
  let made := (after.nodes.map (·.1)).filter fun at_ => (before.node? at_).isNone
  let file :=
    match after.lstat path with
    | .ok (at_, _) => [at_]
    | .error _ => []
  let events := (made.filter (!file.contains ·) ++ file).filterMap w.nameOf?
  let debouncer :=
    events.foldl (fun d name => d.handle w.extensions ⟨name, [.create]⟩) w.debouncer
  { w with debouncer }

/-- The watcher once the tree has lost nodes: a directory that is gone is no longer watched. -/
def removed (w : Watcher) (after : FileTree) : Watcher :=
  { w with dirs := w.dirs.filter fun (at_, _) => after.node? at_ == some .dir }

end Watcher

end BraceBalance
