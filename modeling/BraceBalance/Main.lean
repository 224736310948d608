import BraceBalance.Command.Watch

/-!
# Main — the program

The files at and below the working directory are read into a tree, the command runs on the tree, and
what it changed there is written back.  A watch reads the tree again and again.
-/

namespace BraceBalance

namespace Program

/-- The names that lead to a path of the system. -/
def location (path : String) : Location := Path.names (utf8 path)

/-- Reads what stands below a directory into a tree.  A symbolic link leads to where the system says
it ends; a file that cannot be read is left out. -/
partial def readBelow (t : FileTree) (dir : String) : IO FileTree := do
  let mut t := t
  for entry in ← (← IO.FS.realPath dir).readDir do
    let path := dir ++ "/" ++ entry.fileName
    let place := location path
    match (← entry.path.symlinkMetadata).type with
    | .dir => t ← readBelow (t.set place .dir) path
    | .symlink => t := t.set place (.link (utf8 (← IO.FS.realPath path).toString))
    | _ =>
      try
        t := t.set place (.file (← IO.FS.readBinFile path).data.toList)
      catch _ => pure ()
  return t

/-- The tree around the working directory. -/
def readTree : IO FileTree := do
  let dir := (← IO.FS.realPath ".").toString
  let workingDir := location dir
  let above := (List.range (workingDir.length + 1)).map fun n => (workingDir.take n, Node.dir)
  readBelow { nodes := above, workingDir } dir

/-- The path of the system that leads to a location, if it is a text. -/
def systemPath? (at_ : Location) : Option String :=
  Bytes.toString? (at_.flatMap (Path.separator :: ·))

/-- Changes the files of the system as a tree was changed. -/
def writeBack (before after : FileTree) : IO Unit := do
  for (at_, node) in after.nodes do
    if before.node? at_ = some node then continue
    match systemPath? at_, node with
    | some path, .dir => IO.FS.createDirAll path
    | some path, .file content => IO.FS.writeBinFile path ⟨content.toArray⟩
    | _, _ => pure ()
  for (at_, _) in before.nodes do
    if (after.node? at_).isSome then continue
    match systemPath? at_ with
    | some path => IO.FS.removeFile path
    | none => pure ()

/-- What surrounds the program. -/
def readWorld : IO Command.World := do
  let lookup (name : String) : IO Bytes := return utf8 ((← IO.getEnv name).getD "")
  let plain := !(← lookup "NO_COLOR").isEmpty || (← lookup "TERM") == utf8 "dumb"
  let vars ← Command.Environment.names.mapM fun name => return (utf8 name, ← lookup name)
  return {
    environment := .ofList vars
    tree := ← readTree
    now := ← IO.monoNanosNow
    colour := !plain && (← (← IO.getStdout).isTty) }

/-- Prints what a command leaves and changes the files it changed. -/
def deliver (before : FileTree) (o : Command.Outcome) : IO UInt32 := do
  writeBack before o.tree
  (← IO.getStdout).write ⟨o.printed.toArray⟩
  (← IO.getStderr).write ⟨o.told.toArray⟩
  return o.status.toUInt32

/-- How long a watch waits before it looks again, in milliseconds. -/
def patience : UInt32 := 100

/-- Looks again and again for files that were written, and prints their checks. -/
partial def watch (w : Command.Watching) : IO UInt32 := do
  discard (deliver w.tree w.stop)
  (← IO.getStdout).flush
  IO.sleep patience
  let after ← readTree
  let changed := after.nodes.filter fun (at_, node) =>
    !node.isDir && w.tree.node? at_ ≠ some node
  let paths := changed.map fun (at_, _) => at_.flatMap (Path.separator :: ·)
  let w := paths.foldl (fun w path => w.wrote after path) { w with printed := [], log := [] }
  watch (Command.Watching.settle { w with tree := after } (← IO.monoNanosNow))

end Program

end BraceBalance

open BraceBalance in
/-- Runs the command that the arguments ask for. -/
def main (args : List String) : IO UInt32 := do
  let w ← Program.readWorld
  match Command.run w (args.map utf8) with
  | .ended o => Program.deliver w.tree o
  | .watching watch => Program.watch watch
