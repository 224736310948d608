import BraceBalance.FileTree.Basic

/-!
# Find — the files under a path

`Find.files` lists every node at or below a path that is no directory and has a wanted extension,
in the bytewise order of whole paths.  Links are listed and not followed, at the root too.
-/

namespace BraceBalance

/-- The extensions looked for when none are configured. -/
def standardExtensions : List Bytes := [".js", ".mjs", ".cjs", ".jsx", ".ts", ".tsx"]

namespace Find

/-- A file found. -/
structure Found where
  path : Bytes
  size : Nat
  deriving DecidableEq

/-- Whether a path has one of the extensions; with no extensions given every path is wanted. -/
def wanted (extensions : List Bytes) (path : Bytes) : Bool :=
  extensions.isEmpty || extensions.contains (Path.extension path)

/-! ## Walking -/

/-- A node that a walk meets. -/
structure Met where
  path : Bytes
  /-- The path the node is looked up by: its name behind the path of its directory. -/
  spelled : Bytes
  node : Node
  deriving DecidableEq

/-- What a walk meets below a directory, level by level down to a depth: each node is followed by
what is below it, and an error stands where a directory could not be read.  Paths are joined by
spelling alone. -/
def walkBelow (t : FileTree) : (depth : Nat) → (path : Bytes) → List (Except PathError Met)
  -- Every level makes the path longer, so by now it is too long to be opened.
  | 0, path => [.error ⟨.opening, path, .nameTooLong⟩]
  | depth + 1, path =>
    match t.readDir path with
    | .error error => [.error error]
    | .ok entries => entries.flatMap fun (name, node) =>
      let below := if node.isDir then walkBelow t depth (Path.join path name) else []
      .ok ⟨Path.join path name, path ++ [Path.separator] ++ name, node⟩ :: below

/-- What a walk meets at and below a path. -/
def walk (t : FileTree) (root : Bytes) : List (Except PathError Met) :=
  match t.lstat root with
  | .error error => [.error error]
  | .ok (_, node) =>
    let below := if node.isDir then walkBelow t (FileTree.maxPath + 1) root else []
    .ok ⟨root, root, node⟩ :: below

/-- What is picked from the nodes of a walk; the first error ends it. -/
def visit {α : Type} (pick : Met → Except PathError (Option α)) :
    List (Except PathError Met) → Except PathError (List α)
  | [] => .ok []
  | event :: rest => do
    let picked ← pick (← event)
    return picked.toList ++ (← visit pick rest)

/-- A wanted file with its size; nothing for a directory or an unwanted file. -/
def pickFile (t : FileTree) (extensions : List Bytes) (met : Met) :
    Except PathError (Option Found) :=
  if met.node.isDir || !wanted extensions met.path then .ok none
  else (t.lstat met.spelled).map fun (_, node) => some ⟨met.path, node.size⟩

/-- The wanted files at and below a path, in the order of their paths. -/
def files (t : FileTree) (extensions : List Bytes) (root : Bytes) :
    Except PathError (List Found) := do
  let found ← visit (pickFile t extensions) (walk t root)
  return found.mergeSort fun a b => Bytes.le a.path b.path

/-- The directories at and below a path. -/
def directories (t : FileTree) (root : Bytes) : Except PathError (List Bytes) :=
  visit (fun met => .ok (if met.node.isDir then some met.path else none)) (walk t root)

end Find

end BraceBalance
