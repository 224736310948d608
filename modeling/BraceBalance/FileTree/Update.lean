import BraceBalance.FileTree.Basic

/-!
# FileTree/Update — writing, making and removing

Each operation gives the changed tree, or the error and no change.
-/

namespace BraceBalance

namespace FileTree

/-- The tree with this content in the file a path leads to, made if it is not there. -/
def create (t : FileTree) (path content : Bytes) : Except PathError FileTree :=
  let refuse (cause : Cause) : Except PathError FileTree := .error ⟨.opening, path, cause⟩
  if Path.trailing path then
    match t.resolveSteps true path ((Path.names path).dropLast ++ [Path.here]) with
    | .ok _ => refuse .isDirectory
    | .error cause => refuse cause
  else match t.resolve true path with
    | .ok (.absent parent name) => .ok (t.set (parent ++ [name]) (.file content))
    | .ok (.present at_) =>
      if t.node? at_ = some .dir then refuse .isDirectory else .ok (t.set at_ (.file content))
    | .error cause => refuse cause

/-- The tree with one directory more. -/
def makeDir (t : FileTree) (path : Bytes) : Except PathError FileTree :=
  match t.resolveSteps false path (Path.names path) with
  | .ok (.absent parent name) => .ok (t.set (parent ++ [name]) .dir)
  | .ok (.present _) => .error ⟨.mkdir, path, .alreadyExists⟩
  | .error cause => .error ⟨.mkdir, path, cause⟩

/-- The tree with a directory at a path, once its parents are made; at most `depth` of them. -/
def makeDirsWithin (t : FileTree) : (depth : Nat) → (path : Bytes) → Except PathError FileTree
  | depth, path =>
    match t.stat path with
    | .ok .dir => .ok t
    | .ok _ => .error ⟨.mkdir, path, .notDirectory⟩
    | .error _ => do
      let parents ←
        match depth with
        | 0 => .ok t
        | depth + 1 =>
          if Path.parent path = [] then .ok t else t.makeDirsWithin depth (Path.parent path)
      match parents.makeDir path with
      | .ok made => return made
      | .error e =>
        match parents.lstat path with
        | .ok (_, .dir) => return parents
        | _ => throw e

/-- The tree with a directory at a path and all its parents. -/
def makeDirs (t : FileTree) (path : Bytes) : Except PathError FileTree :=
  t.makeDirsWithin path.length path

/-- The tree with a node put in place of what a path names, unless that is a directory. -/
def replace (t : FileTree) (path : Bytes) (node : Node) : Except PathError FileTree :=
  let refuse (cause : Cause) : Except PathError FileTree := .error ⟨.rename, path, cause⟩
  if Path.trailing path then refuse .notDirectory
  else match t.resolve false path with
    | .ok (.absent parent name) => .ok (t.set (parent ++ [name]) node)
    | .ok (.present at_) =>
      if t.node? at_ = some .dir then refuse .alreadyExists else .ok (t.set at_ node)
    | .error cause => refuse cause

/-- The directory a path's last name stands in. -/
def directoryOf (path : Bytes) : Bytes :=
  Path.clean (path.take (path.length - (path.reverse.takeWhile (· ≠ Path.separator)).length))

/-- `replace`, once the directory of the path is made. -/
def replaceMakingDirs (t : FileTree) (path : Bytes) (node : Node) : Except PathError FileTree := do
  (← t.makeDirs (directoryOf path)).replace path node

/-- The tree without what a path names and all below it; nothing there is no error. -/
def remove (t : FileTree) (path : Bytes) : Except PathError FileTree :=
  if path = [] then .ok t
  else if Path.base path = Path.here && !Path.trailing path then .error ⟨.remove, path, .invalid⟩
  else match t.resolveSteps false path (Path.names path) with
    | .ok (.present at_) => .ok (t.erase at_)
    | .ok (.absent _ _) => .ok t
    | .error .notFound => .ok t
    | .error cause => .error ⟨.remove, path, cause⟩

end FileTree

end BraceBalance
