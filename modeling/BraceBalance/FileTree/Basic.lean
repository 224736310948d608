import BraceBalance.FileTree.Error
import BraceBalance.Path.Lexical

/-!
# FileTree/Basic — directories, files and symbolic links

A tree maps locations to nodes.  A path is followed name by name from the working directory or the
root; a symbolic link on the way is replaced by its target, at most forty times.
-/

namespace BraceBalance

/-- Where a node stands: the names that lead to it from the root. -/
abbrev Location := List Bytes

/-- What stands at a location. -/
inductive Node where
  | dir
  | file (content : Bytes)
  | link (target : Bytes)
  deriving DecidableEq

namespace Node

/-- Whether a node is a directory. -/
def isDir : Node → Bool
  | dir => true
  | _ => false

/-- The size of a node: a file's content, a link's target. -/
def size : Node → Nat
  | dir => 0
  | file content => content.length
  | link target => target.length

end Node

/-- The nodes at hand, and where relative paths start. -/
structure FileTree where
  nodes : List (Location × Node)
  workingDir : Location

namespace FileTree

/-- A tree that holds an empty working directory and nothing else. -/
def empty : FileTree where
  nodes := [([], .dir), (["work"], .dir)]
  workingDir := ["work"]

/-- What stands at a location. -/
def node? (t : FileTree) (at_ : Location) : Option Node := t.nodes.lookup at_

/-- The tree with this node at this location, and no other. -/
def set (t : FileTree) (at_ : Location) (node : Node) : FileTree :=
  { t with nodes := (t.nodes.filter (·.1 ≠ at_)) ++ [(at_, node)] }

/-- The tree without a location and all that stands below it. -/
def erase (t : FileTree) (at_ : Location) : FileTree :=
  { t with nodes := t.nodes.filter fun (l, _) => !at_.isPrefixOf l }

/-- The nodes strictly below a location, by the names that lead to them from there. -/
def below (t : FileTree) (at_ : Location) : List (List Bytes × Node) :=
  t.nodes.filterMap fun (l, node) =>
    if at_.isPrefixOf l && l ≠ at_ then some (l.drop at_.length, node) else none

/-! ## Following a path -/

/-- How far names lead without following a link that stands in the way. -/
inductive Advance where
  | arrived (at_ : Location)
  /-- The last name is missing from this directory. -/
  | missing (parent : Location) (name : Bytes)
  /-- A link of this directory stands before the remaining names. -/
  | link (parent : Location) (target : Bytes) (rest : List Bytes)
  | stuck (cause : Cause)

/-- The most bytes a name may have. -/
def maxName : Nat := 255

/-- The most bytes a path may have. -/
def maxPath : Nat := 4095

/-- The most links a path may lead through. -/
def maxLinks : Nat := 40

/-- Follows names from a location.  A link at the last name is followed only with `followLast`. -/
def advance (t : FileTree) (followLast : Bool) : Location → List Bytes → Advance
  | at_, [] => .arrived at_
  | at_, name :: rest =>
    if t.node? at_ ≠ some .dir then .stuck .notDirectory
    else if name = Path.here then advance t followLast at_ rest
    else if name = Path.above then advance t followLast at_.dropLast rest
    else if name.length > maxName then .stuck .nameTooLong
    else match t.node? (at_ ++ [name]) with
      | none => if rest = [] then .missing at_ name else .stuck .notFound
      | some (.link target) =>
        if rest = [] ∧ followLast = false then .arrived (at_ ++ [name]) else .link at_ target rest
      | some _ => advance t followLast (at_ ++ [name]) rest

/-- Where a path leads. -/
inductive Place where
  | present (at_ : Location)
  /-- The directory is there, but has nothing of this name. -/
  | absent (parent : Location) (name : Bytes)

/-- The names of a path; one that ends in a separator must lead to a directory. -/
def steps (path : Bytes) : List Bytes :=
  Path.names path ++ if Path.trailing path then [Path.here] else []

/-- Follows names from a location, through at most `links` links. -/
def follow (t : FileTree) (followLast : Bool) :
    (links : Nat) → Location → List Bytes → Except Cause Place
  | links, at_, names =>
    match t.advance followLast at_ names with
    | .arrived at_ => .ok (.present at_)
    | .missing parent name => .ok (.absent parent name)
    | .stuck cause => .error cause
    | .link parent target rest =>
      match links with
      | 0 => .error .tooManyLinks
      | links + 1 =>
        t.follow followLast links (if Path.rooted target then [] else parent) (steps target ++ rest)

/-- The location a path starts from. -/
def origin (t : FileTree) (path : Bytes) : Location :=
  if Path.rooted path then [] else t.workingDir

/-- Where a path leads, given the names to follow from where it starts. -/
def resolveSteps (t : FileTree) (followLast : Bool) (path : Bytes) (names : List Bytes) :
    Except Cause Place :=
  if path = [] then .error .notFound
  else if path.contains 0 then .error .invalid
  else if path.length > maxPath then .error .nameTooLong
  else t.follow followLast maxLinks (t.origin path) names

/-- Where a path leads. -/
def resolve (t : FileTree) (followLast : Bool) (path : Bytes) : Except Cause Place :=
  t.resolveSteps followLast path (steps path)

/-- The location of an existing node and the node. -/
def locate (t : FileTree) (followLast : Bool) (path : Bytes) : Except Cause (Location × Node) :=
  match t.resolve followLast path with
  | .ok (.present at_) =>
    match t.node? at_ with
    | some node => .ok (at_, node)
    | none => .error .notFound
  | .ok (.absent _ _) => .error .notFound
  | .error cause => .error cause

/-! ## Reading -/

/-- The node a path leads to through links. -/
def stat (t : FileTree) (path : Bytes) : Except PathError Node :=
  match t.locate true path with
  | .ok (_, node) => .ok node
  | .error cause => .error ⟨.stat, path, cause⟩

/-- The node a path names, which may be a link, and its location. -/
def lstat (t : FileTree) (path : Bytes) : Except PathError (Location × Node) :=
  match t.locate false path with
  | .ok found => .ok found
  | .error cause => .error ⟨.lstat, path, cause⟩

/-- What stands in a directory, in the order of the names. -/
def entries (t : FileTree) (at_ : Location) : List (Bytes × Node) :=
  let found := (t.below at_).filterMap fun (names, node) =>
    match names with
    | [name] => some (name, node)
    | _ => none
  found.mergeSort fun a b => Bytes.le a.1 b.1

/-- What stands in the directory that a path leads to. -/
def readDir (t : FileTree) (path : Bytes) : Except PathError (List (Bytes × Node)) :=
  match t.locate true path with
  | .ok (at_, .dir) => .ok (t.entries at_)
  | .ok (_, _) => .error ⟨.listing, path, .notDirectory⟩
  | .error cause => .error ⟨.opening, path, cause⟩

/-- The content of a file. -/
def read (t : FileTree) (path : Bytes) : Except PathError Bytes :=
  match t.locate true path with
  | .ok (_, .file content) => .ok content
  | .ok (_, _) => .error ⟨.reading, path, .isDirectory⟩
  | .error cause => .error ⟨.opening, path, cause⟩

end FileTree

end BraceBalance
