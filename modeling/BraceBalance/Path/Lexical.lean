import BraceBalance.Text.Bytes

/-!
# Path/Lexical — paths as they are spelled

Names separated by `/`; nothing here looks at a file.
-/

namespace BraceBalance

namespace Path

/-- What separates the names of a path. -/
def separator : UInt8 := 0x2f

/-- The directory a path is relative to. -/
def here : Bytes := "."

/-- The directory above. -/
def above : Bytes := ".."

/-- Whether a path starts at the root. -/
def rooted (path : Bytes) : Bool := path.head? == some separator

/-- The names of a path, in order. -/
def names (path : Bytes) : List Bytes := (Bytes.splitOn separator path).filter (· ≠ [])

/-- Whether a path ends in a separator. -/
def trailing (path : Bytes) : Bool := path.getLast? == some separator

/-- The names already kept (the last first) and one name more: `.` goes nowhere, `..` takes back a
name, and above the root there is only the root. -/
def keep (fromRoot : Bool) (kept : List Bytes) (name : Bytes) : List Bytes :=
  if name = here then kept
  else if name = above then
    match kept with
    | last :: rest => if last = above then above :: kept else rest
    | [] => if fromRoot then [] else [above]
  else name :: kept

/-- A path spelled from its names. -/
def spell (fromRoot : Bool) (names : List Bytes) : Bytes :=
  let path := Bytes.joinWith [separator] names
  if fromRoot then separator :: path else if path = [] then here else path

/-- The shortest spelling of a path, found without looking at any file. -/
def clean (path : Bytes) : Bytes :=
  let fromRoot := rooted path
  spell fromRoot ((names path).foldl (keep fromRoot) []).reverse

/-- The last name of a path; `.` for no path at all, and the root's own name for the root. -/
def base (path : Bytes) : Bytes :=
  match (names path).getLast? with
  | some name => name
  | none => if path = [] then here else [separator]

/-- The path of a name in a directory, spelled as short as can be. -/
def join (dir name : Bytes) : Bytes :=
  if dir = [] then (if name = [] then [] else clean name)
  else clean (dir ++ [separator] ++ name)

/-- The end of the last name from its last dot on; empty if it has none. -/
def extension (path : Bytes) : Bytes :=
  let backwards := path.reverse.takeWhile (· ≠ separator)
  if backwards.contains 0x2e then 0x2e :: (backwards.takeWhile (· ≠ 0x2e)).reverse else []

/-- The path without its last name and the separators before it; empty if nothing is left. -/
def parent (path : Bytes) : Bytes :=
  ((((path.reverse.dropWhile (· = separator)).dropWhile (· ≠ separator))).drop 1).reverse

end Path

end BraceBalance
