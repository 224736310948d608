import BraceBalance.Text.Bytes

/-!
# FileTree/Error — why a path could not be used
-/

namespace BraceBalance

/-- Why the system refuses a path. -/
inductive Cause where
  | notFound
  | notDirectory
  | isDirectory
  | tooManyLinks
  | alreadyExists
  | nameTooLong
  | invalid
  deriving DecidableEq

/-- The words for a cause. -/
def Cause.message : Cause → Bytes
  | notFound => "no such file or directory"
  | notDirectory => "not a directory"
  | isDirectory => "is a directory"
  | tooManyLinks => "too many levels of symbolic links"
  | alreadyExists => "file exists"
  | nameTooLong => "file name too long"
  | invalid => "invalid argument"

/-- What was to be done with a path. -/
inductive Access where
  | opening
  | reading
  | listing
  | stat
  | lstat
  | mkdir
  | rename
  | remove
  deriving DecidableEq

/-- The word for an access. -/
def Access.word : Access → Bytes
  | opening => "open"
  | reading => "read"
  | listing => "readdirent"
  | stat => "stat"
  | lstat => "lstat"
  | mkdir => "mkdir"
  | rename => "rename"
  | remove => "RemoveAll"

/-- A path that could not be used. -/
structure PathError where
  access : Access
  path : Bytes
  cause : Cause
  deriving DecidableEq

/-- What is said of a path that could not be used. -/
def PathError.message (e : PathError) : Bytes :=
  e.access.word ++ " " ++ e.path ++ ": " ++ e.cause.message

end BraceBalance
