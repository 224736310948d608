import BraceBalance.Text.Blank

/-!
# Pretty/Indent — the indent lines have in common
-/

namespace BraceBalance

namespace Indent

/-- The longest run of characters two lists both begin with. -/
def shared : List Char → List Char → List Char
  | a :: as, b :: bs => if a = b then a :: shared as bs else []
  | _, _ => []

/-- The longest indent all lines begin with, blank lines apart; nothing if all are blank. -/
def common (lines : List Bytes) : Bytes :=
  match (lines.filter (!·.isBlankThroughout)).map fun line => Utf8.decode line.indent with
  | [] => []
  | first :: rest => Utf8.encode (rest.foldl shared first)

end Indent

end BraceBalance
