import BraceBalance.Text.Bytes

/-!
# Text/Lines — line breaks

LF, CRLF and a lone CR each end a line.  A `Source` keeps a text with its breaks rewritten as LF
beside its lines, so that a line number counted over the one indexes the other.
-/

namespace BraceBalance

namespace Lines

/-- Line feed, the break every other one is rewritten to. -/
def lf : UInt8 := 0x0a

/-- Carriage return. -/
def cr : UInt8 := 0x0d

/-- A text with CRLF and lone CR rewritten as LF, behind what was already rewritten (`acc`, last
byte first). -/
def normalizeOnto (acc : Bytes) : Bytes → Bytes
  | [] => acc.reverse
  | 0x0d :: 0x0a :: rest => normalizeOnto (lf :: acc) rest
  | b :: rest => normalizeOnto ((if b = cr then lf else b) :: acc) rest

/-- A text with CRLF and lone CR rewritten as LF. -/
def normalize (s : Bytes) : Bytes := normalizeOnto [] s

/-- The lines of a text behind those already complete (`done`, newest first) and the bytes of the
line begun (`line`, last byte first). -/
def splitOnto (done : List Bytes) (line : Bytes) : Bytes → List Bytes
  | [] => (if line.isEmpty then done else line.reverse :: done).reverse
  | 0x0d :: 0x0a :: rest => splitOnto (line.reverse :: done) [] rest
  | b :: rest =>
    if b = cr ∨ b = lf then splitOnto (line.reverse :: done) [] rest
    else splitOnto done (b :: line) rest

/-- The lines of a text.  A break at the very end starts no further line. -/
def split (s : Bytes) : List Bytes := splitOnto [] [] s

end Lines

/-- A text to check, with its line breaks rewritten as LF, and its lines. -/
structure Source where
  raw : Bytes
  lines : List Bytes
  deriving DecidableEq

/-- The source of a file's content. -/
def Source.ofContent (content : Bytes) : Source :=
  let raw := Lines.normalize content
  ⟨raw, Lines.split raw⟩

end BraceBalance
