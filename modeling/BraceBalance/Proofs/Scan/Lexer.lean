import BraceBalance.Scan.Run

/-!
# Proofs/Scan/Lexer — the scan without its openers

A `Lexer` knows what a scan knows besides the openers: the place, the mode, a pending backslash and
how many interpolations of the template are open.  Reading a character it may meet a `Marker`, an
opener or a closer.  Nothing a marker would do to the openers reaches the lexer, so `markers` reads
every text to its end.
-/

namespace BraceBalance

/-- An opener or a closer met in a text. -/
inductive Marker where
  | opening (opener : Opener)
  | closing (kind : Kind) (place : Position)
  deriving DecidableEq

/-- Where a marker stands. -/
def Marker.position : Marker → Position
  | opening opener => opener.position
  | closing _ place => place

/-- What a scan knows between two characters, the openers left out. -/
structure Lexer where
  line : Nat := 1
  /-- The column of the last character read, zero at the start of a line. -/
  column : Nat := 0
  mode : Mode := .code
  escaped : Bool := false
  /-- How many interpolations of the template are open. -/
  depth : Nat := 0
  deriving DecidableEq

namespace Lexer

/-- The lexer at the start of a text. -/
def start : Lexer := {}

/-- The place of the last character read. -/
def here (x : Lexer) : Position := ⟨x.line, x.column⟩

/-- One column further. -/
abbrev advance (x : Lexer) : Lexer := { x with column := x.column + 1 }

/-- The start of the next line. -/
def newLine (x : Lexer) : Lexer :=
  { x with
    line := x.line + 1
    column := 0
    mode := if x.mode = .lineComment then .code else x.mode
    escaped := false }

/-- A character in code. -/
def stepCode (x : Lexer) (c : Char) (next : Option Char) : Lexer × Option Marker :=
  if c = '/' ∧ next = some '/' then ({ x with mode := .lineComment }, none)
  else if c = '/' ∧ next = some '*' then ({ x with mode := .blockComment }, none)
  else if c = '\\' ∧ x.escaped = false then ({ x with escaped := true }, none)
  else match Mode.opened? c with
    | some mode => ({ x with mode, escaped := false }, none)
    | none =>
      if c = '\x7b' then (x, some (.opening ⟨x.here, .brace⟩))
      else if c = '\x7d' then (x, some (.closing .brace x.here))
      else (x, none)

/-- A character between the quotation marks `closer`. -/
def stepQuoted (x : Lexer) (closer c : Char) : Lexer × Option Marker :=
  if c = '\\' ∧ x.escaped = false then ({ x with escaped := true }, none)
  else if c = closer ∧ x.escaped = false then ({ x with mode := .code, escaped := false }, none)
  else ({ x with escaped := false }, none)

/-- A character in a template.  The depth alone decides whether a closing brace counts. -/
def stepTemplate (x : Lexer) (c : Char) (next : Option Char) : Lexer × Option Marker :=
  if c = '\\' ∧ x.escaped = false then ({ x with escaped := true }, none)
  else if c = '\x60' ∧ x.escaped = false ∧ x.depth = 0 then
    ({ x with mode := .code, escaped := false }, none)
  else if c = '$' ∧ next = some '\x7b' then
    ({ x with depth := x.depth + 1, escaped := false }, some (.opening ⟨x.here, .interpolation⟩))
  else if c = '\x7d' ∧ 0 < x.depth then
    ({ x with depth := x.depth - 1, escaped := false }, some (.closing .interpolation x.here))
  else ({ x with escaped := false }, none)

/-- A character other than a line break, its column already counted. -/
def stepInLine (x : Lexer) (c : Char) (next : Option Char) : Lexer × Option Marker :=
  match x.mode with
  | .code => x.stepCode c next
  | .lineComment => (x, none)
  | .blockComment =>
    (if c = '*' ∧ next = some '/' then { x with mode := .code } else x, none)
  | .singleQuoted => x.stepQuoted '\x27' c
  | .doubleQuoted => x.stepQuoted '\x22' c
  | .template => x.stepTemplate c next

/-- Reads the character `c`, with `next` the one after it. -/
def step (x : Lexer) (c : Char) (next : Option Char) : Lexer × Option Marker :=
  if c = '\n' then (x.newLine, none) else x.advance.stepInLine c next

/-- The markers met from `x` on to the end of a text. -/
def markers (x : Lexer) : List Char → List Marker
  | [] => []
  | c :: rest => (x.step c rest.head?).2.toList ++ (x.step c rest.head?).1.markers rest

/-- The scan that knows what `x` knows, with these openers. -/
abbrev holding (x : Lexer) (stack : OpenStack) : State :=
  { line := x.line, column := x.column, mode := x.mode, escaped := x.escaped, depth := x.depth,
    stack }

end Lexer

/-- What a scan knows besides the openers. -/
abbrev State.lexer (s : State) : Lexer :=
  { line := s.line, column := s.column, mode := s.mode, escaped := s.escaped, depth := s.depth }

/-- The markers of a source. -/
def markers (src : Bytes) : List Marker := Lexer.start.markers (Utf8.decode src)

end BraceBalance
