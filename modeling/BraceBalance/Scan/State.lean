import BraceBalance.Scan.OpenStack

/-!
# Scan/State — what a scan knows between two characters

`State.step` reads one character, with the next one in sight, and says what happens: the scan goes
on in a new state, having touched the openers at most once, or it halts at a closing brace that has
nothing to close.
-/

namespace BraceBalance

/-- The lexical context of a place in a source. -/
inductive Mode where
  | code
  | lineComment
  | blockComment
  | singleQuoted
  | doubleQuoted
  | template
  deriving DecidableEq, Inhabited

namespace Mode

/-- The modes by number. -/
def all : List Mode := [code, lineComment, blockComment, singleQuoted, doubleQuoted, template]

/-- The mode with the number `n`. -/
def ofNumber? (n : Int) : Option Mode := if n < 0 then none else all[n.toNat]?

/-- The name of a mode. -/
def name : Mode → Bytes
  | code => "normal"
  | lineComment => "line-comment"
  | blockComment => "block-comment"
  | singleQuoted => "single-quote"
  | doubleQuoted => "double-quote"
  | template => "backtick"

/-- The mode a quotation mark begins. -/
def opened? (c : Char) : Option Mode :=
  if c = '\x27' then some singleQuoted
  else if c = '\x22' then some doubleQuoted
  else if c = '\x60' then some template
  else none

end Mode

/-- What a scan does to the openers, as its trace tells it. -/
inductive Event where
  /-- An opener was pushed. -/
  | push (opener : Opener)
  /-- The closing brace at this place closed the newest opener. -/
  | pop (closing : Position)
  /-- The interpolation opened at this place was closed. -/
  | closeInterpolation (opening : Position)
  /-- The closing brace at this place had nothing to close. -/
  | unexpectedClosing (closing : Position)
  deriving DecidableEq

/-- What a scan knows between two characters. -/
structure State where
  line : Nat := 1
  /-- The column of the last character read, zero at the start of a line. -/
  column : Nat := 0
  mode : Mode := .code
  /-- Whether the last character was a backslash that quotes the next one. -/
  escaped : Bool := false
  /-- How many interpolations of the template are open. -/
  depth : Nat := 0
  stack : OpenStack := {}
  deriving DecidableEq, Inhabited

/-- What one character makes of a state. -/
inductive Step where
  | next (state : State) (event : Option Event)
  | halt (closing : Position)

namespace State

/-- The state a scan starts in. -/
def start : State := {}

/-- The place of the last character read. -/
def here (s : State) : Position := ⟨s.line, s.column⟩

/-- The start of the next line: a line comment ends here, and no backslash reaches across. -/
def newLine (s : State) : State :=
  { s with
    line := s.line + 1
    column := 0
    mode := if s.mode = .lineComment then .code else s.mode
    escaped := false }

/-- The state with an opener of this kind pushed at the last character read. -/
def opening (s : State) (kind : Kind) : Step :=
  let opener : Opener := ⟨s.here, kind⟩
  .next { s with stack := s.stack.push opener } (some (.push opener))

/-- A character in code. -/
def stepCode (s : State) (c : Char) (next : Option Char) : Step :=
  if c = '/' ∧ next = some '/' then .next { s with mode := .lineComment } none
  else if c = '/' ∧ next = some '*' then .next { s with mode := .blockComment } none
  else if c = '\\' ∧ s.escaped = false then .next { s with escaped := true } none
  else match Mode.opened? c with
    | some mode => .next { s with mode, escaped := false } none
    | none =>
      if c = '\x7b' then s.opening .brace
      else if c = '\x7d' then
        match s.stack.pop? with
        | some (_, stack) => .next { s with stack } (some (.pop s.here))
        | none => .halt s.here
      else .next s none

/-- A character between the quotation marks `closer`. -/
def stepQuoted (s : State) (closer c : Char) : Step :=
  if c = '\\' ∧ s.escaped = false then .next { s with escaped := true } none
  else if c = closer ∧ s.escaped = false then .next { s with mode := .code, escaped := false } none
  else .next { s with escaped := false } none

/-- A character in a template.  Inside an interpolation only its closing brace and further
interpolations count. -/
def stepTemplate (s : State) (c : Char) (next : Option Char) : Step :=
  if c = '\\' ∧ s.escaped = false then .next { s with escaped := true } none
  else if c = '\x60' ∧ s.escaped = false ∧ s.depth = 0 then
    .next { s with mode := .code, escaped := false } none
  else if c = '$' ∧ next = some '\x7b' then
    { s with depth := s.depth + 1, escaped := false }.opening .interpolation
  else if c = '\x7d' ∧ 0 < s.depth then
    match s.stack.removeNearest? .interpolation with
    | some (opener, stack) =>
      .next { s with depth := s.depth - 1, stack, escaped := false }
        (some (.closeInterpolation opener.position))
    | none => .next { s with escaped := false } none
  else .next { s with escaped := false } none

/-- A character other than a line break, its column already counted. -/
def stepInLine (s : State) (c : Char) (next : Option Char) : Step :=
  match s.mode with
  | .code => s.stepCode c next
  | .lineComment => .next s none
  | .blockComment =>
    .next (if c = '*' ∧ next = some '/' then { s with mode := .code } else s) none
  | .singleQuoted => s.stepQuoted '\x27' c
  | .doubleQuoted => s.stepQuoted '\x22' c
  | .template => s.stepTemplate c next

/-- Reads the character `c`, with `next` the one after it. -/
def step (s : State) (c : Char) (next : Option Char) : Step :=
  if c = '\n' then .next s.newLine none
  else { s with column := s.column + 1 }.stepInLine c next

end State

end BraceBalance
