import BraceBalance.Yaml.Property
import BraceBalance.Yaml.ScalarText

/-!
# Yaml/Lexer — a YAML stream as tokens

Tokens are read on demand into a queue.  A key without `?` is known for a key only at its colon, so
the place of every token that may start one is remembered, and the tokens that open the key (and the
mapping, if it is the first) are put into the queue there afterwards.
-/

namespace BraceBalance

namespace Yaml

/-- A token that may turn out to start a key. -/
structure KeyCandidate where
  /-- Whether a colon may still follow. -/
  possible : Bool
  /-- Whether a colon must follow. -/
  required : Bool
  /-- The token's number in the stream. -/
  number : Nat
  index : Nat
  line : Nat
  column : Nat

/-- A stream that is read as tokens. -/
structure Lexer where
  cursor : Cursor
  started : Bool := false
  /-- How many flow collections are open. -/
  flowLevel : Nat := 0
  /-- The column of the innermost block collection. -/
  indent : Int := -1
  /-- The columns of the block collections around it, the innermost first. -/
  outerIndents : List Int := []
  /-- Whether a key may start here. -/
  keyAllowed : Bool := false
  /-- The candidates of the flow levels, the innermost first: one more than flow collections are
  open. -/
  candidates : List KeyCandidate := []
  /-- The numbers of tokens that wait for their colon, with the flow level of their candidate. -/
  waiting : List (Nat × Nat) := []
  /-- The tokens read and not yet taken. -/
  queue : List Token := []
  /-- How many tokens were taken. -/
  taken : Nat := 0

namespace Lexer

/-- The most collections inside one another. -/
def maxDepth : Nat := 10000

/-- The most characters between the start of a key and its colon. -/
def maxKeyLength : Nat := 1024

/-- How many characters a comment is looked for in white space. -/
def commentReach : Nat := 512

/-- A stream of characters of which nothing was read. -/
def ofChars (cs : List Char) : Lexer := { cursor := .ofChars cs }

/-- Appends a token to the queue. -/
def emit (l : Lexer) (t : Token) : Lexer := { l with queue := l.queue ++ [t] }

/-- Puts a token before the one with this number; at the end, if that one was taken. -/
def insert (l : Lexer) (number : Nat) (t : Token) : Lexer :=
  if number < l.taken then l.emit t
  else { l with queue := l.queue.take (number - l.taken) ++ t :: l.queue.drop (number - l.taken) }

/-- The number the next token gets. -/
def nextNumber (l : Lexer) : Nat := l.taken + l.queue.length

/-! ## Keys -/

/-- Replaces the candidate of a flow level. -/
def setCandidate (l : Lexer) (level : Nat) (k : KeyCandidate) : Lexer :=
  { l with candidates := l.candidates.set (l.flowLevel - level) k }

/-- The candidate of a flow level. -/
def candidate? (l : Lexer) (level : Nat) : Option KeyCandidate :=
  if level ≤ l.flowLevel then l.candidates[l.flowLevel - level]? else none

/-- No longer waits for the colon of a token. -/
def forget (l : Lexer) (number : Nat) : Lexer :=
  { l with waiting := l.waiting.filter (·.1 ≠ number) }

/-- Gives up the candidate of this flow level. -/
def dropCandidate (l : Lexer) : Except Malformed Lexer :=
  match l.candidate? l.flowLevel with
  | some k =>
    if !k.possible then .ok l
    else if k.required then .error .missingColon
    else .ok ((l.setCandidate l.flowLevel { k with possible := false }).forget k.number)
  | none => .ok l

/-- The next token may start a key. -/
def saveCandidate (l : Lexer) : Except Malformed Lexer := do
  if !l.keyAllowed then return l
  let l ← l.dropCandidate
  let k : KeyCandidate :=
    { possible := true
      required := l.flowLevel == 0 && l.indent == (l.cursor.column : Int)
      number := l.nextNumber
      index := l.cursor.index
      line := l.cursor.line
      column := l.cursor.column }
  let l := (l.setCandidate l.flowLevel k).forget k.number
  return { l with waiting := (k.number, l.flowLevel) :: l.waiting }

/-- Whether a colon here would make the candidate of a flow level a key: it must stand on the same
line and near. -/
def isKey (l : Lexer) (level : Nat) : Except Malformed (Bool × Lexer) :=
  match l.candidate? level with
  | none => .ok (false, l)
  | some k =>
    if !k.possible then .ok (false, l)
    else if k.line < l.cursor.line || k.index + maxKeyLength < l.cursor.index then
      if k.required then .error .missingColon
      else .ok (false, l.setCandidate level { k with possible := false })
    else .ok (true, l)

/-! ## Nesting -/

/-- Opens a block collection at a column, if it stands further right; its token goes before the one
with this number. -/
def indentTo (l : Lexer) (column : Nat) (number : Option Nat) (t : Token) :
    Except Malformed Lexer :=
  if l.flowLevel = 0 ∧ l.indent < (column : Int) then
    if maxDepth ≤ l.outerIndents.length then .error .tooDeep
    else
      let l := { l with outerIndents := l.indent :: l.outerIndents, indent := column }
      .ok (match number with
        | some n => l.insert n t
        | none => l.emit t)
  else .ok l

/-- Closes the block collections further right than a column. -/
def dedentOnto (column : Int) : (outer : List Int) → Lexer → Lexer
  | [], l => l
  | i :: outer, l =>
    if column < l.indent then
      dedentOnto column outer
        { l with queue := l.queue ++ [.blockEnd], indent := i, outerIndents := outer }
    else l

/-- Closes the block collections further right than a column, outside of flow collections. -/
def dedentTo (l : Lexer) (column : Int) : Lexer :=
  if l.flowLevel = 0 then dedentOnto column l.outerIndents l else l

/-- Enters a flow collection. -/
def enterFlow (l : Lexer) : Except Malformed Lexer :=
  if maxDepth ≤ l.flowLevel then .error .tooDeep
  else
    let k : KeyCandidate :=
      { possible := false, required := false, number := l.nextNumber,
        index := l.cursor.index, line := l.cursor.line, column := l.cursor.column }
    .ok { l with candidates := k :: l.candidates, flowLevel := l.flowLevel + 1 }

/-- Leaves a flow collection. -/
def leaveFlow (l : Lexer) : Lexer :=
  match l.flowLevel, l.candidates with
  | level + 1, k :: outer => { l.forget k.number with candidates := outer, flowLevel := level }
  | _, _ => l

/-! ## White space and comments -/

/-- Past white space up to an index. -/
def skipTo (index : Nat) : (fuel : Nat) → Cursor → Cursor
  | 0, c => c
  | fuel + 1, c =>
    if index ≤ c.index then c
    else if c.within isBreak then skipTo index fuel c.skipLine
    else skipTo index fuel (c.advance 1)

/-- Past a comment and the comments that follow it after nothing but white space. -/
def skipComments : (fuel : Nat) → Cursor → Cursor
  | 0, c => c
  | fuel + 1, c =>
    let c := c.skipToLineEnd
    let ahead := (c.rest.drop 1).take (commentReach - 1)
    let white := (ahead.takeWhile fun ch => isSpacing ch || ch == '\n' || ch == '\r').length
    if ahead[white]? = some '#' then
      skipComments fuel (skipTo (c.index + 1 + white) (white + 1) c)
    else c

/-- Past white space and comments to the next token. -/
def skipToToken : (fuel : Nat) → Lexer → Lexer
  | 0, l => l
  | fuel + 1, l =>
    let c := l.cursor
    let c := if c.column = 0 ∧ c.at? byteOrderMark then c.advance 1 else c
    let tabs := l.flowLevel ≠ 0 || !l.keyAllowed
    let c := c.skipWhile fun ch => ch == ' ' || (tabs && ch == '\t')
    let c := if c.at? '#' then skipComments c.extent c else c
    if c.within isBreak then
      skipToToken fuel
        { l with cursor := c.skipLine, keyAllowed := l.flowLevel == 0 || l.keyAllowed }
    else { l with cursor := c }

/-- Past a comment on the line of the last token. -/
def skipLineComment (l : Lexer) : Lexer :=
  let spaces := (l.cursor.rest.takeWhile isSpacing).length
  if l.queue.getLast? = some .blockEntry ∨ l.cursor.breaks ≠ 0 then l
  else if spaces < commentReach ∧ l.cursor.peek spaces = some '#' then
    { l with cursor := l.cursor.skipToLineEnd }
  else l

/-! ## Tokens -/

/-- Reads a token of so many characters. -/
def mark (l : Lexer) (length : Nat) (t : Token) : Lexer :=
  { l.emit t with cursor := l.cursor.advance length }

/-- Reads the end of the stream, which starts a line of its own. -/
def endStream (l : Lexer) : Except Malformed Lexer := do
  let c := l.cursor
  let c := if c.column = 0 then c else { c with column := 0, line := c.line + 1 }
  let l ← ({ l with cursor := c }.dedentTo (-1)).dropCandidate
  return { l with keyAllowed := false }.emit .streamEnd

/-- Reads a directive. -/
def directive (l : Lexer) : Except Malformed Lexer := do
  let l ← (l.dedentTo (-1)).dropCandidate
  let (t, c) ← readDirective l.cursor
  return { l.emit t with keyAllowed := false, cursor := c }

/-- Reads the mark of a document's start or end. -/
def documentMark (l : Lexer) (t : Token) : Except Malformed Lexer := do
  let l ← (l.dedentTo (-1)).dropCandidate
  return { l.mark 3 t with keyAllowed := false }

/-- Reads the opening bracket of a flow collection. -/
def flowStart (l : Lexer) (t : Token) : Except Malformed Lexer := do
  let l ← (← l.saveCandidate).enterFlow
  return { l.mark 1 t with keyAllowed := true }

/-- Reads the closing bracket of a flow collection. -/
def flowEnd (l : Lexer) (t : Token) : Except Malformed Lexer := do
  let l ← l.dropCandidate
  return { l.leaveFlow.mark 1 t with keyAllowed := false }

/-- Reads the comma of a flow collection. -/
def flowEntry (l : Lexer) : Except Malformed Lexer := do
  let l ← l.dropCandidate
  return { l.mark 1 .flowEntry with keyAllowed := true }

/-- Opens a block collection for an indicator that needs one. -/
def blockIndicator (l : Lexer) (collection : Token) : Except Malformed Lexer :=
  if l.flowLevel ≠ 0 then .ok l
  else if !l.keyAllowed then .error .misplacedIndicator
  else l.indentTo l.cursor.column none collection

/-- Reads the dash of a block sequence. -/
def blockEntry (l : Lexer) : Except Malformed Lexer := do
  let l ← (← l.blockIndicator .blockSequenceStart).dropCandidate
  return { l.mark 1 .blockEntry with keyAllowed := true }

/-- Reads the question mark of a key. -/
def explicitKey (l : Lexer) : Except Malformed Lexer := do
  let l ← (← l.blockIndicator .blockMappingStart).dropCandidate
  return { l.mark 1 .key with keyAllowed := l.flowLevel == 0 }

/-- Reads the colon of a value, which may make a key of what stands before it. -/
def value (l : Lexer) : Except Malformed Lexer := do
  let (found, l) ← l.isKey l.flowLevel
  match found, l.candidate? l.flowLevel with
  | true, some k =>
    let l ← (l.insert k.number .key).indentTo k.column (some k.number) .blockMappingStart
    let l := (l.setCandidate l.flowLevel { k with possible := false }).forget k.number
    return { l.mark 1 .value with keyAllowed := false }
  | _, _ =>
    let l ← l.blockIndicator .blockMappingStart
    return { l.mark 1 .value with keyAllowed := l.flowLevel == 0 }

/-- Reads an alias or an anchor. -/
def name (l : Lexer) (t : List Char → Token) : Except Malformed Lexer := do
  let l ← l.saveCandidate
  let (text, c) ← readName l.cursor
  return { l.emit (t text) with keyAllowed := false, cursor := c }

/-- Reads a tag. -/
def tag (l : Lexer) : Except Malformed Lexer := do
  let l ← l.saveCandidate
  let (t, c) ← readTag l.cursor
  return { l.emit t with keyAllowed := false, cursor := c }

/-- Reads a block scalar. -/
def block (l : Lexer) (style : ScalarStyle) : Except Malformed Lexer := do
  let l ← l.dropCandidate
  let (text, c) ← readBlock (style == .literal) l.indent l.cursor
  return { l.emit (.scalar text style) with keyAllowed := true, cursor := c }

/-- Reads a quoted scalar. -/
def quoted (l : Lexer) (style : ScalarStyle) : Except Malformed Lexer := do
  let l ← l.saveCandidate
  let (text, c) ← readQuoted (style == .singleQuoted) l.cursor
  return { l.emit (.scalar text style) with keyAllowed := false, cursor := c }

/-- Reads a plain scalar; if it ends with a line, a key may follow. -/
def plain (l : Lexer) : Except Malformed Lexer := do
  let l ← l.saveCandidate
  let (text, c, broken) ← readPlain (l.flowLevel ≠ 0) (l.indent + 1) l.cursor
  return { l.emit (.scalar text .plain) with keyAllowed := broken, cursor := c }

/-- Reads the token that starts with a character `ch`, which `next` follows. -/
def readFrom (l : Lexer) (ch : Char) (next : Option Char) : Except Malformed Lexer :=
  let inFlow := l.flowLevel ≠ 0
  let alone := isGap next
  if ch = '[' then l.flowStart .flowSequenceStart
  else if ch = '\x7b' then l.flowStart .flowMappingStart
  else if ch = ']' then l.flowEnd .flowSequenceEnd
  else if ch = '\x7d' then l.flowEnd .flowMappingEnd
  else if ch = ',' then l.flowEntry
  else if ch = '-' ∧ alone then l.blockEntry
  else if ch = '?' ∧ (inFlow ∨ alone) then l.explicitKey
  else if ch = ':' ∧ (inFlow ∨ alone) then l.value
  else if ch = '*' then l.name .reference
  else if ch = '&' then l.name .anchor
  else if ch = '!' then l.tag
  else if ch = '|' ∧ ¬inFlow then l.block .literal
  else if ch = '>' ∧ ¬inFlow then l.block .folded
  else if ch = '\x27' then l.quoted .singleQuoted
  else if ch = '\x22' then l.quoted .doubleQuoted
  else if !isGap (some ch) && !isIndicator ch || ch == '-' ||
      (!inFlow && (ch == '?' || ch == ':')) then l.plain
  else .error .unexpectedCharacter

/-- Reads the next token into the queue. -/
def fetch (l : Lexer) : Except Malformed Lexer :=
  if !l.started then
    let k : KeyCandidate :=
      { possible := false, required := false, number := 0, index := 0, line := 0, column := 0 }
    .ok { l.emit .streamStart with started := true, keyAllowed := true, candidates := [k] }
  else
    let l := skipToToken (l.cursor.extent + 1) l
    let l := l.dedentTo l.cursor.column
    match l.cursor.rest with
    | [] => l.endStream
    | ch :: rest =>
      if l.cursor.column = 0 ∧ ch = '%' then l.directive
      else if l.cursor.atMark '-' then l.documentMark .documentStart
      else if l.cursor.atMark '.' then l.documentMark .documentEnd
      else (l.readFrom ch rest.head?).map skipLineComment

/-- How many tokens are read ahead of the one that is looked at. -/
def lookahead : Nat := 2

/-- Reads tokens until the first of the queue is known: a token that may start a key waits for its
colon. -/
def fill : (fuel : Nat) → Lexer → Except Malformed Lexer
  | 0, _ => .error .exhausted
  | fuel + 1, l =>
    if lookahead < l.queue.length then
      match l.waiting.lookup l.taken with
      | none => .ok l
      | some level => do
        let (waits, l) ← l.isKey level
        if waits then fill fuel (← l.fetch) else return l
    else do fill fuel (← l.fetch)

/-- The next token. -/
def peek (l : Lexer) : Except Malformed (Token × Lexer) := do
  let l ← fill (l.cursor.extent + lookahead + 4) l
  return (l.queue.head?.getD .streamEnd, l)

/-- Past the next token. -/
def skip (l : Lexer) : Lexer := { l with queue := l.queue.drop 1, taken := l.taken + 1 }

end Lexer

end Yaml

end BraceBalance
