import BraceBalance.Yaml.Lexer
import BraceBalance.Yaml.Scalar

/-!
# Yaml/Node — the tree of a document

An alias keeps the number of the node it stands for, since that node may be the one the alias is in;
`Document.target?` finds it.
-/

namespace BraceBalance

namespace Yaml

/-- A node of a document. -/
inductive Node where
  | scalar (tag : Tag) (text : List Char)
  | sequence (tag : Tag) (items : List Node)
  | mapping (tag : Tag) (entries : List (Node × Node))
  /-- The `serial`-th alias of the document, standing for the node with the number `anchor`. -/
  | reference (serial : Nat) (name : List Char) (anchor : Nat)

/-- What tells the keys of a mapping apart: the kind of node, and the text of a scalar or the name
of an alias. -/
inductive KeyId where
  | scalar (text : List Char)
  | sequence
  | mapping
  /-- An alias. -/
  | reference (name : List Char)
  deriving DecidableEq

/-- What tells a node apart as a key. -/
def Node.keyId : Node → KeyId
  | scalar _ text => .scalar text
  | sequence _ _ => .sequence
  | mapping _ _ => .mapping
  | reference _ name _ => .reference name

/-- Whether a node is the key whose value is merged into the mapping. -/
def Node.isMergeKey : Node → Bool
  | scalar tag text => tag == .merge && text == ['<', '<']
  | _ => false

/-- A document: its root and its anchored nodes by their numbers. -/
structure Document where
  root : Node
  anchored : List (Nat × Node)
  /-- How many characters the stream has. -/
  extent : Nat

/-- The node with a number. -/
def Document.target? (d : Document) (anchor : Nat) : Option Node := d.anchored.lookup anchor

/-! ## Reading nodes -/

/-- A document that is being read. -/
structure Reader where
  lexer : Lexer
  /-- The handles of tags, and what they stand for. -/
  handles : List (List Char × List Char) := []
  /-- The numbers of the anchored nodes by name, the newest first. -/
  names : List (List Char × Nat) := []
  anchored : List (Nat × Node) := []
  nextAnchor : Nat := 0
  nextAlias : Nat := 0

/-- Reads part of a document. -/
abbrev ReadM := StateT Reader (Except Malformed)

namespace Reader

/-- The next token. -/
def peek : ReadM Token := do
  let r ← get
  let (t, lexer) ← r.lexer.peek
  set { r with lexer }
  return t

/-- Past the next token. -/
def skip : ReadM Unit := modify fun r => { r with lexer := r.lexer.skip }

/-- The handles that need no directive. -/
def standardHandles : List (List Char × List Char) :=
  [(['!'], ['!']), (['!', '!'], Tag.longStart)]

/-- Reads directives. -/
def directives : (fuel : Nat) → (versioned : Bool) → ReadM Unit
  | 0, _ => throw .exhausted
  | fuel + 1, versioned => do
    match ← peek with
    | .version major minor =>
      if versioned then throw .badDirective
      if major ≠ 1 ∨ minor ≠ 1 then throw .badDirective
      skip
      directives fuel true
    | .tagDirective handle start =>
      let r ← get
      if (r.handles.lookup handle).isSome then throw .badDirective
      set { r with handles := r.handles ++ [(handle, start)] }
      skip
      directives fuel versioned
    | _ => modify fun r => { r with handles := r.handles ++ standardHandles }

/-- The name of a tag, its handle replaced. -/
def tagName (handle suffix : List Char) : ReadM (List Char) := do
  if handle.isEmpty then return suffix
  match (← get).handles.lookup handle with
  | some start => return start ++ suffix
  | none => throw .undefinedTagHandle

/-- What stands before a node: its anchor and its tag. -/
structure Properties where
  anchor : Option (List Char) := none
  tag : Option (List Char) := none

/-- Reads an anchor, if there is one. -/
def anchor? : ReadM (Option (List Char)) := do
  match ← peek with
  | .anchor name => skip; return some name
  | _ => return none

/-- Reads a tag, if there is one; its handle is not yet replaced. -/
def tag? : ReadM (Option (List Char × List Char)) := do
  match ← peek with
  | .tag handle suffix => skip; return some (handle, suffix)
  | _ => return none

/-- Reads an anchor and a tag in either order. -/
def properties : ReadM Properties := do
  let anchor ← anchor?
  let tag ← tag?
  let anchor ← if anchor.isNone && tag.isSome then anchor? else pure anchor
  discard peek
  let tag ←
    match tag with
    | some (handle, suffix) => some <$> tagName handle suffix
    | none => pure none
  return { anchor, tag }

/-- The tag of a node: its own, unless it is `!`, or else the given one. -/
def Properties.tagOr (p : Properties) (tag : Tag) : Tag :=
  match p.tag with
  | some name => if name = ['!'] then tag else Tag.ofName name
  | none => tag

/-- Gives the node that starts here its number, if it is anchored. -/
def register (p : Properties) : ReadM (Option Nat) := do
  match p.anchor with
  | none => return none
  | some name =>
    modifyGet fun r =>
      (some r.nextAnchor,
        { r with names := (name, r.nextAnchor) :: r.names, nextAnchor := r.nextAnchor + 1 })

/-- Keeps a node under its number. -/
def keep (number : Option Nat) (n : Node) : ReadM Node := do
  match number with
  | some i => modify fun r => { r with anchored := (i, n) :: r.anchored }
  | none => pure ()
  return n

/-- An alias. -/
def aliasOf (name : List Char) : ReadM Node := do
  let r ← get
  match r.names.lookup name with
  | none => throw .unknownAnchor
  | some number =>
    set { r with nextAlias := r.nextAlias + 1 }
    return .reference r.nextAlias name number

/-- A scalar that is written as nothing. -/
def empty : Node := .scalar .null []

/-- Passes the comma before an item of a flow collection that is not the first. -/
def separator (first : Bool) : ReadM Token := do
  if first then peek
  else match ← peek with
    | .flowEntry =>
      skip
      peek
    | _ => throw .unexpectedToken

mutual

/-- Reads a node; block collections only if `block`, entries at the indentation of their mapping
only if `indentless`. -/
def node (block indentless : Bool) : (fuel : Nat) → ReadM Node
  | 0 => throw .exhausted
  | fuel + 1 => do
    match ← peek with
    | .reference name =>
      skip
      aliasOf name
    | _ =>
      let p ← properties
      let t ← peek
      if indentless && t == .blockEntry then
        let number ← register p
        keep number (.sequence (p.tagOr .seq) (← indentlessItems fuel []))
      else match t with
        | .scalar text style =>
          skip
          let tag := if style = .plain then plainTag text else .str
          keep (← register p) (.scalar (p.tagOr tag) text)
        | .flowSequenceStart =>
          let number ← register p
          skip
          keep number (.sequence (p.tagOr .seq) (← flowItems fuel true []))
        | .flowMappingStart =>
          let number ← register p
          skip
          keep number (.mapping (p.tagOr .map) (← flowEntries fuel true []))
        | _ =>
          if block && t == .blockSequenceStart then
            let number ← register p
            skip
            keep number (.sequence (p.tagOr .seq) (← blockItems fuel []))
          else if block && t == .blockMappingStart then
            let number ← register p
            skip
            keep number (.mapping (p.tagOr .map) (← blockEntries fuel []))
          else if p.anchor.isSome || p.tag.isSome then
            keep (← register p) (.scalar (p.tagOr .null) [])
          else throw .unexpectedToken

/-- Reads a node, unless one of these tokens comes next: then the node is empty. -/
def nodeUnless (ends : List Token) (block indentless : Bool) : (fuel : Nat) → ReadM Node
  | 0 => throw .exhausted
  | fuel + 1 => do
    if ends.contains (← peek) then return empty
    node block indentless fuel

/-- Reads the items of a block sequence, after those already read. -/
def blockItems : (fuel : Nat) → List Node → ReadM (List Node)
  | 0, _ => throw .exhausted
  | fuel + 1, items => do
    match ← peek with
    | .blockEntry =>
      skip
      let n ← nodeUnless [.blockEntry, .blockEnd] true false fuel
      blockItems fuel (n :: items)
    | .blockEnd =>
      skip
      return items.reverse
    | _ => throw .unexpectedToken

/-- Reads the items of a sequence that is not indented, after those already read. -/
def indentlessItems : (fuel : Nat) → List Node → ReadM (List Node)
  | 0, _ => throw .exhausted
  | fuel + 1, items => do
    match ← peek with
    | .blockEntry =>
      skip
      let n ← nodeUnless [.blockEntry, .key, .value, .blockEnd] true false fuel
      indentlessItems fuel (n :: items)
    | _ => return items.reverse

/-- Reads the entries of a block mapping, after those already read. -/
def blockEntries : (fuel : Nat) → List (Node × Node) → ReadM (List (Node × Node))
  | 0, _ => throw .exhausted
  | fuel + 1, entries => do
    match ← peek with
    | .key =>
      skip
      let key ← nodeUnless [.key, .value, .blockEnd] true true fuel
      let value ← blockValue fuel
      blockEntries fuel ((key, value) :: entries)
    | .blockEnd =>
      skip
      return entries.reverse
    | _ => throw .unexpectedToken

/-- Reads the value of an entry of a block mapping. -/
def blockValue : (fuel : Nat) → ReadM Node
  | 0 => throw .exhausted
  | fuel + 1 => do
    match ← peek with
    | .value =>
      skip
      nodeUnless [.key, .value, .blockEnd] true true fuel
    | _ => return empty

/-- Reads the items of a flow sequence, after those already read. -/
def flowItems : (fuel : Nat) → (first : Bool) → List Node → ReadM (List Node)
  | 0, _, _ => throw .exhausted
  | fuel + 1, first, items => do
    if (← peek) = .flowSequenceEnd then
      skip
      return items.reverse
    match ← separator first with
    | .key =>
      skip
      let n ← flowPair fuel
      flowItems fuel false (n :: items)
    | .flowSequenceEnd =>
      skip
      return items.reverse
    | _ =>
      let n ← node false false fuel
      flowItems fuel false (n :: items)

/-- Reads an item of a flow sequence that is a mapping of one entry.  A key that is empty takes the
token after it. -/
def flowPair : (fuel : Nat) → ReadM Node
  | 0 => throw .exhausted
  | fuel + 1 => do
    let key ←
      if [.value, .flowEntry, .flowSequenceEnd].contains (← peek) then do
        skip
        pure empty
      else node false false fuel
    let value ← flowValue [.flowEntry, .flowSequenceEnd] fuel
    discard peek
    return .mapping .map [(key, value)]

/-- Reads the value of an entry in a flow collection, empty before one of these tokens. -/
def flowValue (ends : List Token) : (fuel : Nat) → ReadM Node
  | 0 => throw .exhausted
  | fuel + 1 => do
    match ← peek with
    | .value =>
      skip
      nodeUnless ends false false fuel
    | _ => return empty

/-- Reads the entries of a flow mapping, after those already read. -/
def flowEntries :
    (fuel : Nat) → (first : Bool) → List (Node × Node) → ReadM (List (Node × Node))
  | 0, _, _ => throw .exhausted
  | fuel + 1, first, entries => do
    if (← peek) = .flowMappingEnd then
      skip
      return entries.reverse
    match ← separator first with
    | .key =>
      skip
      let key ← nodeUnless [.value, .flowEntry, .flowMappingEnd] false false fuel
      let value ← flowValue [.flowEntry, .flowMappingEnd] fuel
      flowEntries fuel false ((key, value) :: entries)
    | .flowMappingEnd =>
      skip
      return entries.reverse
    | _ =>
      let key ← node false false fuel
      discard peek
      flowEntries fuel false ((key, empty) :: entries)

end

/-- Reads the first document of a stream, if there is one. -/
def document (extent : Nat) : ReadM (Option Document) := do
  let fuel := 8 * (extent + 8)
  discard peek
  skip
  match ← peek with
  | .streamEnd => return none
  | t =>
    let explicit :=
      match t with
      | .version _ _ | .tagDirective _ _ | .documentStart => true
      | _ => false
    directives fuel false
    let root ←
      if explicit then do
        if (← peek) ≠ .documentStart then throw .unexpectedToken
        skip
        match ← peek with
        | .version _ _ | .tagDirective _ _ | .documentStart | .documentEnd | .streamEnd =>
          pure empty
        | _ => node true false fuel
      else node true false fuel
    discard peek
    return some { root, anchored := (← get).anchored, extent }

end Reader

/-- The first document of a stream, if there is one. -/
def document? (s : Bytes) : Except Malformed (Option Document) := do
  let cs ← characters s
  (·.1) <$> (Reader.document cs.length).run { lexer := .ofChars cs }

end Yaml

end BraceBalance
