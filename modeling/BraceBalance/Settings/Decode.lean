import BraceBalance.Settings.Basic
import BraceBalance.Yaml.Node

/-!
# Settings/Decode — settings from a YAML document

A document changes the settings it is decoded onto.  A value of the wrong shape is noted and passed
over, and the decoding goes on; a scalar that is not what its tag says, a bad merge and a severity
of no known name stop it.

A member of a mapping may come from another mapping, merged under the key `<<`: members of the
mapping itself go first, and of several merged mappings the first that has the member.
-/

namespace BraceBalance

namespace Settings

/-- What stops the decoding. -/
inductive Stop where
  | malformed (why : Yaml.Malformed)
  | severity (text : Bytes)

/-- Where the decoding is. -/
structure Place where
  document : Yaml.Document
  /-- The aliases that are being followed. -/
  following : List Nat := []

/-- A decoding; its state says whether a value of the wrong shape was seen. -/
abbrev DecodeM := ReaderT Place (StateT Bool (Except Stop))

namespace Decode

/-- Notes a value of the wrong shape. -/
def mistype : DecodeM Unit := set true

/-- Stops because of a document that is not well formed. -/
def malformed {α : Type} (why : Yaml.Malformed) : DecodeM α := throw (.malformed why)

/-- Decodes a node, or the one it is an alias of; an alias is not followed inside itself. -/
def following {α : Type} (n : Yaml.Node) (decode : Yaml.Node → DecodeM α) : DecodeM α := do
  match n with
  | .reference serial _ anchor =>
    let place ← read
    if place.following.contains serial then malformed .badReference
    match place.document.target? anchor with
    | some target =>
      withReader (fun p => { p with following := serial :: p.following }) (decode target)
    | none => malformed .badReference
  | n => decode n

/-- The value of a scalar. -/
def value (tag : Yaml.Tag) (text : List Char) : DecodeM Yaml.Value :=
  match Yaml.value tag text with
  | .ok v => pure v
  | .error why => malformed why

/-! ## Scalars -/

/-- Decodes a scalar other than null; null and values of the wrong shape give nothing. -/
def scalar {α : Type} (n : Yaml.Node) (decode : Yaml.Value → List Char → DecodeM (Option α)) :
    DecodeM (Option α) :=
  following n fun
    | .scalar tag text => do
      match ← value tag text with
      | .null => return none
      | v => decode v text
    | _ => do
      mistype
      return none

/-- The text of a scalar: what it stands for, if that is a text, and else how it is spelled. -/
def spelled : Yaml.Value → List Char → Bytes
  | .text s, _ => s
  | _, text => Utf8.encode text

/-- Decodes a text. -/
def text? (n : Yaml.Node) : DecodeM (Option Bytes) := scalar n fun v text => return spelled v text

/-- A value as a signed word of 64 bits, if it is a number that is not too great.  Reals lose their
fraction, and one too small becomes the least word. -/
def word? : Yaml.Value → Option Int64
  | .int n => if n < Yaml.wordBound then some (Int64.ofInt n) else none
  | .float (.finite n) =>
    if Yaml.wordBound < n then none
    else if n = Yaml.wordBound ∨ n < -Yaml.wordBound then some Int64.minValue
    else some (Int64.ofInt n)
  | .float (.infinite true) => some Int64.minValue
  | _ => none

/-- Decodes a word. -/
def number? (n : Yaml.Node) : DecodeM (Option Int64) :=
  scalar n fun v _ => do
    match word? v with
    | some w => return some w
    | none =>
      mistype
      return none

/-- Decodes a severity. -/
def severity? (n : Yaml.Node) : DecodeM (Option Severity) :=
  scalar n fun v text =>
    match Severity.ofName? (spelled v text) with
    | some s => return some s
    | none => throw (.severity (spelled v text))

/-- Decodes a list of texts; null is the empty list, and nulls in it are dropped. -/
def texts? (n : Yaml.Node) : DecodeM (Option (List Bytes)) :=
  following n fun
    | .sequence _ items => return some ((← items.mapM text?).filterMap id)
    | .scalar tag text => do
      match ← value tag text with
      | .null => return some []
      | _ =>
        mistype
        return none
    | _ => do
      mistype
      return none

/-! ## Mappings -/

/-- How the members of a mapping are decoded onto a value. -/
structure Members (σ : Type) where
  /-- The members that are given at most once, however their keys are written. -/
  known : List Bytes
  /-- Decodes a member. -/
  put : σ → Bytes → Yaml.Node → DecodeM σ

/-- The names that a key stands for as a text. -/
def keyTexts (n : Yaml.Node) : DecodeM (List Bytes) :=
  following n fun
    | .scalar tag text => do
      match ← value tag text with
      | .text s => return [s]
      | _ => return []
    | _ => return []

/-- A mapping that is being decoded. -/
structure Progress (σ : Type) where
  onto : σ
  /-- The members that were given, while mappings are merged. -/
  given : Option (List Bytes)
  /-- The known members that this mapping has given. -/
  done : List Bytes := []
  /-- What is to be merged. -/
  merge : Option Yaml.Node := none

/-- Decodes an entry of a mapping. -/
def entry {σ : Type} (m : Members σ) (p : Progress σ) (key val : Yaml.Node) :
    DecodeM (Progress σ) := do
  if key.isMergeKey then return { p with merge := some val }
  match ← text? key with
  | none => return p
  | some name =>
    if p.given.any (·.contains name) then return p
    let p := { p with given := p.given.map (name :: ·) }
    if m.known.contains name && p.done.contains name then
      mistype
      return p
    return { p with onto := ← m.put p.onto name val, done := name :: p.done }

/-- Whether a list has an element twice. -/
def hasRepeats {α : Type} [DecidableEq α] : List α → Bool
  | [] => false
  | a :: rest => rest.contains a || hasRepeats rest

/-- Decodes the entries of a mapping and then what is merged into it.  `given` are the members given
so far, while mappings are merged. -/
def entries {σ : Type} (m : Members σ) :
    (fuel : Nat) → (given : Option (List Bytes)) → σ → List (Yaml.Node × Yaml.Node) →
      DecodeM (σ × Option (List Bytes))
  | 0, _, _, _ => malformed .exhausted
  | fuel + 1, given, onto, es => do
    if hasRepeats (es.map fun e => e.1.keyId) then
      mistype
      return (onto, given)
    let p ← es.foldlM (fun p (key, val) => entry m p key val) { onto, given }
    match p.merge with
    | none => return (p.onto, p.given)
    | some source =>
      let names ←
        match p.given with
        | some names => pure names
        | none => List.flatten <$> es.mapM fun e => keyTexts e.1
      let mergeOne (s : σ × Option (List Bytes)) (n : Yaml.Node) :
          DecodeM (σ × Option (List Bytes)) :=
        following n fun
          | .mapping _ more => entries m fuel s.2 s.1 more
          | _ => malformed .badReference
      let sources :=
        match source with
        | .sequence _ items => items
        | n => [n]
      let (onto, names) ← sources.foldlM mergeOne (p.onto, some names)
      return (onto, if p.given.isSome then names else none)

/-- Decodes a mapping onto a value.  Null changes nothing, or gives `cleared` if that is given. -/
def members {σ : Type} (m : Members σ) (cleared : Option σ) (onto : σ) (n : Yaml.Node) :
    DecodeM σ := do
  let extent := (← read).document.extent
  following n fun
    | .mapping _ es => (·.1) <$> entries m ((extent + 2) * (extent + 2)) none onto es
    | .scalar tag text => do
      match ← value tag text with
      | .null => return cleared.getD onto
      | _ =>
        mistype
        return onto
    | .sequence _ _ | .reference _ _ _ => do
      mistype
      return onto

/-! ## Settings -/

/-- The members that say how much is reported. -/
def report : Members Options where
  known := ["tail", "context_before", "context_after"]
  put o name n := do
    if name = utf8 "tail" then
      return { o with tail := (← number? n).getD o.tail }
    else if name = utf8 "context_before" then
      return { o with before := (← number? n).getD o.before }
    else if name = utf8 "context_after" then
      return { o with after := (← number? n).getD o.after }
    else return o

/-- The members of a rule. -/
def rule : Members Severity where
  known := ["severity"]
  put s name n := do
    if name = utf8 "severity" then return (← severity? n).getD s else return s

/-- Whether a node is null. -/
def isNull (n : Yaml.Node) : DecodeM Bool :=
  following n fun
    | .scalar tag text => return (← value tag text) == .null
    | _ => return false

/-- The rules by name.  A rule that is null is one of the standard severity, unless it is there. -/
def rules : Members (List (Bytes × Severity)) where
  known := []
  put rs name n := do
    let severity ← members rule none .error n
    if (← isNull n) && (rs.lookup name).isSome then return rs
    return rs.filter (·.1 ≠ name) ++ [(name, severity)]

/-- The members of a settings file. -/
def settings : Members Settings where
  known := ["name", "extensions", "ignore_paths", "report", "rules"]
  put s name n := do
    if name = utf8 "name" then return { s with name := (← text? n).getD s.name }
    else if name = utf8 "extensions" then
      return { s with extensions := (← texts? n).getD s.extensions }
    else if name = utf8 "ignore_paths" then
      return { s with ignorePaths := (← texts? n).getD s.ignorePaths }
    else if name = utf8 "report" then return { s with report := ← members report none s.report n }
    else if name = utf8 "rules" then return { s with rules := ← members rules (some []) s.rules n }
    else return s

end Decode

/-- The settings a document says, decoded onto others, unless a severity has no known name or the
document is not well formed; and whether a value has the wrong shape. -/
def ofDocument (s : Settings) (d : Yaml.Document) : Except Stop (Settings × Bool) :=
  ((Decode.members Decode.settings none s d.root).run { document := d }).run false

end Settings

end BraceBalance
