import BraceBalance.Scan.Verdict

/-!
# Cache/Record — verdicts as they are kept in a file

A cache asks no more of a format of files than that it reads back what it wrote
(`Records.Format.Faithful`).  In the format at hand a file of verdicts is a list of fields, each
written as its length in decimal, a colon and its bytes; no field needs escaping.  The first field
marks the file as one of verdicts.
-/

namespace BraceBalance

/-- A verdict, the digest of the content it was found on, and when it was found. -/
structure Record where
  digest : Bytes
  verdict : Verdict
  scannedAt : Int
  deriving DecidableEq

/-- The records by the name of their file. -/
abbrev Records := List (Bytes × Record)

namespace Records

/-- A way to write records to a file and to read them back. -/
structure Format where
  encode : Records → Bytes
  /-- The records of a file; none if it is not written in this format. -/
  decode? : Bytes → Option Records

/-- What is written is read back as it was. -/
def Format.Faithful (format : Format) : Prop :=
  ∀ rs, format.decode? (format.encode rs) = some rs

/-! ## Fields -/

/-- A field as it is written. -/
def writeField (field : Bytes) : Bytes := Bytes.ofNat field.length ++ ":" ++ field

/-- What is being read: a length, or the rest of a field. -/
inductive Reading where
  /-- The length so far, if a digit was read. -/
  | length (value : Option Nat)
  /-- How many bytes are left, and those read, the last first. -/
  | body (left : Nat) (read : Bytes)

/-- The fields of a text behind those already read (`done`, the newest first). -/
def fieldsOnto (done : List Bytes) : Reading → Bytes → Option (List Bytes)
  | .length none, [] => some done.reverse
  | .length (some _), [] => none
  | .body _ _, [] => none
  | .length value, b :: rest =>
    if Bytes.isDigit b then
      fieldsOnto done (.length (some (10 * value.getD 0 + (b.toNat - 0x30)))) rest
    else if b = 0x3a then
      match value with
      | none => none
      | some 0 => fieldsOnto ([] :: done) (.length none) rest
      | some (n + 1) => fieldsOnto done (.body (n + 1) []) rest
    else none
  | .body left read, b :: rest =>
    if left ≤ 1 then fieldsOnto ((b :: read).reverse :: done) (.length none) rest
    else fieldsOnto done (.body (left - 1) (b :: read)) rest

/-- The fields of a text, if it is a list of fields. -/
def fields? (s : Bytes) : Option (List Bytes) := fieldsOnto [] (.length none) s

/-- An integer read from its decimal form. -/
def int? (s : Bytes) : Option Int :=
  match s with
  | [] => none
  | b :: rest =>
    if b = 0x2d then
      if !rest.isEmpty && rest.all Bytes.isDigit then some (-(Bytes.digitsValue rest : Int))
      else none
    else if s.all Bytes.isDigit then some (Bytes.digitsValue s) else none

/-! ## Records -/

/-- The first field of a file of verdicts. -/
def mark : Bytes := "brace verdicts"

/-- The fields of an opener. -/
def openerFields (o : Opener) : List Bytes :=
  [Bytes.ofInt o.position.line, Bytes.ofInt o.position.column, o.kind.text]

/-- The fields of a record. -/
def recordFields (name : Bytes) (r : Record) : List Bytes :=
  [name, r.digest, Bytes.ofInt r.scannedAt, Bytes.ofInt r.verdict.kind.code,
    Bytes.ofInt r.verdict.closing.line, Bytes.ofInt r.verdict.closing.column,
    Bytes.ofNat r.verdict.opened.length] ++ r.verdict.opened.flatMap openerFields

/-- Reads `n` openers, and gives the fields after them. -/
def openers? : (n : Nat) → List Bytes → Option (List Opener × List Bytes)
  | 0, rest => some ([], rest)
  | n + 1, line :: column :: kind :: rest => do
    let position : Position := ⟨← int? line, ← int? column⟩
    let (more, rest) ← openers? n rest
    return (⟨position, Kind.ofText kind⟩ :: more, rest)
  | _ + 1, _ => none

/-- Reads records to the end of the fields, at most `n` of them. -/
def records? : (n : Nat) → List Bytes → Option Records
  | _, [] => some []
  | n + 1, name :: digest :: time :: code :: line :: column :: count :: rest => do
    let (opened, rest) ← openers? (← int? count).toNat rest
    let verdict : Verdict :=
      { kind := .ofCode (← int? code), opened, closing := ⟨← int? line, ← int? column⟩ }
    return (name, ⟨digest, verdict, ← int? time⟩) :: (← records? n rest)
  | _, _ => none

/-- Records as they are written to a file. -/
def encode (rs : Records) : Bytes :=
  (mark :: rs.flatMap fun (name, r) => recordFields name r).flatMap writeField

/-- The records of a file, if it is a file of verdicts. -/
def decode? (s : Bytes) : Option Records := do
  match ← fields? s with
  | [] => none
  | first :: rest => if first = mark then records? rest.length rest else none

/-- Records written field by field. -/
def Format.fields : Format := ⟨Records.encode, Records.decode?⟩

end Records

end BraceBalance
