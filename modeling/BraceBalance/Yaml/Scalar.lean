import BraceBalance.Yaml.Number
import BraceBalance.Yaml.Timestamp

/-!
# Yaml/Scalar — what a scalar stands for

A scalar without a tag stands for null, a truth value, a number, a timestamp or a text, by how it is
spelled.  A tag of one of these kinds demands that spelling; any other tag leaves the text alone.
-/

namespace BraceBalance

namespace Yaml

/-- The kind of value a node is said to be. -/
inductive Tag where
  | null
  | bool
  | int
  | float
  | timestamp
  | str
  | binary
  | merge
  | seq
  | map
  | other (name : List Char)
  deriving DecidableEq

namespace Tag

/-- What the long names of the common tags start with. -/
def longStart : List Char := "tag:yaml.org,2002:".toList

/-- The common tags by their short names. -/
def common : List (List Char × Tag) :=
  [("!!null".toList, null), ("!!bool".toList, bool), ("!!int".toList, int),
    ("!!float".toList, float), ("!!timestamp".toList, timestamp), ("!!str".toList, str),
    ("!!binary".toList, binary), ("!!merge".toList, merge), ("!!seq".toList, seq),
    ("!!map".toList, map)]

/-- The tag of a name, which may be long or short. -/
def ofName (name : List Char) : Tag :=
  let short := if longStart.isPrefixOf name then "!!".toList ++ name.drop longStart.length else name
  (common.lookup short).getD (other name)

end Tag

/-- What a scalar stands for. -/
inductive Value where
  | null
  | bool (b : Bool)
  | int (n : Int)
  | float (r : RealValue)
  | timestamp
  | text (s : Bytes)
  deriving DecidableEq

/-- The tag of a value. -/
def Value.tag : Value → Tag
  | null => .null
  | bool _ => .bool
  | int _ => .int
  | float _ => .float
  | timestamp => .timestamp
  | text _ => .str

/-- The values with names of their own. -/
def namedValues : List (List Char × Value) :=
  let all (names : List String) (v : Value) := names.map fun s => (s.toList, v)
  all ["true", "True", "TRUE"] (.bool true) ++
    all ["false", "False", "FALSE"] (.bool false) ++
    all ["", "~", "null", "Null", "NULL"] .null ++
    all [".nan", ".NaN", ".NAN"] (.float .undefined) ++
    all [".inf", ".Inf", ".INF", "+.inf", "+.Inf", "+.INF"] (.float (.infinite false)) ++
    all ["-.inf", "-.Inf", "-.INF"] (.float (.infinite true))

/-- The number a text that starts with a digit or a sign stands for. -/
def number? (cs : List Char) : Option Value :=
  let digits := withoutSeparators cs
  match whole? digits with
  | some n => some (.int n)
  | none =>
    match real? digits with
    | some n => some (.float (.finite n))
    | none => (markedWhole? digits).map .int

/-- What a plain text stands for; timestamps only if `dates`. -/
def plainValue (dates : Bool) (cs : List Char) : Value :=
  let text := Value.text (Utf8.encode cs)
  match namedValues.lookup cs with
  | some v => v
  | none =>
    match cs with
    | [] => .null
    | '.' :: _ =>
      if separatorsBetweenDigits cs then
        ((real? (withoutSeparators cs)).map fun n => Value.float (.finite n)).getD text
      else text
    | c :: _ =>
      if c.isDigit || c == '+' || c == '-' then
        if dates && isTimestamp cs then .timestamp else (number? cs).getD text
      else text

/-! ## Text in base 64 -/

/-- The value of a digit of base 64. -/
def base64Digit? (c : Char) : Option Nat :=
  if 'A' ≤ c ∧ c ≤ 'Z' then some (c.toNat - 0x41)
  else if 'a' ≤ c ∧ c ≤ 'z' then some (c.toNat - 0x61 + 26)
  else if c.isDigit then some (c.toNat - 0x30 + 52)
  else if c = '+' then some 62
  else if c = '/' then some 63
  else none

/-- The bytes of groups of four digits; the last may be padded. -/
def base64Groups? : List Char → Option Bytes
  | [] => some []
  | [a, b, '=', '='] => do
    let n := (← base64Digit? a) * 0x40 + (← base64Digit? b)
    return [(n / 0x10).toUInt8]
  | [a, b, c, '='] => do
    let n := ((← base64Digit? a) * 0x40 + (← base64Digit? b)) * 0x40 + (← base64Digit? c)
    return [(n / 0x400).toUInt8, (n / 0x4 % 0x100).toUInt8]
  | a :: b :: c :: d :: rest => do
    let n := (((← base64Digit? a) * 0x40 + (← base64Digit? b)) * 0x40 + (← base64Digit? c)) * 0x40
      + (← base64Digit? d)
    return [(n / 0x10000).toUInt8, (n / 0x100 % 0x100).toUInt8, (n % 0x100).toUInt8]
      ++ (← base64Groups? rest)
  | _ => none

/-- The bytes of a text in base 64, whose line breaks do not count. -/
def base64? (cs : List Char) : Option Bytes :=
  base64Groups? (cs.filter fun c => c != '\n' && c != '\r')

/-! ## Values of tagged scalars -/

/-- What a text with a tag stands for. -/
def value (tag : Tag) (cs : List Char) : Except Malformed Value :=
  let text := Value.text (Utf8.encode cs)
  match tag with
  | .str | .merge | .seq | .map | .other _ => .ok text
  | .binary =>
    match base64? cs with
    | some bytes => .ok (.text bytes)
    | none => .error .mistagged
  | _ =>
    let v := plainValue (tag = .timestamp) cs
    if v.tag = tag then .ok v
    else match tag, v with
      | .float, .int n =>
        if n < wordBound then .ok (.float (.finite (n.sign * wholePart n.natAbs 1)))
        else .error .mistagged
      | _, _ => .error .mistagged

/-- The tag of a plain scalar that has none of its own. -/
def plainTag (cs : List Char) : Tag :=
  if cs = ['<', '<'] then .merge else (plainValue true cs).tag

end Yaml

end BraceBalance
