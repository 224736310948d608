import BraceBalance.Command.Duration
import BraceBalance.Text.Quoted

/-!
# Command/Flag — flags of the command line

A flag is written `--name value`, `--name=value`, or by its letter, `-o value`, `-o=value` or
`-ovalue`.  A flag that is a toggle takes a value only after `=`.  Flags may stand among the other
arguments, up to `--`.
-/

namespace BraceBalance

namespace Command

/-- What the flags have said. -/
structure Given where
  config : Option Bytes := none
  timeout : Option Int := none
  logLevel : Option Bytes := none
  format : Bytes := "text"
  output : Bytes := []
  ignore : Bytes := []
  ignorePaths : Bytes := []
  fail : Bool := false
  progress : Bool := false
  cacheDir : Bytes := []
  help : Bool := false
  deriving DecidableEq

/-- Why a value does not suit its flag. -/
inductive BadValue where
  | toggle (text : Bytes)
  | duration (why : Duration.Invalid)
  deriving DecidableEq

/-- What is said of a value that does not suit. -/
def BadValue.message : BadValue → Bytes
  | toggle text => "strconv.ParseBool: parsing " ++ text.quoted ++ ": invalid syntax"
  | duration why => why.message

/-- How a flag takes its value. -/
inductive Slot where
  | text (put : Bytes → Given → Given)
  | toggle (put : Bool → Given → Given)
  | duration (put : Int → Given → Given)

/-- A flag. -/
structure Flag where
  name : Bytes
  letter : Option UInt8 := none
  slot : Slot
  usage : Bytes
  /-- How the help page shows what holds when the flag is not given. -/
  standard : Bytes := []

/-- Why arguments are not understood. -/
inductive UsageError where
  | badSyntax (argument : Bytes)
  | unknownFlag (name : Bytes)
  | unknownLetter (letter : UInt8) (letters : Bytes)
  | missingValue (argument : Bytes)
  | missingLetterValue (letter : UInt8) (letters : Bytes)
  | badValue (value flag : Bytes) (why : BadValue)
  /-- Help is asked for where the flag for it is not known. -/
  | helpRequested
  deriving DecidableEq

/-- A byte as the character with its number, in single quotes. -/
def shownByte (b : UInt8) : Bytes := quotedChar (Char.ofNat b.toNat)

/-- What is said of arguments that are not understood. -/
def UsageError.message : UsageError → Bytes
  | badSyntax argument => "bad flag syntax: " ++ argument
  | unknownFlag name => "unknown flag: --" ++ name
  | unknownLetter letter letters =>
    "unknown shorthand flag: " ++ shownByte letter ++ " in -" ++ letters
  | missingValue argument => "flag needs an argument: " ++ argument
  | missingLetterValue letter letters =>
    "flag needs an argument: " ++ shownByte letter ++ " in -" ++ letters
  | badValue value flag why =>
    "invalid argument " ++ value.quoted ++ " for " ++ flag.quoted ++ " flag: " ++ why.message
  | helpRequested => "pflag: help requested"

/-- The truth value of a text. -/
def truth? (text : Bytes) : Option Bool :=
  if (["1", "t", "T", "TRUE", "true", "True"] : List Bytes).contains text then some true
  else if (["0", "f", "F", "FALSE", "false", "False"] : List Bytes).contains text then some false
  else none

namespace Flag

/-- Whether a flag takes a value only after `=`. -/
def isToggle (f : Flag) : Bool :=
  match f.slot with
  | .toggle _ => true
  | _ => false

/-- How messages name a flag. -/
def shown (f : Flag) : Bytes :=
  match f.letter with
  | some letter => [0x2d, letter] ++ ", --" ++ f.name
  | none => "--" ++ f.name

/-- Gives a flag its value. -/
def set (f : Flag) (value : Bytes) (g : Given) : Except UsageError Given :=
  match f.slot with
  | .text put => .ok (put value g)
  | .toggle put =>
    match truth? value with
    | some b => .ok (put b g)
    | none => .error (.badValue value f.shown (.toggle value))
  | .duration put =>
    match Duration.ofText value with
    | .ok n => .ok (put n g)
    | .error why => .error (.badValue value f.shown (.duration why))

/-- The flag with this name. -/
def named? (flags : List Flag) (name : Bytes) : Option Flag := flags.find? (·.name = name)

/-- The flag with this letter. -/
def lettered? (flags : List Flag) (letter : UInt8) : Option Flag :=
  flags.find? (·.letter = some letter)

end Flag

/-! ## Reading flags -/

/-- The text before the first `=`, and the text after it, if there is one. -/
def splitValue (s : Bytes) : Bytes × Option Bytes :=
  let name := s.takeWhile (· ≠ 0x3d)
  match s.drop name.length with
  | _ :: value => (name, some value)
  | [] => (name, none)

/-- Reads the flag `argument`, which starts with two dashes; `rest` follows it. -/
def readLong (flags : List Flag) (argument : Bytes) (rest : List Bytes) (g : Given) :
    Except UsageError (Given × List Bytes) := do
  let body := argument.drop 2
  if body.head? = some 0x2d ∨ body.head? = some 0x3d then throw (.badSyntax argument)
  let (name, value) := splitValue body
  let some flag := Flag.named? flags name
    | throw (if name = utf8 "help" then .helpRequested else .unknownFlag name)
  match value, rest with
  | some value, _ => return (← flag.set value g, rest)
  | none, _ =>
    if flag.isToggle then return (← flag.set "true" g, rest)
    match rest with
    | value :: rest => return (← flag.set value g, rest)
    | [] => throw (.missingValue argument)

/-- Letters that are passed over. -/
def passedOver (letters : Bytes) : Bool := (utf8 "test.").isPrefixOf letters

/-- Reads flags by their letters; `rest` follows them. -/
def readLetters (flags : List Flag) (rest : List Bytes) :
    (letters : Bytes) → Given → Except UsageError (Given × List Bytes)
  | [], g => .ok (g, rest)
  | letter :: more, g => do
    if passedOver (letter :: more) then return (g, rest)
    let some flag := Flag.lettered? flags letter
      | throw (if letter = 0x68 then .helpRequested else .unknownLetter letter (letter :: more))
    match more with
    | 0x3d :: value :: values => return (← flag.set (value :: values) g, rest)
    | _ =>
      if flag.isToggle then readLetters flags rest more (← flag.set "true" g)
      else if !more.isEmpty then return (← flag.set more g, rest)
      else match rest with
        | value :: rest => return (← flag.set value g, rest)
        | [] => throw (.missingLetterValue letter [letter])

/-- Whether an argument is none of the flags. -/
def isOperand (argument : Bytes) : Bool := argument.head? ≠ some 0x2d || argument.length == 1

/-- Reads flags from arguments; the rest of the arguments is kept in order, after those already
found (`operands`). -/
def readFlags (flags : List Flag) :
    (fuel : Nat) → (operands : List Bytes) → List Bytes → Given →
      Except UsageError (Given × List Bytes)
  | 0, operands, _, g => .ok (g, operands)
  | _ + 1, operands, [], g => .ok (g, operands)
  | fuel + 1, operands, argument :: rest, g => do
    if isOperand argument then readFlags flags fuel (operands ++ [argument]) rest g
    else if argument = utf8 "--" then return (g, operands ++ rest)
    else if (utf8 "--").isPrefixOf argument then
      let (g, rest) ← readLong flags argument rest g
      readFlags flags fuel operands rest g
    else
      let (g, rest) ← readLetters flags rest (argument.drop 1) g
      readFlags flags fuel operands rest g

end Command

end BraceBalance
