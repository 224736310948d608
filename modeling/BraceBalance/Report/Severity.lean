import BraceBalance.Text.Blank
import BraceBalance.Text.Keyword
import BraceBalance.Text.Quoted

/-!
# Report/Severity — how serious an issue is

A severity is written as its name; reading takes any letter case and white space around it.
-/

namespace BraceBalance

/-- How serious an issue is.  Numbers of no known severity may be given to a rule. -/
inductive Severity where
  | error
  | warning
  | info
  | off
  | other (code : Int) (unknown : code < 0 ∨ 3 < code)
  deriving DecidableEq, Inhabited

namespace Severity

/-- The severity with the number `code`. -/
def ofCode (code : Int) : Severity :=
  if h0 : code = 0 then error
  else if h1 : code = 1 then warning
  else if h2 : code = 2 then info
  else if h3 : code = 3 then off
  else other code (by omega)

/-- The name of a severity. -/
def name : Severity → Bytes
  | error => "ERROR"
  | warning => "WARNING"
  | info => "INFO"
  | off => "OFF"
  | other _ _ => "UNKNOWN"

/-- The severities that have a name of their own. -/
def all : List Severity := [error, warning, info, off]

/-- The severity a text names, in any letter case and with white space around it. -/
def ofName? (text : Bytes) : Option Severity := all.find? fun s => text.trim.isUpperOf s.name

/-- What is said of a text that names no severity. -/
def unknownMessage (text : Bytes) : Bytes := "unknown severity " ++ text.quoted

end Severity

end BraceBalance
