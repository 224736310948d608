import BraceBalance.Text.Bytes

/-!
# Pretty/Style — styled text

A rendering is a list of pieces; only when it is coloured do the styles leave a mark.
-/

namespace BraceBalance

/-- The role of a piece of text, which fixes its colour. -/
inductive Style where
  | error
  | warning
  | info
  | rule
  | file
  | gutter
  | message
  | title
  deriving DecidableEq

/-- The terminal codes of a style. -/
def Style.codes : Style → Bytes
  | error => "31;1"
  | warning => "93;1"
  | info => "96;1"
  | rule => "33;1"
  | file => "36;1"
  | gutter => "94;1"
  | message => "31;1"
  | title => "32;1"

/-- A piece of text, styled or not. -/
inductive Piece where
  | plain (text : Bytes)
  | styled (style : Style) (text : Bytes)
  deriving DecidableEq

namespace Piece

/-- The text of a piece, whatever its style. -/
def text : Piece → Bytes
  | plain text => text
  | styled _ text => text

/-- A piece as it is written to a terminal that shows colours. -/
def coloured : Piece → Bytes
  | plain text => text
  | styled style text => "\x1b[" ++ style.codes ++ "m" ++ text ++ "\x1b[0;22m"

/-- Pieces written one after the other. -/
def render (colour : Bool) (pieces : List Piece) : Bytes :=
  pieces.flatMap (if colour then coloured else text)

end Piece

end BraceBalance
