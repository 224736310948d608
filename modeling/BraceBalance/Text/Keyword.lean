import BraceBalance.Text.Utf8

/-!
# Text/Keyword — words recognised in any letter case

A keyword is a word of ASCII letters.  Whether a text is some keyword in another case depends only
on the characters whose upper-case (or lower-case) form is an ASCII letter: besides the ASCII
letters themselves these are U+0131 and U+017F going up, and U+0130 and U+212A going down.
-/

namespace BraceBalance

/-- The upper-case form of a character, where that form is an ASCII letter. -/
def keywordUpper (c : Char) : Char :=
  if 'a' ≤ c ∧ c ≤ 'z' then Char.ofNat (c.toNat - 0x20)
  else if c = '\u0131' then 'I'
  else if c = '\u017f' then 'S'
  else c

/-- The lower-case form of a character, where that form is an ASCII letter. -/
def keywordLower (c : Char) : Char :=
  if 'A' ≤ c ∧ c ≤ 'Z' then Char.ofNat (c.toNat + 0x20)
  else if c = '\u0130' then 'i'
  else if c = '\u212a' then 'k'
  else c

namespace Bytes

/-- Whether a text is the keyword `word` once its characters are put in upper case. -/
def isUpperOf (s word : Bytes) : Bool :=
  (Utf8.decode s).map keywordUpper == Utf8.decode word

/-- Whether a text is the keyword `word` once its characters are put in lower case. -/
def isLowerOf (s word : Bytes) : Bool :=
  (Utf8.decode s).map keywordLower == Utf8.decode word

end Bytes

end BraceBalance
