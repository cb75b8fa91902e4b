import Lumen.Text.Basic

/-!
# Characters of YAML

The classes of characters that the format is told by. A line can be ended by a line feed, a carriage
return, both in that order, a next-line character or one of the two separators.
-/

namespace Lumen

namespace Yaml

def isBreak (c : Char) : Bool :=
  c = '\n' || c = '\r' || c = '\x85' || c = '\u2028' || c = '\u2029'

def isBlank (c : Char) : Bool := c = ' ' || c = '\t'

/-- Whether a text begins with a blank or a line end, or is at its end. -/
def atSpace (t : Text) : Bool := t.head?.all fun c => isBlank c || isBreak c

/-- Whether a text begins with a line end, or is at its end. -/
def atLineEnd (t : Text) : Bool := t.head?.all isBreak

/-- What the end of a line counts as in a value. The two separators stay what they are. -/
def breakText (c : Char) : Text := if c = '\u2028' ∨ c = '\u2029' then [c] else ['\n']

/-- Whether a character may be in an anchor, in the name of a directive or in a tag handle. -/
def isWordChar (c : Char) : Bool := c.isAlphanum || c = '_' || c = '-'

/-- Whether a character may be in a text at all. -/
def isAllowed (c : Char) : Bool :=
  c = '\t' || c = '\n' || c = '\r' || (' ' ≤ c && c ≤ '~') || c = '\x85' ||
    ('\xa0' ≤ c && c ≤ '\ufffd') || 0x10000 ≤ c.toNat

/-- Whether a character shows when it is written as it is. -/
def isPrintable (c : Char) : Bool :=
  c = '\n' || (' ' ≤ c && c ≤ '~') || ('\xa0' ≤ c && c ≤ '\ufffd' && c ≠ '\ufeff') ||
    0x10000 ≤ c.toNat

def hexDigit? (c : Char) : Option Nat :=
  if c.isDigit then some (c.toNat - 48)
  else if 'a' ≤ c ∧ c ≤ 'f' then some (c.toNat - 87)
  else if 'A' ≤ c ∧ c ≤ 'F' then some (c.toNat - 55)
  else none

end Yaml

end Lumen
