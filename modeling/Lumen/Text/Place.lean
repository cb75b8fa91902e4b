import Lumen.Text.Basic
import Lumen.Text.Point

/-!
# Places in a text

A place in a text is told by a byte index or by a point. Only the places between two characters
split a text, so a place inside a character stands for the one before it.

* `indexOf` is the last byte index between characters whose point is not after the given one, so a
  row that the text does not have leads to its end, and a column that its row does not have leads to
  the end of the row.
* `pointAt` goes the other way, for any byte index.
* `splice` replaces what is between two byte indices.
-/

namespace Lumen

namespace Text

/-- The byte index of a point. -/
def indexOf : Text → Point → Nat
  | [], _ => 0
  | c :: cs, p =>
    if p.row = 0 then
      if c = '\n' ∨ p.column < c.utf8Size then 0
      else c.utf8Size + indexOf cs ⟨0, p.column - c.utf8Size⟩
    else c.utf8Size + indexOf cs (if c = '\n' then ⟨p.row - 1, p.column⟩ else p)

/-- The point of a byte index; an index after the text is taken as its end. -/
def pointAt : Text → Nat → Point
  | [], _ => .zero
  | c :: cs, i =>
    if i < c.utf8Size then ⟨0, i⟩
    else
      let p := pointAt cs (i - c.utf8Size)
      if c = '\n' then ⟨p.row + 1, p.column⟩
      else if p.row = 0 then ⟨0, c.utf8Size + p.column⟩
      else p

/-- The characters that end at a byte index or before it. -/
def takeBytes : Text → Nat → Text
  | [], _ => []
  | c :: cs, i => if c.utf8Size ≤ i then c :: takeBytes cs (i - c.utf8Size) else []

/-- The characters that end after a byte index. -/
def dropBytes : Text → Nat → Text
  | [], _ => []
  | c :: cs, i => if c.utf8Size ≤ i then dropBytes cs (i - c.utf8Size) else c :: cs

/-- The characters between two byte indices. -/
def between (t : Text) (start stop : Nat) : Text := (t.takeBytes stop).dropBytes start

/-- The text with what is between two byte indices replaced. -/
def splice (t : Text) (start stop : Nat) (inserted : Text) : Text :=
  t.takeBytes start ++ inserted ++ t.dropBytes stop

end Text

end Lumen
