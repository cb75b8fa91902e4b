import Lumen.Text.Basic

/-!
# Marks

A `Mark` styles the bytes of a text between two byte indices. It follows its text through edits:
each of its ends is moved by `moved`, and a mark with nothing left between its ends is dropped.
-/

namespace Lumen

/-- How a mark styles its text, and which of its edges draw in what is inserted at them. -/
structure Style where
  inclusiveLeft : Bool := false
  inclusiveRight : Bool := false
  /-- Declarations such as `color: blue`. -/
  css : Text := []
deriving BEq, Repr, Inhabited, DecidableEq

/-- A styled stretch of a text, by byte indices. -/
structure Mark where
  id : Nat
  start : Nat
  stop : Nat
  style : Style
deriving BEq, Repr, Inhabited, DecidableEq

namespace Mark

/-- Where a byte index is after the bytes from `start` to `oldStop` have been replaced by bytes from
`start` to `newStop`. Of an index that the new bytes take the place of, `after` tells whether it
goes to their end. -/
def moved (i start oldStop newStop : Nat) (after : Bool) : Nat :=
  if i < start then i
  else if oldStop < i then i - oldStop + newStop
  else if i = start ∧ i = oldStop then if after then newStop else start
  else if i = start then start
  else if i = oldStop then newStop
  else if after then newStop
  else start

/-- The mark after a replacement, unless nothing is left between its ends. -/
def move? (m : Mark) (start oldStop newStop : Nat) : Option Mark :=
  let m := { m with
    start := moved m.start start oldStop newStop (!m.style.inclusiveLeft)
    stop := moved m.stop start oldStop newStop m.style.inclusiveRight }
  if m.start < m.stop then some m else none

end Mark

end Lumen
