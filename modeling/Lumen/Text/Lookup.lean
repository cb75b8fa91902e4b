import Lumen.Size
import Lumen.Text.Place

/-!
# Looking up places

Byte indices and points are looked up in a text by its rows and its characters. What the text does
not have cannot be looked up and is a fault.

`indexAt` and `pointIn` look up no more than the text has, so they give the results of `indexOf` and
`pointAt`, which go through the text once.
-/

namespace Lumen

namespace Text

/-- The byte index at which a row begins: each row before it takes its bytes and a line feed. -/
def rowStart (t : Text) (row : Nat) : Nat :=
  (t.splitFeeds.take row).foldr (fun line n => line.byteLength + 1 + n) 0

/-! ## Lookups -/

/-- A row with the line feed at its end. -/
def rowAt (t : Text) (row : Nat) : Checked Text :=
  match t.line? row with
  | some line => .ok (if row + 1 < t.lineCount then line ++ ['\n'] else line)
  | none => .error (.noPlace row t.lineCount)

/-- The number of bytes of a row without the line feed at its end. -/
def rowLength (t : Text) (row : Nat) : Checked Nat := do
  let line ← t.rowAt row
  if line.getLast? = some '\n' then Size.sub line.byteLength 1 else return line.byteLength

/-- The byte index at which a row begins. One row more than there are begins at the end. -/
def startAt (t : Text) (row : Nat) : Checked Nat :=
  if row ≤ t.lineCount then .ok (min (t.rowStart row) t.byteLength)
  else .error (.noPlace row t.lineCount)

/-- The row of a byte index. -/
def rowOf (t : Text) (i : Nat) : Checked Nat :=
  if i ≤ t.byteLength then .ok ((t.takeBytes i).count '\n') else .error (.noPlace i t.byteLength)

/-- The number of characters that end at a byte index or before it. -/
def charsAt (t : Text) (i : Nat) : Checked Nat :=
  if i ≤ t.byteLength then .ok (t.takeBytes i).length else .error (.noPlace i t.byteLength)

/-- The byte index after some characters. -/
def bytesAt (t : Text) (n : Nat) : Checked Nat :=
  if n ≤ t.length then .ok (byteLength (t.take n)) else .error (.noPlace n t.length)

/-! ## Places -/

/-- The byte index of a point. -/
def indexAt (t : Text) (p : Point) : Checked Nat := do
  if t.lineCount ≤ p.row then return t.byteLength
  let length ← t.rowLength p.row
  let start ← t.startAt p.row
  -- a character is never split
  t.bytesAt (← t.charsAt (start + min p.column length))

/-- The point of a byte index; an index after the text is taken as its end. -/
def pointIn (t : Text) (i : Nat) : Checked Point := do
  let i := min i t.byteLength
  let row ← t.rowOf i
  return ⟨row, ← Size.sub i (← t.startAt row)⟩

end Text

end Lumen
