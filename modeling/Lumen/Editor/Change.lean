import Lumen.Size
import Lumen.Text.Place

/-!
# Changes and edits

A `Change` tells what was replaced in a text: between which points, by which lines, and which
lines were there before. An `Edit` tells the same by three places, each by byte index and by point
at once: where the change starts, and where what was replaced and what replaced it end. Changes of
one list each refer to the text that the changes before them have left, so `Change.editAll`
replays them.
-/

namespace Lumen

/-- A replacement of the text between two points. -/
structure Change where
  start : Point
  stop : Point
  inserted : List Text
  removed : List Text
deriving BEq, Repr, Inhabited, DecidableEq

/-- A replacement in a text by its places: its start, and the ends of what it removes and inserts.
-/
structure Edit where
  start : Extent
  oldStop : Extent
  newStop : Extent
deriving BEq, Repr, Inhabited, DecidableEq

namespace Change

/-- The change that inserts one text for another. -/
def ofTexts (start stop : Point) (inserted removed : Text) : Change :=
  ⟨start, stop, inserted.splitFeeds, removed.splitFeeds⟩

/-- The number of bytes of lines with a line feed between each two. -/
def bytesOf (lines : List Text) : Nat :=
  max lines.length 1 - 1 + lines.foldr (fun line n => line.byteLength + n) 0

/-- The point at which lines that start at a point end. -/
def stopOf (start : Point) (lines : List Text) : Checked Point := do
  let count := max lines.length 1
  let last := (lines.getLast?.map Text.byteLength).getD 0
  let pastRow ← Size.add start.row count
  if count = 1 then
    let column ← Size.add start.column last
    return ⟨pastRow - 1, column⟩
  else return ⟨pastRow - 1, last⟩

/-- The edit that a change stands for in the text that it refers to. No lines count as one empty
line. -/
def edit (c : Change) (t : Text) : Checked Edit := do
  let newStop ← stopOf c.start c.inserted
  let start := t.indexOf c.start
  return {
    start := ⟨start, c.start.row, c.start.column⟩
    oldStop := ⟨start + bytesOf c.removed, c.stop.row, c.stop.column⟩
    newStop := ⟨start + bytesOf c.inserted, newStop.row, newStop.column⟩ }

/-- The text after a change with its edit; what the edit removes past the end of the text is not
there to be removed. -/
def replay (c : Change) (e : Edit) (t : Text) : Text :=
  t.splice e.start.bytes e.oldStop.bytes (Text.joinFeeds c.inserted)

/-- The edits of changes that follow one another, and the text after the last. -/
def editAll : List Change → Text → Checked (List Edit × Text)
  | [], t => return ([], t)
  | c :: cs, t => do
    let e ← c.edit t
    let (es, t) ← editAll cs (c.replay e t)
    return (e :: es, t)

end Change

end Lumen
