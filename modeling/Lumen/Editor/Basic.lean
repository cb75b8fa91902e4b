import Lumen.Editor.Change
import Lumen.Editor.Mark
import Lumen.Text.RowRange

/-!
# Editors

An `Editor` holds a text of which some rows can be seen, marks in it, and the events that nobody
has taken yet. Edits are made inside operations. An operation may hold others, and when the
outermost one ends, the changes made inside it are given out as one event. A move of the rows that
can be seen is given out at once.
-/

namespace Lumen

/-- What an editor tells those who follow it. -/
inductive Event where
  /-- The changes of one operation in the order in which they were made. -/
  | changes (batch : List Change)
  /-- The rows that can be seen from now on. -/
  | viewport (rows : RowRange)
deriving BEq, Repr, Inhabited, DecidableEq

/-- A text in the making. -/
structure Editor where
  text : Text
  topRow : Nat := 0
  /-- The number of rows that can be seen, which is at least one. -/
  visibleRows : Nat := 40
  marks : List Mark := []
  nextMark : Nat := 1
  /-- The number of operations that have begun and not ended. -/
  depth : Nat := 0
  /-- The changes made since the outermost operation began. -/
  pending : List Change := []
  events : List Event := []
  operations : Nat := 0
deriving Inhabited, DecidableEq

namespace Editor

/-- An editor that shows some rows of a text from its top. -/
def ofText (text : Text) (rows : Nat := 40) : Editor := { text, visibleRows := max rows 1 }

/-! ## Operations -/

def enter (e : Editor) : Editor := { e with depth := e.depth + 1 }

/-- Ends an operation; with the outermost one, its changes are given out. -/
def leave (e : Editor) : Editor :=
  let e := { e with depth := e.depth - 1 }
  if e.depth = 0 then
    let e := { e with operations := e.operations + 1 }
    if e.pending = [] then e
    else { e with pending := [], events := e.events ++ [.changes e.pending] }
  else e

def drain (e : Editor) : List Event × Editor := (e.events, { e with events := [] })

/-! ## Edits -/

/-- The byte indices between which an edit replaces the text; its points may come in any order. -/
def spanOf (e : Editor) (p q : Point) : Nat × Nat :=
  if q.before p then (e.text.indexOf q, e.text.indexOf p) else (e.text.indexOf p, e.text.indexOf q)

/-- Replaces the bytes between two indices and moves the marks. -/
def replaceBytes (e : Editor) (start stop : Nat) (inserted : Text) : Editor :=
  if start = stop ∧ inserted = [] then e
  else
    let change := Change.ofTexts (e.text.pointAt start) (e.text.pointAt stop) inserted
      (e.text.between start stop)
    { e with
      text := e.text.splice start stop inserted
      marks := e.marks.filterMap fun m => m.move? start stop (start + inserted.byteLength)
      pending := e.pending ++ [change] }

def replace (e : Editor) (p q : Point) (inserted : Text) : Editor :=
  let (start, stop) := e.spanOf p q
  (e.enter.replaceBytes start stop inserted).leave

def insert (e : Editor) (p : Point) (inserted : Text) : Editor := e.replace p p inserted

def delete (e : Editor) (p q : Point) : Editor := e.replace p q []

def endPoint (e : Editor) : Point := e.text.pointAt e.text.byteLength

def append (e : Editor) (inserted : Text) : Editor := e.insert e.endPoint inserted

def setText (e : Editor) (text : Text) : Editor := e.replace .zero e.endPoint text

/-! ## Rows -/

/-- The rows that can be seen, which the text has. -/
def viewport (e : Editor) : Checked RowRange := do
  let last := e.text.lineCount - 1
  let start := min e.topRow last
  let past ← Size.add start e.visibleRows
  return ⟨start, min (past - 1) last⟩

def viewportMoved (e : Editor) : Checked Editor := do
  let rows ← e.viewport
  return { e with events := e.events ++ [.viewport rows] }

/-- Makes a row the first to be seen, the last one in place of one that the text does not have. -/
def scrollTo (e : Editor) (row : Nat) : Checked Editor :=
  let row := min row (e.text.lineCount - 1)
  if row = e.topRow then return e else { e with topRow := row }.viewportMoved

/-- Sets the number of rows that can be seen, one in place of none. -/
def resize (e : Editor) (rows : Nat) : Checked Editor :=
  let rows := max rows 1
  if rows = e.visibleRows then return e else { e with visibleRows := rows }.viewportMoved

/-! ## Marks -/

/-- Marks the text between two points, which may come in any order. -/
def mark (e : Editor) (p q : Point) (style : Style) : Nat × Editor :=
  let i := e.text.indexOf p
  let j := e.text.indexOf q
  let m : Mark := { id := e.nextMark, start := min i j, stop := max i j, style }
  (m.id, { e with marks := e.marks ++ [m], nextMark := e.nextMark + 1 })

def markIds (e : Editor) : List Nat := e.marks.map (·.id)

def clearMark (e : Editor) (id : Nat) : Editor :=
  { e with marks := e.marks.filter (·.id ≠ id) }

def markRange? (e : Editor) (id : Nat) : Option (Point × Point) :=
  (e.marks.find? (·.id = id)).map fun m => (e.text.pointAt m.start, e.text.pointAt m.stop)

end Editor

end Lumen
