import Lumen.Highlight.Capture
import Lumen.Query.Capture
import Lumen.Size
import Lumen.Text.RowRange

/-!
# Highlight queries

A highlight query is run over a range of rows of a tree, and gives the captured nodes that start
there, in the order of the tree.
-/

namespace Lumen

namespace Highlight

/-- The number of rows and columns that the parts of a tree can be told apart by. -/
def placeBound : Nat := Nat.pow 2 32

/-- The part of a text that a query is run over to find the nodes of some rows: up to the start of
the row after the last one. Rows are taken modulo `placeBound`. An end at the very start stands for
no end, and a part that would end before it starts is the whole text. -/
def spanOfRows (r : RowRange) : Query.Span :=
  let start : Point := ⟨r.start % placeBound, 0⟩
  let stop : Point := ⟨min (r.stop + 1) Size.largest % placeBound, 0⟩
  if stop == .zero then { start }
  else if stop.before start then {}
  else { start, stop := some stop }

/-- The captures in a range of rows, by a cursor that finds captures in parts of the text. A cursor
finds nodes that reach into its part, so those are left out that start before the rows. -/
def capturesBy (cursor : Query.Span → Array Query.Capture) (names : Array String) (t : SyntaxTree)
    (rows : RowRange) : List Capture :=
  (cursor (spanOfRows rows)).toList.filterMap fun c =>
    let n := t.node c.node
    if rows.contains n.start.row then
      some ⟨names.getD c.id "", c.id, c.node, n.start.point, n.stop.point⟩
    else none

/-- The captures of a query in a range of rows. -/
def captures (q : Query) (t : SyntaxTree) (text : String) (rows : RowRange) : List Capture :=
  capturesBy (q.captures t text) q.captureNames t rows

def summary (q : Query) : String :=
  let names := ", ".intercalate (q.captureNames.toList.map fun name => "\"" ++ name ++ "\"")
  s!"HighlightQuery \x7b patterns: {q.patternCount}, capture_names: [{names}] \x7d"

end Highlight

end Lumen
