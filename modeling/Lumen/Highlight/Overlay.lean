import Lumen.Editor.Basic
import Lumen.Highlight.Capture
import Lumen.Highlight.Palette

/-!
# Overlays

An overlay is the marks that show captures in an editor. Laying one clears all other marks. It is
one operation, and none of the editor's text changes.
-/

namespace Lumen

namespace Highlight

/-- How the marks of captures look: what is inserted at either edge belongs to them. -/
def styleOf (palette : Palette) (c : Capture) : Style :=
  { inclusiveLeft := true, inclusiveRight := true, css := palette.css c.index }

/-- Marks captures one after the other. -/
def markAll (palette : Palette) : List Capture → Editor → Editor
  | [], e => e
  | c :: cs, e => markAll palette cs (e.mark c.start c.stop (styleOf palette c)).2

/-- Clears all marks and marks each captured node of some rows once. Without `captures?` nothing
is marked; without `rows?` the rows are those that can be seen. The result holds the number of
marks. -/
def overlay (e : Editor) (captures? : Option (RowRange → List Capture)) (palette : Palette)
    (rows? : Option RowRange) : Checked (Nat × Editor) := do
  let e := { e.enter with marks := [] }
  match captures? with
  | none => return (0, e.leave)
  | some captures =>
    let rows ← match rows? with
      | some rows => pure rows
      | none => e.viewport
    let kept := firstOfNodes (captures rows)
    return (kept.length, (markAll palette kept e).leave)

end Highlight

end Lumen
