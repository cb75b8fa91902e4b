import Lumen.Text.Extent

/-!
# Points

A point is a place in a text by its row and the bytes before it in that row, both counted from 0.
-/

namespace Lumen

/-- A place in a text by row and byte column. -/
structure Point where
  row : Nat
  column : Nat
deriving BEq, Repr, Inhabited, DecidableEq

namespace Point

def zero : Point := ⟨0, 0⟩

/-- Whether a point comes before another. -/
def before (a b : Point) : Bool := a.row < b.row || (a.row = b.row && a.column < b.column)

/-- Whether a point comes before another or is the same. -/
def upTo (a b : Point) : Bool := a.row < b.row || (a.row = b.row && a.column ≤ b.column)

end Point

/-- The place that a stretch from the start of a text leads to. -/
def Extent.point (e : Extent) : Point := ⟨e.row, e.column⟩

end Lumen
