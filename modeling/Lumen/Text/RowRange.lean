/-!
# Row ranges

A range of rows that includes both of its ends. A range whose end is before its start has no rows.
-/

namespace Lumen

/-- The rows from `start` to `stop`, both included. -/
structure RowRange where
  start : Nat
  stop : Nat
deriving BEq, Repr, Inhabited, DecidableEq

namespace RowRange

def contains (r : RowRange) (row : Nat) : Bool := r.start ≤ row && row ≤ r.stop

end RowRange

end Lumen
