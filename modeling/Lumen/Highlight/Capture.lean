import Lumen.Text.Point

/-!
# Captures

A capture is a node of a tree that a query has named. A node that has been captured more than once
counts as what it was captured as first.
-/

namespace Lumen

namespace Highlight

/-- A captured node: the name it was captured under, the place of the name among those of the query,
and where the node starts and ends. -/
structure Capture where
  name : String
  index : Nat
  node : Nat
  start : Point
  stop : Point
deriving BEq, Repr, Inhabited, DecidableEq

/-- The captures that are the first of a node that has not been seen. -/
def firstUnseen (seen : List Nat) : List Capture → List Capture
  | [] => []
  | c :: cs =>
    if c.node ∈ seen then firstUnseen seen cs else c :: firstUnseen (c.node :: seen) cs

/-- The captures that are the first of their node. -/
def firstOfNodes (captures : List Capture) : List Capture := firstUnseen [] captures

end Highlight

end Lumen
