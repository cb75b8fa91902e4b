import Lumen.Editor.Change
import Lumen.Tree.Basic

/-!
# Edited trees

A tree of an earlier text is moved by the edits that lead to the new one. All that is kept of the
move is where the tree ends, so that it spans the new text.
-/

namespace Lumen

namespace SyntaxTree

/-- The end of a stretch after an edit. An edit reaches it if it starts before the end, or inserts
there. -/
def movedStop (e : Edit) (stop : Extent) : Extent :=
  if e.start.bytes < stop.bytes || (e.start.bytes = stop.bytes && e.oldStop.bytes = stop.bytes) then
    if e.oldStop.bytes < stop.bytes then e.newStop + (stop - e.oldStop) else e.newStop
  else stop

def edit (e : Edit) (t : SyntaxTree) : SyntaxTree :=
  { t with nodes := t.nodes.modify 0 fun root => { root with stop := movedStop e root.stop } }

end SyntaxTree

end Lumen
