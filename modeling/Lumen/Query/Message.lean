import Lumen.Query.Basic
import Lumen.Size
import Lumen.Text.Lines

/-!
# Messages of query errors

What is wrong with a query is told with the line that it is in and a caret below the place.
-/

namespace Lumen

namespace Query

def ErrorKind.word : ErrorKind → String
  | .malformed => "Syntax"
  | .unknownNode => "NodeType"
  | .unknownField => "Field"
  | .unknownCapture => "Capture"
  | .impossible => "Structure"
  | .badPredicate => "Predicate"
  | .foreignLanguage => "Language"

/-- The message of an error in the text of a query. The caret is at most one byte after the line. -/
def Error.message (e : Error) (text : Text) : Checked Text := do
  let row ← Size.add e.row 1
  let line := (text.lines[e.row]?).getD "<line not found>".toList
  return s!"query compilation failed at row {row}, column {e.column}: {e.kind.word}\n  ".toList
    ++ line ++ "\n  ".toList ++ List.replicate (min e.column line.byteLength) ' ' ++ ['^']

end Query

end Lumen
