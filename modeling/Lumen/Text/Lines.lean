import Lumen.Text.Basic

/-!
# Ended lines

Here a line is ended by a line feed, before which a carriage return is dropped. A text that ends
with a line feed has no empty line after it.
-/

namespace Lumen

namespace Text

/-- Drops a carriage return at the end of a line. -/
def dropReturn (line : Text) : Text :=
  if line.getLast? = some '\r' then line.dropLast else line

/-- Drops the carriage return of each line but of one that no line feed ends. -/
def dropReturns : List Text → List Text
  | [] => []
  | [rest] => if rest = [] then [] else [rest]
  | line :: lines => dropReturn line :: dropReturns lines

/-- The lines that line feeds end, and what follows the last of these unless it is empty. -/
def lines (t : Text) : List Text := dropReturns t.splitFeeds

end Text

end Lumen
