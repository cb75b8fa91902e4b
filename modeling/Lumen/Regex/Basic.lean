import Lumen.Text.Charset

/-!
# Regular expressions

The syntax of a pattern once its text has been read. Matching is defined elsewhere: `Regex.Search`
asks whether a text holds a match, and a token automaton is built from the same trees.
-/

namespace Lumen

/-- A condition on a place between two characters. -/
inductive Anchor where
  | textStart
  | textEnd
  | lineStart
  | lineEnd
  | wordEdge
  | insideWord
  | wordStart
  | wordEnd
deriving BEq, Repr, Inhabited

/-- A regular expression over code points. -/
inductive Regex where
  | empty
  | chars (set : Charset)
  | anchor (a : Anchor)
  | seq (first second : Regex)
  | alt (first second : Regex)
  | rep (body : Regex) (least : Nat) (most : Option Nat)
deriving BEq, Repr, Inhabited

namespace Regex

def literal (s : String) : Regex :=
  s.toList.foldr (fun c r => .seq (.chars (.single c)) r) .empty

end Regex

end Lumen
