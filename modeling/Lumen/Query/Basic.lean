import Lumen.Language.Basic
import Lumen.Regex.Basic

/-!
# Queries

A query is a list of patterns over the nodes of a syntax tree, which give names to the nodes they
match. A pattern is kept as a run of steps, one for each node it asks for, in the order in which the
nodes begin; `Step.depth` says how far inside the pattern's first node a node lies. Alternatives and
repetitions are jumps between steps: a step can have an alternative, which is tried besides it.
-/

namespace Lumen

namespace Query

/-- What is wrong with the text of a query. -/
inductive ErrorKind where
  | malformed
  | unknownNode
  | unknownField
  | unknownCapture
  /-- A pattern that no tree of the language can match. -/
  | impossible
  | badPredicate
  /-- The language is none that queries are known for. -/
  | foreignLanguage
deriving BEq, Repr, DecidableEq

/-- An error in a query. Lines are counted from 0, and columns are in bytes. -/
structure Error where
  kind : ErrorKind
  row : Nat
  column : Nat
deriving BEq, Repr

structure Step where
  /-- The symbol of the node; none for any node. -/
  symbol : Option Nat := none
  supertype : Option Nat := none
  field : Option Nat := none
  captures : List Nat := []
  depth : Nat
  /-- The step that is tried besides this one. -/
  alternative : Option Nat := none
  absent : List Nat := []
  named : Bool := false
  /-- The node follows the one before at once. -/
  immediate : Bool := false
  lastChild : Bool := false
  /-- The step matches nothing, and only branches to its alternative. -/
  passThrough : Bool := false
  /-- The step matches nothing, and only jumps to its alternative. -/
  deadEnd : Bool := false
  alternativeIsImmediate : Bool := false
  missing : Bool := false
  isEnd : Bool := false
  hasCaptures : Bool := false
  /-- Once this step is reached, the pattern is sure to match. -/
  sure : Bool := false
  /-- Once this step is reached, the node around it is sure to match. -/
  parentSure : Bool := false
deriving Inhabited

inductive Predicate where
  /-- Each node of one capture against its counterpart in another. -/
  | sameText (capture other : Nat) (positive all : Bool)
  | text (capture : Nat) (text : String) (positive all : Bool)
  | regex (capture : Nat) (regex : Regex) (positive all : Bool)
  | oneOf (capture : Nat) (texts : List String) (positive : Bool)

/-- Where a pattern can begin: a step, and the pattern it belongs to. -/
structure Entry where
  step : Nat
  pattern : Nat
  rooted : Bool
deriving Inhabited

end Query

structure Query where
  captureNames : Array String
  steps : Array Query.Step
  predicates : Array (List Query.Predicate)
  /-- Entries whose first step matches any node, in the order of the patterns. -/
  openEntries : Array Query.Entry
  /-- The other entries, by the symbol of the first step. -/
  entries : List (Nat × List Query.Entry)

namespace Query

def patternCount (q : Query) : Nat := q.predicates.size

def step (q : Query) (i : Nat) : Step := q.steps.getD i default

end Query

namespace Language

/-- The symbol with a name. Any beginning of the name of errors stands for an error. -/
def symbolNamed? (l : Language) (name : String) (named : Bool) : Option Nat :=
  if named && name.toList.isPrefixOf "ERROR".toList then some errorSymbol
  else
    (l.symbols.findIdx? fun s =>
      (s.visible || s.supertype) && s.named == named && s.name == name).map fun i =>
        l.shown.getD i i

def fieldNamed? (l : Language) (name : String) : Option Nat := l.fields.findIdx? (· == name)

end Language

end Lumen
