import Lumen.Grammar.Rule

/-!
# Symbols

The three sorts of symbol that occur in a resolved grammar, and how a symbol shows in a tree.
-/

namespace Lumen

namespace Grammar

/-- A symbol of a resolved grammar: a token of the lexicon, a token that the language's own scanner
finds, or a rule. -/
inductive Symbol where
  | terminal (index : Nat)
  | external (index : Nat)
  | rule (index : Nat)
deriving BEq, Hashable, Repr, Inhabited, DecidableEq

/-- How the nodes of a symbol show in a tree. -/
inductive Kind where
  | named
  | anonymous
  | hidden
  /-- Introduced by the preparation of the grammar, and hidden too. -/
  | auxiliary
deriving BEq, Hashable, Repr, Inhabited, DecidableEq

def Kind.isVisible : Kind → Bool
  | .named => true
  | .anonymous => true
  | .hidden => false
  | .auxiliary => false

/-- The kind of a rule or an external token by its name. -/
def Kind.ofName (name : String) : Kind :=
  if name.startsWith "_" then .hidden else .named

end Grammar

end Lumen
