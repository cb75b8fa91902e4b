/-!
# Grammar rules

A `Rule σ` is the right side of a grammar rule whose symbols are of type `σ`: names while the
grammar is as it was written, indices once it has been resolved. The combinators below the type
are the vocabulary in which grammars are written.

Choices are flat: `Rule.oneOf` splices nested choices and keeps the first of equal alternatives.
-/

namespace Lumen

namespace Grammar

/-- The side to which operators of equal precedence lean. -/
inductive Assoc where
  | left
  | right
deriving BEq, Hashable, Repr, Inhabited, DecidableEq

/-- The kind under which a symbol is shown instead of its own. -/
structure Alias where
  name : String
  named : Bool
deriving BEq, Hashable, Repr, Inhabited, DecidableEq

/-- What a rule says about its body besides the text it matches. -/
structure Notes where
  prec : Option Int := none
  assoc : Option Assoc := none
  rename : Option Alias := none
  field : Option String := none
  isToken : Bool := false
  immediate : Bool := false
deriving BEq, Hashable, Repr, Inhabited

/-- The right side of a grammar rule. -/
inductive Rule (σ : Type) where
  | blank
  | text (s : String)
  | pattern (s : String)
  | sym (s : σ)
  | seq (first second : Rule σ)
  | alt (first second : Rule σ)
  | rep (body : Rule σ)
  | note (notes : Notes) (body : Rule σ)
deriving BEq, Hashable, Repr, Inhabited

namespace Rule

variable {σ τ : Type}

instance : Coe String (Rule σ) := ⟨.text⟩

/-- The alternatives of a choice, from left to right. -/
def alternatives : Rule σ → List (Rule σ)
  | .alt a b => a.alternatives ++ b.alternatives
  | r => [r]

/-- The elements of a list, each kept where it first occurs. -/
def firsts [BEq σ] (rs : List (Rule σ)) : List (Rule σ) :=
  (rs.foldl (fun kept r => if kept.contains r then kept else r :: kept) []).reverse

def oneOf [BEq σ] (rs : List (Rule σ)) : Rule σ :=
  match (firsts (rs.flatMap alternatives)).reverse with
  | [] => .blank
  | last :: before => before.foldl (fun acc r => .alt r acc) last

def seqOf : List (Rule σ) → Rule σ
  | [] => .blank
  | [r] => r
  | r :: rs => .seq r (seqOf rs)

/-- Changes the notes of a rule; a rule that is a token on its own gets notes around it. -/
def annotate (change : Notes → Notes) : Rule σ → Rule σ
  | .note n r => if n.isToken then .note (change {}) (.note n r) else .note (change n) r
  | r => .note (change {}) r

def opt [BEq σ] (r : Rule σ) : Rule σ := oneOf [r, .blank]

def many [BEq σ] (r : Rule σ) : Rule σ := oneOf [.rep r, .blank]

def prec (p : Int) (r : Rule σ) : Rule σ :=
  r.annotate fun n => { n with prec := some p }

def precLeft (p : Int) (r : Rule σ) : Rule σ :=
  r.annotate fun n => { n with prec := some p, assoc := some .left }

def precRight (p : Int) (r : Rule σ) : Rule σ :=
  r.annotate fun n => { n with prec := some p, assoc := some .right }

/-- Labels what the rule matches as a field of the node around it. -/
def field (name : String) (r : Rule σ) : Rule σ :=
  r.annotate fun n => { n with field := some name }

/-- Shows what the rule matches as a named node of another kind. -/
def shownAs (name : String) (r : Rule σ) : Rule σ :=
  r.annotate fun n => { n with rename := some ⟨name, true⟩ }

/-- Shows what the rule matches as an anonymous node. -/
def shownAsText (name : String) (r : Rule σ) : Rule σ :=
  r.annotate fun n => { n with rename := some ⟨name, false⟩ }

def token (r : Rule σ) : Rule σ :=
  r.annotate fun n => { n with isToken := true }

def immediate (r : Rule σ) : Rule σ :=
  r.annotate fun n => { n with isToken := true, immediate := true }

/-- One or more, with a separator between neighbours. -/
def sepBy1 [BEq σ] (sep r : Rule σ) : Rule σ := seqOf [r, many (seqOf [sep, r])]

def sepBy [BEq σ] (sep r : Rule σ) : Rule σ := opt (sepBy1 sep r)

def map (f : σ → τ) : Rule σ → Rule τ
  | .blank => .blank
  | .text s => .text s
  | .pattern s => .pattern s
  | .sym s => .sym (f s)
  | .seq a b => .seq (a.map f) (b.map f)
  | .alt a b => .alt (a.map f) (b.map f)
  | .rep r => .rep (r.map f)
  | .note n r => .note n (r.map f)

def symbols : Rule σ → List σ
  | .sym s => [s]
  | .seq a b => a.symbols ++ b.symbols
  | .alt a b => a.symbols ++ b.symbols
  | .rep r => r.symbols
  | .note _ r => r.symbols
  | _ => []

end Rule

end Grammar

/-- A grammar as it is written. The first rule is the start. -/
structure Grammar where
  name : String
  rules : List (String × Grammar.Rule String)
  /-- What may stand between any two tokens. -/
  extras : List (Grammar.Rule String)
  /-- Tokens that are found by a scanner of the language's own. -/
  externals : List String := []
  /-- Hidden rules that a query may name. -/
  supertypes : List String := []
  /-- Rules that are replaced by their bodies wherever they occur. -/
  inlined : List String := []
  /-- The token of which keywords are special cases. -/
  word : Option String := none

end Lumen
