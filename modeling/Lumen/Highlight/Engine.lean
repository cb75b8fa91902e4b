import Lumen.Highlight.Query
import Lumen.Highlight.RustQuery
import Lumen.Language.Json
import Lumen.Language.Rust.Grammar
import Lumen.Language.Rust.Scanner
import Lumen.Pump.Basic
import Lumen.Tree.Edit

/-!
# Syntax engines

A syntax engine parses texts of one language and compiles queries for it. Together with a query it
is what a pump reads texts with. The tree of a text depends on nothing but the text, so the moved
tree of an earlier text changes nothing about it.
-/

namespace Lumen

namespace Highlight

/-- What reads texts by a query, by trees of some kind, for each query that can be used. -/
abbrev Readers (τ : Type) := Text → Except Query.Error (Reader τ)

/-- All that is known of a language to parse and to query its texts. -/
structure Engine where
  anatomy : Anatomy
deriving Inhabited

namespace Engine

def language (e : Engine) : Language := e.anatomy.language

def ofGrammar (g : Grammar) (scanner : Scanner) : Engine :=
  ⟨Anatomy.ofLanguage (Language.ofGrammar g scanner)⟩

def json : Engine := ofGrammar Language.Json.grammar Scanner.none

def rust : Engine := ofGrammar Language.Rust.grammar Language.Rust.scanner

def parse? (e : Engine) (text : Text) : Option SyntaxTree := e.language.tree? (String.ofList text)

def compile (e : Engine) (query : Text) : Except Query.Error Query :=
  Query.compile e.anatomy (String.ofList query)

def bareReader (e : Engine) : Reader SyntaxTree where
  parse? text _ := e.parse? text
  edit := SyntaxTree.edit
  captures _ _ _ := []

def reader (e : Engine) (q : Query) : Reader SyntaxTree :=
  { e.bareReader with
    captures := fun tree text rows => Highlight.captures q tree (String.ofList text) rows }

/-- The engine with each query that it can compile. -/
def readers (e : Engine) : Readers SyntaxTree := fun query => (e.compile query).map e.reader

def kindOf (e : Engine) (t : SyntaxTree) : String := (e.language.info t.root.symbol).name

def summary (e : Engine) : String :=
  s!"SyntaxEngine \x7b node_kinds: {e.language.kindCount}, .. \x7d"

end Engine

end Highlight

end Lumen
