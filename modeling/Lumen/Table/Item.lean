import Lumen.Grammar.Production
import Std.Data.HashMap

/-!
# Items

An item is a production with a dot that shows how much of it has been read. The symbols before the
dot do not matter for what may follow, so items that agree on everything else are one item; what
the read steps say about aliases and fields does matter, because it shapes the node that the
production makes.

`Items.ofSyntax` numbers all items that can occur. For each item it tells the symbol after the dot,
the item with the dot moved over it, the tokens that may come after that symbol, and, where the
symbol is a rule that is replaced by its bodies, the items that stand for it.

Symbols are numbered throughout: tokens of the lexicon first, then external tokens, the end of the
input, the end of an extra rule, and then the rules.
-/

namespace Lumen

namespace Table

open Grammar

/-- The numbering of the symbols of a grammar. -/
structure Numbering where
  terminals : Nat
  externals : Nat
  rules : Nat
deriving Inhabited

namespace Numbering

def eof (n : Numbering) : Nat := n.terminals + n.externals

/-- What stands at the end of an extra rule, where any token may follow. -/
def extraEnd (n : Numbering) : Nat := n.eof + 1

/-- How many numbers are tokens. -/
def tokens (n : Numbering) : Nat := n.eof + 2

def ofRule (n : Numbering) (r : Nat) : Nat := n.tokens + r

def ofSymbol (n : Numbering) : Symbol → Nat
  | .terminal i => i
  | .external i => n.terminals + i
  | .rule i => n.ofRule i

def isRule (n : Numbering) (s : Nat) : Bool := n.tokens ≤ s

def isExternal (n : Numbering) (s : Nat) : Bool := n.terminals ≤ s && s < n.eof

def ofSyntax (g : Grammar.Syntax) : Numbering :=
  ⟨g.lexicon.tokens.size, g.lexicon.externals.size, g.rules.size⟩

end Numbering

/-- A production of a rule with a dot before step `dot`. -/
structure Item where
  rule : Nat
  steps : Array Step
  dot : Nat
  /-- A hidden child with fields has been read. -/
  inherits : Bool
deriving Inhabited

/-- What is compared of two items. -/
structure ItemKey where
  rule : Nat
  dot : Nat
  inherits : Bool
  prec : Option Int
  assoc : Option Assoc
  past : List (Option Symbol × Option Alias × Option String)
  future : List Step
deriving BEq, Hashable

namespace Item

def next? (i : Item) : Option Step := i.steps[i.dot]?

def last? (i : Item) : Option Step := if i.dot = 0 then none else i.steps[i.dot - 1]?

def prec (i : Item) : Option Int := i.last?.bind (·.prec)

def assoc (i : Item) : Option Assoc := i.last?.bind (·.assoc)

def key (i : Item) : ItemKey where
  rule := i.rule
  dot := i.dot
  inherits := i.inherits
  prec := i.prec
  assoc := i.assoc
  past := (i.steps.toList.take i.dot).map fun s =>
    (if i.inherits then some s.symbol else none, s.rename, s.field)
  future := i.steps.toList.drop i.dot

end Item

/-! ## Sets of first and last tokens -/

/-- The tokens that can be reached through the rules to visit. -/
def reachTokens (n : Numbering) (edge : Array Step → Option Step) (g : Grammar.Syntax)
    (fuel : Nat) (todo : List Nat) (seen : Array Bool) (found : Nat) : Nat :=
  match fuel, todo with
  | 0, _ => found
  | _, [] => found
  | fuel + 1, r :: todo =>
    let (todo, seen, found) := (g.rules.getD r default).productions.foldl
      (fun (todo, seen, found) p =>
        match edge p with
        | some ⟨.rule i, _, _, _, _⟩ =>
          if seen.getD i true then (todo, seen, found)
          else (i :: todo, seen.setIfInBounds i true, found)
        | some s => (todo, seen, found ||| (1 <<< n.ofSymbol s.symbol))
        | none => (todo, seen, found)) (todo, seen, found)
    reachTokens n edge g fuel todo seen found

def edgeSets (n : Numbering) (edge : Array Step → Option Step) (g : Grammar.Syntax) : Array Nat :=
  (Array.range n.tokens).map (fun t => 1 <<< t) ++
    (Array.range n.rules).map fun r =>
      let reached := (Array.replicate n.rules false).setIfInBounds r true
      reachTokens n edge g (n.rules + 1) [r] reached 0

/-- For each symbol the tokens with which it can begin. -/
def firstSets (n : Numbering) (g : Grammar.Syntax) : Array Nat := edgeSets n (·[0]?) g

/-- For each symbol the tokens with which it can end. -/
def lastSets (n : Numbering) (g : Grammar.Syntax) : Array Nat := edgeSets n Array.back? g

/-! ## Fields of hidden rules -/

/-- The fields that each rule hands on to a node around it, after `fuel` rounds. -/
def hiddenFields (g : Grammar.Syntax) (fuel : Nat) (known : Array (List String)) :
    Array (List String) :=
  match fuel with
  | 0 => known
  | fuel + 1 =>
    let next := g.rules.map fun r => r.productions.foldl (fun acc p => p.foldl (fun acc s =>
      let own := s.field.toList
      let inner := match s.symbol, s.rename with
        | .rule i, none =>
          if (g.rules.getD i default).kind.isVisible then [] else known.getD i []
        | _, _ => []
      (own ++ inner).foldl (fun acc f => if acc.contains f then acc else acc ++ [f]) acc) acc) []
    if next.map List.length == known.map List.length then known else hiddenFields g fuel next

/-! ## Inlining -/

/-- Replaces the step at `dot` by the bodies of its rule, as long as it is an inlined one. -/
def inlineAt (g : Grammar.Syntax) (fuel : Nat) (steps : Array Step) (dot : Nat) :
    List (Array Step) :=
  match fuel with
  | 0 => [steps]
  | fuel + 1 =>
    match steps[dot]? with
    | some ⟨.rule r, prec, assoc, rename, field⟩ =>
      if g.inlined.getD r false then
        (g.rules.getD r default).productions.toList.flatMap fun body =>
          let inner := body.map fun s =>
            { s with rename := rename <|> s.rename, field := field <|> s.field }
          let inner := inner.modify (inner.size - 1) fun s =>
            { s with prec := s.prec <|> prec, assoc := s.assoc <|> assoc }
          inlineAt g fuel (steps.extract 0 dot ++ inner ++ steps.extract (dot + 1)) dot
      else [steps]
    | _ => [steps]

/-! ## The table of all items -/

/-- All items of a grammar, by number. -/
structure Items where
  items : Array Item := #[]
  next : Array (Option Nat) := #[]
  /-- The item with the dot moved one step on. -/
  successor : Array Nat := #[]
  /-- The items that stand for this one where the symbol after the dot is replaced. -/
  expansion : Array (Option (List Nat)) := #[]
deriving Inhabited

/-- Items being numbered. -/
structure ItemDraft where
  items : Array Item := #[]
  known : Std.HashMap ItemKey Nat := {}

namespace ItemDraft

def intern (d : ItemDraft) (i : Item) : Nat × ItemDraft :=
  let k := i.key
  match d.known[k]? with
  | some n => (n, d)
  | none => (d.items.size, ⟨d.items.push i, d.known.insert k d.items.size⟩)

def internAll (d : ItemDraft) (is : List Item) : List Nat × ItemDraft :=
  let (ns, d) := is.foldl (fun (ns, d) i =>
    let (n, d) := d.intern i
    (if ns.contains n then ns else n :: ns, d)) (([] : List Nat), d)
  (ns.reverse, d)

end ItemDraft

/-- What the numbering of items needs to know of the grammar. -/
structure ItemContext where
  g : Grammar.Syntax
  fields : Array (List String)

def ItemContext.advance (c : ItemContext) (i : Item) (s : Step) : Item :=
  let inherits := match s.symbol with
    | .rule r =>
      !(c.g.rules.getD r default).kind.isVisible && !(c.fields.getD r []).isEmpty
    | _ => false
  { i with dot := i.dot + 1, inherits := i.inherits || inherits }

/-- The items that stand for one whose next symbol is replaced. -/
def ItemContext.expand? (c : ItemContext) (i : Item) (s : Step) : Option (List Item) :=
  match s.symbol with
  | .rule r =>
    if c.g.inlined.getD r false then
      some ((inlineAt c.g (c.g.rules.size + 1) i.steps i.dot).map fun steps => { i with steps })
    else none
  | _ => none

/-- Numbers what can be reached from the items numbered so far, starting with number `at`. -/
def numberItems (n : Numbering) (c : ItemContext) (fuel : Nat) (d : ItemDraft) (out : Items) :
    Items :=
  match fuel with
  | 0 => { out with items := d.items }
  | fuel + 1 =>
    match d.items[out.next.size]? with
    | none => { out with items := d.items }
    | some i =>
      match i.next? with
      | none =>
        numberItems n c fuel d
          { out with
            next := out.next.push none
            successor := out.successor.push 0
            expansion := out.expansion.push none }
      | some s =>
        let (succ, d) := d.intern (c.advance i s)
        let (expansion, d) := match c.expand? i s with
          | some is =>
            let (ns, d) := d.internAll is
            (some ns, d)
          | none => (none, d)
        numberItems n c fuel d
          { out with
            next := out.next.push (some (n.ofSymbol s.symbol))
            successor := out.successor.push succ
            expansion := out.expansion.push expansion }

end Table

end Lumen
