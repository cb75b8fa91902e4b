import Lumen.Table.Merge
import Lumen.Lexer.Table
import Lumen.Language.Scanner

/-!
# Languages

A `Language` is what a grammar becomes before texts can be parsed: the symbols and how they show,
the parse states, and the lexing tables.

Symbols are numbered as in `Table.Numbering`, and aliases that no symbol bears follow after the
rules. Different symbols may show in the same way; `shown` gives one symbol for all of them.
-/

namespace Lumen

open Grammar Table Lexer

structure SymbolInfo where
  name : String
  visible : Bool
  named : Bool
  supertype : Bool := false
deriving BEq, Repr, Inhabited

/-- The shape of a node with symbols and fields by number. -/
structure NodeShape where
  /-- The symbol that replaces each child's own. -/
  aliases : Array (Option Nat)
  /-- Field, child, and whether the field is one of the child's own children. -/
  fields : List (Nat × Nat × Bool)
deriving Inhabited

/-- A language ready for parsing. -/
structure Language where
  name : String
  numbering : Numbering
  word : Option Nat
  keywords : Nat
  symbols : Array SymbolInfo
  /-- One symbol for all that show alike. -/
  shown : Array Nat
  /-- The symbols as which nodes of a symbol can show. -/
  guises : Array (List Nat)
  fields : Array String
  states : Array State
  shapes : Array NodeShape
  tokenSets : Array Nat
  /-- For each token, the tokens that could go on where it ends. -/
  overlaps : Array Nat
  alphabet : Alphabet
  lexer : Lexer.Table
  /-- The lexing state for each parse state; none at the end of an extra rule. -/
  modes : Array (Option Nat)
  keywordMode : Nat
  scanner : Scanner
deriving Inhabited

namespace Language

/-- The symbol of an error, beyond all others. -/
def errorSymbol : Nat := 65535

/-- The symbol of a run of skipped tokens. -/
def skippedSymbol : Nat := 65534

def errorInfo : SymbolInfo := ⟨"ERROR", true, true, false⟩

def skippedInfo : SymbolInfo := ⟨"", false, false, false⟩

def info (l : Language) (symbol : Nat) : SymbolInfo :=
  match l.symbols[symbol]? with
  | some i => i
  | none => if symbol = errorSymbol then errorInfo else skippedInfo

/-- The place of a symbol in the order of symbols: the end, the word token, the other tokens, the
external tokens, and the rest. -/
def rank (l : Language) (symbol : Nat) : Nat :=
  if symbol = l.numbering.eof then 0
  else if some symbol = l.word then 1
  else symbol + 2

/-- What to do on a token in a state. At the end of an extra rule the end of the text stands for
every token. -/
def actions (l : Language) (state symbol : Nat) : List Action :=
  match l.states[state]? with
  | some s =>
    if symbol = l.numbering.eof then
      match s.actionsOn symbol with
      | [] => s.actionsOn l.numbering.extraEnd
      | as => as
    else if symbol < l.numbering.eof then s.actionsOn symbol
    else []
  | none => []

def nextState? (l : Language) (state symbol : Nat) : Option Nat :=
  if symbol < l.numbering.tokens then
    match (l.actions state symbol).getLast? with
    | some (.shift s _) => some s
    | some .shiftExtra => some state
    | _ => none
  else
    match l.states[state]? with
    | some s =>
      match s.goto? (symbol - l.numbering.tokens) with
      | some (.state t) => some t
      | some .extra => some state
      | none => none
    | none => none

/-- The external tokens that a state looks for, as a set. -/
def externalsOf (l : Language) (state : Nat) : Nat :=
  (l.tokenSets.getD state 0 >>> l.numbering.terminals) &&& ((1 <<< l.numbering.externals) - 1)

/-- The alias of the child at a place among those that are not extras. -/
def aliasAt? (l : Language) (shape place : Nat) : Option Nat :=
  match l.shapes[shape]? with
  | some s => (s.aliases[place]?).join
  | none => none

/-- All tokens but the end, in the order of symbols. -/
def tokens (l : Language) : List Nat :=
  let all := List.range (l.numbering.terminals + l.numbering.externals)
  match l.word with
  | some w => w :: all.filter (· ≠ w)
  | none => all

/-- How many kinds of node there are, hidden kinds and aliases included. Rules that were replaced by
their bodies and the end of an extra rule have no name and are not counted. -/
def kindCount (l : Language) : Nat := (l.symbols.filter fun s => !s.name.isEmpty).size

/-! ## Symbols -/

def ruleInfo (g : Grammar.Syntax) (i : Nat) (r : SyntaxRule) : SymbolInfo :=
  match Syntax.defaultOf g.aliases (.rule i) with
  | some a => ⟨a.name, true, a.named, false⟩
  | none =>
    if g.inlined.getD i false then ⟨"", false, false, false⟩
    else ⟨r.name, r.kind.isVisible, r.kind == .named || r.kind == .hidden,
      g.lexicon.supertypes.contains i⟩

def tokenInfo (g : Grammar.Syntax) (s : Symbol) (name : String) (kind : Kind) : SymbolInfo :=
  match Syntax.defaultOf g.aliases s with
  | some a => ⟨a.name, true, a.named, false⟩
  | none => ⟨name, kind.isVisible, kind == .named || kind == .hidden, false⟩

def symbolInfos (g : Grammar.Syntax) : Array SymbolInfo :=
  (g.lexicon.tokens.mapIdx fun i t => tokenInfo g (.terminal i) t.name t.kind) ++
    (g.lexicon.externals.mapIdx fun i (name, kind) => tokenInfo g (.external i) name kind) ++
    #[⟨"end", false, true, false⟩, ⟨"", false, true, false⟩] ++
    g.rules.mapIdx (ruleInfo g)

def findAlias? (symbols : Array SymbolInfo) (a : Alias) : Option Nat :=
  symbols.findIdx? fun s => s.visible && s.name == a.name && s.named == a.named

/-- Adds the aliases of shapes that no symbol shows as. -/
def addAliases (symbols : Array SymbolInfo) (shapes : Array Shape) : Array SymbolInfo :=
  shapes.foldl (fun syms s => s.aliases.foldl (fun syms a =>
    match a with
    | some a =>
      if (findAlias? syms a).isSome then syms else syms.push ⟨a.name, true, a.named, false⟩
    | none => syms) syms) symbols

/-- One symbol for all that show alike: the first of them, and one that is not renamed before one
that is. -/
def shownSymbols (n : Numbering) (aliases : List (Symbol × Alias)) (symbols : Array SymbolInfo) :
    Array Nat :=
  let renamed := aliases.map fun (s, _) => n.ofSymbol s
  symbols.mapIdx fun i s =>
    if !s.visible then i
    else
      let alike := (List.range symbols.size).filter fun j =>
        let t := symbols.getD j default
        t.visible && t.name == s.name && t.named == s.named
      match alike.filter fun j => !renamed.contains j with
      | j :: _ => j
      | [] => alike.headD i

/-- The symbols as which each symbol can show: the one for all that show alike, and for a rule those
of the aliases under which it occurs. -/
def guisesOf (n : Numbering) (rules : Array SyntaxRule) (symbols : Array SymbolInfo)
    (shown : Array Nat) : Array (List Nat) :=
  rules.foldl (fun acc r => r.productions.foldl (fun acc p => p.foldl (fun acc step =>
    match step.symbol, step.rename.bind (findAlias? symbols) with
    | .rule i, some a =>
      let a := shown.getD a a
      acc.modify (n.ofRule i) fun gs => if gs.contains a then gs else gs ++ [a]
    | _, _ => acc) acc) acc) (shown.map fun s => [s])

/-! ## Construction -/

/-- Shapes with numbers for aliases and fields. -/
def numberShapes (symbols : Array SymbolInfo) (fields : Array String) (shapes : Array Shape) :
    Array NodeShape :=
  shapes.map fun s =>
    { aliases := s.aliases.map fun a => a.bind (findAlias? symbols)
      fields := s.fields.flatMap fun (name, places) =>
        let f := (fields.findIdx? (· == name)).getD 0
        places.map fun (child, inherited) => (f, child, inherited) }

/-- The token sets that the states look for, as pools, and the pool of each state. -/
def poolStates (n : Numbering) (word : Option Nat) (keywords : Nat) (disturb : Array Nat)
    (sets : Array Nat) : Array (List Nat × Bool) × Array Nat :=
  let terminals := (1 <<< n.terminals) - 1
  let (pools, ends, places) := sets.foldl (fun (pools, ends, places) set =>
    let mine := set &&& terminals
    let words := mine &&& keywords
    let tokens := match word with
      | some w => if words = 0 then mine else (mine ^^^ words) ||| (1 <<< w)
      | none => mine
    let (k, pools) := (Pool.ofTokens disturb tokens).place pools 0
    let ends := if ends.size ≤ k then ends.push false else ends
    let ends := if set.testBit n.eof then ends.setIfInBounds k true else ends
    (pools, ends, places.push k)) (([] : List Pool), (#[] : Array Bool), (#[] : Array Nat))
  let pools := pools.toArray.mapIdx fun i p =>
    (Alphabet.bitsBelow n.terminals p.tokens, ends.getD i false)
  (pools, places)

def ofGrammar (g : Grammar) (scanner : Scanner) : Language :=
  let lexicon := Lexicon.ofGrammar g
  let stx := Syntax.ofLexicon lexicon
  let items := ItemTable.ofSyntax stx
  let n := items.numbering
  let word := lexicon.word
  let built := States.ofItems items
  let automaton := Automaton.ofLexicon lexicon
  let conflicts := Conflicts.ofAutomaton automaton (followingTokens items)
  let beside := Beside.ofStates n word built.states
  let words := Table.keywords n word automaton conflicts beside
  let recovery := recoveryTokens n word words conflicts beside
  let guard := Merge.Guard.ofConflicts n word words conflicts
  -- States are joined before single wrappers are skipped, and numbered anew when both are done.
  let states := Merge.compact (Merge.skipUnits stx
    (Merge.merge guard (addRecovery n recovery built.states)))
  let sets := states.map State.tokenSet
  let disturb := disturbances conflicts beside.contains
  let (pools, places) := poolStates n word words disturb sets
  -- Keywords have a lexing state of their own, which is tried once a word has been read.
  let (keywordMode, lexer) := Lexer.Table.add automaton {} (Alphabet.bitsBelow n.terminals words)
    false
  let (starts, lexer) := pools.foldl (fun (starts, lexer) (tokens, withEnd) =>
    let (s, lexer) := lexer.add automaton tokens withEnd
    (starts.push s, lexer)) ((#[] : Array Nat), lexer)
  let symbols := addAliases (symbolInfos stx) built.shapes
  let shown := shownSymbols n stx.aliases symbols
  let fields := (built.shapes.toList.flatMap fun s => s.fields.map Prod.fst).eraseDups.mergeSort
    fun a b => a ≤ b
  { name := g.name
    numbering := n
    word
    keywords := words
    symbols
    shown
    guises := guisesOf n stx.rules symbols shown
    fields := fields.toArray
    states
    shapes := numberShapes symbols fields.toArray built.shapes
    tokenSets := sets
    overlaps := (Array.range n.terminals).map fun i =>
      (List.range n.terminals).foldl
        (fun s j => if conflicts.overlap j i then s ||| (1 <<< j) else s) 0
    alphabet := automaton.alphabet
    lexer := lexer.run automaton (1 <<< 16)
    modes := states.mapIdx fun i s =>
      if (s.actionsOn n.extraEnd).isEmpty then some (starts.getD (places.getD i 0) 0) else none
    keywordMode
    scanner }

end Language

end Lumen
