import Lumen.Table.State
import Lumen.Lexer.Conflict

/-!
# Tokens side by side

What the states of a grammar and the texts of its tokens say together: which tokens occur beside
which in some state (`Beside`), which tokens may follow which (`followingTokens`), which tokens are
keywords, and which tokens a parse accepts while it recovers from an error (`recoveryTokens`).

A keyword is a token that is recognised as the word token first and told from it afterwards. It
must be made of letters, be a special case of the word token, not be shadowed by another such
token, and conflict with the remaining tokens no more than the word token itself does.
-/

namespace Lumen

namespace Table

open Grammar Lexer

/-- The tokens that may come next after each token of the lexicon. -/
def followingTokens (t : ItemTable) : Array Nat :=
  let n := t.numbering
  let terminals := (1 <<< n.terminals) - 1
  let inProductions := t.table.items.foldl (fun out i =>
    match i.last?, i.next? with
    | some a, some b =>
      let next := t.first.getD (n.ofSymbol b.symbol) 0
      foldBits n.terminals (t.last.getD (n.ofSymbol a.symbol) 0) (fun out k =>
        out.modify k (· ||| (next &&& terminals))) out
    | _, _ => out) (Array.replicate n.terminals 0)
  let extras := t.g.lexicon.extras.filterMap Grammar.Lexicon.terminalIndex?
  let extraSet := extras.foldl (fun s k => s ||| (1 <<< k)) 0
  extras.foldl (fun out k => out.setIfInBounds k terminals) (inProductions.map (· ||| extraSet))

/-- For each token of the lexicon, the tokens beside it in some state, and those beside it in some
state without the word token. -/
structure Beside where
  any : Array Nat
  wordless : Array Nat
deriving Inhabited

namespace Beside

def ofStates (n : Numbering) (word : Option Nat) (states : Array State) : Beside :=
  let terminals := (1 <<< n.terminals) - 1
  let none := Array.replicate n.terminals 0
  let (any, wordless) := states.foldl (fun (any, wordless) s =>
    let set := s.tokenSet &&& terminals
    let hasWord := match word with
      | some w => set.testBit w
      | _ => true
    let any := foldBits n.terminals set (fun out k => out.modify k (· ||| set)) any
    if hasWord then (any, wordless)
    else (any, foldBits n.terminals set (fun out k => out.modify k (· ||| set)) wordless))
    (none, none)
  ⟨any, wordless⟩

def contains (b : Beside) (i j : Nat) : Bool := (b.any.getD i 0).testBit j

end Beside

/-- Whether a token begins with letters or underscores only, separators aside. -/
def isWordlike (a : Automaton) (letters : Nat) (token : Nat) : Bool :=
  (a.readyFrom [a.starts.getD token 0]).all fun n =>
    match a.nodes.getD n (.accept 0) with
    | .advance set _ _ separator => separator || set &&& letters = set
    | _ => true

/-- The character classes that hold nothing but ASCII letters and underscores. -/
def letterClasses (a : Alphabet) : Nat :=
  let letters : Charset := ⟨[(0x41, 0x5A), (0x5F, 0x5F), (0x61, 0x7A)]⟩
  let others := a.encode letters.complement
  a.encode letters &&& ((1 <<< a.size) - 1 ^^^ others)

/-- The keywords, as a set of tokens. -/
def keywords (n : Numbering) (word : Option Nat) (a : Automaton) (c : Conflicts) (b : Beside) :
    Nat :=
  match word with
  | none => 0
  | some w =>
    let letters := letterClasses a.alphabet
    let candidates := (List.range n.terminals).filter fun i =>
      i ≠ w && isWordlike a letters i && c.sameText i w && !c.otherText i w
    let unshadowed := candidates.filter fun i =>
      candidates.all fun j => j = i || !c.sameText j i
    let kept := unshadowed.filter fun i =>
      (List.range n.terminals).all fun j =>
        candidates.contains j || !(b.wordless.getD i 0).testBit j ||
          c.relation i j == c.relation w j
    kept.foldl (fun s i => s ||| (1 <<< i)) 0

/-- The tokens that a parse accepts while it recovers from an error: all external tokens, the end,
and those tokens that are not confused with one that stands for itself alone. -/
def recoveryTokens (n : Numbering) (word : Option Nat) (keywords : Nat) (c : Conflicts)
    (b : Beside) : Nat :=
  let all := List.range n.terminals
  let distinct := all.filter fun i =>
    all.all fun j => j = i || b.contains i j || !c.unequalText i j
  let kept := all.filter fun i =>
    distinct.contains i || keywords.testBit i || word = some i ||
      distinct.all fun j => b.contains i j || !c.conflict i j
  let externals := (List.range n.externals).map (n.terminals + ·)
  (n.eof :: externals ++ kept).foldl (fun s i => s ||| (1 <<< i)) 0

/-- Adds recovery to the state that is kept for it, on the tokens where it has no action. -/
def addRecovery (n : Numbering) (tokens : Nat) (states : Array State) : Array State :=
  states.modify 0 fun s =>
    { s with
      actions := s.actions.mapIdx fun i as =>
        if i = n.eof then [.recover]
        else if tokens.testBit i && as.isEmpty then [.recover] else as }

end Table

end Lumen
