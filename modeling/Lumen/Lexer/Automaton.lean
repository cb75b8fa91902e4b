import Lumen.Grammar.Lexicon
import Lumen.Regex.Parser
import Lumen.Lexer.Alphabet

/-!
# The token automaton

One nondeterministic automaton recognises all tokens of a grammar. Each node belongs to one token;
a token that is not immediate may be preceded by separators, and the transitions that read these
are marked. Transitions and accepting nodes carry the precedence that the grammar gives them.

`Automaton.moves` lists what a set of nodes can do next: sets of character classes with the nodes
they lead to, no two of which share a class.
-/

namespace Lumen

namespace Lexer

open Grammar

/-- A node whose transitions are labelled with sets of type `α`. -/
inductive Node (α : Type) where
  | advance (set : α) (next : Nat) (prec : Int) (separator : Bool)
  | split (first second : Nat)
  | accept (prec : Int)
deriving Inhabited

structure Draft where
  nodes : Array (Node Charset) := #[]
  owner : Array Nat := #[]

namespace Draft

/-- Adds a node that belongs to a token. -/
def push (d : Draft) (token : Nat) (n : Node Charset) : Nat × Draft :=
  (d.nodes.size, ⟨d.nodes.push n, d.owner.push token⟩)

/-- What the nodes being added have in common. -/
structure Setting where
  token : Nat
  prec : Int := 0
  separator : Bool := false

mutual

/-- Adds nodes that read what the expression matches and go on at `next`; the first of them is
returned. -/
def addRegex (d : Draft) (s : Setting) (next : Nat) : Regex → Nat × Draft
  | .empty => (next, d)
  | .anchor _ => (next, d)
  | .chars set => d.push s.token (.advance set next s.prec s.separator)
  | .seq a b =>
    let (next, d) := addRegex d s next b
    addRegex d s next a
  | .alt a b =>
    let (second, d) := addRegex d s next b
    let (first, d) := addRegex d s next a
    d.push s.token (.split first second)
  | .rep r least most =>
    let (next, d) := match most with
      | none => addStar d s next r
      | some m => addTimes d s next r true (m - least)
    addTimes d s next r false least

/-- Adds nodes that read the expression any number of times. -/
def addStar (d : Draft) (s : Setting) (next : Nat) (r : Regex) : Nat × Draft :=
  let (loop, d) := d.push s.token (.split next next)
  let (body, d) := addRegex d s loop r
  (loop, { d with nodes := d.nodes.setIfInBounds loop (.split body next) })

/-- Adds nodes that read the expression `n` times, or up to `n` times if it is optional. -/
def addTimes (d : Draft) (s : Setting) (next : Nat) (r : Regex) (optional : Bool) :
    Nat → Nat × Draft
  | 0 => (next, d)
  | n + 1 =>
    let (rest, d) := addTimes d s next r optional n
    let (first, d) := addRegex d s rest r
    if optional then d.push s.token (.split first next) else (first, d)

end

/-- Adds nodes that read what a token's rule matches and go on at `next`. -/
def addRule (d : Draft) (s : Setting) (next : Nat) : Rule Symbol → Nat × Draft
  | .blank => (next, d)
  | .sym _ => (next, d)
  | .text t => d.addRegex s next (.literal t)
  | .pattern p =>
    match Regex.parse? { asciiClasses := true } p with
    | some r => d.addRegex s next r
    | none => (next, d)
  | .seq a b =>
    let (next, d) := d.addRule s next b
    d.addRule s next a
  | .alt a b =>
    let (second, d) := d.addRule s next b
    let (first, d) := d.addRule s next a
    d.push s.token (.split first second)
  | .rep r =>
    let (loop, d) := d.push s.token (.split next next)
    let (body, d) := d.addRule s loop r
    (body, { d with nodes := d.nodes.setIfInBounds loop (.split body next) })
  | .note n r => d.addRule { s with prec := n.prec.getD s.prec } next r

end Draft

/-- How strongly a token is preferred by its form alone: a text over a pattern, an immediate token
over one that may follow a gap. -/
def formStrength {σ : Type} : Rule σ → Nat
  | .text _ => 2
  | .note n r => formStrength r + (if n.immediate then 1 else 0)
  | _ => 0

def completionPrec {σ : Type} : Rule σ → Int
  | .note n _ => n.prec.getD 0
  | _ => 0

def isImmediate {σ : Type} : Rule σ → Bool
  | .note n _ => n.immediate
  | _ => false

/-- The automaton of all tokens of a grammar. -/
structure Automaton where
  alphabet : Alphabet
  nodes : Array (Node Nat)
  owner : Array Nat
  starts : Array Nat
  /-- The nodes that read or accept and can be reached from each node without reading, in order. -/
  ready : Array (List Nat)
  strength : Array Nat
deriving Inhabited

namespace Automaton

def insertSorted (x : Nat) : List Nat → List Nat
  | [] => [x]
  | y :: ys => if x < y then x :: y :: ys else if x = y then y :: ys else y :: insertSorted x ys

def mergeSorted : List Nat → List Nat → List Nat
  | [], ys => ys
  | xs, [] => xs
  | x :: xs, y :: ys =>
    if x < y then x :: mergeSorted xs (y :: ys)
    else if x = y then x :: mergeSorted xs ys
    else y :: mergeSorted (x :: xs) ys
termination_by xs ys => xs.length + ys.length

/-- Follows the splits from the nodes still to be visited. -/
def follow (nodes : Array (Node Nat)) (fuel : Nat) (todo seen found : List Nat) : List Nat :=
  match fuel, todo with
  | 0, _ => found
  | _, [] => found
  | fuel + 1, n :: todo =>
    if seen.contains n then follow nodes fuel todo seen found
    else
      match nodes.getD n (.accept 0) with
      | .split a b => follow nodes fuel (a :: b :: todo) (n :: seen) found
      | _ => follow nodes fuel todo (n :: seen) (insertSorted n found)

def relabel (a : Alphabet) : Node Charset → Node Nat
  | .advance s next p sep => .advance (a.encode s) next p sep
  | .split x y => .split x y
  | .accept p => .accept p

def label? : Node Charset → Option Charset
  | .advance s _ _ _ => some s
  | _ => none

def ofLexicon (l : Lexicon) : Automaton :=
  let separator : Rule Symbol := .rep (l.separators.foldr .alt .blank)
  let (starts, d) := l.tokens.zipIdx.foldl (fun (starts, d) (t, i) =>
    let (stop, d) := d.push i (.accept (completionPrec t.body))
    let (first, d) := d.addRule { token := i } stop t.body
    if isImmediate t.body || l.separators.isEmpty then (starts.push first, d)
    else
      let (first, d) := d.addRule { token := i, separator := true } first separator
      (starts.push first, d)) ((#[] : Array Nat), ({} : Draft))
  let alphabet := Alphabet.ofSets ((d.nodes.filterMap label?).push (.single '\x00'))
  let nodes := d.nodes.map (relabel alphabet)
  { alphabet
    nodes
    owner := d.owner
    starts
    ready := (Array.range nodes.size).map fun n => follow nodes (4 * nodes.size + 4) [n] [] []
    strength := l.tokens.map fun t => formStrength t.body }

/-- The nodes that read or accept and can be reached from some of the given nodes. -/
def readyFrom (a : Automaton) (ns : List Nat) : List Nat :=
  ns.foldl (fun acc n => mergeSorted acc (a.ready.getD n [])) []

/-- The tokens to which nodes belong, in order; the nodes are in order too. -/
def owners (a : Automaton) (ns : List Nat) : List Nat :=
  (ns.foldl (fun acc n =>
    let t := a.owner.getD n 0
    match acc with
    | u :: _ => if t = u then acc else t :: acc
    | [] => [t]) []).reverse

/-- What a set of nodes does on a set of character classes. -/
structure Move where
  classes : Nat
  targets : List Nat
  separator : Bool
  prec : Int
deriving Inhabited

/-- Adds one transition to moves that share no class; `classes` are those of its classes that no
earlier move has met. -/
def addMove (target : Nat) (separator : Bool) (prec : Int) (classes : Nat) :
    List Move → List Move
  | [] => if classes = 0 then [] else [⟨classes, [target], separator, prec⟩]
  | m :: ms =>
    let both := m.classes &&& classes
    if both = 0 then m :: addMove target separator prec classes ms
    else
      let joint : Move :=
        ⟨both, insertSorted target m.targets, m.separator && separator, max m.prec prec⟩
      let rest := addMove target separator prec (classes ^^^ both) ms
      if m.classes = both then joint :: rest
      else joint :: { m with classes := m.classes ^^^ both } :: rest

/-- Joins moves that lead to the same nodes in the same way. -/
def joinMoves (ms : List Move) : List Move :=
  (ms.foldl (fun acc m =>
    let isLike (k : Move) :=
      k.targets == m.targets && k.separator == m.separator && k.prec == m.prec
    if acc.any isLike then
      acc.map fun k =>
        if k.targets == m.targets && k.separator == m.separator && k.prec == m.prec then
          { k with classes := k.classes ||| m.classes }
        else k
    else m :: acc) []).reverse

/-- What a set of nodes that read or accept can do next. -/
def moves (a : Automaton) (ready : List Nat) : List Move :=
  joinMoves (ready.foldl (fun ms n =>
    match a.nodes.getD n (.accept 0) with
    | .advance set next prec separator => addMove next separator prec set ms
    | _ => ms) [])

def completions (a : Automaton) (ready : List Nat) : List (Nat × Int) :=
  ready.filterMap fun n =>
    match a.nodes.getD n (.split 0 0) with
    | .accept p => some (a.owner.getD n 0, p)
    | _ => none

def readsSeparator (a : Automaton) (ready : List Nat) : Bool :=
  ready.any fun n =>
    match a.nodes.getD n (.accept 0) with
    | .advance _ _ _ separator => separator
    | _ => false

/-- Whether the first of two complete tokens is preferred: the higher precedence, then the stronger
form, then the earlier token. -/
def prefersToken (a : Automaton) (x y : Nat × Int) : Bool :=
  if x.2 ≠ y.2 then y.2 < x.2
  else
    let s := a.strength.getD x.1 0
    let t := a.strength.getD y.1 0
    if s ≠ t then t < s else x.1 < y.1

/-- Whether going on is preferred to a token that is complete. -/
def prefersMove (a : Automaton) (m : Move) (complete : Nat × Int) (inSeparator : Bool) : Bool :=
  if m.prec < complete.2 then false
  else if m.prec = complete.2 then
    !(m.separator || (inSeparator && !(a.owners m.targets).contains complete.1))
  else true

/-- The preferred token of those that are complete. -/
def best? (a : Automaton) (cs : List (Nat × Int)) : Option (Nat × Int) :=
  cs.foldl (fun best c =>
    match best with
    | some b => if a.prefersToken b c then some b else some c
    | none => some c) none

end Automaton

end Lexer

end Lumen
