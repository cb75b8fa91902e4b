import Lumen.Lexer.Automaton

/-!
# Conflicts between tokens

Two tokens may match the same text, or one may match the beginning of a text that the other
matches. `Conflicts.ofAutomaton` compares every two tokens by walking through the sets of nodes
that both can reach, and records for each ordered pair what the first does to the second.

The questions that the construction of parse states asks are `conflict`, `sameText`, `overlap` and
their relatives below.
-/

namespace Lumen

namespace Lexer

/-- What a token does to another one. -/
structure Relation where
  /-- It is preferred where the other could go on. -/
  cutsShort : Bool := false
  goesOn : Bool := false
  /-- It can do so with a character that may follow the other. -/
  goesOnValidly : Bool := false
  /-- It is complete where separators may follow inside it. -/
  endsInSeparator : Bool := false
  /-- It is preferred on a text that both match. -/
  winsSameText : Bool := false
  matchesOther : Bool := false
deriving BEq, Inhabited

/-- What each token does to each other one, in rows of `count`. -/
structure Conflicts where
  count : Nat
  relations : Array Relation
deriving Inhabited

namespace Conflicts

/-- A comparison of two tokens under way: what the first does to the second, and the other way
round. -/
structure Pair where
  first : Relation := {}
  second : Relation := {}

/-- Records something about the first or about the second token. -/
def Pair.record (p : Pair) (onFirst : Bool) (f : Relation → Relation) : Pair :=
  if onFirst then { p with first := f p.first } else { p with second := f p.second }

/-- Looks at the complete tokens of a set of nodes; returns the preferred one. -/
def complete (a : Automaton) (i : Nat) (inSeparator : Bool) :
    List (Nat × Int) → Option (Nat × Int) → Pair → Option (Nat × Int) × Pair
  | [], best, p => (best, p)
  | c :: cs, best, p =>
    let p :=
      if inSeparator then p.record (c.1 = i) fun r => { r with endsInSeparator := true } else p
    match best with
    | none => complete a i inSeparator cs (some c) p
    | some b =>
      if b.1 = c.1 then complete a i inSeparator cs best p
      else
        let win := if a.prefersToken b c then b else c
        let p := p.record (win.1 = i) fun r => { r with winsSameText := true }
        complete a i inSeparator cs (some win) p

/-- Looks at one move of a set of nodes in which a token is complete. -/
def advance (a : Automaton) (following : Array Nat) (i j : Nat) (inSeparator : Bool)
    (done : Nat × Int) (m : Automaton.Move) (p : Pair) : Pair :=
  let live := a.owners m.targets
  match live.filter (· ≠ done.1) with
  | [] => p
  | other :: _ =>
    if live.contains done.1 then p
    else if a.prefersMove m done inSeparator then
      let stopped := if other = i then j else i
      let valid := m.classes &&& following.getD stopped 0 ≠ 0
      p.record (other = i) fun r =>
        { r with goesOn := true, goesOnValidly := r.goesOnValidly || valid }
    else p.record (done.1 = i) fun r => { r with cutsShort := true }

/-- Walks through the sets of nodes still to be visited. -/
def walk (a : Automaton) (following : Array Nat) (i j fuel : Nat)
    (todo : List (List Nat)) (seen : List (List Nat)) (p : Pair) : Pair :=
  match fuel, todo with
  | 0, _ => p
  | _, [] => p
  | fuel + 1, set :: todo =>
    match a.owners set with
    | [] => walk a following i j fuel todo seen p
    | [t] =>
      walk a following i j fuel todo seen
        (p.record (t = i) fun r => { r with matchesOther := true })
    | _ =>
      let ready := a.readyFrom set
      let inSeparator := a.readsSeparator ready
      let (done, p) := complete a i inSeparator (a.completions ready) none p
      let moves := a.moves ready
      let p := match done with
        | some d => moves.foldl (fun p m => advance a following i j inSeparator d m p) p
        | none => p
      let fresh := moves.foldl (fun acc m =>
        if seen.contains m.targets || acc.contains m.targets then acc else m.targets :: acc) []
      walk a following i j fuel (fresh ++ todo) (fresh ++ seen) p

/-- The character classes with which a token or the gap before it may begin. -/
def startClasses (a : Automaton) (t : Nat) : Nat :=
  (a.readyFrom [a.starts.getD t 0]).foldl (fun acc n =>
    match a.nodes.getD n (.accept 0) with
    | .advance set _ _ _ => acc ||| set
    | _ => acc) 0

/-- Compares every two tokens; `following` gives for each token the set of those that may come
next. -/
def ofAutomaton (a : Automaton) (following : Array Nat) : Conflicts :=
  let n := a.starts.size
  let starting := (Array.range n).map (startClasses a)
  let chars := following.map fun ts =>
    (List.range n).foldl (fun acc t => if ts.testBit t then acc ||| starting.getD t 0 else acc) 0
  let fuel := 4 * a.nodes.size * a.nodes.size + 4
  let rows := (Array.range n).map fun i => (Array.range i).map fun j =>
    walk a chars i j fuel [[a.starts.getD j 0, a.starts.getD i 0]] [] {}
  { count := n
    relations := (Array.range n).flatMap fun i => (Array.range n).map fun j =>
      if j < i then ((rows.getD i #[]).getD j {}).first
      else if i < j then ((rows.getD j #[]).getD i {}).second
      else {} }

def relation (c : Conflicts) (i j : Nat) : Relation := c.relations.getD (i * c.count + j) {}

/-- Token `i` would be taken where `j` should be, or could swallow what follows it. -/
def conflict (c : Conflicts) (i j : Nat) : Bool :=
  let r := c.relation i j
  r.goesOnValidly || r.endsInSeparator || r.winsSameText

def sameText (c : Conflicts) (i j : Nat) : Bool := (c.relation i j).winsSameText

def otherText (c : Conflicts) (i j : Nat) : Bool := (c.relation i j).matchesOther

def shorter (c : Conflicts) (i j : Nat) : Bool := (c.relation i j).cutsShort

def overlap (c : Conflicts) (i j : Nat) : Bool := (c.relation i j).goesOn

/-- Token `i` matches a text that begins or continues one of `j`, separators aside. -/
def unequalText (c : Conflicts) (i j : Nat) : Bool :=
  let r := c.relation i j
  (r.goesOnValidly || r.endsInSeparator) && !(c.relation j i).endsInSeparator

end Conflicts

end Lexer

end Lumen
