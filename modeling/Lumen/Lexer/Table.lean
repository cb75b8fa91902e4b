import Lumen.Lexer.Conflict

/-!
# Lexing tables

For a set of tokens, `Table.add` works out a deterministic automaton that finds the preferred one
of them at a place of a text. Sets of nodes of the token automaton are its states; where a token is
complete, a state goes on only by the moves that are preferred to that token.

The end of the input is a token too. It is found after any number of separators, so a state knows
whether the end may come in it.
-/

namespace Lumen

namespace Lexer

/-- What a lexing state does on a character. -/
inductive Way where
  | stop
  | read (state : Nat)
  /-- Read a character that belongs to the gap before the token. -/
  | skip (state : Nat)
deriving Inhabited

/-- A lexing state: the token that is complete in it, whether the end of the input may come, and
what to do on each character class. -/
structure LexState where
  accept : Option Nat
  atEnd : Bool
  ways : Array Way
deriving Inhabited

/-- A lexing table under construction: the sets of nodes that its states stand for, of which those
before `states.size` are finished. -/
structure Table where
  keys : Array (List Nat × Bool) := #[]
  known : Std.HashMap (List Nat × Bool) Nat := {}
  states : Array LexState := #[]
deriving Inhabited

namespace Table

def intern (t : Table) (key : List Nat × Bool) : Nat × Table :=
  match t with
  | ⟨keys, known, states⟩ =>
    match known[key]? with
    | some n => (n, ⟨keys, known, states⟩)
    | none => (keys.size, ⟨keys.push key, known.insert key keys.size, states⟩)

/-- Sets the way on of some classes. -/
def setWays (classes : Nat) (w : Way) (ways : Array Way) : Array Way :=
  Nat.fold ways.size (fun i _ ws => if classes.testBit i then ws.setIfInBounds i w else ws) ways

/-- The classes of a move as it is made: a move on nearly every character, up to the last code
point, is not made on a null character. -/
def classesRead (a : Alphabet) (classes : Nat) : Nat :=
  let null := a.classOf 0
  if classes.testBit (a.classOf Charset.lastCodePoint) && classes.testBit null then
    classes ^^^ (1 <<< null)
  else classes

def step (a : Automaton) (t : Table) (key : List Nat × Bool) : Table :=
  let ready := a.readyFrom key.1
  let done := a.best? (a.completions ready)
  let inSeparator := a.readsSeparator ready
  let moves := (a.moves ready).filter fun m =>
    match done with
    | some d => a.prefersMove m d inSeparator
    | none => true
  let (ways, t) := moves.foldl (fun (ways, t) m =>
    let (n, t) := t.intern (m.targets, key.2 && m.separator)
    (setWays (classesRead a.alphabet m.classes) (if m.separator then .skip n else .read n) ways, t))
    (Array.replicate a.alphabet.size Way.stop, t)
  match t with
  | ⟨keys, known, states⟩ => ⟨keys, known, states.push ⟨done.map Prod.fst, key.2, ways⟩⟩

/-- Finishes states until none is left, at most `fuel` of them. -/
def run (a : Automaton) (fuel : Nat) (t : Table) : Table :=
  match fuel with
  | 0 => t
  | fuel + 1 =>
    match t.keys[t.states.size]? with
    | none => t
    | some key => run a fuel (t.step a key)

/-- Adds the states that find the given tokens; the state in which to begin is returned. -/
def add (a : Automaton) (t : Table) (tokens : List Nat) (withEnd : Bool) : Nat × Table :=
  let starts := tokens.map fun k => a.starts.getD k 0
  t.intern (starts.foldl (fun acc s => Automaton.insertSorted s acc) [], withEnd)

end Table

/-! ## Sets of tokens that can be looked for together -/

/-- For each token, the tokens beside which looking for it as well could change what is found. -/
def disturbances (c : Conflicts) (beside : Nat → Nat → Bool) : Array Nat :=
  (Array.range c.count).map fun i =>
    (List.range c.count).foldl (fun s j =>
      if c.conflict i j || c.shorter i j ||
          (!beside i j && (c.overlap j i || c.overlap i j)) then s ||| (1 <<< j) else s) 0

/-- A set of tokens with the tokens that would disturb it. -/
structure Pool where
  tokens : Nat
  barred : Nat
deriving Inhabited

def Pool.ofTokens (disturb : Array Nat) (tokens : Nat) : Pool :=
  ⟨tokens, Nat.fold disturb.size (fun i _ s =>
    if (disturb.getD i 0) &&& tokens ≠ 0 then s ||| (1 <<< i) else s) 0⟩

/-- Two pools as one, if they do not disturb each other. -/
def Pool.join? (p q : Pool) : Option Pool :=
  let differ := p.tokens ^^^ q.tokens
  if differ &&& p.tokens &&& q.barred = 0 && differ &&& q.tokens &&& p.barred = 0 then
    some ⟨p.tokens ||| q.tokens, p.barred ||| q.barred⟩
  else none

def Pool.place (q : Pool) : List Pool → Nat → Nat × List Pool
  | [], i => (i, [q])
  | p :: ps, i =>
    match p.join? q with
    | some j => (i, j :: ps)
    | none =>
      let (k, ps) := q.place ps (i + 1)
      (k, p :: ps)

end Lexer

end Lumen
