import Lumen.Language.Basic

/-!
# Where nodes are built

To know which patterns can match at all, one has to know which children a node can have. `Anatomy`
reads this off the parse states. The states through which a parse goes while it reads the children
of a symbol make up the `Frame` of the symbol: the states in which it can begin, and stages, each of
which is a state together with the number of children read so far.
-/

namespace Lumen

open Table

/-- A stage in the building of a node: the shape that the node will have, and whether all its
children are there. -/
structure Stage where
  shape : Nat
  done : Bool
deriving BEq, Inhabited

/-- How the nodes of a symbol are built. -/
structure Frame where
  starts : Array Nat := #[]
  /-- The stages, by state and number of children. -/
  stages : Std.HashMap (Nat × Nat) (List Stage) := {}
deriving Inhabited

/-- A state in which a symbol is complete, with the number of its children. -/
structure Ending where
  state : Nat
  count : Nat
  shape : Nat
deriving Inhabited

/-- What can follow in a state: a symbol, the state after it, and whether it counts as a child. -/
structure Move where
  symbol : Nat
  target : Nat
  counts : Bool
deriving Inhabited

/-- How the nodes of a language are built. -/
structure Anatomy where
  language : Language
  before : Array (Array Nat)
  /-- Where each symbol is complete, and where it can begin. -/
  endings : Std.HashMap Nat (Array Ending)
  starts : Std.HashMap Nat (Array Nat)
  moves : Array (Array Move)
  /-- The frames of the hidden symbols. -/
  hidden : List (Nat × Frame)
deriving Inhabited

namespace Anatomy

def maxBefore : Nat := 256

def addBefore (before : Array (Array Nat)) (target source : Nat) : Array (Array Nat) :=
  before.modify target fun ss =>
    if ss.isEmpty || (ss.size < maxBefore && ss.back? != some source) then ss.push source else ss

def movesOf (l : Language) (index : Nat) (s : State) : Array Move :=
  let tokens := (Array.range (l.numbering.eof + 1)).filterMap fun token =>
    match (s.actionsOn token).getLast? with
    | some (.shift t _) => some (⟨token, t, true⟩ : Move)
    | some .shiftExtra => some ⟨token, index, false⟩
    | _ => none
  let rules := s.gotos.toArray.map fun (r, g) =>
    let symbol := l.numbering.ofRule r
    match g with
    | .state t => (⟨symbol, t, t ≠ index⟩ : Move)
    | .extra => ⟨symbol, index, false⟩
  tokens ++ rules

/-- Notes where a state completes symbols. Of several endings of a symbol the first counts. -/
def addEndings (l : Language) (endings : Std.HashMap Nat (Array Ending)) (index : Nat)
    (s : State) : Std.HashMap Nat (Array Ending) :=
  s.actions.foldl (fun endings as => as.foldl (fun endings a =>
    match a with
    | .reduce rule count shape =>
      (l.guises.getD (l.numbering.ofRule rule) []).foldl (fun endings g =>
        let known := endings.getD g #[]
        if (known.back?.map Ending.state) == some index then endings
        else endings.insert g (known.push ⟨index, count, shape⟩)) endings
    | _ => endings) endings) endings

def addAllBefore (before : Array (Array Nat)) (index : Nat) (s : State) : Array (Array Nat) :=
  let before := s.actions.foldl (fun before as => as.foldl (fun before a =>
    match a with
    | .shift t _ => addBefore before t index
    | _ => before) before) before
  s.gotos.foldl (fun before (_, g) =>
    match g with
    | .state t => if t = index then before else addBefore before t index
    | .extra => before) before

/-- Notes which symbols can begin in a state. -/
def addStarts (l : Language) (starts : Std.HashMap Nat (Array Nat)) (index : Nat) (s : State) :
    Std.HashMap Nat (Array Nat) :=
  s.gotos.foldl (fun starts (r, _) =>
    (l.guises.getD (l.numbering.ofRule r) []).foldl (fun starts g =>
      let known := starts.getD g #[]
      if known.back? == some index then starts else starts.insert g (known.push index)) starts)
    starts

/-- Walks back from stages to those before them, at most `fuel` times. -/
def walkBack (before : Array (Array Nat)) (fuel : Nat) (f : Frame) (todo : List (Nat × Nat × Nat)) :
    Frame :=
  match fuel, todo with
  | 0, _ => f
  | _, [] => f
  | fuel + 1, (state, count, shape) :: todo =>
    if count ≤ 1 then walkBack before fuel f todo
    else
      let (stages, todo) := (before.getD state #[]).foldl (fun (stages, todo) s =>
        let key := (s, count - 1)
        let known := stages.getD key []
        if known.contains ⟨shape, false⟩ then (stages, todo)
        else (stages.insert key (⟨shape, false⟩ :: known), (s, count - 1, shape) :: todo))
        (f.stages, todo)
      walkBack before fuel ⟨f.starts, stages⟩ todo

/-- The frame of a symbol, if it is ever complete. -/
def frameOf? (before : Array (Array Nat)) (endings : Std.HashMap Nat (Array Ending))
    (starts : Std.HashMap Nat (Array Nat)) (symbol : Nat) : Option Frame :=
  let ends := endings.getD symbol #[]
  if ends.isEmpty then none
  else
    let stages := ends.foldl (fun (stages : Std.HashMap (Nat × Nat) (List Stage)) e =>
      let key := (e.state, e.count)
      stages.insert key (⟨e.shape, true⟩ :: stages.getD key [])) {}
    some (walkBack before (1 <<< 30) ⟨starts.getD symbol #[], stages⟩
      (ends.toList.map fun e => (e.state, e.count, e.shape)))

def frame? (a : Anatomy) (symbol : Nat) : Option Frame :=
  match a.hidden.lookup symbol with
  | some f => some f
  | none => frameOf? a.before a.endings a.starts symbol

def ofLanguage (l : Language) : Anatomy :=
  let indexed := l.states.toList.zipIdx.drop 1
  let before := indexed.foldl (fun b (s, i) => addAllBefore b i s)
    (Array.replicate l.states.size #[])
  let endings := indexed.foldl (fun e (s, i) => addEndings l e i s) {}
  let (starts, _) := indexed.foldl
    (fun ((starts : Std.HashMap Nat (Array Nat)), (seen : Std.HashSet Nat)) (s, i) =>
      if seen.contains s.core then (starts, seen) else (addStarts l starts i s, seen.insert s.core))
    ({}, ({} : Std.HashSet Nat).insertMany ((l.states.toList.take 1).map (·.core)))
  let hiddenRules := (List.range l.numbering.rules).map l.numbering.ofRule |>.filter fun s =>
    !(l.info s).visible
  { language := l
    before, endings, starts
    moves := l.states.mapIdx fun i s => movesOf l i s
    hidden := hiddenRules.filterMap fun s =>
      (frameOf? before endings starts s).map fun f => (s, f) }

end Anatomy

end Lumen
