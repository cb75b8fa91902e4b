import Lumen.Parse.Recovery

/-!
# Parsing

`Language.parse?` builds the tree of a text. All readings advance in turns, each until it has taken
in some text. After each turn readings that are worse by far are dropped, and if none is left that
can go on, the best of those that wait enters an error. The parse ends when no reading is left, or
when a finished tree costs less than what is still under way.
-/

namespace Lumen

namespace Readings

open Table

/-- What came of the actions on a token. -/
inductive Outcome where
  | done (r : Readings)
  /-- There were reductions at most; the first reading that the last of them made. -/
  | reduced (r : Readings) (any : Bool) (last : Option Nat)

/-- Does the actions on a token one after the other; a reduction leaves the reading in place. -/
def act (l : Language) (v state : Nat) (token : Option Subtree) (r : Readings) (any : Bool)
    (last : Option Nat) : List Action → Outcome
  | [] => .reduced r any last
  | .shift _ true :: rest => act l v state token r any last rest
  | .shift next false :: rest =>
    match token with
    | some t => .done (r.shift v next t false)
    | none => act l v state token r any last rest
  | .shiftExtra :: rest =>
    match token with
    | some t => .done (r.shift v state t true)
    | none => act l v state token r any last rest
  | .reduce rule count shape :: rest =>
    let (new, r) := reduce l r v rule count shape token.isNone
    act l v state token r true (new <|> last) rest
  | .accept :: rest =>
    match token with
    | some t => .done (accept l r v t)
    | none => act l v state token r any last rest
  | .recover :: rest =>
    match token with
    | some t => .done (recover l r v t)
    | none => act l v state token r any last rest

def actionsFor (l : Language) (state : Nat) (token : Option Subtree) : List Action :=
  l.actions state ((token.map Subtree.symbol).getD l.numbering.eof)

/-- Goes on with a token until it has been taken in, or the reading cannot go on. -/
def advanceOn (l : Language) (text : String) (v fuel state : Nat) (token : Option Subtree)
    (actions : List Action) (r : Readings) : Readings :=
  match fuel with
  | 0 => r
  | fuel + 1 =>
    match act l v state token r false none actions with
    | .done r => r
    | .reduced r _ (some w) =>
      let r := r.mapStack fun s => s.moveTo w v
      let state := r.stack.state v
      let (token, r) := match token with
        | some t => (some t, r)
        | none => lookahead l text r v state false
      advanceOn l text v fuel state token (actionsFor l state token) r
    | .reduced r true none => r.mapStack fun s => s.halt v
    | .reduced r false none =>
      match token with
      | none => r.mapStack fun s => s.halt v
      | some t =>
        let asWord := match l.word with
          | some w => if t.info.keyword && t.symbol ≠ w then l.actions state w else []
          | none => []
        if !asWord.isEmpty then
          advanceOn l text v fuel state (l.word.map fun w => t.relabel l w) asWord r
        else if state = 0 then recover l r v t
        else r.mapStack fun s => s.pause v t

/-- One step of a reading: takes in the token in front of it. -/
def advance (l : Language) (text : String) (r : Readings) (v : Nat) : Readings :=
  let state := r.stack.state v
  let (token, r) := lookahead l text r v state true
  advanceOn l text v stepBound state token (actionsFor l state token) r

/-- The turn of one reading: it goes on until it is past the furthest place so far, or at least
there if another reading had its turn before. -/
def turn (l : Language) (text : String) (v fuel furthest : Nat) (r : Readings) : Nat × Readings :=
  match fuel with
  | 0 => (furthest, r)
  | fuel + 1 =>
    if r.stack.isActive v then
      let r := advance l text r v
      let here := (r.stack.place v).bytes
      if furthest < here || (0 < v && here = furthest) then (here, r)
      else turn l text v fuel furthest r
    else (furthest, r)

/-- The turns of all readings, also of those that are made meanwhile. -/
def turns (l : Language) (text : String) (fuel v furthest : Nat) (r : Readings) :
    Nat × Readings :=
  match fuel with
  | 0 => (furthest, r)
  | fuel + 1 =>
    if r.stack.size ≤ v then (furthest, r)
    else
      let (furthest, r) := turn l text v stepBound furthest r
      turns l text fuel (v + 1) furthest r

/-! ## Dropping readings -/

/-- Compares a reading with those before it. A worse one is dropped, two that could merge are
merged, and a better one changes places with the worse. Returns where to go on. -/
def sortIn (mine : Weight) (fuel v w : Nat) (s : Stack) : Nat × Stack :=
  match fuel with
  | 0 => (v + 1, s)
  | fuel + 1 =>
    if v ≤ w then (v + 1, s)
    else
      let (theirs, s) := weigh s w
      match judge theirs mine with
      | .takeLeft => (v, s.remove v)
      | .takeRight => sortIn mine fuel (v - 1) w (s.remove w)
      | .preferRight =>
        -- Undecided: the two are kept apart only if they cannot be merged.
        match s.merge? w v with
        | some s => (v, s)
        | none => sortIn mine fuel v (w + 1) (s.swap v w)
      | _ =>
        match s.merge? w v with
        | some s => (v, s)
        | none => sortIn mine fuel v (w + 1) s

/-- Drops readings that have been given up or are worse than others; the least cost of a reading
that is not in an error is returned. -/
def sortAll (fuel v : Nat) (least : Option Nat) (s : Stack) : Option Nat × Stack :=
  match fuel with
  | 0 => (least, s)
  | fuel + 1 =>
    if s.size ≤ v then (least, s)
    else if s.isHalted v then sortAll fuel v least (s.remove v)
    else
      let (mine, s) := weigh s v
      let least :=
        if mine.inError then least
        else match least with
          | some n => some (min n mine.cost)
          | none => some mine.cost
      let (next, s) := sortIn mine (s.size + 1) v 0 s
      sortAll fuel next least s

/-- Lets the first waiting reading enter an error unless another can go on, and drops the others
that wait. -/
def resume (l : Language) (fuel v count : Nat) (going : Bool) (least : Option Nat) (r : Readings) :
    Option Nat × Readings :=
  match fuel with
  | 0 => (least, r)
  | fuel + 1 =>
    if count ≤ v then (least, r)
    else
      match (r.stack.head v).status with
      | .waiting token =>
        if !going && r.accepted < maxReadings then
          let cost := r.stack.cost v
          let r := r.mapStack fun s => s.setStatus v .active
          resume l fuel (v + 1) count true (some cost) (handleError l r v token)
        else resume l fuel v (count - 1) going least (r.mapStack fun s => s.remove v)
      | _ => resume l fuel (v + 1) count true least r

def condense (l : Language) (r : Readings) : Option Nat × Readings :=
  match r with
  | ⟨stack, cache, finished, accepted⟩ =>
    let (least, s) := sortAll (stack.size + 1) 0 none stack
    let s := dropBeyond s maxReadings
    resume l (s.size + 1) 0 s.size false least ⟨s, cache, finished, accepted⟩

def run (l : Language) (text : String) (fuel furthest : Nat) (r : Readings) : Option Subtree :=
  match fuel with
  | 0 => r.finished
  | fuel + 1 =>
    let (furthest, r) := turns l text stepBound 0 furthest r
    let count := r.stack.size
    let (least, r) := condense l r
    let done := match r.finished with
      | some t => (match least with
        | some n => decide (t.cost < n)
        | none => true)
      | none => false
    if done || count = 0 then r.finished else run l text fuel furthest r

end Readings

namespace Language

def parse? (l : Language) (text : String) : Option Subtree :=
  Readings.run l text Readings.stepBound 0 { stack := Stack.init 1 }

end Language

end Lumen
