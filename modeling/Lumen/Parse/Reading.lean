import Lumen.Parse.Token

/-!
# Readings

A `Readings` value is a parse under way: the branching stack, the token found last, and the best
tree so far. Here are the steps of a single reading: to shift a token, to reduce what is on top of
the stack to a node, and to accept.

Readings are weighed against each other by what their errors cost. One that is cheaper by far is
taken at once; one that is a little cheaper is preferred, and replaces another if both could merge.
-/

namespace Lumen

/-- A token that was found, and where. -/
structure Readings.Cache where
  bytes : Nat
  memory : Option Nat
  token : Subtree

structure Readings where
  stack : Stack
  cache : Option Readings.Cache := none
  finished : Option Subtree := none
  accepted : Nat := 0

namespace Readings

/-- How many readings are followed at most. -/
def maxReadings : Nat := 6

/-- By how many readings that bound may be exceeded for a moment. -/
def maxOverflow : Nat := 4

/-- From this difference in cost on a reading is worse by far. -/
def maxDifference : Nat := 18 * Subtree.skippedTreeCost

/-- No parse takes as many steps in a row. -/
def stepBound : Nat := 1 <<< 40

def mapStack (r : Readings) (f : Stack → Stack) : Readings :=
  match r with
  | ⟨stack, cache, finished, accepted⟩ => ⟨f stack, cache, finished, accepted⟩

/-! ## Weighing readings -/

structure Weight where
  cost : Nat
  progress : Nat
  inError : Bool

/-- Which of two readings is better, and whether by far. -/
inductive Judgement where
  | takeLeft
  | preferLeft
  | neither
  | preferRight
  | takeRight

def judge (a b : Weight) : Judgement :=
  if !a.inError && b.inError then
    if a.cost < b.cost then .takeLeft else .preferLeft
  else if a.inError && !b.inError then
    if b.cost < a.cost then .takeRight else .preferRight
  else if a.cost < b.cost then
    if maxDifference < (b.cost - a.cost) * (1 + a.progress) then .takeLeft else .preferLeft
  else if b.cost < a.cost then
    if maxDifference < (a.cost - b.cost) * (1 + b.progress) then .takeRight else .preferRight
  else .neither

def weigh (s : Stack) (v : Nat) : Weight × Stack :=
  let s := s.settle v
  let waiting := s.isWaiting v
  ({ cost := s.cost v + (if waiting then Subtree.skippedTreeCost else 0)
     progress := s.progressSinceError v
     inError := waiting || s.state v = 0 }, s)

/-- Whether some active reading that is at least as far is better than the given one. -/
def isBeaten (s : Stack) (v : Nat) (mine : Weight) : List Nat → Bool × Stack
  | [] => (false, s)
  | w :: rest =>
    if w = v || !s.isActive w || (s.place w).bytes < (s.place v).bytes then isBeaten s v mine rest
    else
      let (theirs, s) := weigh s w
      match judge mine theirs with
      | .takeRight => (true, s)
      | .preferRight => if s.canMerge w v then (true, s) else isBeaten s v mine rest
      | _ => isBeaten s v mine rest

/-- Whether a reading that comes to cost so much is not worth following. -/
def betterExists (r : Readings) (v : Nat) (inError : Bool) (cost : Nat) : Bool × Readings :=
  match r with
  | ⟨stack, cache, finished, accepted⟩ =>
    let done : Bool := match finished with
      | some t => t.cost ≤ cost
      | none => false
    if done then (true, ⟨stack, cache, finished, accepted⟩)
    else
      let s := stack.settle v
      let (found, s) := isBeaten s v ⟨cost, s.progressSinceError v, inError⟩ (List.range s.size)
      (found, ⟨s, cache, finished, accepted⟩)

/-! ## Steps of a reading -/

def shift (r : Readings) (v state : Nat) (token : Subtree) (extra : Bool) : Readings :=
  let token := if extra ≠ token.extra && token.isLeaf then token.withExtra extra else token
  r.mapStack fun s =>
    let s := s.push v (some token) state
    match token.info.memory with
    | some m => s.modifyHead v fun h => { h with memory := some m }
    | none => s

/-- Slices in groups that share a head. -/
def groupSlices (slices : Array Stack.Slice) : List (Nat × List (List Subtree)) :=
  slices.foldr (fun slice groups =>
    match groups with
    | (h, trees) :: rest =>
      if h = slice.head then (h, slice.trees :: trees) :: rest
      else (slice.head, [slice.trees]) :: groups
    | [] => [(slice.head, [slice.trees])]) []

/-- The node made of the best of several lists of children, with the extras after it. -/
def bestNode (l : Language) (symbol shape : Nat) : List (List Subtree) → Subtree × List Subtree
  | [] => (Subtree.node l symbol shape [], [])
  | first :: others =>
    let (children, extras) := Subtree.splitExtras first
    others.foldl (fun (best, extras) trees =>
      let (children, more) := Subtree.splitExtras trees
      if best.prefers l (Subtree.node l symbol 0 children) then
        (Subtree.node l symbol shape children, more)
      else (best, extras)) (Subtree.node l symbol shape children, extras)

/-- Merges a head into the first of some heads that it can be merged with. -/
def mergeInto (s : Stack) (v : Nat) : List Nat → Option Stack
  | [] => none
  | w :: rest =>
    match s.merge? w v with
    | some s => some s
    | none => mergeInto s v rest

/-- Pushes the node for one group of slices; counts the heads that have been removed. -/
def reduceGroup (l : Language) (v symbol shape : Nat) (endOfExtra : Bool) (limit : Nat)
    (s : Stack) (removed : Nat) (group : Nat × List (List Subtree)) : Stack × Nat :=
  let w := group.1 - removed
  if limit < w then (s.remove w, removed + 1)
  else
    let (parent, extras) := bestNode l symbol shape group.2
    let state := s.state w
    let next := (l.nextState? state symbol).getD 0
    let parent := if endOfExtra && next = state then parent.withExtra true else parent
    let s := s.push w (some parent) next
    let s := extras.foldl (fun s t => s.push w (some t) next) s
    match mergeInto s w ((List.range w).filter (· ≠ v)) with
    | some s => (s, removed + 1)
    | none => (s, removed)

/-- Reduces what is on top of a reading to a node of a rule. The new readings come last; the first
of them is returned, if any is left. -/
def reduce (l : Language) (r : Readings) (v rule count shape : Nat) (endOfExtra : Bool) :
    Option Nat × Readings :=
  match r with
  | ⟨stack, cache, finished, accepted⟩ =>
    let before := stack.size
    let (s, slices) := stack.pop v count
    let limit := maxReadings + maxOverflow + s.haltedCount
    let (s, _) := (groupSlices slices).foldl (fun (s, removed) g =>
      reduceGroup l v (l.numbering.ofRule rule) shape endOfExtra limit s removed g) (s, 0)
    (if before < s.size then some before else none, ⟨s, cache, finished, accepted⟩)

/-- The tree of a whole text: the last subtree that is no extra, with what stands around it put
among its children. -/
def rootOf (l : Language) (trees : List Subtree) : Option Subtree :=
  let back := trees.reverse
  match back.dropWhile Subtree.extra with
  | [] => none
  | t :: before =>
    let after := (back.takeWhile Subtree.extra).reverse
    some (Subtree.node l t.symbol t.info.shape (before.reverse ++ t.children ++ after))

/-- Ends a reading at the end of the text, and keeps its tree if it is the best so far. -/
def accept (l : Language) (r : Readings) (v : Nat) (eof : Subtree) : Readings :=
  match r with
  | ⟨stack, cache, finished, accepted⟩ =>
    let (s, slices) := (stack.push v (some eof) 1).popAll v
    let (finished, accepted) := slices.foldl (fun (finished, accepted) slice =>
      match rootOf l slice.trees with
      | none => (finished, accepted)
      | some root =>
        match finished with
        | none => (some root, accepted + 1)
        | some best => (some (if best.prefers l root then root else best), accepted + 1))
      (finished, accepted)
    let s := match slices[0]? with
      | some slice => s.remove slice.head
      | none => s
    ⟨s.halt v, cache, finished, accepted⟩

/-! ## Tokens -/

/-- The token in front of a reading: the one found last, if it will do, or else a new one. -/
def lookahead (l : Language) (text : String) (r : Readings) (v state : Nat) (useCache : Bool) :
    Option Subtree × Readings :=
  match r with
  | ⟨stack, cache, finished, accepted⟩ =>
    let place := stack.place v
    let memory := (stack.head v).memory
    let cached := match cache with
      | some c =>
        if useCache && c.bytes = place.bytes && c.memory = memory && l.canReuse state c.token then
          some c.token
        else none
      | none => none
    match cached with
    | some t => (some t, ⟨stack, cache, finished, accepted⟩)
    | none =>
      match l.nextToken? ⟨state, memory, stack.hasAdvanced v⟩ text place with
      | some t => (some t, ⟨stack, some ⟨place.bytes, memory, t⟩, finished, accepted⟩)
      | none => (none, ⟨stack, cache, finished, accepted⟩)

end Readings

end Lumen
