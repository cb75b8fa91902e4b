import Lumen.Query.Compile
import Lumen.Regex.Search
import Lumen.Text.Point
import Lumen.Tree.Basic

/-!
# Captures

`Query.captures` lists the nodes of a tree that the patterns of a query capture. The tree is
walked through once. A `Run` is a match of a pattern under way; each node that is entered can
begin runs and bring runs a step further, and leaving a node ends the runs that needed something
inside it.

* A run that could also go on with a later node is split in two.
* Of two runs of one pattern that began with the same node and have come to the same step, the one
  whose captures include the other's is kept.
* Captures are listed in the order of their nodes. A capture is listed as soon as no run can come
  up with an earlier one, and its run is either complete or sure to be.
* A run whose predicates do not hold is dropped.
-/

namespace Lumen

namespace Query

structure Span where
  start : Point := .zero
  stop : Option Point := none

structure Capture where
  node : Nat
  id : Nat
deriving BEq, Inhabited

/-- A match under way. -/
structure Run where
  step : Nat
  pattern : Nat
  startDepth : Nat
  captures : Array Capture := #[]
  listed : Nat := 0
  /-- The next node must match. -/
  immediate : Bool := true
  /-- Another run may still come to have more captures. -/
  contested : Bool := false
  /-- The node around the first one has still to be looked at. -/
  needsParent : Bool := false
deriving Inhabited

/-- A walk through a tree: the node it is at, and the runs. -/
structure Walk where
  node : Nat := 0
  leaving : Bool := false
  ended : Bool := false
  runs : List Run := []
  finished : Array Run := #[]

/-! ## Spans -/

namespace Span

def reached (s : Span) (p : Point) : Bool := match s.stop with
  | some e => e.upTo p
  | none => false

/-- Whether a node ends before the span or just where it starts. -/
def isPast (s : Span) (n : SyntaxTree.Node) : Bool :=
  n.stop.bytes = 0 || n.stop.point.upTo s.start

def isAhead (s : Span) (n : SyntaxTree.Node) : Bool := s.reached n.start.point

def touches (s : Span) (n : SyntaxTree.Node) : Bool := !s.isPast n && !s.isAhead n

/-- Whether a node, inside its parent, lies in the span. An empty node does so also at its edge. -/
def meets (s : Span) (n : SyntaxTree.Node) (parent : Option SyntaxTree.Node) : Bool :=
  let inside : Bool := match parent with
    | some p => s.touches p
    | none => true
  let empty := n.start.bytes = n.stop.bytes
  let past := n.stop.point.before s.start || (!empty && n.stop.point == s.start) ||
    (!empty && n.stop.bytes = 0)
  inside && !past && !s.isAhead n

end Span

/-! ## Runs -/

/-- Begins a run, unless there is the same already. Runs are in order of the depths at which they
began, and then of their patterns; `runs` are given last first. -/
def addRun (new : Run) : List Run → Option (List Run)
  | [] => some [new]
  | r :: rest =>
    if r.startDepth < new.startDepth then some (new :: r :: rest)
    else if r.startDepth = new.startDepth && r.pattern < new.pattern then some (new :: r :: rest)
    else if r.startDepth = new.startDepth && r.pattern = new.pattern && r.step = new.step then none
    else (addRun new rest).map (r :: ·)

/-- Begins a run of a pattern at a node of a depth. -/
def begin (q : Query) (depth : Nat) (runs : List Run) (e : Entry) : List Run :=
  let s := q.step e.step
  if depth < s.depth then runs
  else
    let new : Run :=
      { step := e.step, pattern := e.pattern, startDepth := depth - s.depth
        needsParent := s.depth = 1 }
    match addRun new runs.reverse with
    | some rs => rs.reverse
    | none => runs

/-- Whether a match that comes to a step can still fail because of what is inside its node. -/
def isFallible (q : Query) (i : Nat) : Bool :=
  let s := q.step i
  let next := q.step (i + 1)
  !next.isEnd && s.depth < next.depth && (!next.parentSure || s.symbol.isNone)

/-- Whether a child of a node is in one of some fields. -/
def hasFieldOf (t : SyntaxTree) (fields : List Nat) (n : Nat) : Bool :=
  ((List.range (t.node n).next).drop (n + 1)).any fun c =>
    (t.node c).parent = some n && (match (t.node c).field with
      | some f => fields.contains f
      | none => false)

def nodeMatches (t : SyntaxTree) (s : Step) (n : Nat) : Bool :=
  let node := t.node n
  let kind := match s.symbol with
    | none =>
      if s.missing then node.missing
      else node.symbol ≠ Language.errorSymbol && (node.named || !s.named)
    | some symbol => node.symbol = symbol && (!s.missing || node.missing)
  kind && !(s.lastChild && node.hasLaterNamedSibling) &&
    (match s.supertype with
    | some x => node.supertypes.contains x
    | none => true) &&
    (s.field.isNone || s.field = node.field) &&
    (s.absent.isEmpty || !hasFieldOf t s.absent n)

/-- Whether a later sibling of a node could match a step instead. -/
def laterCanMatch (t : SyntaxTree) (s : Step) (r : Run) (n : Nat) : Bool :=
  let node := t.node n
  node.hasLaterSibling && !(s.immediate && node.named) && !r.immediate &&
    !(s.field.isSome && s.field = node.field && !node.fieldMayRecur)

def capture (s : Step) (n : Nat) (r : Run) : Run :=
  { r with captures := r.captures ++ (s.captures.map fun id => (⟨n, id⟩ : Capture)).toArray }

/-- The step before some step that stands for the node around it. -/
def outerStep (q : Query) : Nat → Step
  | 0 => q.step 0
  | i + 1 =>
    let s := q.step i
    if s.deadEnd || s.passThrough || 0 < s.depth then outerStep q i else s

/-- Follows the jumps from where runs stand; each alternative is a run of its own. -/
def branch (q : Query) : Nat → List Run → List Run
  | 0, runs => runs
  | _, [] => []
  | fuel + 1, r :: rest =>
    let s := q.step r.step
    match s.alternative with
    | none => r :: branch q fuel rest
    | some j =>
      if s.deadEnd then branch q fuel ({ r with step := j } :: rest)
      else
        let other := { r with step := j, immediate := r.immediate || s.alternativeIsImmediate }
        if s.passThrough then branch q fuel ({ r with step := r.step + 1 } :: other :: rest)
        else r :: branch q fuel (other :: rest)

/-- Brings a run on at a node that is being entered. Tells whether a run has come to a step from
which on it is sure to match. -/
def bringOn (q : Query) (t : SyntaxTree) (n : Nat) (r : Run) : List Run × Bool :=
  let node := t.node n
  let s := q.step r.step
  let r := { r with contested := false }
  if s.isEnd || r.startDepth + s.depth ≠ node.depth then ([r], false)
  else
    let later := laterCanMatch t s r n
    if !nodeMatches t s n then (if later then [r] else [], false)
    else
      let split := later && (s.hasCaptures || q.isFallible r.step)
      let taken := if r.needsParent then
          { capture (outerStep q r.step) (node.parent.getD 0) r with needsParent := false }
        else r
      let taken := capture s n taken
      let next := q.step (r.step + 1)
      let taken := { taken with
        step := r.step + 1
        immediate := s.symbol.isNone && !s.named && next.immediate }
      (branch q (4 * q.steps.size + 4) [taken] ++ (if split then [r] else []), next.sure)

/-! ## Comparison of runs -/

/-- Which of two nodes comes first; of two that begin together, the one that ends later. -/
def nodeOrder (t : SyntaxTree) (a b : Nat) : Ordering :=
  if a = b then .eq
  else
    let x := t.node a
    let y := t.node b
    (compare x.start.bytes y.start.bytes).then (compare y.stop.bytes x.stop.bytes)

/-- Whether the first list of captures includes the second, and the other way round. -/
def compareCaptures (t : SyntaxTree) : List Capture → List Capture → Bool × Bool
  | [], [] => (true, true)
  | _ :: _, [] => (true, false)
  | [], _ :: _ => (false, true)
  | a :: as, b :: bs =>
    if a == b then compareCaptures t as bs
    else
      match nodeOrder t a.node b.node with
      | .lt => let (l, _) := compareCaptures t as (b :: bs); (l, false)
      | .gt => let (_, r) := compareCaptures t (a :: as) bs; (false, r)
      | .eq => (false, false)
  termination_by as bs => as.length + bs.length

/-- Compares a run with those after it that began likewise: which of them stay, whether the run
itself stays, and whether it is contested. -/
def rival (t : SyntaxTree) (r : Run) (contested : Bool) (kept : List Run) :
    List Run → Option Run × List Run
  | [] => (some { r with contested }, kept.reverse)
  | o :: rest =>
    if o.startDepth ≠ r.startDepth || o.pattern ≠ r.pattern then
      (some { r with contested }, kept.reverse ++ o :: rest)
    else
      let (mine, theirs) := compareCaptures t r.captures.toList o.captures.toList
      -- Two runs at the same step have the same future, so the one with fewer captures is not
      -- needed.
      if mine && r.step = o.step then rival t r contested kept rest
      else
        let o := if mine then { o with contested := true } else o
        if theirs && r.step = o.step then (none, kept.reverse ++ o :: rest)
        else rival t r (contested || theirs) (o :: kept) rest

/-- Drops runs that others include, and takes out those that are complete and uncontested. -/
def prune (q : Query) (t : SyntaxTree) (fuel : Nat) (done : Array Run) :
    List Run → List Run × Array Run
  | [] => ([], done)
  | r :: rest =>
    match fuel with
    | 0 => (r :: rest, done)
    | fuel + 1 =>
      match rival t r r.contested [] rest with
      | (none, rest) => prune q t fuel done rest
      | (some r, rest) =>
        if (q.step r.step).isEnd && !r.contested then prune q t fuel (done.push r) rest
        else
          let (runs, done) := prune q t fuel done rest
          (r :: runs, done)

/-! ## The walk -/

def beginRuns (q : Query) (t : SyntaxTree) (span : Span) (n : Nat) (runs : List Run) : List Run :=
  let node := t.node n
  let parent := node.parent.map t.node
  let inSpan := span.meets node parent
  let around := (match parent with
    | some p => span.touches p && p.symbol ≠ Language.errorSymbol
    | none => true)
  let fits (e : Entry) : Bool :=
    let s := q.step e.step
    (if e.rooted then inSpan else around) && (s.field.isNone || s.field = node.field)
  let runs :=
    if node.symbol = Language.errorSymbol then runs
    else (q.openEntries.toList.filter fun e =>
      fits e && ((q.step e.step).supertype.isNone || !node.supertypes.isEmpty)).foldl
        (begin q node.depth) runs
  (((q.entries.lookup node.symbol).getD []).filter fits).foldl (begin q node.depth) runs

def enter (q : Query) (t : SyntaxTree) (span : Span) (w : Walk) : Walk × Bool :=
  let node := t.node w.node
  let started := beginRuns q t span w.node w.runs
  let moved := started.map (bringOn q t w.node)
  let runs := moved.flatMap Prod.fst
  let (runs, finished) := prune q t (runs.length + 1) w.finished runs
  let found := moved.any Prod.snd || w.finished.size < finished.size
  let deeper := span.meets node (node.parent.map t.node) || runs.any fun r =>
    let s := q.step r.step
    !s.isEnd && node.depth < r.startDepth + s.depth
  let w := { w with runs, finished }
  match (if deeper then t.firstChild? w.node else none) with
  | some c => ({ w with node := c }, found)
  | none => ({ w with leaving := true }, found)

def leave (q : Query) (t : SyntaxTree) (w : Walk) : Walk × Bool :=
  let depth := (t.node w.node).depth
  let isDone (r : Run) : Bool := (q.step r.step).isEnd && (depth < r.startDepth || depth = 0)
  let isLost (r : Run) : Bool :=
    let s := q.step r.step
    !s.isEnd && depth < r.startDepth + s.depth
  let done := w.runs.filter isDone
  let w := { w with
    runs := w.runs.filter fun r => !isDone r && !isLost r
    finished := w.finished ++ done.toArray }
  let found := !done.isEmpty
  match t.nextSibling? w.node with
  | some s => ({ w with node := s, leaving := false }, found)
  | none =>
    match (t.node w.node).parent with
    | some p => ({ w with node := p }, found)
    | none => ({ w with ended := true, runs := [] }, found)

/-- Walks on until a match is completed or has become sure, or the tree ends. -/
def walkOnward (q : Query) (t : SyntaxTree) (span : Span) (fuel : Nat) (w : Walk) : Walk × Bool :=
  match fuel with
  | 0 => (w, false)
  | fuel + 1 =>
    if w.ended then (w, false)
    else
      let (w, found) := if w.leaving then leave q t w else enter q t span w
      if found then (w, true) else walkOnward q t span fuel w

/-! ## Listing captures -/

/-- Passes over captures before the span. -/
def passEarly (t : SyntaxTree) (span : Span) (fuel : Nat) (r : Run) : Run :=
  match fuel with
  | 0 => r
  | fuel + 1 =>
    match r.captures[r.listed]? with
    | some c =>
      if span.isPast (t.node c.node) then passEarly t span fuel { r with listed := r.listed + 1 }
      else r
    | none => r

/-- Passes over captures outside the span. -/
def passOutside (t : SyntaxTree) (span : Span) (fuel : Nat) (r : Run) : Run :=
  match fuel with
  | 0 => r
  | fuel + 1 =>
    match r.captures[r.listed]? with
    | some c =>
      if span.touches (t.node c.node) then r
      else passOutside t span fuel { r with listed := r.listed + 1 }
    | none => r

/-- Where the next capture of a run begins, with the run's pattern. -/
def nextKey? (t : SyntaxTree) (r : Run) : Option (Nat × Nat) :=
  (r.captures[r.listed]?).map fun c => ((t.node c.node).start.bytes, r.pattern)

/-- Whether a key comes before another, or there is no other. -/
def keyBefore (a : Nat × Nat) : Option (Nat × Nat) → Bool
  | none => true
  | some b => a.1 < b.1 || (a.1 = b.1 && a.2 < b.2)

def firstRun (t : SyntaxTree) (bound : Option (Nat × Nat)) (runs : List Run) :
    Option (Nat × Run) :=
  ((runs.zipIdx).foldl (fun (best, bound) (r, i) =>
    match nextKey? t r with
    | some k => if keyBefore k bound then (some (i, r), some k) else (best, bound)
    | none => (best, bound)) (none, bound)).1

def nodeText (t : SyntaxTree) (text : String) (n : Nat) : String :=
  let node := t.node n
  String.Pos.Raw.extract text ⟨node.start.bytes⟩ ⟨node.stop.bytes⟩

/-- Whether a condition holds of the captured texts: of all of them, or where `all` is not asked for
of the first that decides. -/
def decideTexts (texts : List String) (positive all : Bool) (p : String → Bool) : Bool :=
  match texts with
  | [] => true
  | s :: rest =>
    let ok := p s == positive
    if !ok && all then false
    else if ok && !all then true
    else decideTexts rest positive all p

/-- Whether a condition holds of pairs of captured texts; without a decision, none must be left. -/
def decidePairs (positive all : Bool) : List String → List String → Bool
  | [], [] => true
  | a :: as, b :: bs =>
    let ok := (a == b) == positive
    if !ok && all then false
    else if ok && !all then true
    else decidePairs positive all as bs
  | _, _ => false

def Predicate.holds (textsOf : Nat → List String) : Predicate → Bool
  | .sameText a b positive all => decidePairs positive all (textsOf a) (textsOf b)
  | .text a s positive all => decideTexts (textsOf a) positive all (· == s)
  | .regex a r positive all =>
    decideTexts (textsOf a) positive all fun s => r.occursIn s.toList.toArray
  | .oneOf a values positive => (textsOf a).all fun s => values.contains s == positive

def accepts (q : Query) (t : SyntaxTree) (text : String) (r : Run) : Bool :=
  let textsOf (id : Nat) : List String :=
    (r.captures.toList.filter (·.id = id)).map fun c => nodeText t text c.node
  (q.predicates.getD r.pattern []).all (Predicate.holds textsOf)

/-- What is to be listed next: from a complete run, or from a run under way. -/
inductive Pick where
  | complete (place : Nat)
  | underWay (place : Nat)

def pick (q : Query) (t : SyntaxTree) (w : Walk) : Option (Pick × Run) :=
  let ahead := firstRun t none w.runs
  match firstRun t (ahead.bind fun (_, r) => nextKey? t r) w.finished.toList with
  | some (i, r) => some (.complete i, r)
  | none =>
    match ahead with
    | some (i, r) =>
      let s := q.step r.step
      if s.sure && !s.immediate then some (.underWay i, r) else none
    | none => none

/-- Lists the captures in order; `fuel` bounds the walk. -/
def list (q : Query) (t : SyntaxTree) (text : String) (span : Span) (fuel : Nat) (w : Walk)
    (out : Array Capture) : Array Capture :=
  match fuel with
  | 0 => out
  | fuel + 1 =>
    let w := { w with
      runs := w.runs.map fun r => passEarly t span r.captures.size r
      finished := (w.finished.map fun r => passOutside t span r.captures.size r).filter fun r =>
        r.listed < r.captures.size }
    match pick q t w with
    | some (p, r) =>
      let ok := accepts q t text r
      let out := match ok, r.captures[r.listed]? with
        | true, some c => out.push c
        | _, _ => out
      let r := { r with listed := r.listed + 1 }
      -- A run whose predicates fail is dropped with the captures that it still has.
      match p with
      | .complete i =>
        let finished := if ok then w.finished.setIfInBounds i r else w.finished.eraseIdxIfInBounds i
        list q t text span fuel { w with finished } out
      | .underWay i =>
        let runs := if ok then w.runs.set i r else w.runs.eraseIdx i
        list q t text span fuel { w with runs } out
    | none =>
      let (w, found) := walkOnward q t span (2 * t.nodes.size + 2) w
      if found || !w.finished.isEmpty then list q t text span fuel w out else out

/-- The nodes that a query captures in a part of a text, in order. -/
def captures (q : Query) (t : SyntaxTree) (text : String) (span : Span) : Array Capture :=
  list q t text span (1 <<< 40) {} #[]

end Query

end Lumen
