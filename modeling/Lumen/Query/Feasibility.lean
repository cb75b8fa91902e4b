import Lumen.Query.Anatomy
import Lumen.Query.Parser
import Std.Data.TreeMap

/-!
# Which patterns can match

`feasible` walks through every way in which a node that a pattern asks for can be built, and follows
the pattern's inner steps along. It finds

* patterns that no tree can match, which are errors;
* the steps at which a match can fail. Once all steps ahead are sure, a match need not be completed
  before its captures are reported.

A walk goes through hidden nodes, one inside the other, to a bounded depth, and deeper into
recursion only as long as this leads to new results.
-/

namespace Lumen

namespace Query

/-- A node that is being built: the state, how many children it has, and the field it is in. -/
structure Level where
  state : Nat
  symbol : Nat
  child : Nat := 0
  field : Option Nat := none
  done : Bool := false
deriving Inhabited

/-- A place in a walk: the nodes around it from the outside in, and the step to be matched. -/
structure Probe where
  levels : Array Level
  step : Nat
  root : Nat
deriving Inhabited

namespace Probe

/-- The most nodes around a place. -/
def maxDepth : Nat := 8

/-- The most rounds of a walk. -/
def maxRounds : Nat := 256

/-- Compares how far two places are: by the children that each level has, deeper places first. -/
def compareLevels (a b : Array Level) (fuel i : Nat) : Ordering :=
  match fuel with
  | 0 => .eq
  | fuel + 1 =>
    match a[i]?, b[i]? with
    | some x, some y =>
      match compare x.child y.child with
      | .eq => compareLevels a b fuel (i + 1)
      | o => o
    | some _, none => .lt
    | none, some _ => .gt
    | none, none => .eq

/-- Compares how far two places are, and the steps they have come to. -/
def comparePlace (a b : Probe) : Ordering :=
  (compareLevels a.levels b.levels (maxDepth + 1) 0).then (compare a.step b.step)

/-- Compares what nodes are built. -/
def compareKinds (a b : Array Level) (fuel i : Nat) : Ordering :=
  match fuel with
  | 0 => .eq
  | fuel + 1 =>
    match a[i]?, b[i]? with
    | some x, some y =>
      match ((compare x.symbol y.symbol).then (compare x.state y.state)).then
          (compare (x.field.map (· + 1) |>.getD 0) (y.field.map (· + 1) |>.getD 0)) with
      | .eq => compareKinds a b fuel (i + 1)
      | o => o
    | _, _ => .eq

def order (a b : Probe) : Ordering :=
  (comparePlace a b).then (compareKinds a.levels b.levels (maxDepth + 1) 0)

def recursion (p : Probe) : Nat :=
  let symbols := p.levels.map (·.symbol)
  (List.range symbols.size).countP fun i =>
    (symbols.extract 0 i).contains (symbols.getD i 0)

/-- Drops the innermost levels that are done. -/
def leaveDone (fuel : Nat) (levels : Array Level) : Array Level :=
  match fuel with
  | 0 => levels
  | fuel + 1 =>
    match levels.back? with
    | some top => if top.done then leaveDone fuel levels.pop else levels
    | none => levels

end Probe

abbrev Probes := Std.TreeMap Probe Unit Probe.order

/-- What a walk has found. -/
structure Findings where
  next : Probes := {}
  /-- Places too deep in a recursion for the time being. -/
  deeper : Probes := {}
  /-- The steps at which the node was complete too early. -/
  finals : List Nat := []
  /-- The symbols inside which the whole pattern was matched. -/
  finished : List Nat := []
  cut : Bool := false

namespace Findings

def addTo (x : Nat) (xs : List Nat) : List Nat := if xs.contains x then xs else x :: xs

/-- Records where a place leads once its child has been passed: on to the next step, and to its
alternatives if the child matched. -/
def settle (steps : Array Step) (depth root : Nat) (matched : Bool) (levels : Array Level)
    (fuel step : Nat) (f : Findings) : Findings :=
  match fuel with
  | 0 => f
  | fuel + 1 =>
    let s := steps.getD step default
    if s.passThrough then settle steps depth root matched levels fuel (step + 1) f
    else
      let f :=
        if s.deadEnd then f
        else if s.isEnd || s.depth ≠ depth then { f with finished := addTo root f.finished }
        else if levels.isEmpty then { f with finals := addTo step f.finals }
        else
          match f with
          | ⟨next, deeper, finals, finished, cut⟩ =>
            ⟨next.insertIfNew ⟨levels, step, root⟩ (), deeper, finals, finished, cut⟩
      match s.alternative with
      | some j =>
        if matched && step < j then settle steps depth root matched levels fuel j f else f
      | none => f

end Findings

/-- The step after one and all that is inside it. -/
def stepAfter (steps : Array Step) (depth fuel i : Nat) : Nat :=
  match fuel with
  | 0 => i
  | fuel + 1 =>
    let s := steps.getD (i + 1) default
    if s.isEnd || s.depth ≤ depth then i + 1 else stepAfter steps depth fuel (i + 1)

def childMatches (l : Language) (step : Step) (levels : Array Level) (visible : Option Nat)
    (field : Option Nat) : Bool :=
  if step.symbol = some Language.errorSymbol then true
  else
    match visible with
    | none => false
    | some v =>
      (match step.symbol with
      | none => !step.named || (l.info v).named
      | some s => s = v) &&
      (step.field.isNone || step.field = field) &&
      (match step.supertype with
      | some s => levels.any fun level => level.symbol = s
      | none => true)

/-- Passes one child at one stage of the node around it. -/
def passChild (l : Language) (steps : Array Step) (limit : Nat) (p : Probe) (top : Level)
    (m : Move) (f : Findings) (stage : Stage) : Findings :=
  let step := steps.getD p.step default
  let info := l.info m.symbol
  let renamed := (l.aliasAt? stage.shape top.child).map fun a => l.shown.getD a a
  let visible := renamed <|> (if info.visible then some (l.shown.getD m.symbol m.symbol) else none)
  let fields := ((l.shapes[stage.shape]?).map (·.fields)).getD []
  let field := top.field <|>
    (fields.find? fun (_, at_, inherited) => !inherited && at_ = top.child).map Prod.fst
  let matched := childMatches l step p.levels visible field
  let after : Level :=
    { top with
      state := m.target
      child := if m.counts then top.child + 1 else top.child
      done := top.done || stage.done }
  let levels := p.levels.pop.push after
  let isError := step.symbol = some Language.errorSymbol
  let inner : Level := { state := top.state, symbol := m.symbol, field }
  let go (levels : Array Level) (f : Findings) : Findings :=
    let levels := Probe.leaveDone (Probe.maxDepth + 1) levels
    if matched then
      Findings.settle steps step.depth p.root true levels (steps.size + 1)
        (stepAfter steps step.depth steps.size p.step) f
    else if m.target = top.state then f
    else Findings.settle steps step.depth p.root false levels (steps.size + 1) p.step f
  -- The children of a hidden node count as those of the node around it, so the walk goes inside.
  if !isError && visible.isNone && l.numbering.tokens ≤ m.symbol then
    if !after.done && Probe.maxDepth ≤ levels.size + 1 then { f with cut := true }
    else
      let levels := if after.done then levels.pop.push inner else levels.push inner
      let deep : Probe := { p with levels }
      -- It goes no deeper into a recursion than the round allows; the next round starts from there.
      if limit < deep.recursion then
        match f with
        | ⟨next, deeper, finals, finished, cut⟩ =>
          ⟨next, deeper.insertIfNew deep (), finals, finished, cut⟩
      else go levels f
  else go levels f

/-- Passes every child that can come at a place. -/
def passChildren (a : Anatomy) (frames : Std.HashMap Nat Frame) (steps : Array Step) (limit : Nat)
    (p : Probe) (f : Findings) : Findings :=
  match p.levels.back? with
  | none => f
  | some top =>
    match frames[top.symbol]? with
    | none => f
    | some frame =>
      (a.moves.getD top.state #[]).foldl (fun f m =>
        let child := if m.counts then top.child + 1 else top.child
        (frame.stages.getD (m.target, child) []).foldl
          (passChild a.language steps limit p top m) f) f

/-- Visits places in order. A place that is further than all that have been found is left for the
next round, with those after it. -/
def visit (a : Anatomy) (frames : Std.HashMap Nat Frame) (steps : Array Step) (limit : Nat)
    (f : Findings) : List Probe → Findings
  | [] => f
  | p :: rest =>
    let last := f.next.maxKey?
    let far := match last with
      | some q => p.comparePlace q
      | none => .lt
    match far with
    | .lt => visit a frames steps limit (passChildren a frames steps limit p f) rest
    | .eq => visit a frames steps limit { f with next := f.next.insertIfNew p () } rest
    | .gt => { f with next := (p :: rest).foldl (fun n q => n.insertIfNew q ()) f.next }

/-- Walks on in rounds until nothing is left to visit. -/
def walkOn (a : Anatomy) (frames : Std.HashMap Nat Frame) (steps : Array Step)
    (rounds limit known : Nat) (probes : Probes) (f : Findings) : Findings :=
  match rounds with
  | 0 => { f with cut := true }
  | rounds + 1 =>
    if probes.isEmpty then
      if !f.deeper.isEmpty && known < f.finals.length then
        let deeper := f.deeper
        walkOn a frames steps rounds (limit + 1) f.finals.length deeper { f with deeper := {} }
      else f
    else
      let f := visit a frames steps limit { f with next := {} } probes.keys
      walkOn a frames steps rounds limit known f.next { f with next := {} }

/-- All that a walk from some places finds. -/
def explore (a : Anatomy) (frames : Std.HashMap Nat Frame) (steps : Array Step)
    (probes : List Probe) : Findings :=
  walkOn a frames steps Probe.maxRounds 0 0 (probes.foldl (fun s p => s.insertIfNew p ()) {}) {}

/-! ## Steps -/

def innerSteps (steps : Array Step) (depth fuel i : Nat) : List Nat :=
  match fuel with
  | 0 => []
  | fuel + 1 =>
    match steps[i + 1]? with
    | none => []
    | some s =>
      if s.isEnd || s.depth ≤ depth then [] else (i + 1) :: innerSteps steps depth fuel (i + 1)

/-- Notes which steps are around captures, and takes every step inside a node of a known kind to be
sure for now; the steps of such nodes are returned. -/
def prepareSteps (steps : Array Step) : Array Step × List Nat :=
  let (steps, parents) := (List.range steps.size).foldl (fun (steps, parents) i =>
    let s := steps.getD i default
    if s.isEnd then (steps, parents)
    else
      let inner := innerSteps steps s.depth steps.size i
      let hasCaptures := !s.captures.isEmpty ||
        inner.any fun j => !(steps.getD j default).captures.isEmpty
      let steps := steps.modify i fun s => { s with hasCaptures }
      if s.symbol.isNone || inner.isEmpty then (steps, parents)
      else
        (inner.foldl (fun steps j =>
          steps.modify j fun s => { s with sure := true, parentSure := true }) steps,
          i :: parents)) (steps, [])
  (steps, parents.reverse)

def makeUnsure (steps : Array Step) (i : Nat) : Array Step :=
  steps.modify i fun s => { s with sure := false, parentSure := false }

/-- The first recorded place in the text at or after a step. -/
def offsetOf (offsets : Array (Nat × Nat)) (step : Nat) : Nat :=
  match offsets.find? fun (s, _) => step ≤ s with
  | some (_, place) => place
  | none => ((offsets.back?).map Prod.snd).getD 0

/-- Checks the nodes of a known kind one after the other; fails with the place of one that cannot
match. -/
def checkParents (a : Anatomy) (frames : Std.HashMap Nat Frame) (offsets : Array (Nat × Nat))
    (steps : Array Step) : List Nat → Except (ErrorKind × Nat) (Array Step)
  | [] => .ok steps
  | i :: rest =>
    let s := steps.getD i default
    let symbol := s.symbol.getD 0
    if symbol = Language.errorSymbol then checkParents a frames offsets steps rest
    else
      match frames[symbol]? with
      | none => .error (.impossible, offsetOf offsets (i + 1))
      | some frame =>
        let f := explore a frames steps (frame.starts.toList.map fun state =>
          ({ levels := #[{ state, symbol }], step := i + 1, root := symbol } : Probe))
        if f.cut then
          let steps := (innerSteps steps s.depth steps.size i).foldl (fun steps j =>
            if (steps.getD j default).deadEnd then steps else makeUnsure steps j) steps
          checkParents a frames offsets steps rest
        else if f.finished.isEmpty then
          let worst := f.finals.foldl max 0
          .error (.impossible, offsetOf offsets (if f.finals.isEmpty then i else worst))
        else
          let steps := f.finals.foldl (fun steps j =>
            let t := steps.getD j default
            if !t.isEnd && s.depth < t.depth && !t.deadEnd then makeUnsure steps j else steps) steps
          checkParents a frames offsets steps rest

/-- Takes the steps of captures on whose text a predicate depends to be unsure. -/
def doubtPredicates (patterns : Array DraftPattern) (steps : Array Step) : Array Step :=
  patterns.foldl (fun steps p =>
    let used := p.clauses.flatMap fun c => c.operands.filterMap fun o => match o with
      | .capture i => some i
      | .text _ => none
    (List.range p.stepCount).foldl (fun steps k =>
      let i := p.firstStep + k
      if (steps.getD i default).captures.any used.contains then
        steps.modify i fun s => { s with sure := false }
      else steps) steps) steps

/-- Whether a step, or an alternative further on, is sure. -/
def isSure (steps : Array Step) (origin fuel i : Nat) : Bool :=
  match fuel with
  | 0 => false
  | fuel + 1 =>
    let s := steps.getD i default
    s.sure || (match s.alternative with
      | some j => if j < origin then false else isSure steps origin fuel j
      | none => false)

/-- Carries doubt from each step to the one before it, from the last step on. -/
def spreadOnce (steps : Array Step) : Array Step × Bool :=
  ((List.range steps.size).drop 1).reverse.foldl (fun (steps, changed) i =>
    if (steps.getD i default).isEnd || isSure steps i (steps.size + 1) i then (steps, changed)
    else
      let before := steps.getD (i - 1) default
      if before.deadEnd || before.isEnd || !before.sure then (steps, changed)
      else (steps.modify (i - 1) fun s => { s with sure := false }, true)) (steps, false)

def spreadDoubt (fuel : Nat) (steps : Array Step) : Array Step :=
  match fuel with
  | 0 => steps
  | fuel + 1 =>
    let (steps, changed) := spreadOnce steps
    if changed then spreadDoubt fuel steps else steps

/-- Checks that every pattern can match, and works out which steps are sure. -/
def feasible (a : Anatomy) (d : Draft) : Except (ErrorKind × Nat) (Array Step) := do
  let (steps, parents) := prepareSteps d.steps
  let symbols := parents.filterMap fun i => (steps.getD i default).symbol
  let frames := a.hidden.foldl (fun fs (s, f) => fs.insert s f) ({} : Std.HashMap Nat Frame)
  let frames := symbols.foldl (fun fs s =>
    if fs.contains s then fs
    else match a.frame? s with
      | some f => fs.insert s f
      | none => fs) frames
  let steps ← checkParents a frames d.offsets steps parents
  let steps := doubtPredicates d.patterns steps
  return spreadDoubt (steps.size + 1) steps

end Query

end Lumen
