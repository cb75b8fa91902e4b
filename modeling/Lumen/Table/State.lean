import Lumen.Table.Closure

/-!
# Parse states

A parse state is a set of items that may be under way, and what to do on each token and after each
rule. `States.ofItems` builds the states from the starting item onwards, first found first
numbered, and one state for each different set. State 0 is kept for recovery from errors and state
1 is the start.

Where several actions are possible on a token,

* a reduction of lower precedence gives way to one of higher precedence;
* a shift is weighed against the reductions by precedence, and at equal precedence the reductions'
  associativity decides, if they agree on one;
* a choice between going on with a repetition and closing a part of it first is no ambiguity: both
  stay, and the shift is marked;
* all that is left stays, and a parse follows every such action.
-/

namespace Lumen

namespace Table

open Grammar

/-- What a parse does on a token. -/
inductive Action where
  | shift (state : Nat) (repetition : Bool)
  /-- Keep the token aside and stay in the state. -/
  | shiftExtra
  | reduce (rule count shape : Nat)
  | accept
  | recover
deriving BEq, Hashable, Repr, Inhabited

/-- Where a parse goes on after a rule. -/
inductive Goto where
  | state (s : Nat)
  | extra
deriving BEq, Repr, Inhabited

/-- How the children of a node show: their aliases and their fields. A field that is inherited is
that of a hidden child's own children. -/
structure Shape where
  aliases : Array (Option Alias) := #[]
  fields : List (String × List (Nat × Bool)) := []
deriving BEq, Repr, Inhabited

/-- A parse state: the actions on each token, and the ways on after rules. -/
structure State where
  actions : Array (List Action)
  gotos : List (Nat × Goto)
  core : Nat
deriving Inhabited

namespace State

def actionsOn (s : State) (token : Nat) : List Action := s.actions.getD token []

def goto? (s : State) (rule : Nat) : Option Goto := s.gotos.lookup rule

def redirect (f : Nat → Nat) (s : State) : State :=
  { s with
    actions := s.actions.map fun as => as.map fun a => match a with
      | .shift t r => .shift (f t) r
      | a => a
    gotos := s.gotos.map fun (r, g) => match g with
      | .state t => (r, .state (f t))
      | .extra => (r, .extra) }

def tokenSet (s : State) : Nat :=
  (s.actions.foldl (fun (bits, i) as => (if as.isEmpty then bits else bits ||| (1 <<< i), i + 1))
    ((0 : Nat), (0 : Nat))).1

end State

/-! ## Shapes -/

/-- Joins a place to the places of a field; fields are kept in the order of their names. -/
def addField (name : String) (place : Nat × Bool) :
    List (String × List (Nat × Bool)) → List (String × List (Nat × Bool))
  | [] => [(name, [place])]
  | (n, ps) :: rest =>
    if n = name then (n, ps ++ [place]) :: rest
    else if name < n then (name, [place]) :: (n, ps) :: rest
    else (n, ps) :: addField name place rest

def Shape.ofSteps (t : ItemTable) (steps : Array Step) : Shape :=
  let aliases := steps.map (·.rename)
  let used := (aliases.toList.zipIdx.filterMap fun (a, i) => a.map fun _ => i + 1).getLast?.getD 0
  let fields := steps.toList.zipIdx.foldl (fun fs (s, i) =>
    let fs := match s.field with
      | some name => addField name (i, false) fs
      | none => fs
    match s.symbol with
    | .rule r =>
      if (t.g.rules.getD r default).kind.isVisible then fs
      else (t.fields.getD r []).foldl (fun fs name => addField name (i, true) fs) fs
    | _ => fs) []
  ⟨aliases.extract 0 used, fields⟩

/-- The shapes of all completed items, each once, and the shape of each item. Shape 0 is plain. -/
def shapesOf (t : ItemTable) : Array Shape × Array Nat :=
  t.table.items.foldl (fun (shapes, byItem) i =>
    if i.dot = i.steps.size then
      let s := Shape.ofSteps t i.steps
      match shapes.findIdx? (· == s) with
      | some k => (shapes, byItem.push k)
      | none => (shapes.push s, byItem.push shapes.size)
    else (shapes, byItem.push 0)) ((#[{}] : Array Shape), (#[] : Array Nat))

/-! ## Actions of one state -/

/-- A set of items by which a state is known: items in order, each with its tokens. -/
structure Kernel where
  entries : Array (Nat × Nat)
deriving BEq, Inhabited

/-- Mixes a number of any size into a hash. -/
def mixNat (h : UInt64) (n : Nat) : UInt64 :=
  let h := mixHash h (UInt64.ofNat n)
  if n < 1 <<< 64 then h
  else
    let h := mixHash h (UInt64.ofNat (n >>> 64))
    mixHash h (UInt64.ofNat (n >>> 128))

instance : Hashable Kernel where
  hash k := k.entries.foldl (fun h (i, look) => mixNat (mixNat h i) look) 7

/-- What is known of the reductions on a token. -/
structure Reductions where
  prec : Int := 0
  left : Bool := false
  right : Bool := false
  neither : Bool := false
deriving Inhabited

structure Collected where
  actions : Array (List Action)
  reductions : Array Reductions
  conflicts : Nat := 0

/-- Adds a reduction on one token. -/
def Collected.reduceOn (c : Collected) (a : Action) (prec : Int) (assoc : Option Assoc)
    (token : Nat) : Collected :=
  let note (r : Reductions) : Reductions :=
    match assoc with
    | some .left => { r with prec, left := true }
    | some .right => { r with prec, right := true }
    | none => { r with prec, neither := true }
  match c with
  | ⟨actions, reductions, conflicts⟩ =>
    let old := actions.getD token []
    let known := reductions.getD token {}
    if old.isEmpty then
      ⟨actions.setIfInBounds token [a], reductions.setIfInBounds token (note known), conflicts⟩
    else if known.prec < prec then
      ⟨actions.setIfInBounds token [a], reductions.setIfInBounds token (note {}),
        if conflicts.testBit token then conflicts ^^^ (1 <<< token) else conflicts⟩
    else if known.prec = prec then
      ⟨actions.setIfInBounds token (old ++ [a]), reductions.setIfInBounds token (note known),
        conflicts ||| (1 <<< token)⟩
    else ⟨actions, reductions, conflicts⟩

/-- Applies a function for every bit that is set below `n`. -/
@[specialize] def foldBits {α : Type} (n bits : Nat) (f : α → Nat → α) (init : α) : α :=
  Nat.fold n (fun i _ acc => if bits.testBit i then f acc i else acc) init

/-- The action that completes an item. -/
def completionAction (t : ItemTable) (shapes : Array Nat) (item : Nat) : Action :=
  let i := t.table.items.getD item default
  if i.rule = t.numbering.rules then .accept
  else .reduce i.rule i.dot (shapes.getD item 0)

/-- The order in which completed items are considered: shorter ones, then earlier rules, then
lower precedence. -/
def completionBefore (t : ItemTable) (a b : Nat) : Bool :=
  let x := t.table.items.getD a default
  let y := t.table.items.getD b default
  if x.dot ≠ y.dot then x.dot < y.dot
  else if x.rule ≠ y.rule then x.rule < y.rule
  else
    match x.prec, y.prec with
    | none, none => a < b
    | none, some _ => true
    | some _, none => false
    | some p, some q => p < q || (p = q && a < b)

/-- Collects the reductions of a closed set. -/
def reductionsOf (t : ItemTable) (shapes : Array Nat) (look : Array Nat) (members : Array Nat) :
    Collected :=
  let n := t.numbering.tokens
  let done := members.filter fun i => (t.table.next.getD i none).isNone
  let sorted := done.toList.mergeSort fun a b => completionBefore t a b
  sorted.foldl (fun c item =>
    let i := t.table.items.getD item default
    let a := completionAction t shapes item
    foldBits n (look.getD item 0) (fun c token => c.reduceOn a (i.prec.getD 0) i.assoc token) c)
    ⟨Array.replicate n [], Array.replicate n {}, 0⟩

/-- Joins an item into a kernel under construction, which is in order of the items. -/
def insertEntry (item look : Nat) : List (Nat × Nat) → List (Nat × Nat)
  | [] => [(item, look)]
  | (i, l) :: rest =>
    if item < i then (item, look) :: (i, l) :: rest
    else if item = i then (i, l ||| look) :: rest
    else (i, l) :: insertEntry item look rest

/-- The kernels that a closed set leads to, by symbol, in buckets that were empty; the symbols that
have one are returned too. -/
def successorsOf (t : ItemTable) (look : Array Nat) (members : Array Nat)
    (buckets : Array (List (Nat × Nat))) : Array (List (Nat × Nat)) × List Nat :=
  members.foldl (fun (buckets, symbols) i =>
    match t.table.next.getD i none with
    | none => (buckets, symbols)
    | some s =>
      let old := buckets.getD s []
      let buckets := buckets.setIfInBounds s []
      let symbols := if old.isEmpty then s :: symbols else symbols
      (buckets.setIfInBounds s
        (insertEntry (t.table.successor.getD i 0) (look.getD i 0) old), symbols))
    (buckets, ([] : List Nat))

/-! ## Conflicts of one state -/

/-- The items of a closed set that take part in a conflict on a token: those that could read it
after a step, and those that it completes. -/
def conflicting (t : ItemTable) (look : Array Nat) (members : Array Nat) (token : Nat) :
    List (Nat × Bool) :=
  members.toList.filterMap fun i =>
    let item := t.table.items.getD i default
    match t.table.next.getD i none with
    | some s =>
      if 0 < item.dot && (t.first.getD s 0).testBit token then some (i, true) else none
    | none => if (look.getD i 0).testBit token then some (i, false) else none

/-- Weighs a shift against the reductions before it. -/
def resolve (t : ItemTable) (items : List (Nat × Bool)) (r : Reductions) (as : List Action) :
    List Action :=
  match as.getLast? with
  | some (.shift target _) =>
    let ruleOf (i : Nat) := (t.table.items.getD i default).rule
    let owners : List Nat := (items.map fun (i, _) => ruleOf i).filter (· ≠ t.numbering.rules)
    let sameRepeat : Bool := match owners with
      | [] => false
      | o :: rest =>
        (t.g.rules.getD o default).kind == Kind.auxiliary && rest.all (· = o)
    if sameRepeat then as.dropLast ++ [Action.shift target true]
    else
      let precs := (items.filter fun (_, reads) => reads).map fun (i, _) =>
        ((t.table.items.getD i default).prec).getD 0
      let more := precs.any fun p => r.prec < p
      let less := precs.any fun p => p < r.prec
      match less, more with
      | true, false => as.dropLast
      | false, true => [.shift target false]
      | true, true => as
      | false, false =>
        match r.left, r.neither, r.right with
        | true, false, false => as.dropLast
        | false, false, true => [.shift target false]
        | _, _, _ => as
  | _ => as

/-! ## Building all states -/

/-- States under construction. States before `states.size` are finished. -/
structure Builder where
  kernels : Array Kernel := #[]
  ids : Std.HashMap Kernel Nat := {}
  cores : Std.HashMap (Array Nat) Nat := {}
  coreOf : Array Nat := #[]
  states : Array State := #[]
  /-- Tables that are empty between two states. -/
  look : Array Nat
  buckets : Array (List (Nat × Nat))

def Builder.intern (b : Builder) (k : Kernel) : Nat × Builder :=
  match b with
  | ⟨kernels, ids, cores, coreOf, states, look, buckets⟩ =>
    match ids[k]? with
    | some n => (n, ⟨kernels, ids, cores, coreOf, states, look, buckets⟩)
    | none =>
      let n := kernels.size
      let core := k.entries.map Prod.fst
      let (c, cores) := match cores[core]? with
        | some c => (c, cores)
        | none => (cores.size, cores.insert core cores.size)
      (n, ⟨kernels.push k, ids.insert k n, cores, coreOf.push c, states, look, buckets⟩)

/-- Interns the kernels found for some symbols, whose buckets are emptied. -/
def Builder.internAll (b : Builder) (symbols : List Nat) : List (Nat × Nat) × Builder :=
  let (out, b) := symbols.foldl (fun (out, b) s =>
    match b with
    | ⟨kernels, ids, cores, coreOf, states, look, buckets⟩ =>
      let k : Kernel := ⟨(buckets.getD s []).toArray⟩
      let (n, b) := Builder.intern
        ⟨kernels, ids, cores, coreOf, states, look, buckets.setIfInBounds s []⟩ k
      ((s, n) :: out, b)) (([] : List (Nat × Nat)), b)
  (out.reverse, b)

/-- The order in which the symbols after a state are followed: external tokens, the other tokens,
and then rules. -/
def followOrder (n : Numbering) (symbols : List Nat) : List Nat :=
  let sorted := symbols.mergeSort fun a b => a ≤ b
  sorted.filter n.isExternal ++ sorted.filter fun s => !n.isExternal s

/-- What every state shares: the shapes of the items, and the extras that may start anywhere. -/
structure Common where
  t : ItemTable
  shapes : Array Nat
  /-- The first tokens of extra rules, with the states after them. -/
  extraShifts : List (Nat × Nat)
  extraTokens : List Nat
  extraRules : List Nat

/-- Adds the actions on extras, wherever the state has none of its own. -/
def Common.addExtras (c : Common) (s : State) : State :=
  if !(s.actionsOn c.t.numbering.extraEnd).isEmpty then s
  else
    let set (as : Array (List Action)) (token : Nat) (a : Action) :=
      if (as.getD token []).isEmpty then as.setIfInBounds token [a] else as
    let actions := c.extraShifts.foldl (fun as (token, state) => set as token (.shift state false))
      s.actions
    let actions := c.extraTokens.foldl (fun as token => set as token .shiftExtra) actions
    let gotos := c.extraRules.map fun r => (r, Goto.extra)
    { s with
      actions
      gotos := gotos ++ s.gotos.filter fun (r, _) => !c.extraRules.contains r }

def Builder.step (c : Common) (b : Builder) (k : Kernel) : Builder :=
  match b with
  | ⟨kernels, ids, cores, coreOf, states, look, buckets⟩ =>
    let t := c.t
    let ⟨look, members⟩ := Closure.close t look k.entries
    let collected := reductionsOf t c.shapes look members
    let (buckets, symbols) := successorsOf t look members buckets
    let ⟨next, ⟨kernels, ids, cores, coreOf, states, _, buckets⟩⟩ :=
      Builder.internAll ⟨kernels, ids, cores, coreOf, states, #[], buckets⟩
        (followOrder t.numbering symbols)
    let tokens := next.filter fun (s, _) => !t.numbering.isRule s
    let rules := next.filter fun (s, _) => t.numbering.isRule s
    let (actions, conflicts) := tokens.foldl (fun (actions, conflicts) (s, n) =>
      let old := actions.getD s []
      (actions.setIfInBounds s (old ++ [.shift n false]),
        if old.isEmpty then conflicts else conflicts ||| (1 <<< s)))
      (collected.actions, collected.conflicts)
    let actions :=
      if conflicts = 0 then actions
      else foldBits t.numbering.tokens conflicts (fun actions token =>
        actions.modify token fun as =>
          resolve t (conflicting t look members token) (collected.reductions.getD token {}) as)
        actions
    let state := c.addExtras
      { actions
        gotos := rules.map fun (s, n) => (s - t.numbering.tokens, Goto.state n)
        core := coreOf.getD states.size 0 }
    let look := Closure.Closing.clear ⟨look, members⟩
    ⟨kernels, ids, cores, coreOf, states.push state, look, buckets⟩

def Builder.run (c : Common) (fuel : Nat) (b : Builder) : Builder :=
  match fuel with
  | 0 => b
  | fuel + 1 =>
    match b.kernels[b.states.size]? with
    | none => b
    | some k => Builder.run c fuel (b.step c k)

/-- Groups the starts of extra rules by their first token, in order of the tokens. -/
def extraKernels (starts : List (Nat × Nat)) (look : Nat) : List (Nat × Kernel) :=
  let tokens := (starts.map Prod.fst).eraseDups.mergeSort fun a b => a ≤ b
  tokens.map fun token =>
    let items := (starts.filter fun (s, _) => s = token).foldl (fun es (_, i) =>
      insertEntry i look es) []
    (token, ⟨items.toArray⟩)

structure States where
  states : Array State
  shapes : Array Shape
deriving Inhabited

def States.ofItems (t : ItemTable) : States :=
  let n := t.numbering
  let (shapes, byItem) := shapesOf t
  let b : Builder :=
    { look := Array.replicate t.table.items.size 0
      buckets := Array.replicate (n.tokens + n.rules) [] }
  let (_, b) := b.intern ⟨#[]⟩
  let (_, b) := b.intern ⟨#[(t.start, 1 <<< n.eof)]⟩
  let (extraShifts, b) := (extraKernels t.extraStarts (1 <<< n.extraEnd)).foldl
    (fun (out, b) (token, k) =>
      let (s, b) := b.intern k
      ((token, s) :: out, b)) (([] : List (Nat × Nat)), b)
  let c : Common :=
    { t
      shapes := byItem
      extraShifts := extraShifts.reverse
      extraTokens := t.g.lexicon.extras.filterMap fun s => match s with
        | .rule _ => none
        | s => some (n.ofSymbol s)
      extraRules := extraRules t.g }
  let b := b.run c (1 <<< 20)
  ⟨b.states, shapes⟩

end Table

end Lumen
