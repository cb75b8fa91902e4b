import Lumen.Table.Keyword

/-!
# Merging states

Different sets of items often lead to the same actions. `Merge.merge` joins states whose items
differ in nothing but the tokens that may follow, as far as this changes no action and adds no
token that could be confused with one that a state already has. `Merge.skipUnits` then leads past
states that do nothing but wrap a single child in a hidden node, and `Merge.compact` drops the
states that cannot be reached any more and numbers the rest by falling size.
-/

namespace Lumen

namespace Table

namespace Merge

open Grammar Lexer

/-- What decides whether a token may be added to a state. -/
structure Guard where
  numbering : Numbering
  /-- For each token the tokens beside which it must not be added. -/
  clashes : Array Nat
  fixed : Nat

/-- Works out which tokens clash. A keyword and the word token do not. -/
def Guard.ofConflicts (n : Numbering) (word : Option Nat) (keywords : Nat) (c : Conflicts) :
    Guard where
  numbering := n
  clashes := (Array.range n.terminals).map fun i =>
    (List.range n.terminals).foldl (fun s j =>
      let related := (word = some j && keywords.testBit i) || (word = some i && keywords.testBit j)
      if !related && c.conflict i j then s ||| (1 <<< j) else s) 0
  fixed := (List.range n.externals).foldl (fun s e => s ||| (1 <<< (n.terminals + e)))
    (1 <<< n.extraEnd)

structure Groups where
  members : Array (List Nat)
  groupOf : Array Nat

/-- Splits a list of at most `fuel` states so that no state is kept that must be apart from one
kept before it. -/
def separate (apart : Nat → Nat → Bool) (fuel : Nat) (states : List Nat) : List Nat × List Nat :=
  match fuel, states with
  | 0, states => (states, [])
  | _, [] => ([], [])
  | fuel + 1, s :: rest =>
    let (away, near) := rest.partition (apart s)
    let (kept, split) := separate apart fuel near
    (s :: kept, away ++ split)

/-- Splits every group once, also those that the splits make; tells whether any was split. What
decides is prepared once per group, from the groups as they are then. -/
@[specialize] def Groups.split {β : Type} (prepare : Array Nat → List Nat → β)
    (apart : β → Nat → Nat → Bool) (fuel : Nat) (g : Groups) (next : Nat) (changed : Bool) :
    Groups × Bool :=
  match fuel with
  | 0 => (g, changed)
  | fuel + 1 =>
    match g.members[next]? with
    | none => (g, changed)
    | some [] => Groups.split prepare apart fuel g (next + 1) changed
    | some [_] => Groups.split prepare apart fuel g (next + 1) changed
    | some states =>
      let (kept, away) := separate (apart (prepare g.groupOf states)) states.length states
      if away.isEmpty then Groups.split prepare apart fuel g (next + 1) changed
      else
        let new := g.members.size
        Groups.split prepare apart fuel
          ⟨(g.members.setIfInBounds next kept).push away,
            away.foldl (fun of s => of.setIfInBounds s new) g.groupOf⟩ (next + 1) true

/-- Whether two lists of actions differ once states are replaced by their groups. -/
def actionsDiffer (groupOf : Array Nat) : List Action → List Action → Bool
  | [], [] => false
  | .shift s r :: as, .shift t q :: bs =>
    groupOf.getD s 0 ≠ groupOf.getD t 0 || r ≠ q || actionsDiffer groupOf as bs
  | a :: as, b :: bs => a != b || actionsDiffer groupOf as bs
  | _, _ => true

/-- What is looked up of a state while it is compared with others. -/
structure Profile where
  tokens : Nat
  /-- The tokens that must not be added to it. -/
  barred : Nat
  actions : Array (List Action)
deriving Inhabited

def Profile.ofState (g : Guard) (s : State) : Profile :=
  let tokens := s.tokenSet
  { tokens
    barred := Nat.fold g.numbering.terminals (fun i _ acc =>
      if (g.clashes.getD i 0) &&& tokens ≠ 0 then acc ||| (1 <<< i) else acc) g.fixed
    actions := s.actions }

/-- Whether two states must not be joined because of their actions. -/
def conflict (groupOf : Array Nat) (profiles : Array Profile) (s t : Nat) : Bool :=
  let x := profiles.getD s default
  let y := profiles.getD t default
  let differ := x.tokens ^^^ y.tokens
  (differ ≠ 0 && (differ &&& x.tokens &&& y.barred ≠ 0 || differ &&& y.tokens &&& x.barred ≠ 0)) ||
    Nat.any x.actions.size fun i _ =>
      match x.actions.getD i [], y.actions.getD i [] with
      | [], _ => false
      | _, [] => false
      | a, b => actionsDiffer groupOf a b

/-- The state to which a list of actions shifts in the end. -/
def lastShift? (as : List Action) : Option Nat :=
  match as.getLast? with
  | some (.shift s _) => some s
  | _ => none

def waysOn (n : Numbering) (s : State) : Array (Nat × Option Nat) :=
  let shifts := (Array.range n.tokens).filterMap fun i =>
    (lastShift? (s.actionsOn i)).map fun t => (i, some t)
  let gotos := s.gotos.toArray.map fun (r, g) => match g with
    | .state t => (n.ofRule r, some t)
    | .extra => (n.ofRule r, none)
  shifts ++ gotos

/-- Whether two lists of ways on, in order of the symbols, lead to different groups on a symbol of
both. -/
def waysDiffer (fuel : Nat) (a b : Array (Nat × Option Nat)) (i j : Nat) : Bool :=
  match fuel with
  | 0 => false
  | fuel + 1 =>
    match a[i]?, b[j]? with
    | some (s, x), some (t, y) =>
      if s < t then waysDiffer fuel a b (i + 1) j
      else if t < s then waysDiffer fuel a b i (j + 1)
      else x != y || waysDiffer fuel a b (i + 1) (j + 1)
    | _, _ => false

abbrev WaysTable := Std.HashMap Nat (Array (Nat × Option Nat))

/-- The ways on of some states, with groups for states. -/
def groupedWays (ways : Array (Array (Nat × Option Nat))) (groupOf : Array Nat)
    (states : List Nat) : WaysTable :=
  states.foldl (fun table s =>
    table.insert s
      ((ways.getD s #[]).map fun (symbol, t) => (symbol, t.map fun t => groupOf.getD t 0))) {}

/-- Whether two states lead to different groups. -/
def leadApart (table : WaysTable) (s t : Nat) : Bool :=
  let a := table.getD s #[]
  let b := table.getD t #[]
  a != b && waysDiffer (a.size + b.size + 1) a b 0 0

/-- Splits groups until the members of each lead to the same groups. -/
def settle (fuel : Nat) (ways : Array (Array (Nat × Option Nat))) (g : Groups) : Groups :=
  match fuel with
  | 0 => g
  | fuel + 1 =>
    let (g, changed) := g.split (groupedWays ways) leadApart (1 <<< 20) 0 false
    if changed then settle fuel ways g else g

/-- Joins the states of a group: the first one with the actions and ways on that the others add. -/
def join (states : Array State) (members : List Nat) : State :=
  match members with
  | [] => default
  | first :: rest =>
    rest.foldl (fun acc s =>
      let other := states.getD s default
      { acc with
        actions := acc.actions.zipWith (fun a b => if a.isEmpty then b else a) other.actions
        gotos := acc.gotos ++ other.gotos.filter fun (r, _) => (acc.gotos.lookup r).isNone })
      (states.getD first default)

/-- Puts the group of a state in the given place. -/
def Groups.place (g : Groups) (state target : Nat) : Groups :=
  let here := g.groupOf.getD state 0
  if here = target then g
  else
    let a := g.members.getD here []
    let b := g.members.getD target []
    let groupOf := a.foldl (fun of s => of.setIfInBounds s target) g.groupOf
    let groupOf := b.foldl (fun of s => of.setIfInBounds s here) groupOf
    ⟨(g.members.setIfInBounds here b).setIfInBounds target a, groupOf⟩

def merge (guard : Guard) (states : Array State) : Array State :=
  let coreCount := states.foldl (fun m s => max m (s.core + 1)) 0
  let members := (Array.range states.size).foldr (fun s ms =>
    ms.modify (states.getD s default).core (s :: ·)) (Array.replicate coreCount [])
  let g : Groups := ⟨members, states.map (·.core)⟩
  let profiles := states.map (Profile.ofState guard)
  let (g, _) := g.split (fun groupOf _ => groupOf) (conflict · profiles) (1 <<< 20) 0 false
  let ways := states.map (waysOn guard.numbering)
  let g := settle (1 <<< 16) ways g
  let g := (g.place 0 0).place 1 1
  g.members.map fun ms => (join states ms).redirect fun s => g.groupOf.getD s 0

/-! ## States that only wrap a child -/

/-- The symbols that occur under an alias. -/
def renamedRules (g : Grammar.Syntax) : List Nat :=
  g.rules.toList.flatMap fun r => r.productions.toList.flatMap fun p => p.toList.filterMap fun s =>
    match s.symbol, s.rename with
    | .rule i, some _ => some i
    | _, _ => none

/-- Whether a node of the rule, made of one plain child, can be left out of the tree. -/
def isTransparent (g : Grammar.Syntax) (renamed : List Nat) (r : Nat) : Bool :=
  (g.rules.getD r default).kind != .named && !renamed.contains r &&
    !g.lexicon.supertypes.contains r &&
    (Syntax.defaultOf g.aliases (.rule r)).isNone && !g.lexicon.extras.contains (.rule r)

/-- The rule that a state wraps its only child in, if it does nothing else. -/
def unitRule? (transparent : Array Bool) (s : State) : Option Nat :=
  let found := s.actions.foldl (fun (acc : Option (Option Nat)) as => as.foldl (fun acc a =>
    match acc, a with
    | none, _ => none
    | some r, .shiftExtra => some r
    | some none, .reduce r 1 0 => if transparent.getD r false then some (some r) else none
    | some (some q), .reduce r 1 0 => if q = r then some (some q) else none
    | some _, _ => none) acc) (some none)
  found.getD none

/-- Follows the wrapping states from where a state leads. -/
def pastUnits (units : Array (Option Nat)) (s : State) (fuel target : Nat) : Nat :=
  match fuel with
  | 0 => target
  | fuel + 1 =>
    match units.getD target none with
    | none => target
    | some r =>
      match s.goto? r with
      | some (.state t) => if t = target then t else pastUnits units s fuel t
      | _ => target

/-- Leads past the states that only wrap a child. -/
def skipUnits (g : Grammar.Syntax) (states : Array State) : Array State :=
  let renamed := renamedRules g
  let transparent := (Array.range g.rules.size).map (isTransparent g renamed)
  let units := states.map (unitRule? transparent)
  states.map fun s => s.redirect (pastUnits units s (states.size + 1))

/-! ## Numbering -/

def reachable (states : Array State) (fuel : Nat) (todo : List Nat) (seen : Array Bool) :
    Array Bool :=
  match fuel, todo with
  | 0, _ => seen
  | _, [] => seen
  | fuel + 1, s :: todo =>
    let visit (acc : List Nat × Array Bool) (t : Nat) : List Nat × Array Bool :=
      if acc.2.getD t true then acc else (t :: acc.1, acc.2.setIfInBounds t true)
    let state := states.getD s default
    let acc := state.actions.foldl (fun acc as => as.foldl (fun acc a => match a with
      | .shift t _ => visit acc t
      | _ => acc) acc) (todo, seen)
    let (todo, seen) := state.gotos.foldl (fun acc (_, g) => match g with
      | .state t => visit acc t
      | .extra => acc) acc
    reachable states fuel todo seen

/-- How many symbols a state has something to do on. -/
def weight (s : State) : Nat :=
  s.gotos.length + s.actions.foldl (fun n as => if as.isEmpty then n else n + 1) 0

/-- Drops the states that cannot be reached, and numbers the others by falling size; the first two
stay in their places. -/
def compact (states : Array State) : Array State :=
  let seen := reachable states (states.size + 1) [0, 1]
    (((Array.replicate states.size false).setIfInBounds 0 true).setIfInBounds 1 true)
  let kept := (List.range states.size).filter fun s => seen.getD s false
  let rest := ((kept.filter (1 < ·)).map fun s => (s, weight (states.getD s default))).mergeSort
    fun a b => b.2 ≤ a.2
  let order := 0 :: 1 :: rest.map Prod.fst
  let numbers := order.zipIdx.foldl (fun (ns : Array Nat) (s, i) => ns.setIfInBounds s i)
    (Array.replicate states.size 0)
  (order.map fun s => (states.getD s default).redirect fun t => numbers.getD t 0).toArray

end Merge

end Table

end Lumen
