import Lumen.Table.Item

/-!
# Closures of item sets

An item set says with which tokens each of its items may be followed. Where the symbol after a dot
is a rule, the productions of that rule belong to the set too. Which productions these are, and
which tokens may follow them from inside the expansion, depends on the rule alone, so it is worked
out once per rule: `Closure.additions` lists the items that a rule brings in, each with the tokens
that can always follow it and with whether what follows the rule may also follow the item.

An item set is kept as one set of tokens per item number; no tokens means that the item is not in
the set.
-/

namespace Lumen

namespace Table

open Grammar

/-- An item that the expansion of a rule brings in. -/
structure Addition where
  item : Nat
  lookaheads : Nat
  /-- What follows the rule may follow the item. -/
  atEnd : Bool
deriving Inhabited

/-- A completed item as the states see it. -/
structure Completion where
  rule : Nat
  count : Nat
  prec : Int
  assoc : Option Assoc
deriving Inhabited

/-- The items of a grammar and what the construction of states looks up for each. -/
structure ItemTable where
  g : Grammar.Syntax
  numbering : Numbering
  table : Items
  first : Array Nat
  last : Array Nat
  /-- The tokens that can begin what comes after the symbol after the dot; none at the end. -/
  after : Array Nat
  additions : Array (Array Addition)
  /-- The set of one item with which a parse starts. -/
  start : Nat
  /-- Items of the extra rules after their first token, under that token. -/
  extraStarts : List (Nat × Nat)
  fields : Array (List String)
deriving Inhabited

/-- What is known of a rule in the expansion of another: the tokens that can follow it there, and
whether it can end the expansion. -/
abbrev FollowInfo := Option (Nat × Bool)

/-- Works out what can follow each rule in the expansion of a rule. -/
def followInfo (n : Numbering) (g : Grammar.Syntax) (first : Array Nat) (fuel : Nat)
    (todo : List (Nat × Nat × Bool)) (info : Array FollowInfo) : Array FollowInfo :=
  match fuel, todo with
  | 0, _ => info
  | _, [] => info
  | fuel + 1, (r, look, atEnd) :: todo =>
    let (knownLook, knownEnd) := (info.getD r none).getD (0, false)
    let look' := if atEnd then knownLook else knownLook ||| look
    let end' := knownEnd || atEnd
    let changed := if atEnd then !knownEnd else look' ≠ knownLook
    let info := info.setIfInBounds r (some (look', end'))
    if changed then
      let todo := (g.rules.getD r default).productions.foldl (fun todo (p : Array Step) =>
        match p[0]?.bind fun s => Grammar.Lexicon.ruleIndex? s.symbol with
        | some i =>
          match p[1]? with
          | none => (i, look, atEnd) :: todo
          | some s => (i, first.getD (n.ofSymbol s.symbol) 0, false) :: todo
        | none => todo) todo
      followInfo n g first fuel todo info
    else followInfo n g first fuel todo info

/-- The start of every production of every rule, with the rule. -/
def productionItems (g : Grammar.Syntax) : Array (List Item) :=
  g.rules.mapIdx fun r rule => rule.productions.toList.map fun steps => ⟨r, steps, 0, false⟩

def internExpanded (c : ItemContext) (d : ItemDraft) (is : List Item) : List Nat × ItemDraft :=
  d.internAll (is.flatMap fun i =>
    match i.next?.bind (c.expand? i) with
    | some es => es
    | none => [i])

def extraRules (g : Grammar.Syntax) : List Nat :=
  g.lexicon.extras.filterMap Grammar.Lexicon.ruleIndex?

/-- Numbers the items of a grammar and prepares their closures. -/
def ItemTable.ofSyntax (g : Grammar.Syntax) : ItemTable :=
  let n := Numbering.ofSyntax g
  let first := firstSets n g
  let fields := hiddenFields g (n.rules + 1) (Array.replicate n.rules [])
  let c : ItemContext := ⟨g, fields⟩
  let startItem : Item := ⟨n.rules, #[⟨.rule 0, none, none, none, none⟩], 0, false⟩
  let (start, d) := ({} : ItemDraft).intern startItem
  let (starts, d) := (productionItems g).foldl (fun (out, d) is =>
    let (ns, d) := internExpanded c d is
    (out.push ns, d)) ((#[] : Array (List Nat)), d)
  let (extraStarts, d) := (extraRules g).foldl (fun (out, d) r =>
    (g.rules.getD r default).productions.foldl (fun (out, d) (steps : Array Step) =>
      let (i, d) := d.intern ⟨r, steps, 1, false⟩
      match steps[0]? with
      | some s => ((n.ofSymbol s.symbol, i) :: out, d)
      | none => (out, d)) (out, d)) (([] : List (Nat × Nat)), d)
  let table := numberItems n c (1 <<< 20) d {}
  let after := table.items.map fun i =>
    match i.steps[i.dot + 1]? with
    | some s => first.getD (n.ofSymbol s.symbol) 0
    | none => 0
  let additions := (Array.range n.rules).map fun r =>
    let info := followInfo n g first (1 <<< 24) [(r, 0, true)] (Array.replicate n.rules none)
    ((List.range n.rules).flatMap fun i =>
      match info.getD i none with
      | some (look, atEnd) =>
        if g.inlined.getD i false then []
        else (starts.getD i []).map fun item => (⟨item, look, atEnd⟩ : Addition)
      | none => []).toArray
  { g, numbering := n, table, first, last := lastSets n g, after, additions, start
    extraStarts := extraStarts.reverse, fields }

namespace Closure

/-- A set of items under construction: the tokens of each item, and the items that have any. -/
structure Closing where
  look : Array Nat
  members : Array Nat := #[]

@[inline] def Closing.add (c : Closing) (item tokens : Nat) : Closing :=
  match c with
  | ⟨look, members⟩ =>
    let old := look.getD item 0
    if old = 0 then ⟨look.setIfInBounds item tokens, members.push item⟩
    else ⟨look.setIfInBounds item (old ||| tokens), members⟩

/-- Forgets the members, so that the tokens can be used for another set. -/
def Closing.clear (c : Closing) : Array Nat :=
  match c with
  | ⟨look, members⟩ => members.foldl (fun look i => look.setIfInBounds i 0) look

/-- Joins what may follow a rule to what is known of other places where it stands. -/
def joinFollow (r tokens : Nat) : List (Nat × Nat) → List (Nat × Nat)
  | [] => [(r, tokens)]
  | (s, ts) :: rest =>
    if r = s then (s, ts ||| tokens) :: rest else (s, ts) :: joinFollow r tokens rest

def addKernel (t : ItemTable) (c : Closing) (follows : List (Nat × Nat)) (item tokens : Nat) :
    Closing × List (Nat × Nat) :=
  let c := c.add item tokens
  match t.table.next.getD item none with
  | some s =>
    if t.numbering.isRule s then
      let after := t.after.getD item 0
      (c, joinFollow (s - t.numbering.tokens) (if after = 0 then tokens else after) follows)
    else (c, follows)
  | none => (c, follows)

/-- The closure of a kernel, built in tables that hold no tokens. -/
def close (t : ItemTable) (empty : Array Nat) (kernel : Array (Nat × Nat)) : Closing :=
  let (c, follows) := kernel.foldl (fun (c, follows) (item, tokens) =>
    match t.table.expansion.getD item none with
    | some is => is.foldl (fun (c, follows) i => addKernel t c follows i tokens) (c, follows)
    | none => addKernel t c follows item tokens) ((⟨empty, #[]⟩ : Closing), ([] : List (Nat × Nat)))
  follows.foldl (fun c (r, following) =>
    (t.additions.getD r #[]).foldl (fun c a =>
      c.add a.item (if a.atEnd then a.lookaheads ||| following else a.lookaheads)) c) c

end Closure

end Table

end Lumen
