import Lumen.Language.Basic

/-!
# Subtrees

A `Subtree` is what a parse builds: tokens, and nodes over what follows one another. It holds hidden
nodes too. Each subtree knows the gap before it, its size, and what its errors cost, so that the
readings of a text can be weighed against each other without looking into the trees.

The cost of an error grows with what is skipped: each token or node, each character and each line
of it, and the recovery as such. A token that is missing costs a fixed amount.
-/

namespace Lumen

/-- What a subtree knows of itself. -/
structure Subtree.Info where
  symbol : Nat
  padding : Extent
  size : Extent
  shape : Nat := 0
  visible : Bool
  /-- An extra is no child in the sense of the grammar. -/
  extra : Bool := false
  missing : Bool := false
  keyword : Bool := false
  state : Option Nat := none
  cost : Nat := 0
  visibleChildren : Nat := 0
  namedChildren : Nat := 0
  visibleDescendants : Nat := 0
  memory : Option Nat := none
  /-- Whether a scanner remembers something else than before. -/
  memoryChanges : Bool := false
deriving Inhabited

/-- A token, or a node over its children. -/
inductive Subtree where
  | mk (info : Subtree.Info) (children : List Subtree)
deriving Inhabited

namespace Subtree

/-! ## Costs -/

def recoveryCost : Nat := 500

def missingCost : Nat := 110

def skippedTreeCost : Nat := 100

def skippedLineCost : Nat := 30

def skippedByteCost : Nat := 1

/-! ## Looking at a subtree -/

def info : Subtree → Info
  | mk i _ => i

def children : Subtree → List Subtree
  | mk _ cs => cs

def symbol (t : Subtree) : Nat := t.info.symbol

def extra (t : Subtree) : Bool := t.info.extra

def isLeaf (t : Subtree) : Bool := t.children.isEmpty

def extent (t : Subtree) : Extent := t.info.padding + t.info.size

def cost (t : Subtree) : Nat :=
  if t.info.missing then missingCost + recoveryCost else t.info.cost

def isError (t : Subtree) : Bool := t.symbol = Language.errorSymbol

/-- Whether the subtree stands for something skipped: an error or a part of one. -/
def isSkipped (symbol : Nat) : Bool :=
  symbol = Language.errorSymbol || symbol = Language.skippedSymbol

/-- How much a subtree counts as progress. -/
def progress (t : Subtree) : Nat :=
  t.info.visibleDescendants + (if t.info.visible then 1 else 0) +
    (if t.symbol = Language.skippedSymbol then 1 else 0)

def withExtra (extra : Bool) : Subtree → Subtree
  | mk i cs => mk { i with extra } cs

/-! ## Building -/

/-- A token. The end of the text is an extra. -/
def leaf (l : Language) (symbol : Nat) (padding size : Extent) (state : Option Nat) : Subtree :=
  mk { symbol, padding, size, state
       visible := (l.info symbol).visible, extra := symbol = l.numbering.eof } []

def relabel (l : Language) (symbol : Nat) : Subtree → Subtree
  | mk i cs => mk { i with symbol, visible := (l.info symbol).visible } cs

def missingLeaf (l : Language) (symbol : Nat) : Subtree :=
  match leaf l symbol {} {} none with
  | mk i cs => mk { i with missing := true } cs

/-- What a child adds to the cost of an error. -/
def skipCost (child : Subtree) : Nat :=
  if child.extra || (child.isError && child.isLeaf) then 0
  else if child.info.visible then skippedTreeCost
  else skippedTreeCost * child.info.visibleChildren

/-- Takes account of one more child; `place` counts the children that are not extras. -/
def Info.addChild (l : Language) (i : Info) (first : Bool) (place : Nat) (child : Subtree) : Info :=
  let c := child.info
  let cost := (if c.symbol = Language.skippedSymbol then 0 else child.cost) +
    (if isSkipped i.symbol then skipCost child else 0)
  let rename := if c.extra || c.symbol = l.numbering.eof then none else l.aliasAt? i.shape place
  let shows := rename.isSome || c.visible
  let named := (l.info (rename.getD c.symbol)).named
  { i with
    padding := if first then c.padding else i.padding
    size := if first then c.size else i.size + child.extent
    cost := i.cost + cost
    visibleChildren := i.visibleChildren + (if shows then 1 else c.visibleChildren)
    namedChildren := i.namedChildren +
      (if shows then (if named then 1 else 0) else c.namedChildren)
    visibleDescendants := i.visibleDescendants + c.visibleDescendants + (if shows then 1 else 0) }

/-- A node over its children. -/
def node (l : Language) (symbol shape : Nat) (children : List Subtree) : Subtree :=
  let start : Info :=
    { symbol, shape, padding := {}, size := {}, visible := (l.info symbol).visible }
  let (i, _, _) := children.foldl (fun (i, first, place) c =>
    (i.addChild l first place c, false, if c.extra then place else place + 1)) (start, true, 0)
  let cost :=
    if isSkipped symbol then
      recoveryCost + skippedByteCost * i.size.bytes + skippedLineCost * i.size.row
    else 0
  mk { i with cost := i.cost + cost } children

def errorNode (l : Language) (children : List Subtree) (extra : Bool) : Subtree :=
  (node l Language.errorSymbol 0 children).withExtra extra

/-! ## Comparison -/

/-- Which of two subtrees comes first, decided at the first place where they differ, from the top
down: by their symbols, and then by how many children they have. -/
def compareAll (l : Language) (fuel : Nat) (pairs : List (Subtree × Subtree)) : Ordering :=
  match fuel, pairs with
  | 0, _ => .eq
  | _, [] => .eq
  | fuel + 1, (a, b) :: rest =>
    match compare (l.rank a.symbol) (l.rank b.symbol) with
    | .eq =>
      match compare a.children.length b.children.length with
      | .eq => compareAll l fuel (a.children.zip b.children ++ rest)
      | o => o
    | o => o

mutual
def count : Subtree → Nat
  | mk _ cs => countAll cs + 1
def countAll : List Subtree → Nat
  | [] => 0
  | t :: ts => t.count + countAll ts
end

def order (l : Language) (a b : Subtree) : Ordering := compareAll l (a.count + 1) [(a, b)]

/-- Whether the second of two readings is to be taken: the one whose errors cost less; of two with
errors the later one, and else the one that comes first. -/
def prefers (l : Language) (a b : Subtree) : Bool :=
  if b.cost < a.cost then true
  else if a.cost < b.cost then false
  else if 0 < a.cost then true
  else a.order l b == .gt

/-- Whether two subtrees make no difference to the rest of a parse. -/
def isEquivalent (a b : Subtree) : Bool :=
  a.symbol = b.symbol &&
    ((0 < a.cost && 0 < b.cost) ||
      (a.info.padding.bytes = b.info.padding.bytes && a.info.size.bytes = b.info.size.bytes &&
        a.children.length = b.children.length && a.extra = b.extra &&
        a.info.memory = b.info.memory))

/-- The extras at the end of a list of subtrees, and what comes before them. -/
def splitExtras (ts : List Subtree) : List Subtree × List Subtree :=
  let back := ts.reverse
  ((back.dropWhile extra).reverse, (back.takeWhile extra).reverse)

end Subtree

end Lumen
