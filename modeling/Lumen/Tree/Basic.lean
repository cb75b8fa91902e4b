import Lumen.Parse.Run

/-!
# Syntax trees

A `SyntaxTree` holds the visible nodes of a parsed text in the order in which they begin, each
before the nodes inside it. What hidden nodes around a node say about it is kept with the node: the
field it is in, the supertypes it belongs to, and what may come after it.
-/

namespace Lumen

namespace SyntaxTree

/-- A visible node. -/
structure Node where
  symbol : Nat
  named : Bool
  missing : Bool
  start : Extent
  stop : Extent
  parent : Option Nat
  /-- The place in the tree after the node and all that is inside it. -/
  next : Nat
  depth : Nat
  field : Option Nat := none
  supertypes : List Nat := []
  hasLaterSibling : Bool := false
  hasLaterNamedSibling : Bool := false
  fieldMayRecur : Bool := false
deriving Inhabited

/-- What is known of a node from the hidden nodes around it. -/
structure Setting where
  field : Option Nat := none
  fieldMayRecur : Bool := false
  laterFields : List Nat := []
  supertypes : List Nat := []
  /-- Whether a visible node comes later, and whether a named one does. -/
  later : Option Bool := none

/-- Whether anything visible follows in a list of children, and whether anything named; `place`
counts the children that are not extras. -/
def laterIn (l : Language) (shape place : Nat) (found : Option Bool) : List Subtree → Option Bool
  | [] => found
  | t :: rest =>
    let i := t.info
    let how := l.info (((if i.extra then none else l.aliasAt? shape place)).getD i.symbol)
    let place := if i.extra then place else place + 1
    let shows := how.visible || 0 < i.visibleChildren
    let named := if how.visible then how.named else 0 < i.namedChildren
    if !shows then laterIn l shape place found rest
    else if named then some true
    else laterIn l shape place (some false) rest

/-- The setting of a child in the node or hidden node around it; `rest` are the children after it.
-/
def Setting.inner (l : Language) (s : Setting) (shape place : Nat) (child : Subtree)
    (symbol : Nat) (rest : List Subtree) : Setting :=
  let fields := if child.extra then [] else ((l.shapes[shape]?).map (·.fields)).getD []
  let own := (fields.find? fun (_, p, inherited) => !inherited && p = place).map Prod.fst
  let here := (fields.filter fun (_, p, _) => place < p).map Prod.fst
  let laterFields := (here.filter fun f => !s.laterFields.contains f) ++ s.laterFields
  { field := own <|> s.field
    fieldMayRecur := match own with
      | some f => laterFields.contains f
      | none => s.fieldMayRecur
    laterFields
    supertypes := if (l.info symbol).supertype then symbol :: s.supertypes else s.supertypes
    later := laterIn l shape (if child.extra then place else place + 1) none rest <|> s.later }

/-- A node as its setting has it. -/
def Node.ofSubtree (l : Language) (t : Subtree) (symbol : Nat) (start : Extent) (s : Setting)
    (parent : Option Nat) (depth : Nat) : Node :=
  { symbol := l.shown.getD symbol symbol
    named := (l.info symbol).named
    missing := t.info.missing
    start, stop := start + t.info.size
    parent, next := 0, depth
    field := s.field
    supertypes := s.supertypes
    hasLaterSibling := s.later.isSome
    hasLaterNamedSibling := s.later.getD false
    fieldMayRecur := s.fieldMayRecur }

mutual
/-- Adds the visible nodes of a subtree that begins, gap included, at a place. -/
def addSubtree (l : Language) (symbol : Nat) (at_ : Extent) (s : Setting) (parent : Option Nat)
    (depth : Nat) (nodes : Array Node) : Subtree → Array Node
  | .mk i cs =>
    if (l.info symbol).visible then
      let me := nodes.size
      let nodes := nodes.push
        (Node.ofSubtree l (.mk i cs) symbol (at_ + i.padding) s parent depth)
      let nodes := addAll l i.shape 0 at_ {} (some me) (depth + 1) nodes cs
      let next := nodes.size
      nodes.modify me fun n => { n with next }
    else if i.visibleChildren = 0 then nodes
    else addAll l i.shape 0 at_ s parent depth nodes cs
def addAll (l : Language) (shape place : Nat) (at_ : Extent) (s : Setting) (parent : Option Nat)
    (depth : Nat) (nodes : Array Node) : List Subtree → Array Node
  | [] => nodes
  | t :: rest =>
    let symbol := if t.extra then t.symbol else (l.aliasAt? shape place).getD t.symbol
    let nodes := addSubtree l symbol at_ (s.inner l shape place t symbol rest) parent depth nodes t
    addAll l shape (if t.extra then place else place + 1) (at_ + t.extent) s parent depth nodes
      rest
end

end SyntaxTree

/-- The visible nodes of a text in the order in which they begin. -/
structure SyntaxTree where
  nodes : Array SyntaxTree.Node
  hasError : Bool
deriving Inhabited

namespace SyntaxTree

def ofSubtree (l : Language) (t : Subtree) : SyntaxTree :=
  ⟨addSubtree l t.symbol {} {} none 0 #[] t, 0 < t.cost⟩

def root (t : SyntaxTree) : Node := t.nodes.getD 0 default

def node (t : SyntaxTree) (n : Nat) : Node := t.nodes.getD n default

def firstChild? (t : SyntaxTree) (n : Nat) : Option Nat :=
  if n + 1 < (t.node n).next then some (n + 1) else none

def nextSibling? (t : SyntaxTree) (n : Nat) : Option Nat :=
  let i := t.node n
  match i.parent with
  | none => none
  | some p => if i.next < (t.node p).next then some i.next else none

end SyntaxTree

namespace Language

def tree? (l : Language) (text : String) : Option SyntaxTree :=
  (l.parse? text).map (SyntaxTree.ofSubtree l)

end Language

end Lumen
