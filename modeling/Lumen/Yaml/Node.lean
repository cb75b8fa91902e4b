import Lumen.Yaml.Event
import Lumen.Yaml.Number

/-!
# Nodes of YAML

A document is a tree of nodes. A node with an anchor has a number, by which an alias can point to
it. Anchors are numbered by how many names have been seen before; where a name is given again the
number of its first use is not used again, so numbers can coincide, and then the node that begins
last counts.
-/

namespace Lumen

namespace Yaml

/-- A value in a document. -/
inductive Node where
  | alias (target : Nat)
  | scalar (anchor : Option Nat) (s : Scalar)
  | sequence (anchor : Option Nat) (items : List Node)
  | mapping (anchor : Option Nat) (entries : List (Node × Node))
deriving Repr, Inhabited

/-! ## From events -/

/-- A collection whose end has not come. -/
structure Frame where
  anchor : Option Nat
  isMapping : Bool
  items : List Node := []
deriving Inhabited

/-- What has been read of a document. -/
structure Reading where
  names : List (Text × Nat) := []
  frames : List Frame := []
  root : Option Node := none
deriving Inhabited

/-- The items of a list two by two. -/
def pairs {α : Type} : List α → List (α × α)
  | a :: b :: rest => (a, b) :: pairs rest
  | _ => []

def Frame.node (f : Frame) : Node :=
  if f.isMapping then .mapping f.anchor (pairs f.items.reverse)
  else .sequence f.anchor f.items.reverse

namespace Reading

/-- Gives a number to an anchor. -/
def number (r : Reading) (anchor : Option Text) : Option Nat × Reading :=
  match anchor with
  | none => (none, r)
  | some name =>
    let n := r.names.length
    (some n, { r with names := (name, n) :: r.names.filter fun e => e.1 ≠ name })

/-- Puts a node into the innermost open collection. -/
def add (r : Reading) (n : Node) : Reading :=
  match r.frames with
  | [] => { r with root := some n }
  | f :: fs => { r with frames := { f with items := n :: f.items } :: fs }

def enter (r : Reading) (anchor : Option Text) (isMapping : Bool) : Reading :=
  let (anchor, r) := r.number anchor
  { r with frames := { anchor, isMapping } :: r.frames }

def leave (r : Reading) : Reading :=
  match r.frames with
  | [] => r
  | f :: fs => { r with frames := fs }.add f.node

/-- Reads an event. An alias for which there is no anchor before it is a fault. -/
def read? (r : Reading) : Event → Option Reading
  | .alias name => (r.names.lookup name).map fun n => r.add (.alias n)
  | .scalar anchor s =>
    let (anchor, r) := r.number anchor
    some (r.add (.scalar anchor s))
  | .sequenceStart anchor => some (r.enter anchor false)
  | .mappingStart anchor => some (r.enter anchor true)
  | .sequenceEnd | .mappingEnd => some r.leave

end Reading

/-! ## Anchors -/

mutual

/-- The nodes with a number in a node, in the order in which they begin. -/
def Node.numbered : Node → List (Nat × Node)
  | .alias _ => []
  | .scalar anchor s => (anchor.map fun n => (n, .scalar anchor s)).toList
  | .sequence anchor items =>
    (anchor.map fun n => (n, .sequence anchor items)).toList ++ numberedItems items
  | .mapping anchor entries =>
    (anchor.map fun n => (n, .mapping anchor entries)).toList ++ numberedEntries entries

def numberedItems : List Node → List (Nat × Node)
  | [] => []
  | n :: ns => n.numbered ++ numberedItems ns

def numberedEntries : List (Node × Node) → List (Nat × Node)
  | [] => []
  | (k, v) :: es => k.numbered ++ v.numbered ++ numberedEntries es

end

/-- The tree of a document, if there is any text, and its nodes with a number. -/
structure Document where
  root : Option Node
  numbered : List (Nat × Node)
deriving Inhabited

namespace Document

def ofRoot (root : Option Node) : Document := ⟨root, (root.map Node.numbered).getD []⟩

def ofEvents? (events : List Event) : Option Document :=
  (events.foldlM Reading.read? {}).map fun r => ofRoot r.root

/-- The document of a text, if it has the form of one. -/
def ofText? (t : Text) : Option Document := do ofEvents? (← events? (← tokens? t))

/-! ## Values -/

/-- What an alias stands for, and any other node itself. -/
def resolve? (d : Document) : Node → Option Node
  | .alias n => d.numbered.reverse.lookup n
  | n => some n

/-- The words by which nothing is told. -/
def isNull (t : Text) : Bool := ["null", "Null", "NULL", "~"].any (·.toList = t)

/-- A scalar as a text, whatever it could mean besides. -/
def text? (d : Document) (n : Node) : Option Text :=
  match d.resolve? n with
  | some (.scalar _ s) => some s.value
  | _ => none

def nullTag : Text := "tag:yaml.org,2002:null".toList

def wholeTag : Text := "tag:yaml.org,2002:int".toList

/-- Whether a scalar can be a number at all. -/
def canBeNumber (s : Scalar) : Bool :=
  s.style = .plain || (s.style = .literal && s.tag = some wholeTag)

/-- A scalar as a whole number below a bound. -/
def natural? (d : Document) (bound : Nat) (n : Node) : Option Nat :=
  match d.resolve? n with
  | some (.scalar _ s) => if canBeNumber s then Yaml.natural? bound s.value else none
  | _ => none

/-- A scalar as a text or as nothing. A plain one is nothing if it is empty or a word for nothing;
one that is tagged as nothing has to be such a word. -/
def optionalText? (d : Document) (n : Node) : Option (Option Text) :=
  match d.resolve? n with
  | some (.scalar _ s) =>
    if s.style ≠ .plain then some (some s.value)
    else
      match s.tag with
      | none => if s.value = [] ∨ isNull s.value then some none else some (some s.value)
      | some tag =>
        if tag ≠ nullTag then some (some s.value)
        else if isNull s.value then some none
        else none
  | _ => none

/-- Whether a node is an empty plain scalar, which can stand for an empty collection. -/
def isEmpty (n : Node) : Bool :=
  match n with
  | .scalar _ s => s.style = .plain && s.value = []
  | _ => false

def texts? (d : Document) (n : Node) : Option (List Text) := do
  let n ← d.resolve? n
  match n with
  | .sequence _ items => items.mapM d.text?
  | n => if isEmpty n then return [] else none

end Document

end Yaml

end Lumen
