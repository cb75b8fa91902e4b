import Lumen.Parse.Subtree

/-!
# Branching stacks

A text can have several readings until more of it is known, and a parse follows them side by side.
Each reading is a stack of states with subtrees between them, and stacks share what they have in
common: a `Stack` is a table of nodes, each linked to the nodes below it, and the heads of the
readings.

* `push` puts a subtree on one head; `pop` follows the links down from a head along every path and
  returns for each path its subtrees. Paths that end in the same node share a head.
* Two heads `merge` if they stand in the same state at the same place; the node then has the links
  of both, up to eight, and links that make no difference are joined further down.
* A head is active, or it waits with a token that its state has no action on, or it is given up.
-/

namespace Lumen

namespace Stack

/-- A way down from a node. Where errors begin a link has no subtree. -/
structure Link where
  node : Nat
  tree : Option Subtree
deriving Inhabited

/-- A state with all that lies below it. -/
structure Node where
  state : Nat
  place : Extent := {}
  links : Array Link := #[]
  cost : Nat := 0
  progress : Nat := 0
deriving Inhabited

inductive Status where
  | active
  | waiting (lookahead : Subtree)
  | halted
deriving Inhabited

/-- A state that a reading has been in: where, and how many subtrees below the top. -/
structure Past where
  place : Extent
  depth : Nat
  state : Nat
deriving Inhabited

/-- The top of one reading. -/
structure Head where
  node : Nat
  /-- The progress when an error was met last. -/
  progressAtError : Nat := 0
  memory : Option Nat := none
  past : Option (Array Past) := none
  status : Status := .active
deriving Inhabited

/-- What was popped along one path, from the bottom up, and the head that was made where the path
ended. -/
structure Slice where
  head : Nat
  trees : List Subtree
deriving Inhabited

/-- A path that is being followed down. -/
structure Path where
  node : Nat
  trees : List Subtree := []
  /-- How many subtrees there are, extras not counted. -/
  depth : Nat := 0
deriving Inhabited

structure Verdict where
  take : Bool
  stop : Bool

/-- The most links that a node has. -/
def maxLinks : Nat := 8

/-- The most paths that are followed at a time. -/
def maxPaths : Nat := 64

end Stack

/-- The readings of a text up to where each stands. -/
structure Stack where
  nodes : Array Stack.Node
  heads : Array Stack.Head
deriving Inhabited

namespace Stack

def init (state : Nat) : Stack := ⟨#[{ state }], #[{ node := 0 }]⟩

def size (s : Stack) : Nat := s.heads.size

def head (s : Stack) (v : Nat) : Head := s.heads.getD v default

def nodeAt (s : Stack) (n : Nat) : Node := s.nodes.getD n default

def top (s : Stack) (v : Nat) : Node := s.nodeAt (s.head v).node

def state (s : Stack) (v : Nat) : Nat := (s.top v).state

def place (s : Stack) (v : Nat) : Extent := (s.top v).place

def isActive (s : Stack) (v : Nat) : Bool :=
  match (s.head v).status with
  | .active => true
  | _ => false

def isWaiting (s : Stack) (v : Nat) : Bool :=
  match (s.head v).status with
  | .waiting _ => true
  | _ => false

def isHalted (s : Stack) (v : Nat) : Bool :=
  match (s.head v).status with
  | .halted => true
  | _ => false

def haltedCount (s : Stack) : Nat := ((List.range s.size).filter s.isHalted).length

/-! ## Heads -/

def modifyHead (s : Stack) (v : Nat) (f : Head → Head) : Stack :=
  match s with
  | ⟨nodes, heads⟩ => ⟨nodes, heads.modify v f⟩

def setStatus (s : Stack) (v : Nat) (status : Status) : Stack :=
  s.modifyHead v fun h => { h with status }

def halt (s : Stack) (v : Nat) : Stack := s.setStatus v .halted

def pause (s : Stack) (v : Nat) (lookahead : Subtree) : Stack :=
  let progress := (s.top v).progress
  s.modifyHead v fun h => { h with status := .waiting lookahead, progressAtError := progress }

def remove (s : Stack) (v : Nat) : Stack :=
  match s with
  | ⟨nodes, heads⟩ => ⟨nodes, heads.eraseIdxIfInBounds v⟩

def moveTo (s : Stack) (v target : Nat) : Stack :=
  if v = target then s
  else
    let old := s.head target
    let new := s.head v
    let new := if new.past.isNone then { new with past := old.past } else new
    (s.modifyHead target fun _ => new).remove v

def swap (s : Stack) (v w : Nat) : Stack :=
  let a := s.head v
  let b := s.head w
  (s.modifyHead v fun _ => b).modifyHead w fun _ => a

def copy (s : Stack) (v : Nat) : Nat × Stack :=
  let h := s.head v
  match s with
  | ⟨nodes, heads⟩ => (heads.size, ⟨nodes, heads.push { h with past := none }⟩)

/-! ## Pushing -/

/-- Puts a subtree on a head, or the mark of an error. -/
def push (s : Stack) (v : Nat) (tree : Option Subtree) (state : Nat) : Stack :=
  let below := (s.head v).node
  let n := s.nodeAt below
  let node : Node := match tree with
    | some t =>
      { state
        place := n.place + t.extent
        links := #[⟨below, some t⟩]
        cost := n.cost + t.cost
        progress := n.progress + t.progress }
    | none => { n with state, links := #[⟨below, none⟩] }
  match s with
  | ⟨nodes, heads⟩ =>
    ⟨nodes.push node, heads.modify v fun h =>
      { h with
        node := nodes.size
        progressAtError := if tree.isNone then node.progress else h.progressAtError }⟩

/-! ## Popping -/

/-- Adds what was popped along a path. The head of an earlier path to the same node is shared;
otherwise a head is made. -/
def addSlice (s : Stack) (origin : Head) (slices : Array Slice) (node : Nat)
    (trees : List Subtree) : Stack × Array Slice :=
  -- A slice that ends at the same node goes right after the last one there, so that slices with one
  -- head stay together.
  match (List.range slices.size).reverse.find? fun i =>
      (s.head (slices.getD i default).head).node = node with
  | some i =>
    let h := (slices.getD i default).head
    (s, (slices.extract 0 (i + 1)).push ⟨h, trees⟩ ++ slices.extract (i + 1) slices.size)
  | none =>
    match s with
    | ⟨nodes, heads⟩ =>
      (⟨nodes, heads.push
        { node, progressAtError := origin.progressAtError, memory := origin.memory }⟩,
        slices.push ⟨heads.size, trees⟩)

def Path.follow (p : Path) (link : Link) : Path :=
  match link.tree with
  | some t =>
    { node := link.node, trees := t :: p.trees, depth := if t.extra then p.depth else p.depth + 1 }
  | none => { node := link.node, trees := p.trees, depth := p.depth + 1 }

/-- Follows every path for one step. The first link continues a path in its place, and further
links begin paths at the end. What the verdict makes of a path may depend on the paths before. -/
def stepPaths {α : Type} (verdict : α → Node → Path → Verdict × α) (origin : Head)
    (s : Stack) (slices : Array Slice) (memo : α) :
    List Path → Array Path → Array Path → Stack × Array Slice × α × Array Path
  | [], kept, added => (s, slices, memo, kept ++ added)
  | p :: rest, kept, added =>
    let node := s.nodeAt p.node
    let (d, memo) := verdict memo node p
    let (s, slices) := if d.take then s.addSlice origin slices p.node p.trees else (s, slices)
    if d.stop || node.links.isEmpty then stepPaths verdict origin s slices memo rest kept added
    else
      let total := kept.size + added.size + rest.length + 1
      let added := added ++
        ((node.links.extract 1 node.links.size).extract 0 (maxPaths - total)).map p.follow
      stepPaths verdict origin s slices memo rest
        (kept.push (p.follow (node.links.getD 0 default))) added

/-- Follows all paths until each has ended, for at most `fuel` steps. -/
def followPaths {α : Type} (verdict : α → Node → Path → Verdict × α) (origin : Head) (fuel : Nat)
    (s : Stack) (slices : Array Slice) (memo : α) (paths : Array Path) :
    Stack × Array Slice × α :=
  match fuel with
  | 0 => (s, slices, memo)
  | fuel + 1 =>
    if paths.isEmpty then (s, slices, memo)
    else
      let (s, slices, memo, paths) := stepPaths verdict origin s slices memo paths.toList #[] #[]
      followPaths verdict origin fuel s slices memo paths

/-- Follows the paths down from a head. No path is longer than there are nodes. -/
def walk {α : Type} (verdict : α → Node → Path → Verdict × α) (memo : α) (s : Stack) (v : Nat) :
    Stack × Array Slice × α :=
  let h := s.head v
  followPaths verdict h (s.nodes.size + 1) s #[] memo #[{ node := h.node }]

def pop (s : Stack) (v count : Nat) : Stack × Array Slice :=
  let (s, slices, _) := s.walk (fun _ _ p =>
    let done := p.depth = count
    (⟨done, done⟩, ())) () v
  (s, slices)

def popAll (s : Stack) (v : Nat) : Stack × Array Slice :=
  let (s, slices, _) := s.walk (fun _ n _ => (⟨n.links.isEmpty, false⟩, ())) () v
  (s, slices)

/-- Pops the error on top of a head, if there is one, and returns its trees. -/
def popError (s : Stack) (v : Nat) : Stack × List Subtree :=
  let isError (l : Link) : Bool := match l.tree with
    | some t => t.isError
    | none => false
  if (s.top v).links.any isError then
    let (s, slices, _) := s.walk (fun (found : Bool) _ p =>
      match p.trees with
      | [] => (⟨false, false⟩, found)
      | t :: _ => if !found && t.isError then (⟨true, true⟩, true) else (⟨false, true⟩, found))
      false v
    match slices[0]? with
    | some slice => (s.moveTo slice.head v, slice.trees)
    | none => (s, [])
  else (s, [])

/-- Lists the states below a head, nearest first, each with its depth, down to a depth. -/
def recordPast (s : Stack) (v maxDepth : Nat) : Stack :=
  let (s, _, past) := s.walk (fun (past : Array Past) n p =>
    if maxDepth < p.depth then (⟨false, true⟩, past)
    else if (past.toList.reverse.takeWhile fun e => p.depth ≤ e.depth).any fun e =>
        e.depth = p.depth && e.state = n.state then (⟨false, false⟩, past)
    else (⟨false, false⟩, past.push ⟨n.place, p.depth, n.state⟩)) #[] v
  s.modifyHead v fun h => { h with past := some past }

/-! ## Merging -/

/-- What becomes of a new link beside the links that a node has. -/
inductive LinkFate where
  | known
  | joins (node : Nat)
  | new

/-- Compares a new link with those that a node has. -/
def linkFate (s : Stack) (links : Array Link) (link : Link) : LinkFate :=
  links.foldl (fun fate old =>
    match fate with
    | .new =>
      let same := match old.tree, link.tree with
        | none, none => true
        | some a, some b => a.isEquivalent b
        | _, _ => false
      if !same then .new
      else if old.node = link.node then .known
      else
        let a := s.nodeAt old.node
        let b := s.nodeAt link.node
        if a.state = b.state && a.place.bytes = b.place.bytes && a.cost = b.cost then
          .joins old.node
        else .new
    | fate => fate) .new

/-- Adds links to nodes, one after the other. A link that differs from a present one only in what
lies below hands its own links to the node there. -/
def addLinks (fuel : Nat) (s : Stack) : List (Nat × Link) → Stack
  | [] => s
  | (n, link) :: rest =>
    match fuel with
    | 0 => s
    | fuel + 1 =>
      if link.node = n then addLinks fuel s rest
      else
        let node := s.nodeAt n
        match s.linkFate node.links link with
        | .known => addLinks fuel s rest
        | .joins below =>
          let more := (s.nodeAt link.node).links.toList.map fun l => (below, l)
          addLinks fuel s (more ++ rest)
        | .new =>
          if node.links.size = maxLinks then addLinks fuel s rest
          else
            let progress := (s.nodeAt link.node).progress +
              (match link.tree with
              | some t => t.progress
              | none => 0)
            match s with
            | ⟨nodes, heads⟩ =>
              addLinks fuel ⟨nodes.modify n fun node =>
                { node with
                  links := node.links.push link
                  progress := max node.progress progress }, heads⟩ rest

/-- Whether two heads stand in the same state at the same place, at the same cost. -/
def canMerge (s : Stack) (v w : Nat) : Bool :=
  s.isActive v && s.isActive w &&
    (let a := s.top v
     let b := s.top w
     a.state = b.state && a.place.bytes = b.place.bytes && a.cost = b.cost &&
      (s.head v).memory = (s.head w).memory)

def merge? (s : Stack) (v w : Nat) : Option Stack :=
  if s.canMerge v w then
    let n := (s.head v).node
    let links := (s.top w).links.toList.map fun l => (n, l)
    let s := addLinks (maxLinks * (s.nodes.size + 1)) s links
    let node := s.nodeAt n
    let s := if node.state = 0 then
        s.modifyHead v fun h => { h with progressAtError := node.progress }
      else s
    some (s.remove w)
  else none

/-! ## Errors -/

/-- What the errors of a reading cost; one that has just met an error pays for the recovery. -/
def cost (s : Stack) (v : Nat) : Nat :=
  let n := s.top v
  let inError := n.state = 0 && (match n.links[0]? with
    | some l => l.tree.isNone
    | none => true)
  if s.isWaiting v || inError then n.cost + Subtree.recoveryCost else n.cost

/-- Takes the last error of a reading to be no further than the reading itself. -/
def settle (s : Stack) (v : Nat) : Stack :=
  let progress := (s.top v).progress
  if progress < (s.head v).progressAtError then
    s.modifyHead v fun h => { h with progressAtError := progress }
  else s

def progressSinceError (s : Stack) (v : Nat) : Nat :=
  (s.top v).progress - (s.head v).progressAtError

/-- Whether a way down from a node holds any text before a subtree that has errors or that was there
when the last error was met. -/
def hasTextAbove (s : Stack) (progressAtError : Nat) (fuel n : Nat) : Bool :=
  match fuel with
  | 0 => false
  | fuel + 1 =>
    let node := s.nodeAt n
    match node.links[0]? with
    | none => false
    | some link =>
      match link.tree with
      | none => false
      | some t =>
        0 < t.extent.bytes ||
          (progressAtError < node.progress && t.cost = 0 &&
            hasTextAbove s progressAtError fuel link.node)

def hasAdvanced (s : Stack) (v : Nat) : Bool :=
  (s.top v).cost = 0 || hasTextAbove s (s.head v).progressAtError s.nodes.size (s.head v).node

end Stack

end Lumen
