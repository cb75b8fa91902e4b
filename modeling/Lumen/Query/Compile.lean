import Lumen.Query.Feasibility
import Lumen.Regex.Parser
import Lumen.Text.Lines

/-!
# Compiling queries

`Query.compile` reads the text of a query, checks it, and notes where each of its patterns can
begin. An error is reported with its line and column; a predicate that cannot be understood, with
the line in which its pattern begins.
-/

namespace Lumen

namespace Query

/-! ## Predicates -/

/-- A clause on the texts of captures, if it is one. -/
def equality (positive all : Bool) (operands : List Operand) : Option (List Predicate) :=
  match operands with
  | [.capture a, .capture b] => some [.sameText a b positive all]
  | [.capture a, .text s] => some [.text a s positive all]
  | _ => none

/-- A clause on a regular expression, if it is one. -/
def matching (positive all : Bool) (operands : List Operand) : Option (List Predicate) :=
  match operands with
  | [.capture a, .text s] => (Regex.parse? {} s).map fun r => [.regex a r positive all]
  | _ => none

def membership (positive : Bool) (operands : List Operand) : Option (List Predicate) :=
  match operands with
  | .capture a :: rest =>
    (rest.mapM fun o => match o with
      | Operand.text s => some s
      | .capture _ => none).map fun texts => [.oneOf a texts positive]
  | _ => none

/-- A clause that sets or asks for a property: a key, perhaps a value and perhaps a capture. It puts
no condition on a match. -/
def property (operands : List Operand) : Option (List Predicate) :=
  let texts := operands.countP fun o => match o with
    | .text _ => true
    | .capture _ => false
  let captures := operands.length - texts
  if 1 ≤ texts && texts ≤ 2 && captures ≤ 1 then some [] else none

/-- What a clause means. One with an unknown name means nothing. -/
def Clause.predicates (c : Clause) : Option (List Predicate) :=
  match c.name with
  | "eq?" => equality true true c.operands
  | "not-eq?" => equality false true c.operands
  | "any-eq?" => equality true false c.operands
  | "any-not-eq?" => equality false false c.operands
  | "match?" => matching true true c.operands
  | "not-match?" => matching false true c.operands
  | "any-match?" => matching true false c.operands
  | "any-not-match?" => matching false false c.operands
  | "any-of?" => membership true c.operands
  | "not-any-of?" => membership false c.operands
  | "set!" => property c.operands
  | "is?" => property c.operands
  | "is-not?" => property c.operands
  | _ => some []

/-! ## Entries -/

/-- Whether no step but the first lies at its depth, up to the first jump. -/
def isRooted (steps : Array Step) (depth stop fuel i : Nat) : Bool :=
  match fuel with
  | 0 => true
  | fuel + 1 =>
    if stop ≤ i then true
    else
      let s := steps.getD i default
      if s.deadEnd then true
      else if !s.isEnd && s.depth = depth then false
      else isRooted steps depth stop fuel (i + 1)

structure Entries where
  anyNode : Array Entry := #[]
  bySymbol : Std.HashMap Nat (List Entry) := {}

/-- Adds an entry; among those of a symbol it comes after the ones of earlier patterns. -/
def Entries.add (es : Entries) (steps : Array Step) (e : Entry) : Entries :=
  match (steps.getD e.step default).symbol with
  | none => { es with anyNode := es.anyNode.push e }
  | some s =>
    let known := es.bySymbol.getD s []
    let before (x : Entry) : Bool := x.pattern < e.pattern
    { es with
      bySymbol := es.bySymbol.insert s (known.takeWhile before ++ e :: known.dropWhile before) }

/-- Adds the entries of a pattern: its first step and the alternatives to it. A pattern whose first
step asks for any node around a node of a known kind begins with the latter. -/
def addEntries (steps : Array Step) (pattern stop fuel start : Nat) (pending : Option Nat)
    (es : Entries) : Entries :=
  match fuel with
  | 0 => es
  | fuel + 1 =>
    let s := steps.getD start default
    if s.isEnd then es
    else
      let second := steps.getD (start + 1) default
      let around := s.symbol.isNone && s.depth = 0 && s.field.isNone && second.symbol.isSome &&
        second.depth = 1 && !second.immediate
      let (start, pending) := if around then (start + 1, s.alternative) else (start, pending)
      let s := steps.getD start default
      let rooted := s.depth = 0 && isRooted steps s.depth stop steps.size (start + 1)
      let es := es.add steps ⟨start, pattern, rooted⟩
      match s.alternative with
      | some j => addEntries steps pattern stop fuel j pending es
      | none =>
        match pending with
        | some j => addEntries steps pattern stop fuel j none es
        | none => es

def entriesOf (steps : Array Step) (patterns : Array DraftPattern) : Entries :=
  patterns.toList.zipIdx.foldl (fun es (p, i) =>
    addEntries steps i (p.firstStep + p.stepCount) (steps.size + 1) p.firstStep none es) {}

/-! ## Places -/

/-- The line and column of a place. A line counts as long as its text and a line feed. -/
def locate (lines : List (List Char)) (row start place : Nat) : Nat × Nat :=
  match lines with
  | [] => (row, place - start)
  | line :: rest =>
    let stop := start + Text.byteLength line + 1
    if place < stop then (row, place - start) else locate rest (row + 1) stop place

/-- The number of line feeds before a place. -/
def rowOf (place : Nat) : Nat → List Char → Nat
  | _, [] => 0
  | at_, c :: cs =>
    if at_ < place then (if c = '\n' then 1 else 0) + rowOf place (at_ + c.utf8Size) cs else 0

/-! ## Compiling -/

/-- The predicates of all patterns; fails with the line of the first pattern that has a bad one. -/
def checkClauses (text : List Char) : List DraftPattern → Except Error (List (List Predicate))
  | [] => .ok []
  | p :: rest =>
    match p.clauses.mapM Clause.predicates with
    | none => .error ⟨.badPredicate, rowOf p.start 0 text, 0⟩
    | some ps => (checkClauses text rest).map fun more => ps.flatten :: more

def compile (a : Anatomy) (text : String) : Except Error Query := do
  let place (e : ErrorKind × Nat) : Error :=
    let (row, column) := locate (Text.lines text.toList) 0 0 e.2
    ⟨e.1, row, column⟩
  let (d, steps) ← (do
    let d ← Draft.ofText a.language text
    return (d, ← feasible a d)).mapError place
  let predicates ← checkClauses text.toList d.patterns.toList
  let entries := entriesOf steps d.patterns
  return {
    captureNames := d.captures
    steps
    predicates := predicates.toArray
    openEntries := entries.anyNode
    entries := entries.bySymbol.toList }

end Query

end Lumen
