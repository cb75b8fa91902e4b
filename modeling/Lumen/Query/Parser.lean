import Lumen.Query.Basic
import Lumen.Text.Cursor

/-!
# Reading queries

`Draft.ofText` reads the text of a query into steps. The syntax:

* `(name …)` asks for a named node with the given nodes inside, `"text"` for an anonymous node, `_`
  for any node and `(_)` for any named one; `(MISSING name)` asks for a token that was made up.
* `name: …` asks for a node in a field, and `!name` for a node without it.
* `[ … ]` lists alternatives, and `( … )` around several patterns asks for neighbours. A `.` before
  a pattern asks for no named node between; at the end, for none after.
* `@name` after a pattern captures its node; `?`, `*` and `+` repeat it.
* `(#name? …)` and `(#name! …)` are predicates.
* A `;` begins a comment.

Errors are reported with the place in bytes at which the reader stands, or begins a name it does not
know.
-/

namespace Lumen

namespace Query

inductive Operand where
  | capture (id : Nat)
  | text (s : String)
deriving BEq, Repr

structure Clause where
  name : String
  operands : List Operand

/-- A pattern as it is written: where its text begins, its steps, and its predicates. -/
structure DraftPattern where
  start : Nat
  firstStep : Nat
  stepCount : Nat
  clauses : List Clause
deriving Inhabited

/-- A query while it is read. -/
structure Draft where
  cursor : Cursor
  steps : Array Step := #[]
  /-- Steps with the places in the text where what begins with them is written. -/
  offsets : Array (Nat × Nat) := #[]
  captures : Array String := #[]
  /-- The predicates of the pattern at hand. -/
  clauses : Array Clause := #[]
  patterns : Array DraftPattern := #[]

/-- A reader of a query, which fails with a kind of error and a place. -/
abbrev Reader := StateT Draft (Except (ErrorKind × Nat))

namespace Reader

/-! ## Characters -/

/-- The next character; the null character stands for the end. -/
def next : Reader Char := do return ((← get).cursor.next?).getD '\x00'

def place : Reader Nat := do return (← get).cursor.here.bytes

def advance : Reader Unit := modify fun d => { d with cursor := d.cursor.advance }

def failAt {α : Type} (kind : ErrorKind) (place : Nat) : Reader α := throw (kind, place)

def fail {α : Type} (kind : ErrorKind) : Reader α := do failAt kind (← place)

def isBlank (c : Char) : Bool := c = ' ' || ('\t' ≤ c && c ≤ '\r')

def beginsName (c : Char) : Bool := c.isAlphanum || c = '_' || c = '-'

def afterComment (c : Cursor) : Cursor := c.advanceWhile fun x => x ≠ '\n' && x ≠ '\x00'

def afterBlanks (fuel : Nat) (c : Cursor) : Cursor :=
  match fuel with
  | 0 => c
  | fuel + 1 =>
    let c := c.advanceWhile isBlank
    if c.sees ';' then afterBlanks fuel (afterComment c.advance) else c

def skipBlanks : Reader Unit :=
  modify fun d => { d with cursor := afterBlanks (d.cursor.left + 1) d.cursor }

def textBetween (text : String) (start stop : Nat) : String :=
  String.Pos.Raw.extract text ⟨start⟩ ⟨stop⟩

/-- Reads a name, of which at least one character is there. -/
def name : Reader String := do
  let d ← get
  let stop := d.cursor.advance.advanceWhile fun c => beginsName c || c = '.'
  set { d with cursor := stop }
  return textBetween stop.text d.cursor.here.bytes stop.here.bytes

/-! ## Texts in quotes -/

def unescape (c : Char) : Char :=
  match c with
  | 'n' => '\n'
  | 'r' => '\r'
  | 't' => '\t'
  | '0' => '\x00'
  | c => c

/-- Reads up to the closing quote; a line must not end before it. -/
def quotedRest (fuel : Nat) (acc : List Char) (c : Cursor) : Option (String × Cursor) :=
  match fuel with
  | 0 => none
  | fuel + 1 =>
    match c.next? with
    | none => none
    | some '\n' => none
    | some '"' => some (String.ofList acc.reverse, c.advance)
    | some '\\' =>
      match c.advance.next? with
      | none => none
      | some x => quotedRest fuel (unescape x :: acc) c.advance.advance
    | some x => quotedRest fuel (x :: acc) c.advance

def quoted : Reader String := do
  let d ← get
  match quotedRest (d.cursor.left + 1) [] d.cursor.advance with
  | some (s, c) => do
    set { d with cursor := c }
    return s
  | none => fail .malformed

/-! ## Predicates -/

/-- Reads the operands of a predicate and its end. -/
def operands (fuel : Nat) (acc : List Operand) : Reader (List Operand) :=
  match fuel with
  | 0 => fail .malformed
  | fuel + 1 => do
    let c ← next
    if c = ')' then
      advance
      skipBlanks
      return acc.reverse
    else if c = '@' then
      advance
      if !beginsName (← next) then fail .malformed
      let start ← place
      let n ← name
      match (← get).captures.findIdx? (· == n) with
      | none => failAt .unknownCapture start
      | some i =>
        skipBlanks
        operands fuel (.capture i :: acc)
    else if c = '"' then
      let s ← quoted
      skipBlanks
      operands fuel (.text s :: acc)
    else if beginsName c then
      let s ← name
      skipBlanks
      operands fuel (.text s :: acc)
    else fail .malformed

def predicate : Reader Unit := do
  if !beginsName (← next) then fail .malformed
  let n ← name
  let mark ← next
  if mark ≠ '?' && mark ≠ '!' then fail .malformed
  advance
  skipBlanks
  let os ← operands ((← get).cursor.left + 2) []
  modify fun d => { d with clauses := d.clauses.push ⟨n.push mark, os⟩ }

/-! ## Steps -/

def stepCount : Reader Nat := do return (← get).steps.size

def pushStep (s : Step) : Reader Unit := modify fun d => { d with steps := d.steps.push s }

def modifyStep (i : Nat) (f : Step → Step) : Reader Unit :=
  modify fun d => { d with steps := d.steps.modify i f }

def markOffset : Reader Unit := modify fun d =>
  if d.offsets.back?.map Prod.fst == some d.steps.size then d
  else { d with offsets := d.offsets.push (d.steps.size, d.cursor.here.bytes) }

/-- The steps reached from one by alternatives further on that have been read. -/
def chain (steps : Array Step) (fuel i : Nat) : List Nat :=
  match fuel with
  | 0 => [i]
  | fuel + 1 =>
    match (steps.getD i default).alternative with
    | some j => if i < j && j < steps.size then i :: chain steps fuel j else [i]
    | none => [i]

def modifyChain (i : Nat) (f : Step → Step) : Reader Unit := modify fun d =>
  { d with steps := (chain d.steps d.steps.size i).foldl (fun ss j => ss.modify j f) d.steps }

/-- The step at which the alternatives of a step end: the first whose alternative, if it has any, is
at `limit` or beyond. -/
def lastAlternative (steps : Array Step) (limit fuel i : Nat) : Nat :=
  match fuel with
  | 0 => i
  | fuel + 1 =>
    match (steps.getD i default).alternative with
    | some j => if j < limit then lastAlternative steps limit fuel j else i
    | none => i

/-- Lets the alternatives of a step go on to what follows. -/
def makeOptional (i limit : Nat) : Reader Unit := modify fun d =>
  let last := lastAlternative d.steps limit d.steps.size i
  { d with steps := d.steps.modify last fun s => { s with alternative := some d.steps.size } }

def maxCaptures : Nat := 3

def maxAbsent : Nat := 8

def captureId (n : String) : Reader Nat := do
  let d ← get
  match d.captures.findIdx? (· == n) with
  | some i => return i
  | none =>
    set { d with captures := d.captures.push n }
    return d.captures.size

/-- Reads what follows a pattern: repetitions and captures. -/
def suffixes (depth first fuel : Nat) : Reader Unit :=
  match fuel with
  | 0 => return
  | fuel + 1 => do
    let c ← next
    let again : Step :=
      { depth, alternative := some first, passThrough := true, alternativeIsImmediate := true }
    if c = '+' then
      advance
      skipBlanks
      pushStep again
      suffixes depth first fuel
    else if c = '*' then
      advance
      skipBlanks
      pushStep again
      makeOptional first ((← stepCount) - 1)
      suffixes depth first fuel
    else if c = '?' then
      advance
      skipBlanks
      makeOptional first (← stepCount)
      suffixes depth first fuel
    else if c = '@' then
      advance
      if !beginsName (← next) then fail .malformed
      let n ← name
      skipBlanks
      let id ← captureId n
      modifyChain first fun s =>
        if s.captures.length < maxCaptures then { s with captures := s.captures ++ [id] } else s
      suffixes depth first fuel
    else return

/-! ## Patterns -/

/-- The name that asks for tokens that were made up; any beginning of it will do. -/
def missingName : String := "MISSING"

/-- A symbol that must be known, named at a place. -/
def known (symbol : Option Nat) (start : Nat) : Reader Nat :=
  match symbol with
  | some s => pure s
  | none => failAt .unknownNode start

/-- The symbol after a name, none for any node, and whether its node must be missing. -/
def nodeSymbol (l : Language) (start : Nat) (n : String) : Reader (Option Nat × Bool) := do
  if n == "_" then return (none, false)
  else if n.toList.isPrefixOf missingName.toList then
    skipBlanks
    let c ← next
    let start ← place
    if beginsName c then
      let symbol ← known (l.symbolNamed? (← name) true) start
      return (some symbol, true)
    else if c = '"' then
      let symbol ← known (l.symbolNamed? (← quoted) false) (start + 1)
      return (some symbol, true)
    else if c = ')' then return (none, true)
    else fail .malformed
  else
    let symbol ← known (l.symbolNamed? n true) start
    return (some symbol, false)

/-- The step for a node whose name has been read. A supertype stands for any node that belongs to
it, or for one of a kind given after a stroke. -/
def nodeStep (l : Language) (depth : Nat) (immediate : Bool) (start : Nat) (n : String) :
    Reader Step := do
  let (symbol, missing) ← nodeSymbol l start n
  let supertype := symbol.filter fun s => (l.info s).supertype
  let step : Step :=
    { symbol := if supertype.isSome then none else symbol
      supertype, depth, immediate, missing, named := symbol.isNone }
  if (← next) = '/' then
    if supertype.isNone then failAt .impossible (start - 1)
    advance
    if !beginsName (← next) then fail .malformed
    let start ← place
    let sub ← known (l.symbolNamed? (← name) true) start
    return { step with symbol := some sub }
  else return step

def absentField (l : Language) : Reader Nat := do
  advance
  skipBlanks
  if !beginsName (← next) then fail .malformed
  let start ← place
  let n ← name
  skipBlanks
  match l.fieldNamed? n with
  | some f => return f
  | none => failAt .unknownField start

def anchor : Reader Bool := do
  if (← next) = '.' then
    advance
    skipBlanks
    return true
  else return false

mutual
/-- Reads a pattern; false if what encloses it ends here instead. -/
def pattern (l : Language) (fuel depth : Nat) (immediate : Bool) : Reader Bool :=
  match fuel with
  | 0 => fail .malformed
  | fuel + 1 => do
    let c ← next
    if c = '\x00' then fail .malformed
    else if c = ')' || c = ']' then return false
    else
      let first ← stepCount
      markOffset
      if c = '[' then
        advance
        skipBlanks
        branches l fuel depth immediate first []
        finish fuel depth first
      else if c = '(' then
        advance
        skipBlanks
        let c ← next
        if c = '(' || c = '"' || c = '[' then
          -- A group of neighbours, which is no node of its own.
          neighbours l fuel depth immediate
          finish fuel depth first
        else if c = '.' || c = '#' then
          advance
          predicate
          return true
        else if beginsName c then
          let start ← place
          let step ← nodeStep l depth immediate start (← name)
          pushStep step
          skipBlanks
          inside l fuel depth first none false []
          finish fuel depth first
        else fail .malformed
      else if c = '_' then
        advance
        skipBlanks
        pushStep { depth, immediate }
        finish fuel depth first
      else if c = '"' then
        let start ← place
        match l.symbolNamed? (← quoted) false with
        | none => failAt .unknownNode (start + 1)
        | some symbol =>
          pushStep { symbol := some symbol, depth, immediate }
          finish fuel depth first
      else if beginsName c then
        let start ← place
        let n ← name
        skipBlanks
        -- A name outside parentheses can only be that of a field.
        if (← next) ≠ ':' then failAt .malformed start
        advance
        skipBlanks
        if !(← pattern l fuel depth immediate) then fail .malformed
        match l.fieldNamed? n with
        | none => failAt .unknownField start
        | some f =>
          modifyChain first fun s => { s with field := some f }
          finish fuel depth first
      else fail .malformed

/-- Reads what follows a pattern. -/
def finish (fuel depth first : Nat) : Reader Bool :=
  match fuel with
  | 0 => return true
  | _ + 1 => do
    skipBlanks
    suffixes depth first ((← get).cursor.left + 1)
    return true

/-- Reads alternatives up to the closing bracket, and joins them. -/
def branches (l : Language) (fuel depth : Nat) (immediate : Bool) (first : Nat)
    (starts : List Nat) : Reader Unit :=
  match fuel with
  | 0 => fail .malformed
  | fuel + 1 => do
    let start ← stepCount
    if ← pattern l fuel depth immediate then
      pushStep { depth }
      branches l fuel depth immediate first (start :: starts)
    else if (← next) = ']' && !starts.isEmpty then
      advance
      modify fun d => { d with steps := d.steps.pop }
      let ends ← stepCount
      let order := starts.reverse
      for (start, next) in order.zip order.tail do
        modifyStep start fun s => { s with alternative := some next }
        modifyStep (next - 1) fun s => { s with alternative := some ends, deadEnd := true }
    else fail .malformed

/-- Reads neighbours up to the closing parenthesis. -/
def neighbours (l : Language) (fuel depth : Nat) (immediate : Bool) : Reader Unit :=
  match fuel with
  | 0 => fail .malformed
  | fuel + 1 => do
    let anchored ← anchor
    if ← pattern l fuel depth (immediate || anchored) then neighbours l fuel depth false
    else if (← next) = ')' then advance
    else fail .malformed

def inside (l : Language) (fuel depth first : Nat) (last : Option Nat) (immediate : Bool)
    (absent : List Nat) : Reader Unit :=
  match fuel with
  | 0 => fail .malformed
  | fuel + 1 => do
    if (← next) = '!' then
      let f ← absentField l
      inside l fuel depth first last immediate
        (if absent.length < maxAbsent then absent ++ [f] else absent)
    else
      let immediate := (← anchor) || immediate
      let start ← stepCount
      if ← pattern l fuel (depth + 1) immediate then
        let last := if (← stepCount) = start then start - 1 else start
        inside l fuel depth first (some last) false absent
      else if (← next) = ')' then
        if immediate then
          match last with
          | some (i + 1) => modifyChain (i + 1) fun s => { s with lastChild := true }
          | _ => fail .malformed
        modifyStep first fun s => { s with absent }
        advance
      else fail .malformed
end

/-! ## Whole queries -/

def patterns (l : Language) (fuel : Nat) : Reader Unit :=
  match fuel with
  | 0 => return
  | fuel + 1 => do
    let d ← get
    if d.cursor.atEnd then return
    else
      set { d with clauses := (#[] : Array Clause) }
      if !(← pattern l (2 * d.cursor.left + 4) 0 false) then fail .malformed
      pushStep { depth := 0, isEnd := true, sure := true, parentSure := true }
      modify fun e =>
        let p : DraftPattern :=
          { start := d.cursor.here.bytes
            firstStep := d.steps.size
            stepCount := e.steps.size - d.steps.size
            clauses := e.clauses.toList }
        { e with patterns := e.patterns.push p }
      patterns l fuel

end Reader

/-- Reads the text of a query; an error is given with its place. -/
def Draft.ofText (l : Language) (text : String) : Except (ErrorKind × Nat) Draft := do
  let start : Draft := { cursor := Cursor.begin text {} }
  let read : Reader Unit := do
    Reader.skipBlanks
    Reader.patterns l (text.utf8ByteSize + 1)
  let (_, d) ← read.run start
  return d

end Query

end Lumen
