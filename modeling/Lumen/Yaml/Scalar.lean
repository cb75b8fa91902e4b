import Lumen.Yaml.Place

/-!
# Scalars of YAML

A scalar is a text within a document. It is written plain, in quotes of either kind, or as a block
of lines. Lines of a plain or quoted scalar are folded: a line end counts as a blank, and empty
lines count as line ends. In a block written with `>` lines are folded too unless they begin with
a blank; in one written with `|` they stay as they are.

Each reader gives the value and the place after it, or nothing if the scalar is ill-formed.
-/

namespace Lumen

namespace Yaml

/-- How a scalar is written. -/
inductive Style where
  | plain
  | singleQuoted
  | doubleQuoted
  | literal
  | folded
deriving BEq, Repr, Inhabited, DecidableEq

/-! ## Folding -/

/-- What stands between two stretches of a scalar: blanks within a line, or line ends. -/
structure Gap where
  blanks : Text := []
  broken : Bool := false
  first : Text := []
  others : Text := []
deriving Repr, Inhabited, DecidableEq

namespace Gap

def isEmpty (g : Gap) : Bool := g.blanks = [] && !g.broken

/-- The gap with a blank at its end; blanks after a line end do not count. -/
def addBlank (g : Gap) (c : Char) : Gap :=
  if g.broken then g else { g with blanks := g.blanks ++ [c] }

def addBreak (g : Gap) (t : Text) : Gap :=
  if g.broken then { g with others := g.others ++ t } else { broken := true, first := t }

/-- What the gap counts as in the value. -/
def value (g : Gap) : Text :=
  if !g.broken then g.blanks
  else if g.first = ['\n'] then if g.others = [] then [' '] else g.others
  else g.first ++ g.others

end Gap

/-! ## Plain scalars -/

structure Plain where
  value : Text
  /-- Whether a line end comes between the scalar and the place after it. -/
  broken : Bool
  next : Place
deriving Repr, Inhabited

/-- Whether a plain scalar in brackets ends before a character. -/
def endsInFlow (c : Char) : Bool := c = ',' || c = '[' || c = ']' || c = '\x7b' || c = '\x7d'

/-- Reads the rest of a plain scalar. In brackets it ends at a comma or bracket, elsewhere before a
line that is not indented as far as `indent`. -/
def plain? (flow : Bool) (indent : Nat) (gap : Gap) (m : Mark) : Text → Option Plain
  | [] => some ⟨[], gap.broken, m, []⟩
  | '\r' :: '\n' :: cs => plain? flow indent (gap.addBreak ['\n']) (m.down 2) cs
  | c :: cs =>
    let here : Place := ⟨m, c :: cs⟩
    if isBreak c then plain? flow indent (gap.addBreak (breakText c)) m.down cs
    else if isBlank c then
      if gap.broken && m.column < indent && c = '\t' then none
      else plain? flow indent (gap.addBlank c) m.right cs
    else if !gap.isEmpty && ((!flow && m.column < indent) || here.seesDocument || c = '#') then
      some ⟨[], gap.broken, here⟩
    else if flow && c = ':' && cs.head?.any fun d => d = '?' || endsInFlow d then none
    else if (c = ':' && atSpace cs) || (flow && endsInFlow c) then some ⟨[], gap.broken, here⟩
    else
      (plain? flow indent {} m.right cs).map fun r =>
        { r with value := gap.value ++ c :: r.value }

/-! ## Quoted scalars -/

/-- The character that a letter after a backslash stands for. -/
def escaped? (c : Char) : Option Char :=
  match c with
  | '0' => some '\x00'
  | 'a' => some '\x07'
  | 'b' => some '\x08'
  | 't' | '\t' => some '\t'
  | 'n' => some '\n'
  | 'v' => some '\x0b'
  | 'f' => some '\x0c'
  | 'r' => some '\r'
  | 'e' => some '\x1b'
  | ' ' | '"' | '/' | '\\' => some c
  | 'N' => some '\x85'
  | '_' => some '\xa0'
  | 'L' => some '\u2028'
  | 'P' => some '\u2029'
  | _ => none

/-- The number of digits that a letter after a backslash asks for. -/
def codeLength (c : Char) : Nat :=
  match c with
  | 'x' => 2
  | 'u' => 4
  | 'U' => 8
  | _ => 0

def hexNumber? (digits : Text) : Option Nat :=
  digits.foldl (fun n c => do return (← n) * 16 + (← hexDigit? c)) (some 0)

def charOf? (n : Nat) : Option Char :=
  if n < 0xD800 ∨ (0xDFFF < n ∧ n < 0x110000) then some (Char.ofNat n) else none

/-- What a backslash and what follows it stand for: a value and the number of characters after the
backslash. -/
def escape? : Text → Option (Char × Nat)
  | [] => none
  | c :: cs =>
    let n := codeLength c
    if n = 0 then (escaped? c).map fun d => (d, 1)
    else if cs.length < n then none
    else do
      let d ← charOf? (← hexNumber? (cs.take n))
      return (d, n + 1)

def quoted? (single : Bool) (gap : Gap) : Nat → Place → Option (Text × Place)
  | 0, _ => none
  | n + 1, p =>
    match p.rest with
    | [] => none
    | c :: cs =>
      let quote := if single then '\'' else '"'
      let after (t : Text) (q : Place) : Option (Text × Place) :=
        (quoted? single {} n q).map fun r => (gap.value ++ t ++ r.1, r.2)
      if isBreak c then
        let t := if c = '\r' then ['\n'] else breakText c
        quoted? single (gap.addBreak t) n p.passBreak
      else if isBlank c then quoted? single (gap.addBlank c) n p.right
      else if p.seesDocument then none
      else if c = quote then
        if single && cs.head? = some '\'' then after ['\''] (p.right 2)
        else some (gap.value, p.right)
      else if !single && c = '\\' then
        if cs.head?.any isBreak then
          (quoted? single { broken := true } n p.right.passBreak).map fun r =>
            (gap.value ++ r.1, r.2)
        else do
          let (d, k) ← escape? cs
          after [d] (p.right (k + 1))
      else after [c] p.right

def quotedScalar? (single : Bool) (p : Place) : Option (Text × Place) :=
  quoted? single {} (p.rest.length + 1) p.right

/-! ## Blocks -/

/-- What is done with the line ends at the end of a block. -/
inductive Chomping where
  | strip
  | clip
  | keep
deriving BEq, Repr, Inhabited, DecidableEq

/-- What the line of a block's sign says: the chomping, the indentation if it is told, and where the
next line starts. -/
structure Header where
  chomping : Chomping := .clip
  increment : Nat := 0
  next : Place
deriving Repr, Inhabited

def chomping? (c : Option Char) : Option Chomping :=
  match c with
  | some '+' => some .keep
  | some '-' => some .strip
  | _ => none

/-- A digit that tells an indentation; none can be told by 0. -/
def increment? (c : Option Char) : Option Nat :=
  c.bind fun c => if c.isDigit then some (c.toNat - 48) else none

/-- Reads the line of a block's sign from after the sign. -/
def header? (p : Place) : Option Header := do
  let (chomping, increment, p) :=
    match chomping? p.rest.head? with
    | some chomping =>
      let p := p.right
      match increment? p.rest.head? with
      | some n => (chomping, some n, p.right)
      | none => (chomping, none, p)
    | none =>
      match increment? p.rest.head? with
      | some n =>
        let p := p.right
        match chomping? p.rest.head? with
        | some chomping => (chomping, some n, p.right)
        | none => (.clip, some n, p)
      | none => (.clip, none, p)
  if increment = some 0 then none
  let p := p.passComment
  if !atLineEnd p.rest then none
  return ⟨chomping, increment.getD 0, p.passBreak⟩

/-- Empty lines of a block, and the indentation of the line after them. -/
structure Margin where
  breaks : Text := []
  widest : Nat := 0
  next : Place
deriving Repr, Inhabited

/-- Passes empty lines and the blanks that indent the line after them, up to `indent` blanks if
that is not 0. -/
def margin? (indent widest : Nat) (m : Mark) : Text → Option Margin
  | [] => some { widest := max widest m.column, next := ⟨m, []⟩ }
  | '\r' :: '\n' :: cs =>
    (margin? indent (max widest m.column) (m.down 2) cs).map fun r =>
      { r with breaks := '\n' :: r.breaks }
  | c :: cs =>
    let inside := indent = 0 || m.column < indent
    if c = ' ' && inside then margin? indent widest m.right cs
    else if c = '\t' && inside then none
    else if isBreak c then
      (margin? indent (max widest m.column) m.down cs).map fun r =>
        { r with breaks := breakText c ++ r.breaks }
    else some { widest := max widest m.column, next := ⟨m, c :: cs⟩ }

/-- The end of a line in the value, and the place after it. -/
def lineEnd (p : Place) : Text × Place :=
  match p.rest with
  | '\r' :: '\n' :: _ => (['\n'], p.passBreak)
  | c :: _ => if isBreak c then (breakText c, p.passBreak) else ([], p)
  | [] => ([], p)

/-- What was read of a block so far. -/
structure Body where
  /-- The end of the line before, not yet part of the value. -/
  lineEnd : Text := []
  /-- The empty lines after it. -/
  breaks : Text := []
  indented : Bool := false
deriving Repr, Inhabited

/-- What stands between the lines of a block: a line end, or a blank in place of one that is
folded. -/
def Body.gap (literal : Bool) (b : Body) (indented : Bool) : Text :=
  if !literal && b.lineEnd = ['\n'] && !b.indented && !indented then
    if b.breaks = [] then [' '] else b.breaks
  else b.lineEnd ++ b.breaks

/-- Reads the lines of a block, of which there are at most `n`. -/
def lines? (literal : Bool) (chomping : Chomping) (indent : Nat) (b : Body) :
    Nat → Place → Option (Text × Place)
  | 0, _ => none
  | n + 1, p =>
    if p.mark.column = indent && p.rest ≠ [] then do
      let indented := p.rest.head?.any isBlank
      let line := p.rest.takeWhile fun c => !isBreak c
      let (t, q) := lineEnd (p.right line.length)
      let margin ← margin? indent 0 q.mark q.rest
      let (value, next) ← lines? literal chomping indent ⟨t, margin.breaks, indented⟩ n margin.next
      return (b.gap literal indented ++ line ++ value, next)
    else
      match chomping with
      | .strip => return ([], p)
      | .clip => return (b.lineEnd, p)
      | .keep => return (b.lineEnd ++ b.breaks, p)

/-- Reads a block whose sign is here. `parent` is the indentation of what it is in, if anything. -/
def blockScalar? (literal : Bool) (parent : Option Nat) (p : Place) : Option (Text × Place) := do
  let header ← header? p.right
  let told := if header.increment = 0 then 0 else parent.getD 0 + header.increment
  let margin ← margin? told 0 header.next.mark header.next.rest
  let least := max 1 ((parent.map (· + 1)).getD 0)
  let indent := if told = 0 then max margin.widest least else told
  lines? literal header.chomping indent { breaks := margin.breaks } (p.rest.length + 1) margin.next

end Yaml

end Lumen
