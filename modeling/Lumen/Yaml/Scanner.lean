import Lumen.Yaml.Token

/-!
# The scanner of YAML

The scanner goes through a text from token to token. It keeps the columns of the blocks that it is
in, and for each pair of brackets the place at which a key may have begun. A text with a fault has
no tokens.
-/

namespace Lumen

namespace Yaml

/-- A place at which a key may have begun. -/
structure Candidate where
  /-- The number of tokens before it. -/
  position : Nat
  mark : Mark
  /-- Whether anything but a key would be a fault. -/
  required : Bool
deriving Repr, Inhabited, DecidableEq

structure Scan where
  place : Place
  tokens : List Token := []
  /-- The columns of the blocks around, the innermost first. -/
  blocks : List Nat := []
  keyAllowed : Bool := true
  /-- The place of a key on the outside and in each pair of brackets, the innermost first. -/
  candidates : List (Option Candidate) := [none]
deriving Repr, Inhabited

namespace Scan

/-- A key can be no longer than this. -/
def keyLimit : Nat := 1024

def inFlow (s : Scan) : Bool := 1 < s.candidates.length

def column (s : Scan) : Nat := s.place.mark.column

def emit (s : Scan) (t : Token) : Scan := { s with tokens := s.tokens ++ [t] }

def emitAt (s : Scan) (position : Nat) (t : Token) : Scan :=
  { s with tokens := s.tokens.take position ++ t :: s.tokens.drop position }

def sign (s : Scan) (n : Nat) (t : Token) : Scan := { s.emit t with place := s.place.right n }

/-! ## Blocks -/

/-- Begins a block at a column unless it is no further right than the one around. -/
def indent (s : Scan) (column position : Nat) (t : Token) : Scan :=
  if s.inFlow then s
  else if s.blocks.head?.all (· < column) then
    { s.emitAt position t with blocks := column :: s.blocks }
  else s

def indentHere (s : Scan) (t : Token) : Scan := s.indent s.column s.tokens.length t

/-- The columns that are left of those of blocks further right than a column. -/
def outer (column : Nat) (blocks : List Nat) : List Nat := blocks.dropWhile (column < ·)

def leave (s : Scan) (left : List Nat) : Scan :=
  let ends := List.replicate (s.blocks.length - left.length) Token.blockEnd
  { s with tokens := s.tokens ++ ends, blocks := left }

/-- Ends the blocks further right than here. -/
def unindent (s : Scan) : Scan :=
  if s.inFlow then s else s.leave (outer s.column s.blocks)

def unindentAll (s : Scan) : Scan := if s.inFlow then s else s.leave []

/-! ## Keys -/

def isStale (s : Scan) (c : Candidate) : Bool :=
  c.mark.line < s.place.mark.line || c.mark.index + keyLimit < s.place.mark.index

/-- Gives up the candidates that are too far away. -/
def dropStale? (s : Scan) : Option Scan := do
  let stale (c : Option Candidate) := c.any s.isStale
  if s.candidates.any fun c => stale c && c.any (·.required) then none
  return { s with candidates := s.candidates.map fun c => if stale c then none else c }

/-- Gives up the innermost candidate. -/
def dropKey? (s : Scan) : Option Scan :=
  match s.candidates with
  | some c :: cs => if c.required then none else some { s with candidates := none :: cs }
  | _ => some s

/-- Notes that a key may begin here, if it may. -/
def noteKey? (s : Scan) : Option Scan :=
  if s.keyAllowed then do
    let required := !s.inFlow && s.blocks.head? = some s.column
    let s ← s.dropKey?
    return { s with
      candidates := some ⟨s.tokens.length, s.place.mark, required⟩ :: s.candidates.drop 1 }
  else some s

/-! ## Tokens -/

/-- Passes blanks, comments and line ends. Where a key may begin in a block, a tab is no blank. -/
def passGap : Nat → Scan → Scan
  | 0, s => s
  | n + 1, s =>
    let p := if s.place.mark.index = 0 ∧ s.place.rest.head? = some '\ufeff' then s.place.right
      else s.place
    let tabs := s.inFlow || !s.keyAllowed
    let p := p.passWhile fun c => c = ' ' || (tabs && c = '\t')
    let p := if p.rest.head? = some '#' then p.passLine else p
    if p.rest.head?.any isBreak then
      passGap n { s with place := p.passBreak, keyAllowed := s.keyAllowed || !s.inFlow }
    else { s with place := p }

def document? (s : Scan) (t : Token) : Option Scan := do
  let s ← s.unindentAll.dropKey?
  return { s.sign 3 t with keyAllowed := false }

def directive? (s : Scan) : Option Scan := do
  let s ← s.unindentAll.dropKey?
  let (t, p) ← s.place.directive?
  return { s.emit t with place := p, keyAllowed := false }

def openBracket? (s : Scan) (t : Token) : Option Scan := do
  let s ← s.noteKey?
  return { s.sign 1 t with candidates := none :: s.candidates, keyAllowed := true }

def closeBracket? (s : Scan) (t : Token) : Option Scan := do
  let s ← s.dropKey?
  let candidates := if s.inFlow then s.candidates.drop 1 else s.candidates
  return { s.sign 1 t with candidates, keyAllowed := false }

def comma? (s : Scan) : Option Scan := do
  let s ← s.dropKey?
  return { s.sign 1 .comma with keyAllowed := true }

/-- Scans the sign before an entry of a sequence. -/
def entry? (s : Scan) : Option Scan := do
  if !s.inFlow && !s.keyAllowed then none
  let s ← (s.indentHere .sequenceStart).dropKey?
  return { s.sign 1 .entry with keyAllowed := true }

/-- Scans the sign before a key. -/
def key? (s : Scan) : Option Scan := do
  if !s.inFlow && !s.keyAllowed then none
  let s ← (s.indentHere .mappingStart).dropKey?
  return { s.sign 1 .key with keyAllowed := !s.inFlow }

/-- Scans the colon before a value. What may be a key before it is one. -/
def value? (s : Scan) : Option Scan :=
  match s.candidates with
  | some c :: cs =>
    -- What was scanned since the candidate turns out to be a key, so its token goes before that.
    let s := (s.emitAt c.position .key).indent c.mark.column c.position .mappingStart
    some { s.sign 1 .value with candidates := none :: cs, keyAllowed := false }
  | _ =>
    if !s.inFlow && !s.keyAllowed then none
    else
      let s := s.indentHere .mappingStart
      some { s.sign 1 .value with keyAllowed := !s.inFlow }

def name? (s : Scan) (make : Text → Token) : Option Scan := do
  let s ← s.noteKey?
  let (name, p) ← s.place.right.name?
  return { s.emit (make name) with place := p, keyAllowed := false }

def tag? (s : Scan) : Option Scan := do
  let s ← s.noteKey?
  let (t, p) ← s.place.tag?
  if !(s.inFlow && p.rest.head? = some ',') && !atSpace p.rest then none
  return { s.emit t with place := p, keyAllowed := false }

def block? (s : Scan) (literal : Bool) : Option Scan := do
  let s ← s.dropKey?
  let (value, p) ← blockScalar? literal s.blocks.head? s.place
  let style := if literal then Style.literal else Style.folded
  return { s.emit (.scalar value style) with place := p, keyAllowed := true }

def quotedScalar? (s : Scan) (single : Bool) : Option Scan := do
  let s ← s.noteKey?
  let (value, p) ← Yaml.quotedScalar? single s.place
  let style := if single then Style.singleQuoted else Style.doubleQuoted
  return { s.emit (.scalar value style) with place := p, keyAllowed := false }

def plainScalar? (s : Scan) : Option Scan := do
  let s ← s.noteKey?
  let indent := (s.blocks.head?.map (· + 1)).getD 0
  let r ← plain? s.inFlow indent {} s.place.mark s.place.rest
  return { s.emit (.scalar r.value .plain) with place := r.next, keyAllowed := r.broken }

/-- Whether a plain scalar can begin with a character, given what comes after it. -/
def beginsPlain (flow : Bool) (c : Char) (cs : Text) : Bool :=
  if c = '-' then !cs.head?.any isBlank
  else if c = '?' || c = ':' then !flow && !atSpace cs
  else !(isBlank c || isBreak c || ",[]\x7b\x7d#&*!|>'\"%@`".toList.contains c)

/-- Scans the token that begins with a character. -/
def token? (s : Scan) (c : Char) (cs : Text) : Option Scan :=
  let free := s.inFlow || atSpace cs
  if s.column = 0 && c = '%' then s.directive?
  else if s.place.seesTriple '-' then s.document? .documentStart
  else if s.place.seesTriple '.' then s.document? .documentEnd
  else if c = '[' then s.openBracket? .flowSequenceStart
  else if c = '\x7b' then s.openBracket? .flowMappingStart
  else if c = ']' then s.closeBracket? .flowSequenceEnd
  else if c = '\x7d' then s.closeBracket? .flowMappingEnd
  else if c = ',' then s.comma?
  else if c = '-' && atSpace cs then s.entry?
  else if c = '?' && free then s.key?
  else if c = ':' && free then s.value?
  else if c = '*' then s.name? .alias
  else if c = '&' then s.name? .anchor
  else if c = '!' then s.tag?
  else if c = '|' && !s.inFlow then s.block? true
  else if c = '>' && !s.inFlow then s.block? false
  else if c = '\'' then s.quotedScalar? true
  else if c = '"' then s.quotedScalar? false
  else if beginsPlain s.inFlow c cs then s.plainScalar?
  else none

/-- Scans the rest of the text, in which there are at most `n` tokens. -/
def tokens? : Nat → Scan → Option (List Token)
  | 0, _ => none
  | n + 1, s => do
    let s := s.passGap (s.place.rest.length + 1)
    let s := (← s.dropStale?).unindent
    match s.place.rest with
    | [] => do
      let s ← s.unindentAll.dropKey?
      return s.tokens
    | c :: cs => tokens? n (← s.token? c cs)

end Scan

def tokens? (t : Text) : Option (List Token) :=
  if t.all isAllowed then Scan.tokens? (t.length + 1) { place := ⟨{}, t⟩ } else none

end Yaml

end Lumen
