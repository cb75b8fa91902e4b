import Lumen.Yaml.Scalar

/-!
# Tokens of YAML

A token is a sign of structure, a name or a scalar. Indentation gives tokens too: a block of entries
begins where its first entry stands further to the right than what it is in, and ends where a line
stands further to the left.

What stands before a colon is a key. This is not known until the colon comes, so the scanner notes
where a key could have begun (`Candidate`), and puts the token of the key there afterwards.
-/

namespace Lumen

namespace Yaml

/-- A smallest part of a document. -/
inductive Token where
  | version (major minor : Nat)
  | tagHandle (handle start : Text)
  | documentStart
  | documentEnd
  | sequenceStart
  | mappingStart
  | blockEnd
  | flowSequenceStart
  | flowSequenceEnd
  | flowMappingStart
  | flowMappingEnd
  | comma
  | entry
  | key
  | value
  | alias (name : Text)
  | anchor (name : Text)
  | tag (handle rest : Text)
  | scalar (value : Text) (style : Style)
deriving BEq, Repr, Inhabited, DecidableEq

/-! ## Names -/

/-- Characters of a tag besides those of words. -/
def isTagChar (verbatim : Bool) (c : Char) : Bool :=
  isWordChar c || ";/?:@&=+$.%!~*'()".toList.contains c || (verbatim && ",[]".toList.contains c)

/-- The number of bytes in the UTF-8 of a character by the first of them. -/
def octets (first : Nat) : Nat :=
  if first < 0x80 then 1
  else if first / 0x20 = 6 then 2
  else if first / 0x10 = 14 then 3
  else if first / 8 = 30 then 4
  else 0

def octet? : Text → Option (Nat × Text)
  | '%' :: a :: b :: cs => do return ((← hexDigit? a) * 16 + (← hexDigit? b), cs)
  | _ => none

/-- Reads the bytes of a character that follow the first. -/
def octetsAfter? (value : Nat) : Nat → Text → Option (Nat × Text)
  | 0, t => some (value, t)
  | n + 1, t => do
    let (b, t) ← octet? t
    if b / 0x40 ≠ 2 then none
    octetsAfter? (value * 0x40 + b % 0x40) n t

/-- Reads a character that is written by its bytes. -/
def percent? (t : Text) : Option (Char × Text) := do
  let (first, t) ← octet? t
  let n := octets first
  if n = 0 then none
  let start := if n = 1 then first else first % Nat.pow 2 (7 - n)
  let (value, t) ← octetsAfter? start (n - 1) t
  return (Char.ofNat value, t)

/-- Reads the characters of a tag, at most `n` of them. -/
def tagText? (verbatim : Bool) : Nat → Text → Option (Text × Text)
  | 0, t => some ([], t)
  | n + 1, t =>
    match t with
    | [] => some ([], [])
    | c :: cs =>
      if !isTagChar verbatim c then some ([], c :: cs)
      else if c = '%' then do
        let (d, t) ← percent? (c :: cs)
        let (value, t) ← tagText? verbatim n t
        return (d :: value, t)
      else do
        let (value, t) ← tagText? verbatim n cs
        return (c :: value, t)

/-- The place at which a text is what is left. -/
def Place.until (p : Place) (rest : Text) : Place := p.right (p.rest.length - rest.length)

def Place.tagText? (p : Place) (verbatim : Bool) : Option (Text × Place) := do
  let (value, rest) ← Yaml.tagText? verbatim p.rest.length p.rest
  return (value, p.until rest)

/-- Reads an exclamation mark, the word after it, and the exclamation mark after that, if any. -/
def Place.handle? (p : Place) : Option (Text × Place) :=
  match p.rest with
  | '!' :: cs =>
    let name := cs.takeWhile isWordChar
    let p := p.right (name.length + 1)
    if p.rest.head? = some '!' then some ('!' :: name ++ ['!'], p.right) else some ('!' :: name, p)
  | _ => none

/-- Reads a tag. It is written between angle brackets, or after a handle, or after a single mark. -/
def Place.tag? (p : Place) : Option (Token × Place) := do
  if (p.rest.drop 1).head? = some '<' then
    let (value, p) ← (p.right 2).tagText? true
    if value = [] ∨ p.rest.head? ≠ some '>' then none
    return (.tag [] value, p.right)
  let (handle, p) ← p.handle?
  if 2 ≤ handle.length ∧ handle.getLast? = some '!' then
    let (value, p) ← p.tagText? false
    if value = [] then none
    return (.tag handle value, p)
  let (more, p) ← p.tagText? false
  let value := handle.drop 1 ++ more
  if value = [] then return (.tag [] ['!'], p) else return (.tag ['!'] value, p)

def Place.name? (p : Place) : Option (Text × Place) :=
  let name := p.rest.takeWhile isWordChar
  let p := p.right name.length
  let ends := atSpace p.rest || p.rest.head?.any fun c => "?:,]\x7d%@`".toList.contains c
  if name = [] ∨ !ends then none else some (name, p)

/-! ## Directives -/

def Place.number? (p : Place) : Option (Nat × Place) :=
  let digits := p.rest.takeWhile Char.isDigit
  if digits = [] ∨ 9 < digits.length then none
  else some (digits.foldl (fun n c => n * 10 + (c.toNat - 48)) 0, p.right digits.length)

/-- Reads a directive: the version of the format, or what a tag handle stands for. -/
def Place.directive? (p : Place) : Option (Token × Place) := do
  let p := p.right
  let name := p.rest.takeWhile isWordChar
  let p := p.right name.length
  if name = [] ∨ !atSpace p.rest then none
  let p := p.passWhile isBlank
  let (token, p) ←
    if name = "YAML".toList then do
      let (major, p) ← p.number?
      if p.rest.head? ≠ some '.' then none
      let (minor, p) ← p.right.number?
      pure (Token.version major minor, p)
    else if name = "TAG".toList then do
      let (handle, p) ← p.handle?
      if handle ≠ ['!'] ∧ handle.getLast? ≠ some '!' then none
      if !p.rest.head?.any isBlank then none
      let (start, p) ← (p.passWhile isBlank).tagText? true
      if start = [] ∨ !atSpace p.rest then none
      pure (Token.tagHandle handle start, p)
    else none
  let p := p.passComment
  if atLineEnd p.rest then return (token, p.passBreak) else none

end Yaml

end Lumen
