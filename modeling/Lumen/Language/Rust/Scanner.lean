import Lumen.Language.Scanner

/-!
# Strings, comments and floats of Rust

The tokens of Rust that are found by a scanner: the inside of strings and comments, raw strings, and
floating point literals. A raw string remembers how many hash marks opened it.

The scanner knows letters, digits and blanks of ASCII only. It compares the characters of a block
comment by their low eight bits.
-/

namespace Lumen

namespace Language.Rust

/-- The external tokens of Rust, in the order in which the grammar lists them. -/
inductive External where
  | stringContent
  | rawStringStart
  | rawStringContent
  | rawStringEnd
  | floatLiteral
  | outerDocMarker
  | innerDocMarker
  | blockCommentContent
  | lineDocContent
  | errorSentinel
deriving DecidableEq, Repr

namespace External

def number : External → Nat
  | stringContent => 0
  | rawStringStart => 1
  | rawStringContent => 2
  | rawStringEnd => 3
  | floatLiteral => 4
  | outerDocMarker => 5
  | innerDocMarker => 6
  | blockCommentContent => 7
  | lineDocContent => 8
  | errorSentinel => 9

end External

def isBlank (c : Char) : Bool := c = ' ' || ('\t' ≤ c && c ≤ '\r')

def isNumeral (c : Char) : Bool := c = '_' || c.isDigit

/-! ## Strings -/

/-- The text of a string up to a quote or an escape, if there is any and the string goes on. -/
def stringContent? (c : Cursor) : Option Cursor :=
  let stop := c.advanceWhile fun x => x ≠ '"' && x ≠ '\\'
  if stop.atEnd || stop.here.bytes = c.here.bytes then none else some stop.mark

def countHashes (c : Cursor) : Nat × Cursor :=
  let stop := c.advanceWhile (· = '#')
  (stop.here.bytes - c.here.bytes, stop)

/-- The opening of a raw string, with the number of its hash marks; the number is kept in a byte. -/
def rawStringStart? (c : Cursor) : Option (Nat × Cursor) :=
  let c := if c.sees 'b' || c.sees 'c' then c.advance else c
  if !c.sees 'r' then none
  else
    let (count, c) := countHashes c.advance
    if c.sees '"' then some (count % 256, c.advance) else none

/-- Reads up to `count` hash marks; returns how many there were. -/
def readHashes : Nat → Cursor → Nat × Cursor
  | 0, c => (0, c)
  | count + 1, c =>
    if c.sees '#' then
      let (n, c) := readHashes count c.advance
      (n + 1, c)
    else (0, c)

/-- The inside of a raw string: up to the first quote with enough hash marks after it. Each step
reads one character at least, so the bytes that are left bound the steps. -/
def rawStringContent? (count fuel : Nat) (c : Cursor) : Option Cursor :=
  match fuel with
  | 0 => none
  | fuel + 1 =>
    if c.atEnd then none
    else if c.sees '"' then
      let (n, c) := readHashes count c.mark.advance
      if n = count then some c else rawStringContent? count fuel c
    else rawStringContent? count fuel c.advance

/-- The closing quote of a raw string with its hash marks. -/
def rawStringEnd (count : Nat) (c : Cursor) : Cursor :=
  Nat.fold count (fun _ _ c => c.advance) c.advance

/-! ## Floats -/

/-- The suffix of a float that has a point or an exponent. -/
def floatSuffix (c : Cursor) : Cursor :=
  if c.sees 'u' || c.sees 'i' || c.sees 'f' then
    let d := c.advance
    if d.seesAny Char.isDigit then (d.advanceWhile Char.isDigit).mark else d
  else c

/-- The exponent of a float, and whether there is one that counts; none if the literal ends before
the exponent's first digit. -/
def floatExponent (hasPoint : Bool) (c : Cursor) : Option Cursor :=
  if c.sees 'e' || c.sees 'E' then
    let d := c.advance
    let d := if d.sees '+' || d.sees '-' then d.advance else d
    if d.seesAny isNumeral then some (floatSuffix (d.advance.advanceWhile isNumeral).mark)
    else some d
  else if hasPoint then some (floatSuffix c)
  else none

/-- A number with a point, an exponent or both. A point before a letter or another point is not part
of a number. -/
def floatLiteral? (c : Cursor) : Option Cursor :=
  let c := c.advance.advanceWhile isNumeral
  if c.sees '.' then
    let c := c.advance
    if c.seesAny Char.isAlpha || c.sees '.' then none
    else floatExponent true (c.advanceWhile isNumeral).mark
  else floatExponent false c.mark

/-! ## Comments -/

def lineDocContent (c : Cursor) : Cursor := (c.advanceWhile (· ≠ '\n')).advance

/-- What was read last inside a block comment. -/
inductive CommentState where
  | slash
  | star
  | other

/-- The next character of a block comment, by its low eight bits. -/
def lowByte (c : Cursor) : Char :=
  match c.next? with
  | some x => Char.ofNat (x.toNat % 256)
  | none => '\x00'

/-- Reads a block comment up to the end that closes it, or to the end of the text. -/
def commentContent (fuel : Nat) (state : CommentState) (depth : Nat) (c : Cursor) : Cursor :=
  match fuel with
  | 0 => c
  | fuel + 1 =>
    if c.atEnd || depth = 0 then c
    else
      let x := lowByte c
      let (state, depth, c) := match state with
        | .slash => (CommentState.other, if x = '*' then depth + 1 else depth, c)
        | .star =>
          if x = '*' then (CommentState.star, depth, c.mark)
          else (CommentState.other, if x = '/' then depth - 1 else depth, c)
        | .other =>
          (if x = '/' then CommentState.slash else if x = '*' then .star else .other, depth, c.mark)
      let c := c.advance
      commentContent fuel state depth (if x = '/' && depth ≠ 0 then c.mark else c)

/-- The content of a block comment whose first character has been read. -/
def blockContent? (first : Char) (c : Cursor) : Option Cursor :=
  if first = '*' then
    if c.sees '/' then none else some (commentContent (c.left + 1) .star 1 c)
  else if first = '/' then some (commentContent (c.left + 1) .slash 1 c)
  else some (commentContent (c.left + 1) .other 1 c)

/-- A documentation marker or the content of a block comment. -/
def blockComment? (valid : External → Bool) (c : Cursor) : Option (External × Cursor) :=
  let first := lowByte c
  let content (c : Cursor) : Option (External × Cursor) :=
    if valid .blockCommentContent then
      (blockContent? first c).map fun c => (.blockCommentContent, c)
    else none
  if valid .innerDocMarker && first = '!' then some (.innerDocMarker, c.advance)
  else if valid .outerDocMarker && first = '*' then
    let c := c.advance.mark
    if c.sees '/' then none
    else if !c.sees '*' then some (.outerDocMarker, c)
    else content c
  else content c.advance

/-! ## The scanner -/

/-- Looks for the token that the place calls for. -/
def scan (memory : Nat) (valid : External → Bool) (c : Cursor) : Option (External × Nat × Cursor) :=
  let keep (t : External) (c : Cursor) := (t, memory, c)
  if valid .errorSentinel then none
  else if valid .blockCommentContent || valid .innerDocMarker || valid .outerDocMarker then
    (blockComment? valid c).map fun (t, c) => keep t c
  else if valid .stringContent && !valid .floatLiteral then
    (stringContent? c).map (keep .stringContent)
  else if valid .lineDocContent then some (keep .lineDocContent (lineDocContent c))
  else
    let c := c.skipWhile isBlank
    if valid .rawStringStart && (c.sees 'r' || c.sees 'b' || c.sees 'c') then
      (rawStringStart? c).map fun (count, c) => (.rawStringStart, count, c)
    else if valid .rawStringContent then
      (rawStringContent? memory (c.left + 1) c).map (keep .rawStringContent)
    else if valid .rawStringEnd && c.sees '"' then
      some (keep .rawStringEnd (rawStringEnd memory c))
    else if valid .floatLiteral && c.seesAny Char.isDigit then
      (floatLiteral? c).map (keep .floatLiteral)
    else none

def scanner : Scanner where
  scan memory valid c := (scan memory (fun t => valid t.number) c).map fun (t, memory, cursor) =>
    ⟨t.number, memory, cursor⟩

end Language.Rust

end Lumen
