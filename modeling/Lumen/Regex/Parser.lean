import Lumen.Regex.Basic
import Lumen.Text.Property

/-!
# Reading a pattern

`Regex.parse?` reads the text of a regular expression; `none` means that the text is not one.

The syntax has groups (plain, named and without capture), flags, alternation, the counted and
uncounted repetitions with their lazy forms, anchors, bracketed classes with nesting and set
operations, named ASCII classes and the usual escapes. A `Dialect` says what the letters `d`, `s`
and `w` stand for: every script, or ASCII alone.
-/

namespace Lumen

namespace Regex

/-- What the class letters mean and how the characters of the pattern are taken. -/
structure Dialect where
  asciiClasses : Bool := false
  ignoreCase : Bool := false
  multiLine : Bool := false
  dotAll : Bool := false
  ignoreSpace : Bool := false
deriving BEq, Repr, Inhabited

namespace Dialect

def digit (d : Dialect) : Charset := if d.asciiClasses then .asciiDigit else .digit
def blank (d : Dialect) : Charset := if d.asciiClasses then .asciiBlank else .blank
def word (d : Dialect) : Charset := if d.asciiClasses then .asciiWord else .word

/-- The set as it is matched under the dialect. -/
def close (d : Dialect) (s : Charset) : Charset := if d.ignoreCase then s.closeCase else s

end Dialect

/-- The named classes that may stand inside brackets. -/
def asciiClass? : String → Option Charset
  | "alnum" => some ⟨[(0x30, 0x39), (0x41, 0x5A), (0x61, 0x7A)]⟩
  | "alpha" => some ⟨[(0x41, 0x5A), (0x61, 0x7A)]⟩
  | "ascii" => some ⟨[(0, 0x7F)]⟩
  | "blank" => some ⟨[(0x9, 0x9), (0x20, 0x20)]⟩
  | "cntrl" => some ⟨[(0, 0x1F), (0x7F, 0x7F)]⟩
  | "digit" => some .asciiDigit
  | "graph" => some ⟨[(0x21, 0x7E)]⟩
  | "lower" => some ⟨[(0x61, 0x7A)]⟩
  | "print" => some ⟨[(0x20, 0x7E)]⟩
  | "punct" => some ⟨[(0x21, 0x2F), (0x3A, 0x40), (0x5B, 0x60), (0x7B, 0x7E)]⟩
  | "space" => some .asciiBlank
  | "upper" => some ⟨[(0x41, 0x5A)]⟩
  | "word" => some .asciiWord
  | "xdigit" => some ⟨[(0x30, 0x39), (0x41, 0x46), (0x61, 0x66)]⟩
  | _ => none

/-- The classes that a pattern names by a property. -/
def propertyClass? (name : String) : Option Charset :=
  match (name.toList.filter fun c => c ≠ '_' && c ≠ ' ' && c ≠ '-').map Char.toLower with
  | ['x', 'i', 'd', 's', 't', 'a', 'r', 't'] => some .xidStart
  | ['x', 'i', 'd', 's'] => some .xidStart
  | ['x', 'i', 'd', 'c', 'o', 'n', 't', 'i', 'n', 'u', 'e'] => some .xidContinue
  | ['x', 'i', 'd', 'c'] => some .xidContinue
  | ['n', 'd'] => some .digit
  | ['d', 'e', 'c', 'i', 'm', 'a', 'l', 'n', 'u', 'm', 'b', 'e', 'r'] => some .digit
  | ['w', 'h', 'i', 't', 'e', 's', 'p', 'a', 'c', 'e'] => some .blank
  | ['a', 'n', 'y'] => some .all
  | ['a', 's', 'c', 'i', 'i'] => some (.range 0 0x7F)
  | _ => none

def hexValue? (c : Char) : Option Nat :=
  if '0' ≤ c ∧ c ≤ '9' then some (c.toNat - '0'.toNat)
  else if 'a' ≤ c ∧ c ≤ 'f' then some (c.toNat - 'a'.toNat + 10)
  else if 'A' ≤ c ∧ c ≤ 'F' then some (c.toNat - 'A'.toNat + 10)
  else none

/-- The number written by hexadecimal digits, at least one. -/
def hexNumber? (cs : List Char) : Option Nat :=
  if cs.isEmpty then none
  else cs.foldlM (fun n c => (hexValue? c).map fun v => n * 16 + v) 0

/-- A code point that is a character. -/
def scalar? (n : Nat) : Option Nat :=
  if n < 0xD800 ∨ (0xDFFF < n ∧ n ≤ Charset.lastCodePoint) then some n else none

/-- Splits a text at the first occurrence of a character, which is dropped. -/
def cutAt (stop : Char) (s : List Char) : Option (List Char × List Char) :=
  match s.dropWhile (· ≠ stop) with
  | [] => none
  | _ :: rest => some (s.takeWhile (· ≠ stop), rest)

/-- The code point of an escape by number, after the letter that opens it: all digits inside
braces, or exactly `width` of them. -/
def numberedEscape? (width : Nat) (s : List Char) : Option (Nat × List Char) :=
  match s with
  | '\x7b' :: rest => do
    let (digits, rest) ← cutAt '\x7d' rest
    let n ← hexNumber? digits >>= scalar?
    return (n, rest)
  | _ => do
    let digits := s.take width
    if digits.length < width then none
    let n ← hexNumber? digits >>= scalar?
    return (n, s.drop width)

/-- The set named by a property escape, after its letter. -/
def propertyEscape? (s : List Char) : Option (Charset × List Char) :=
  match s with
  | '\x7b' :: rest => do
    let (name, rest) ← cutAt '\x7d' rest
    match name with
    | '^' :: name => do
      let set ← propertyClass? (String.ofList name)
      return (set.complement, rest)
    | _ => do
      let set ← propertyClass? (String.ofList name)
      return (set, rest)
  | c :: rest => do
    let set ← propertyClass? (String.ofList [c])
    return (set, rest)
  | [] => none

/-- What an escape stands for: one character or a class of them. -/
inductive Escape where
  | char (code : Nat)
  | set (s : Charset)
  | anchor (a : Anchor)

def Escape.toSet : Escape → Charset
  | .char c => .range c c
  | .set s => s
  | .anchor _ => .empty

/-- Characters that may be escaped although they mean nothing special. -/
def isEscapable (c : Char) : Bool :=
  c.toNat < 0x80 && !c.isAlphanum && c ≠ '<' && c ≠ '>'

/-- Reads an escape, after its backslash. -/
def escape? (d : Dialect) (s : List Char) : Option (Escape × List Char) :=
  match s with
  | [] => none
  | c :: rest =>
    match c with
    | 'd' => some (.set d.digit, rest)
    | 'D' => some (.set d.digit.complement, rest)
    | 's' => some (.set d.blank, rest)
    | 'S' => some (.set d.blank.complement, rest)
    | 'w' => some (.set d.word, rest)
    | 'W' => some (.set d.word.complement, rest)
    | 'n' => some (.char 0xA, rest)
    | 't' => some (.char 0x9, rest)
    | 'r' => some (.char 0xD, rest)
    | 'f' => some (.char 0xC, rest)
    | 'v' => some (.char 0xB, rest)
    | 'a' => some (.char 0x7, rest)
    | 'x' => (numberedEscape? 2 rest).map fun (n, r) => (.char n, r)
    | 'u' => (numberedEscape? 4 rest).map fun (n, r) => (.char n, r)
    | 'U' => (numberedEscape? 8 rest).map fun (n, r) => (.char n, r)
    | 'p' => (propertyEscape? rest).map fun (s, r) => (.set s, r)
    | 'P' => (propertyEscape? rest).map fun (s, r) => (.set s.complement, r)
    | 'A' => some (.anchor .textStart, rest)
    | 'z' => some (.anchor .textEnd, rest)
    | 'b' =>
      if "\x7bstart\x7d".toList.isPrefixOf rest then some (.anchor .wordStart, rest.drop 7)
      else if "\x7bend\x7d".toList.isPrefixOf rest then some (.anchor .wordEnd, rest.drop 5)
      else some (.anchor .wordEdge, rest)
    | 'B' => some (.anchor .insideWord, rest)
    | '<' => some (.anchor .wordStart, rest)
    | '>' => some (.anchor .wordEnd, rest)
    | _ => if isEscapable c then some (.char c.toNat, rest) else none

/-- One item of a bracketed class that may be the end of a range. -/
def classAtom? (d : Dialect) (s : List Char) : Option (Escape × List Char) :=
  match s with
  | [] => none
  | '\\' :: rest => do
    let (e, rest) ← escape? d rest
    match e with
    | .anchor _ => none
    | e => return (e, rest)
  | c :: rest => some (.char c.toNat, rest)

/-- A named class such as `[:alpha:]`, after its opening bracket. -/
def namedClass? (s : List Char) : Option (Charset × List Char) :=
  match s with
  | ':' :: rest => do
    let (negated, rest) := match rest with
      | '^' :: r => (true, r)
      | r => (false, r)
    let name := rest.takeWhile fun c => c.isAlpha
    let set ← asciiClass? (String.ofList name)
    match rest.drop name.length with
    | ':' :: ']' :: r => some (if negated then set.complement else set, r)
    | _ => none
  | _ => none

/-- How the set read so far and the next operand of a bracketed class are joined. -/
inductive SetOp where
  | inter
  | diff
  | symmDiff

def SetOp.apply : Option (Charset × SetOp) → Charset → Charset
  | none, b => b
  | some (a, .inter), b => a.inter b
  | some (a, .diff), b => a.diff b
  | some (a, .symmDiff), b => a.symmDiff b

mutual

/-- Reads a bracketed class, after its opening bracket. -/
def bracket? (fuel : Nat) (d : Dialect) (s : List Char) : Option (Charset × List Char) :=
  match fuel with
  | 0 => none
  | fuel + 1 => do
    let (negated, s) := match s with
      | '^' :: r => (true, r)
      | r => (false, r)
    let dashes := s.takeWhile (· = '-')
    let s := s.drop dashes.length
    let start := if dashes.isEmpty then Charset.empty else .single '-'
    let (start, s) := match s with
      | ']' :: r => if dashes.isEmpty then (Charset.single ']', r) else (start, s)
      | _ => (start, s)
    let (set, rest) ← classItems? fuel d none start s
    return (if negated then set.complement else set, rest)

def classItems? (fuel : Nat) (d : Dialect) (left : Option (Charset × SetOp)) (acc : Charset)
    (s : List Char) : Option (Charset × List Char) :=
  match fuel with
  | 0 => none
  | fuel + 1 =>
    match s with
    | [] => none
    | ']' :: rest => some (SetOp.apply left acc, rest)
    | '&' :: '&' :: rest => classItems? fuel d (some (SetOp.apply left acc, .inter)) .empty rest
    | '-' :: '-' :: rest => classItems? fuel d (some (SetOp.apply left acc, .diff)) .empty rest
    | '~' :: '~' :: rest =>
      classItems? fuel d (some (SetOp.apply left acc, .symmDiff)) .empty rest
    | '[' :: rest =>
      match namedClass? rest with
      | some (set, rest) => classItems? fuel d left (acc.union (d.close set)) rest
      | none => do
        let (set, rest) ← bracket? fuel d rest
        classItems? fuel d left (acc.union set) rest
    | _ => do
      let (first, rest) ← classAtom? d s
      match rest with
      | '-' :: r =>
        match r with
        | [] => none
        -- A minus before the closing bracket or another minus stands for itself or begins an
        -- operator.
        | ']' :: _ => classItems? fuel d left (acc.union (d.close first.toSet)) rest
        | '-' :: _ => classItems? fuel d left (acc.union (d.close first.toSet)) rest
        | _ => do
          let (last, rest) ← classAtom? d r
          match first, last with
          | .char a, .char b =>
            if a ≤ b then classItems? fuel d left (acc.union (d.close (.range a b))) rest
            else none
          | _, _ => none
      | _ => classItems? fuel d left (acc.union (d.close first.toSet)) rest

end

def decimal? (s : List Char) : Option (Nat × List Char) :=
  let digits := s.takeWhile Char.isDigit
  if digits.isEmpty then none
  else some (digits.foldl (fun n c => n * 10 + (c.toNat - '0'.toNat)) 0, s.drop digits.length)

/-- Reads the bounds of a counted repetition, after its opening brace. -/
def bounds? (s : List Char) : Option (Nat × Option Nat × List Char) := do
  let (least, rest) ← decimal? s
  match rest with
  | '\x7d' :: rest => return (least, some least, rest)
  | ',' :: '\x7d' :: rest => return (least, none, rest)
  | ',' :: rest => do
    let (most, rest) ← decimal? rest
    match rest with
    | '\x7d' :: rest => if least ≤ most then return (least, some most, rest) else none
    | _ => none
  | _ => none

/-- Switches one flag; `none` for a letter that is no flag. -/
def Dialect.setFlag (d : Dialect) (on : Bool) : Char → Option Dialect
  | 'i' => some { d with ignoreCase := on }
  | 'm' => some { d with multiLine := on }
  | 's' => some { d with dotAll := on }
  | 'x' => some { d with ignoreSpace := on }
  | 'u' => some { d with asciiClasses := !on }
  | 'U' => some d
  | 'R' => some d
  | _ => none

/-- Reads flags up to the character that ends them, which is returned. -/
def flags? (d : Dialect) (on : Bool) : List Char → Option (Dialect × Char × List Char)
  | [] => none
  | ':' :: rest => some (d, ':', rest)
  | ')' :: rest => some (d, ')', rest)
  | '-' :: rest => if on then flags? d false rest else none
  | c :: rest => do
    let d ← d.setFlag on c
    flags? d on rest

/-- Drops blanks and comments where the dialect ignores them. -/
def skipSpace (fuel : Nat) (d : Dialect) (s : List Char) : List Char :=
  match fuel with
  | 0 => s
  | fuel + 1 =>
    if d.ignoreSpace then
      match s with
      | '#' :: rest => skipSpace fuel d (rest.dropWhile (· ≠ '\n'))
      | c :: rest => if Charset.blank.mem c.toNat then skipSpace fuel d rest else s
      | [] => s
    else s

/-- Applies the repetition operators that follow an expression. -/
def repeated? (fuel : Nat) (d : Dialect) (r : Regex) (s : List Char) : Option (Regex × List Char) :=
  match fuel with
  | 0 => none
  | fuel + 1 =>
    let lazy (s : List Char) := match s with
      | '?' :: rest => rest
      | _ => s
    match skipSpace (s.length + 1) d s with
    | '*' :: rest => repeated? fuel d (.rep r 0 none) (lazy rest)
    | '+' :: rest => repeated? fuel d (.rep r 1 none) (lazy rest)
    | '?' :: rest => repeated? fuel d (.rep r 0 (some 1)) (lazy rest)
    | '\x7b' :: rest => do
      let (least, most, rest) ← bounds? rest
      repeated? fuel d (.rep r least most) (lazy rest)
    | rest => some (r, rest)

mutual

def alternatives? (fuel : Nat) (d : Dialect) (s : List Char) :
    Option (Regex × List Char) :=
  match fuel with
  | 0 => none
  | fuel + 1 => do
    let (first, d, rest) ← sequence? fuel d .empty s
    match rest with
    | '|' :: rest => do
      let (second, rest) ← alternatives? fuel d rest
      return (.alt first second, rest)
    | _ => return (first, rest)

/-- Reads one alternative. The flags in force at its end are returned with it. -/
def sequence? (fuel : Nat) (d : Dialect) (acc : Regex) (s : List Char) :
    Option (Regex × Dialect × List Char) :=
  match fuel with
  | 0 => none
  | fuel + 1 =>
    match skipSpace (s.length + 1) d s with
    | [] => some (acc, d, [])
    | '|' :: rest => some (acc, d, '|' :: rest)
    | ')' :: rest => some (acc, d, ')' :: rest)
    -- Nothing to repeat.
    | '*' :: _ => none
    | '+' :: _ => none
    | '?' :: _ => none
    | '\x7b' :: _ => none
    | '(' :: '?' :: 'P' :: '<' :: rest => namedGroup fuel d acc rest
    | '(' :: '?' :: '<' :: rest => namedGroup fuel d acc rest
    | '(' :: '?' :: rest => do
      let (inner, stop, rest) ← flags? d true rest
      -- Flags without a group hold up to the end of the group around them.
      if stop = ')' then sequence? fuel inner acc rest
      else group fuel d inner acc rest
    | '(' :: rest => group fuel d d acc rest
    | '[' :: rest => do
      let (set, rest) ← bracket? (s.length + 1) d rest
      item fuel d acc (.chars set) rest
    | '.' :: rest =>
      item fuel d acc (.chars (if d.dotAll then .all else (Charset.single '\n').complement)) rest
    | '^' :: rest => item fuel d acc (.anchor (if d.multiLine then .lineStart else .textStart)) rest
    | '$' :: rest => item fuel d acc (.anchor (if d.multiLine then .lineEnd else .textEnd)) rest
    | '\\' :: rest => do
      let (e, rest) ← escape? d rest
      match e with
      | .char c => item fuel d acc (.chars (d.close (.range c c))) rest
      | .set set => item fuel d acc (.chars (d.close set)) rest
      | .anchor a => item fuel d acc (.anchor a) rest
    | c :: rest => item fuel d acc (.chars (d.close (.single c))) rest

def item (fuel : Nat) (d : Dialect) (acc r : Regex) (rest : List Char) :
    Option (Regex × Dialect × List Char) :=
  match fuel with
  | 0 => none
  | fuel + 1 => do
    let (r, rest) ← repeated? (rest.length + 1) d r rest
    sequence? fuel d (if acc == .empty then r else .seq acc r) rest

/-- Reads a group whose inside is read under the flags `inner`. -/
def group (fuel : Nat) (d inner : Dialect) (acc : Regex) (rest : List Char) :
    Option (Regex × Dialect × List Char) :=
  match fuel with
  | 0 => none
  | fuel + 1 => do
    let (r, rest) ← alternatives? fuel inner rest
    match rest with
    | ')' :: rest => item fuel d acc r rest
    | _ => none

/-- Reads a named group, after the bracket that opens its name. -/
def namedGroup (fuel : Nat) (d : Dialect) (acc : Regex) (rest : List Char) :
    Option (Regex × Dialect × List Char) :=
  match fuel with
  | 0 => none
  | fuel + 1 => do
    let (name, rest) ← cutAt '>' rest
    match name with
    | [] => none
    | c :: cs =>
      if (c = '_' || c.isAlpha) && cs.all fun c => c.isAlphanum || c ∈ ['_', '.', '[', ']'] then
        group fuel d d acc rest
      else none

end

def parse? (d : Dialect) (pattern : String) : Option Regex :=
  let s := pattern.toList
  match alternatives? (4 * s.length + 4) d s with
  | some (r, []) => some r
  | _ => none

end Regex

end Lumen
