import Lumen.Yaml.Number
import Lumen.Yaml.Scalar

/-!
# How texts are written in YAML

A text is written as a scalar that is read as the same text, in the plainest style that allows for
it: plain unless it could be taken for something else, in a block if it has several lines, and in
double quotes, where everything can be escaped, if nothing else is left. Lines that go on from a
scalar's first one are indented by two blanks.
-/

namespace Lumen

namespace Yaml

/-! ## Which style -/

/-- Whether a character of one kind stands right before one of another. -/
def meets (p q : Char → Bool) : Text → Bool
  | a :: b :: cs => (p a && q b) || meets p q (b :: cs)
  | _ => false

def isGap (c : Char) : Bool := isBlank c || isBreak c

/-- Whether a text begins with a sign that has a meaning of its own. -/
def beginsWithSign : Text → Bool
  | [] => false
  | c :: cs =>
    "#,[]\x7b\x7d&*!|>'\"%@`".toList.contains c || ("?:-".toList.contains c && atSpace cs)

/-- Whether a text begins like the line between two documents. -/
def beginsDocument (t : Text) : Bool :=
  "---".toList.isPrefixOf t || "...".toList.isPrefixOf t

/-- Whether there is a sign in a text that would end a plain scalar. -/
def hasSign (t : Text) : Bool :=
  beginsWithSign t || beginsDocument t || meets (· = ':') isGap t || t.getLast? = some ':' ||
    meets isGap (· = '#') t

/-- Whether every character shows, and no line ends with a blank. -/
def isClear (t : Text) : Bool := t.all isPrintable && !meets (· = ' ') isBreak t

def allowsBlock (t : Text) : Bool := isClear t && t ≠ [] && t.getLast? ≠ some ' '

def allowsSingle (t : Text) : Bool := isClear t && !meets isBreak (· = ' ') t

def allowsPlain (t : Text) : Bool :=
  t.all isPrintable && !t.any isBreak && t.head? ≠ some ' ' && t.getLast? ≠ some ' ' && !hasSign t

/-- The words that are no texts when they stand plain. -/
def isWord (t : Text) : Bool :=
  t ∈ ["null", "Null", "NULL", "~", "true", "True", "TRUE", "false", "False", "FALSE"].map
    String.toList

/-- Whether a plain scalar would be taken for something else than a text. -/
def isAmbiguous (t : Text) : Bool :=
  t = [] || isWord t || isWhole t || isFloat t || hasLeadingZero t

def styleOf (t : Text) : Style :=
  if '\n' ∈ t then if allowsBlock t then .literal else .doubleQuoted
  else if allowsPlain t && !isAmbiguous t then .plain
  else if allowsSingle t then .singleQuoted
  else .doubleQuoted

/-! ## The writing -/

def hexDigit (n : Nat) : Char := if n < 10 then Char.ofNat (48 + n) else Char.ofNat (55 + n)

/-- The last `n` digits of a number to the base 16. -/
def hexDigits (n k : Nat) : Text :=
  match n with
  | 0 => []
  | n + 1 => hexDigits n (k / 16) ++ [hexDigit (k % 16)]

/-- The letter by which a character is told after a backslash. -/
def letter? (c : Char) : Option Char :=
  match c.toNat with
  | 0x00 => some '0'
  | 0x07 => some 'a'
  | 0x08 => some 'b'
  | 0x09 => some 't'
  | 0x0A => some 'n'
  | 0x0B => some 'v'
  | 0x0C => some 'f'
  | 0x0D => some 'r'
  | 0x1B => some 'e'
  | 0x22 => some '"'
  | 0x5C => some '\\'
  | 0x85 => some 'N'
  | 0x2028 => some 'L'
  | 0x2029 => some 'P'
  | _ => none

/-- A character in double quotes. -/
def escape (c : Char) : Text :=
  if isPrintable c && !isBreak c && c ≠ '"' && c ≠ '\\' then [c]
  else
    match letter? c with
    | some l => ['\\', l]
    | none =>
      if c.toNat < 0x100 then '\\' :: 'x' :: hexDigits 2 c.toNat
      else if c.toNat < 0x10000 then '\\' :: 'u' :: hexDigits 4 c.toNat
      else '\\' :: 'U' :: hexDigits 8 c.toNat

def doubleQuoted (t : Text) : Text := '"' :: t.flatMap escape ++ ['"']

def margin : Text := [' ', ' ']

/-- The lines of a text, indented except for empty ones. `fresh` tells whether a line begins here.
-/
def indented (write : Char → Text) (fresh : Bool) : Text → Text
  | [] => []
  | c :: cs =>
    if isBreak c then c :: indented write true cs
    else (if fresh then margin else []) ++ write c ++ indented write false cs

/-- A character in single quotes. -/
def double (c : Char) : Text := if c = '\'' then ['\'', '\''] else [c]

def singleQuoted (t : Text) : Text :=
  '\'' :: indented double false t ++ (if t.getLast?.any isBreak then margin else []) ++ ['\'']

/-- What a block is told about line ends after it. -/
def chomping (t : Text) : Text :=
  match t.reverse with
  | [] => ['-']
  | c :: cs => if !isBreak c then ['-'] else if cs.head?.all isBreak then ['+'] else []

def literal (t : Text) : Text :=
  '|' :: (if t.head?.any isGap then ['2'] else []) ++ chomping t ++ '\n' ::
    indented (fun c => [c]) true t

def spell (t : Text) : Text :=
  match styleOf t with
  | .plain => t
  | .singleQuoted => singleQuoted t
  | .literal => literal t
  | .doubleQuoted | .folded => doubleQuoted t

/-- Ends a line unless a block that has ended it comes last. -/
def endLine (t : Text) : Text := if t.getLast?.any isBreak then t else t ++ ['\n']

def entryLines (key value : Text) : Text := endLine (key ++ ':' :: ' ' :: value)

def sequenceLines (key : Text) (items : List Text) : Text :=
  key ++ ':' :: '\n' :: items.flatMap fun t => endLine ('-' :: ' ' :: spell t)

end Yaml

end Lumen
