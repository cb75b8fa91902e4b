import Lumen.Store.Entries

/-!
# Entries as JSON

The text in which entries are kept: an object of strings in JSON, one entry a line. Any object of
strings can be read, whatever blanks it has and however its strings are escaped; of two values under
one key, the later counts.
-/

namespace Lumen

namespace Entries

/-! ## Writing -/

def hexDigit (n : Nat) : Char := if n < 10 then Char.ofNat (48 + n) else Char.ofNat (87 + n)

/-- A character in a string. Quotes, backslashes and control characters are escaped. -/
def escape (c : Char) : Text :=
  if c = '"' then ['\\', '"']
  else if c = '\\' then ['\\', '\\']
  else if c = '\x08' then ['\\', 'b']
  else if c = '\t' then ['\\', 't']
  else if c = '\n' then ['\\', 'n']
  else if c = '\x0c' then ['\\', 'f']
  else if c = '\r' then ['\\', 'r']
  else if c < ' ' then ['\\', 'u', '0', '0', hexDigit (c.toNat / 16), hexDigit (c.toNat % 16)]
  else [c]

def quote (t : Text) : Text := '"' :: t.flatMap escape ++ ['"']

def line (e : Text × Text) : Text := ' ' :: ' ' :: quote e.1 ++ ':' :: ' ' :: quote e.2

/-- Lines with a comma between each two. -/
def lines : Entries → Text
  | [] => []
  | [e] => line e
  | e :: es => line e ++ ',' :: '\n' :: lines es

def toJson (es : Entries) : Text :=
  if es = [] then ['\x7b', '\x7d'] else '\x7b' :: '\n' :: lines es ++ ['\n', '\x7d']

/-! ## Reading -/

def isJsonBlank (c : Char) : Bool := c = ' ' || c = '\n' || c = '\t' || c = '\r'

def skipBlanks (t : Text) : Text := t.dropWhile isJsonBlank

def hexValue? (c : Char) : Option Nat :=
  if '0' ≤ c ∧ c ≤ '9' then some (c.toNat - 48)
  else if 'a' ≤ c ∧ c ≤ 'f' then some (c.toNat - 87)
  else if 'A' ≤ c ∧ c ≤ 'F' then some (c.toNat - 55)
  else none

/-- The number that four digits to the base 16 write. -/
def unit? (a b c d : Char) : Option Nat := do
  return ((← hexValue? a) * 16 + (← hexValue? b)) * 256 + (← hexValue? c) * 16 + (← hexValue? d)

def unescape? (c : Char) : Option Char :=
  if c = '"' ∨ c = '\\' ∨ c = '/' then some c
  else if c = 'b' then some '\x08'
  else if c = 'f' then some '\x0c'
  else if c = 'n' then some '\n'
  else if c = 'r' then some '\r'
  else if c = 't' then some '\t'
  else none

/-- The character of two units, the first of which is not enough for one. -/
def paired? (high low : Nat) : Option Char :=
  if 0xD800 ≤ high ∧ high < 0xDC00 ∧ 0xDC00 ≤ low ∧ low < 0xE000 then
    some (Char.ofNat (0x10000 + (high - 0xD800) * 0x400 + (low - 0xDC00)))
  else none

/-- The rest of a string after its opening quote, and what follows the closing one. -/
def string? : Text → Option (Text × Text)
  | [] => none
  | '"' :: cs => some ([], cs)
  | '\\' :: 'u' :: a :: b :: c :: d :: '\\' :: 'u' :: e :: f :: g :: h :: cs => do
    let unit ← unit? a b c d
    if unit < 0xD800 ∨ 0xE000 ≤ unit then
      let (t, rest) ← string? ('\\' :: 'u' :: e :: f :: g :: h :: cs)
      return (Char.ofNat unit :: t, rest)
    else
      let char ← paired? unit (← unit? e f g h)
      let (t, rest) ← string? cs
      return (char :: t, rest)
  | '\\' :: 'u' :: a :: b :: c :: d :: cs => do
    let unit ← unit? a b c d
    if unit < 0xD800 ∨ 0xE000 ≤ unit then
      let (t, rest) ← string? cs
      return (Char.ofNat unit :: t, rest)
    else none
  | '\\' :: c :: cs => do
    let char ← unescape? c
    let (t, rest) ← string? cs
    return (char :: t, rest)
  | c :: cs =>
    if c = '\\' ∨ c < ' ' then none
    else do
      let (t, rest) ← string? cs
      return (c :: t, rest)

/-- An entry, and what follows it and the blanks after it. -/
def member? (t : Text) : Option ((Text × Text) × Text) :=
  match skipBlanks t with
  | '"' :: cs => do
    let (key, cs) ← string? cs
    match skipBlanks cs with
    | ':' :: cs =>
      match skipBlanks cs with
      | '"' :: cs => do
        let (value, cs) ← string? cs
        return ((key, value), skipBlanks cs)
      | _ => none
    | _ => none
  | _ => none

/-- Adds the entries up to the end of the object, which has to be the end of the text. -/
def addAll? (es : Entries) : Nat → Text → Option Entries
  | 0, _ => none
  | n + 1, t => do
    let (e, rest) ← member? t
    let es := es.insert e.1 e.2
    match rest with
    | ',' :: rest => addAll? es n rest
    | '\x7d' :: rest => if skipBlanks rest = [] then some es else none
    | _ => none

def ofJson? (t : Text) : Option Entries :=
  match skipBlanks t with
  | '\x7b' :: cs =>
    match skipBlanks cs with
    | '\x7d' :: rest => if skipBlanks rest = [] then some [] else none
    | cs => addAll? [] cs.length cs
  | _ => none

end Entries

end Lumen
