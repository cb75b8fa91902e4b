import Lumen.Yaml.Char

/-!
# Numbers of YAML

Which plain scalars are numbers. A whole number is written to the base 10, or after `0x`, `0o` or
`0b` to the base 16, 8 or 2. Digits after a leading zero are no number.
-/

namespace Lumen

namespace Yaml

/-- The bound of the whole numbers that are told apart. -/
def wordBound : Nat := Nat.pow 2 128

def digit? (base : Nat) (c : Char) : Option Nat :=
  (hexDigit? c).bind fun n => if n < base then some n else none

/-- The number below a bound that digits write. -/
def digits? (base bound : Nat) (t : Text) : Option Nat :=
  if t = [] then none
  else
    (t.foldl (fun n c => do return (← n) * base + (← digit? base c)) (some 0)).bind fun n =>
      if n < bound then some n else none

def dropSign (t : Text) : Text :=
  match t with
  | '+' :: cs => cs
  | '-' :: cs => cs
  | cs => cs

/-- Whether a text is digits after a zero, which are no number. -/
def hasLeadingZero (t : Text) : Bool :=
  match dropSign t with
  | '0' :: c :: cs => (c :: cs).all Char.isDigit
  | _ => false

def startsWithSign (t : Text) : Bool := t.head?.any fun c => c = '+' || c = '-'

/-- The bases that are told by a letter after a zero. -/
def baseOf? (c : Char) : Option Nat :=
  match c with
  | 'x' => some 16
  | 'o' => some 8
  | 'b' => some 2
  | _ => none

/-- The number below a bound that a text without a sign writes. -/
def unsigned? (bound : Nat) (t : Text) : Option Nat :=
  let decimal := if hasLeadingZero t then none else digits? 10 bound t
  match t with
  | '0' :: c :: cs =>
    match baseOf? c with
    | some base => digits? base bound cs <|> decimal
    | none => decimal
  | _ => decimal

/-- The number below a bound that a text writes, perhaps after a plus sign. -/
def natural? (bound : Nat) (t : Text) : Option Nat :=
  match t with
  | '+' :: cs => if startsWithSign cs || hasLeadingZero t then none else unsigned? bound cs
  | cs => if startsWithSign cs then none else unsigned? bound cs

/-- Whether a text is a whole number, with any sign. -/
def isWhole (t : Text) : Bool :=
  match t with
  | '-' :: cs => !startsWithSign cs && (unsigned? (wordBound / 2 + 1) cs).isSome
  | t => (natural? wordBound t).isSome

/-! ## Numbers with a point -/

/-- Whether a decimal number is below the bound of 64-bit floating point: its digits without
point, and the power of ten of the last. -/
def isFinite (digits : Nat) (exponent : Int) : Bool :=
  let size := (Nat.toDigits 10 digits).length + exponent
  if digits = 0 ∨ size < 300 then true
  else if 310 < size then false
  else
    let bound := (Nat.pow 2 54 - 1) * Nat.pow 2 970
    if 0 ≤ exponent then digits * Nat.pow 10 exponent.toNat < bound
    else digits < bound * Nat.pow 10 (-exponent).toNat

def decimal (t : Text) : Nat := t.foldl (fun n c => n * 10 + (c.toNat - 48)) 0

/-- The exponent that a text after a number writes, 0 if there is none. -/
def exponent? (t : Text) : Option Int :=
  match t with
  | [] => some 0
  | c :: cs =>
    if c ≠ 'e' ∧ c ≠ 'E' then none
    else
      let digits := dropSign cs
      if digits = [] ∨ !digits.all Char.isDigit then none
      else
        let n : Int := decimal digits
        some (if cs.head? = some '-' then -n else n)

/-- Whether a text is a finite decimal number, with a point, an exponent, both or neither. -/
def isDecimal (t : Text) : Bool :=
  let t := dropSign t
  let whole := t.takeWhile Char.isDigit
  let rest := t.dropWhile Char.isDigit
  let (fraction, rest) := match rest with
    | '.' :: cs => (cs.takeWhile Char.isDigit, cs.dropWhile Char.isDigit)
    | cs => ([], cs)
  if whole = [] ∧ fraction = [] then false
  else
    match exponent? rest with
    | none => false
    | some e => isFinite (decimal (whole ++ fraction)) (e - fraction.length)

/-- Whether a text is one of the words for what is no finite number. -/
def isUnbounded (t : Text) : Bool :=
  let infinite := [".inf", ".Inf", ".INF"].map String.toList
  infinite.contains t || (infinite.map ('+' :: ·)).contains t ||
    (infinite.map ('-' :: ·)).contains t || ([".nan", ".NaN", ".NAN"].map String.toList).contains t

/-- Whether a text is a number that need not be whole. -/
def isFloat (t : Text) : Bool :=
  let doubled := t.head? = some '+' && startsWithSign (t.drop 1)
  isUnbounded t || (!doubled && isDecimal t)

end Yaml

end Lumen
