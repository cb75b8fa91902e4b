import Lumen.Yaml.Char

/-!
# Places of YAML

A place in a text with what comes after it. Columns decide what belongs to what, and a key has to
stand near its colon.
-/

namespace Lumen

namespace Yaml

/-- Where a place is: the characters before it, the lines before it and the characters before it
in its line. -/
structure Mark where
  index : Nat := 0
  line : Nat := 0
  column : Nat := 0
deriving BEq, Repr, Inhabited, DecidableEq

namespace Mark

/-- The place some characters further in the line. -/
def right (m : Mark) (n : Nat := 1) : Mark :=
  { m with index := m.index + n, column := m.column + n }

/-- The start of the next line, some characters further. -/
def down (m : Mark) (n : Nat := 1) : Mark := ⟨m.index + n, m.line + 1, 0⟩

end Mark

/-- A place with the text after it. -/
structure Place where
  mark : Mark
  rest : Text
deriving Repr, Inhabited, DecidableEq

namespace Place

def right (p : Place) (n : Nat := 1) : Place := ⟨p.mark.right n, p.rest.drop n⟩

/-- The place after the end of the line that is here, if there is one here. -/
def passBreak (p : Place) : Place :=
  match p.rest with
  | '\r' :: '\n' :: cs => ⟨p.mark.down 2, cs⟩
  | c :: cs => if isBreak c then ⟨p.mark.down, cs⟩ else p
  | [] => p

/-- The place after those characters of a class that are here. -/
def passWhile (p : Place) (f : Char → Bool) : Place :=
  p.right (p.rest.takeWhile f).length

/-- The place after the rest of the line, without its end. -/
def passLine (p : Place) : Place := p.passWhile fun c => !isBreak c

/-- The place after blanks and a comment. -/
def passComment (p : Place) : Place :=
  let p := p.passWhile isBlank
  if p.rest.head? = some '#' then p.passLine else p

/-- Whether a line starts here with three of a character and nothing after them. -/
def seesTriple (p : Place) (x : Char) : Bool :=
  p.mark.column = 0 && p.rest.take 3 = [x, x, x] && atSpace (p.rest.drop 3)

/-- Whether the line that starts here begins or ends a document. -/
def seesDocument (p : Place) : Bool := p.seesTriple '-' || p.seesTriple '.'

end Place

end Yaml

end Lumen
