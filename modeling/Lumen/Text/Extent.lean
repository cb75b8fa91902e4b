/-!
# Extents

An `Extent` measures a stretch of text three ways at once: in bytes, in line breaks, and in bytes
after the last line break. Measured from the start of a text, it is a place in the text.
-/

namespace Lumen

/-- The measure of a stretch of text: its bytes, its line breaks, and the bytes after the last of
these. -/
structure Extent where
  bytes : Nat := 0
  row : Nat := 0
  column : Nat := 0
deriving BEq, Repr, Inhabited, DecidableEq

namespace Extent

/-- The extent of one stretch followed by another. -/
def add (a b : Extent) : Extent :=
  ⟨a.bytes + b.bytes, a.row + b.row, if b.row = 0 then a.column + b.column else b.column⟩

instance : Add Extent := ⟨add⟩

/-- The stretch from place `b` to place `a`. -/
def sub (a b : Extent) : Extent :=
  ⟨a.bytes - b.bytes, a.row - b.row, if a.row = b.row then a.column - b.column else a.column⟩

instance : Sub Extent := ⟨sub⟩

def push (a : Extent) (c : Char) : Extent :=
  if c = '\n' then ⟨a.bytes + 1, a.row + 1, 0⟩
  else ⟨a.bytes + c.utf8Size, a.row, a.column + c.utf8Size⟩

def ofChars (cs : List Char) : Extent := cs.foldl push {}

end Extent

end Lumen
