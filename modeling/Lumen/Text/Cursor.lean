import Lumen.Text.Extent

/-!
# Cursors

A `Cursor` reads a text forwards while a token is looked for. It knows where it stands, where the
token starts once what comes before it has been skipped, and where the token was last seen to end.
-/

namespace Lumen

/-- A place in a text, with the token that is being read there. -/
structure Cursor where
  text : String
  here : Extent
  start : Extent
  stop : Option Extent := none
deriving Inhabited

namespace Cursor

def begin (text : String) (place : Extent) : Cursor := ⟨text, place, place, none⟩

def atEnd (c : Cursor) : Bool := c.text.utf8ByteSize ≤ c.here.bytes

def next? (c : Cursor) : Option Char :=
  if c.atEnd then none else some (String.Pos.Raw.get c.text ⟨c.here.bytes⟩)

def sees (c : Cursor) (x : Char) : Bool := c.next? == some x

/-- Whether there is a next character of the given class. -/
def seesAny (c : Cursor) (p : Char → Bool) : Bool := c.next?.any p

/-- Reads the next character as part of the token. -/
def advance (c : Cursor) : Cursor :=
  match c.next? with
  | some x => { c with here := c.here.push x }
  | none => c

/-- Reads the next character as part of what comes before the token. -/
def skip (c : Cursor) : Cursor :=
  let c := c.advance
  { c with start := c.here }

/-- Takes the token to end here, until another end is marked. -/
def mark (c : Cursor) : Cursor := { c with stop := some c.here }

/-- The end of the token: where it was last marked, or else here. -/
def finish (c : Cursor) : Extent := c.stop.getD c.here

def left (c : Cursor) : Nat := c.text.utf8ByteSize - c.here.bytes

/-- Reading a character leaves fewer bytes. -/
theorem left_advance_lt (c : Cursor) (h : c.next?.isSome) : c.advance.left < c.left := by
  unfold next? at h
  split at h
  · simp at h
  · rename_i hend
    simp only [atEnd, decide_eq_true_eq, Nat.not_le] at hend
    have hpos : ∀ x : Char, 0 < x.utf8Size := Char.utf8Size_pos
    unfold advance next?
    simp only [atEnd, Nat.not_le.mpr hend, decide_false, Bool.false_eq_true, ↓reduceIte, left,
      Extent.push]
    split
    · simp only; omega
    · have := hpos (String.Pos.Raw.get c.text ⟨c.here.bytes⟩)
      simp only; omega

def advanceWhile (p : Char → Bool) (c : Cursor) : Cursor :=
  match h : c.next? with
  | some x =>
    if p x then
      have := c.left_advance_lt (by simp [h])
      advanceWhile p c.advance
    else c
  | none => c
termination_by c.left

def skipWhile (p : Char → Bool) (c : Cursor) : Cursor :=
  let c := c.advanceWhile p
  { c with start := c.here }

end Cursor

end Lumen
