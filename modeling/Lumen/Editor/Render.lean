import Lumen.Editor.Basic
import Lumen.Text.Trim

/-!
# Coloured rows

The rows of an editor that can be seen, as a terminal shows them in colours. A byte has the colour
of the first mark that it is in, among those whose style names a known colour. So the colours are
laid on the bytes of a row mark by mark, on those that have none yet, and then the row is painted. A
control sequence stands before each character whose colour is another than that of the character
before it, and each row ends uncoloured.
-/

namespace Lumen

structure Color where
  red : Nat
  green : Nat
  blue : Nat
deriving BEq, Repr, Inhabited, DecidableEq

namespace Color

/-- The colours that are known by name. -/
def table : List (String × Color) :=
  [("blue", ⟨0, 0, 255⟩), ("chocolate", ⟨210, 105, 30⟩), ("darkblue", ⟨0, 0, 139⟩),
   ("darkcyan", ⟨0, 139, 139⟩), ("darkgreen", ⟨0, 100, 0⟩), ("darkred", ⟨139, 0, 0⟩),
   ("darkslategray", ⟨47, 79, 79⟩), ("dimgray", ⟨105, 105, 105⟩), ("green", ⟨0, 128, 0⟩),
   ("indigo", ⟨75, 0, 130⟩), ("navy", ⟨0, 0, 128⟩), ("red", ⟨255, 0, 0⟩),
   ("sienna", ⟨160, 82, 45⟩)]

def named? (name : Text) : Option Color := (table.find? (·.1.toList = name)).map (·.2)

/-- The control sequence from which on characters are shown in a colour. -/
def sequence (c : Color) : Text :=
  "\x1b[38;2;".toList ++ (toString c.red).toList ++ ';' :: (toString c.green).toList ++
    ';' :: (toString c.blue).toList ++ ['m']

def plain : Text := "\x1b[0m".toList

def switch : Option Color → Text
  | some c => c.sequence
  | none => plain

end Color

namespace Style

/-- The parts of a declaration around its colon. -/
def declaration? (t : Text) : Option (Text × Text) :=
  match t.dropWhile (· ≠ ':') with
  | [] => none
  | _ :: value => some (Text.trim (t.takeWhile (· ≠ ':')), Text.trim value)

def colorValue? (t : Text) : Option Text :=
  (declaration? t).bind fun (property, value) =>
    if property = "color".toList then some value else none

/-- The name in the first declaration of a colour. -/
def colorName? (s : Style) : Option Text := (s.css.split ';').findSome? colorValue?

def color? (s : Style) : Option Color := s.colorName?.bind Color.named?

end Style

namespace Editor

/-- The stretches of an editor's text that have a colour, in the order of the marks. -/
def coloredSpans (e : Editor) : List (Nat × Nat × Color) :=
  e.marks.filterMap fun m => m.style.color?.map fun c => (m.start, m.stop, c)

/-- Gives a colour to those bytes of a stretch that have none. -/
def colorStretch (colors : Array (Option Color)) (start stop : Nat) (c : Color) :
    Checked (Array (Option Color)) :=
  if start ≤ stop ∧ stop ≤ colors.size then
    .ok (colors.mapIdx fun i color => if start ≤ i ∧ i < stop then color.or (some c) else color)
  else .error (.noStretch start stop colors.size)

/-- Colours what a row has of a stretch of the text; `rowStart` is the byte index at which the row
begins. -/
def colorSpan (rowStart : Nat) (colors : Array (Option Color)) :
    Nat × Nat × Color → Checked (Array (Option Color))
  | (start, stop, c) =>
    let rowStop := rowStart + colors.size
    if stop ≤ rowStart ∨ rowStop ≤ start then return colors
    else do
      let first ← Size.sub (max start rowStart) rowStart
      let past ← Size.sub (min stop rowStop) rowStart
      colorStretch colors first past c

/-- The colour of each byte of a row: that of the first stretch that it is in. -/
def rowColors (spans : List (Nat × Nat × Color)) (rowStart length : Nat) :
    Checked (Array (Option Color)) :=
  spans.foldlM (colorSpan rowStart) (Array.replicate length none)

/-- A row from a byte on, given the colour of each of its bytes and the colour shown so far. -/
def paint (colors : Array (Option Color)) (i : Nat) (shown : Option Color) : Text → Checked Text
  | [] => return if shown.isSome then Color.plain else []
  | c :: cs =>
    match colors[i]? with
    | none => .error (.noPlace i colors.size)
    | some color => do
      let rest ← paint colors (i + c.utf8Size) color cs
      return (if color = shown then [] else Color.switch color) ++ c :: rest

/-- Rows that follow one another, up to the last one that the text has. -/
def paintRows (t : Text) (spans : List (Nat × Nat × Color)) (row : Nat) :
    Nat → Checked (List Text)
  | 0 => return []
  | count + 1 =>
    match t.line? row with
    | none => return []
    | some line => do
      let colors ← rowColors spans (t.indexOf ⟨row, 0⟩) line.byteLength
      let painted ← paint colors 0 none line
      let rows ← paintRows t spans (row + 1) count
      return painted :: rows

def render (e : Editor) : Checked (List Text) := do
  let rows ← e.viewport
  let others ← Size.sub rows.stop rows.start
  let count ← Size.add others 1
  paintRows e.text e.coloredSpans rows.start count

end Editor

end Lumen
