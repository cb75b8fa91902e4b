import Lumen.Text.Basic

/-!
# Palettes

A palette gives a colour to each capture name by the place of the name in its query. Where the names
outnumber the colours, the colours start over.
-/

namespace Lumen

namespace Highlight

/-- The names of colours, of which there is at least one. -/
structure Palette where
  colors : List Text
  ne_nil : colors ≠ []
deriving DecidableEq

namespace Palette

def default : Palette where
  colors :=
    ["blue", "chocolate", "darkblue", "darkcyan", "darkgreen", "darkred", "darkslategray",
      "dimgray", "green", "indigo", "navy", "red", "sienna"].map String.toList
  ne_nil := by simp

instance : Inhabited Palette := ⟨default⟩

def ofList (colors : List Text) : Palette := if h : colors = [] then default else ⟨colors, h⟩

/-- The colour of the capture name at a place. -/
def color (p : Palette) (index : Nat) : Text := p.colors.getD (index % p.colors.length) []

/-- The declaration that styles a mark for the capture name at a place. -/
def css (p : Palette) (index : Nat) : Text := "color: ".toList ++ p.color index

end Palette

end Highlight

end Lumen
