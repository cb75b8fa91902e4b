import Lumen.Text.Cursor

/-!
# Scanners

Some tokens are beyond what an automaton finds: a raw string ends where as many marks follow its
quote as preceded it. A `Scanner` finds such tokens. Between two of them it remembers one number,
which is kept with the last token it has found.
-/

namespace Lumen

/-- A token that a scanner has found: which of the external tokens it is, where it lies, and what is
to be remembered. -/
structure Scanner.Found where
  token : Nat
  memory : Nat
  cursor : Cursor

/-- A scanner: from what is remembered, the external tokens that are looked for, and the place. -/
structure Scanner where
  scan : Nat → (Nat → Bool) → Cursor → Option Scanner.Found

namespace Scanner

def none : Scanner := ⟨fun _ _ _ => Option.none⟩

instance : Inhabited Scanner := ⟨none⟩

end Scanner

end Lumen
