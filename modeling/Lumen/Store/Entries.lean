import Lumen.Text.Basic

/-!
# Entries

Texts under keys, kept in the order of the keys, each key once.
-/

namespace Lumen

/-- Texts under keys. -/
abbrev Entries := List (Text × Text)

namespace Entries

def get? (es : Entries) (key : Text) : Option Text := List.lookup key es

/-- The entries with a value under a key, in place of the one that was there. -/
def insert (key value : Text) : Entries → Entries
  | [] => [(key, value)]
  | e :: es =>
    if key = e.1 then (key, value) :: es
    else if key < e.1 then (key, value) :: e :: es
    else e :: insert key value es

end Entries

end Lumen
