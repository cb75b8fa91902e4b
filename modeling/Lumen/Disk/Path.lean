import Lumen.Text.Basic

/-!
# Paths

A path is a text in which slashes part the names of folders on the way to a file or folder.
-/

namespace Lumen

/-- The way to a file or folder. -/
abbrev Path := Text

namespace Path

def names (p : Path) : List Text := (p.split '/').filter fun name => name ≠ [] ∧ name ≠ ['.']

def isAbsolute (p : Path) : Bool := p.head? = some '/'

/-- The way that goes on from the end of one path along another. -/
def join (p q : Path) : Path :=
  if q.isAbsolute then q
  else if p = [] ∨ p.getLast? = some '/' then p ++ q
  else p ++ '/' :: q

def dropSlashes (p : Path) : Path := (p.reverse.dropWhile (· = '/')).reverse

/-- The path of the folder that the last name of a path is in. -/
def parent? (p : Path) : Option Path :=
  let trimmed := dropSlashes p
  if trimmed = [] then none
  else
    let before := (trimmed.reverse.dropWhile (· ≠ '/')).reverse
    let folder := dropSlashes before
    some (if folder = [] ∧ before ≠ [] then ['/'] else folder)

end Path

end Lumen
