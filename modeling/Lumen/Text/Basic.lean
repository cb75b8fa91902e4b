/-!
# Texts

A `Text` is a list of characters, measured in bytes of UTF-8 and cut into lines by line feeds.
Cutting and joining are inverse: a text has as many lines as line feeds, and one more.
-/

namespace Lumen

/-- A text as its characters. -/
abbrev Text := List Char

namespace Text

def byteLength (t : Text) : Nat := t.foldr (fun c n => c.utf8Size + n) 0

/-- Cuts a text at each separator; what follows the last one is a piece even if it is empty. -/
def split (separator : Char) : Text → List Text
  | [] => [[]]
  | c :: cs =>
    if c = separator then [] :: split separator cs
    else
      match split separator cs with
      | [] => [[c]]
      | piece :: rest => (c :: piece) :: rest

def splitFeeds (t : Text) : List Text := t.split '\n'

/-- Puts pieces together with a line feed between each two. -/
def joinFeeds : List Text → Text
  | [] => []
  | [line] => line
  | line :: rest => line ++ '\n' :: joinFeeds rest

/-- The number of lines of a text, which is at least one. -/
def lineCount (t : Text) : Nat := t.count '\n' + 1

/-- A line of a text without the line feed at its end. -/
def line? (t : Text) (row : Nat) : Option Text := t.splitFeeds[row]?

end Text

end Lumen
