import Lumen.Text.Basic
import Lumen.Text.Property

/-!
# Trimmed texts

White space is taken off both ends of a text.
-/

namespace Lumen

namespace Text

def isBlank (c : Char) : Bool := Charset.blank.mem c.toNat

/-- The text without the white space that it starts and ends with. -/
def trim (t : Text) : Text := ((t.dropWhile isBlank).reverse.dropWhile isBlank).reverse

end Text

end Lumen
