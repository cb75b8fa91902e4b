import Lumen.Regex.Parser

/-!
# Searching

`Regex.occursIn r text` tells whether some part of the text matches. Matching works on sets of
places: `Regex.after r text places` are the places that a match can reach from some of the given
ones. For a repetition the set is extended until it does not grow.
-/

namespace Lumen

namespace Anchor

def holds (a : Anchor) (text : Array Char) (i : Nat) : Bool :=
  let isWord (i : Nat) : Bool := match text[i]? with
    | some c => Charset.word.mem c.toNat
    | none => false
  let here := isWord i
  let past := 0 < i && isWord (i - 1)
  match a with
  | .textStart => i = 0
  | .textEnd => i = text.size
  | .lineStart => i = 0 || text[i - 1]? == some '\n'
  | .lineEnd => i = text.size || text[i]? == some '\n'
  | .wordEdge => here != past
  | .insideWord => here == past
  | .wordStart => here && !past
  | .wordEnd => past && !here

end Anchor

namespace Regex

/-- A set of places in a text, as one truth value for each place. -/
abbrev Places := Array Bool

namespace Places

def none (n : Nat) : Places := Array.replicate n false

def all (n : Nat) : Places := Array.replicate n true

def isEmpty (p : Places) : Bool := !p.contains true

def union (p q : Places) : Places := p.zipWith (· || ·) q

end Places

def iterate (f : Places → Places) : Nat → Places → Places
  | 0, p => p
  | n + 1, p => if p.isEmpty then p else iterate f n (f p)

/-- All places reached by applying a function up to `n` times. A place that is reached again leads
nowhere new, so no more rounds than places are needed. -/
def closure (f : Places → Places) : Nat → Places → Places
  | 0, p => p
  | n + 1, p =>
    let q := p.union (f p)
    if q == p then p else closure f n q

/-- The places that a match can reach from some places. -/
def after (text : Array Char) : Regex → Places → Places
  | .empty, p => p
  | .chars set, p =>
    (Array.range p.size).map fun i =>
      0 < i && p.getD (i - 1) false && (match text[i - 1]? with
        | some c => set.mem c.toNat
        | Option.none => false)
  | .anchor a, p => p.mapIdx fun i b => b && a.holds text i
  | .seq r s, p => after text s (after text r p)
  | .alt r s, p => (after text r p).union (after text s p)
  | .rep r least most, p =>
    let p := iterate (after text r) least p
    match most with
    | some m => closure (after text r) (m - least) p
    | Option.none => closure (after text r) p.size p

def occursIn (r : Regex) (text : Array Char) : Bool :=
  !(after text r (Places.all (text.size + 1))).isEmpty

end Regex

end Lumen
