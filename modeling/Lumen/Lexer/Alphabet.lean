import Lumen.Text.Charset
import Std.Data.HashMap

/-!
# Alphabets

An automaton need not tell apart two code points that every set of its transitions contains or
leaves out together. `Alphabet.ofSets` numbers the classes of code points that the given sets can
tell apart; a set is then a set of class numbers, kept as the bits of a number.

`classOf` is the class of a code point, and `encode s` has the bit of a class set exactly when the
class lies in `s`.
-/

namespace Lumen

/-- Code points grouped into classes: code points from `starts[i]` to before `starts[i + 1]` are of
class `classes[i]`. -/
structure Alphabet where
  starts : Array Nat
  classes : Array Nat
  size : Nat
deriving Inhabited

namespace Alphabet

/-- The last index between `lo` and `hi` whose entry is at most `x`; entries increase. -/
def search (a : Array Nat) (x lo hi : Nat) : Nat :=
  if hi ≤ lo + 1 then lo
  else
    let mid := (lo + hi) / 2
    if a.getD mid 0 ≤ x then search a x mid hi else search a x lo mid
termination_by hi - lo

def classOf (a : Alphabet) (c : Nat) : Nat :=
  a.classes.getD (search a.starts c 0 a.starts.size) 0

/-- The places where membership in some set changes, each with the sets that change there. -/
def changes (sets : Array Charset) : List (Nat × Nat) :=
  let events := sets.toList.zipIdx.flatMap fun (s, i) =>
    s.ranges.flatMap fun (lo, hi) => [(lo, 1 <<< i), (hi + 1, 1 <<< i)]
  events.mergeSort fun a b => a.1 ≤ b.1

/-- Joins changes at the same place; a set that changes twice there does not change. -/
def joinChanges (cs : List (Nat × Nat)) : List (Nat × Nat) :=
  (cs.foldl (fun acc (p, m) =>
    match acc with
    | (q, n) :: rest => if p = q then (q, n ^^^ m) :: rest else (p, m) :: acc
    | [] => [(p, m)]) []).reverse

/-- What has been numbered so far while the code points are walked through. -/
structure Walk where
  starts : Array Nat := #[]
  classes : Array Nat := #[]
  known : Std.HashMap Nat Nat := {}
  member : Nat := 0

/-- Opens an interval at `p`, of the class that the sets around it make. -/
def Walk.step (w : Walk) (p change : Nat) : Walk :=
  let member := w.member ^^^ change
  let c := w.known.getD member w.known.size
  { starts := w.starts.push p
    classes := w.classes.push c
    known := w.known.insert member c
    member }

/-- Numbers the classes that the given sets tell apart. -/
def ofSets (sets : Array Charset) : Alphabet :=
  let w := (joinChanges ((0, 0) :: changes sets)).foldl (fun w (p, m) => w.step p m) ({} : Walk)
  ⟨w.starts, w.classes, w.known.size⟩

def encode (a : Alphabet) (s : Charset) : Nat :=
  (a.starts.zip a.classes).foldl (fun bits (p, c) => if s.mem p then bits ||| (1 <<< c) else bits) 0

/-- The numbers of the bits that are set below `n`. -/
def bitsBelow (n bits : Nat) : List Nat := (List.range n).filter bits.testBit

end Alphabet

end Lumen
