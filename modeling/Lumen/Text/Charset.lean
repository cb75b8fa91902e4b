/-!
# Sets of code points

A `Charset` is a set of code points kept as inclusive ranges in increasing order, with a gap
between any two neighbours. `Charset.ofRanges` brings any list of ranges into that form, and
`mem` is the one view through which the other operations are meant:

* `mem c (a.union b)` holds when `c` is in `a` or in `b`;
* `mem c a.complement` holds when `c` is a code point outside `a`;
* `mem c (a.inter b)` and `mem c (a.diff b)` are built from these two.
-/

namespace Lumen

/-- A set of code points: inclusive ranges, in increasing order and apart from each other. -/
structure Charset where
  ranges : List (Nat × Nat)
deriving BEq, Hashable, Repr, Inhabited

namespace Charset

def lastCodePoint : Nat := 0x10FFFF

def empty : Charset := ⟨[]⟩

def all : Charset := ⟨[(0, lastCodePoint)]⟩

/-- Adds a range whose start is not below the start of any range already taken, which are given
last first. -/
def pushRange (taken : List (Nat × Nat)) (r : Nat × Nat) : List (Nat × Nat) :=
  match taken with
  | [] => [r]
  | (lo, hi) :: rest =>
    if r.1 ≤ hi + 1 then (lo, max hi r.2) :: rest else r :: taken

/-- Brings ranges in any order, overlapping or not, into the kept form. -/
def ofRanges (rs : List (Nat × Nat)) : Charset :=
  let proper := rs.filter fun r => r.1 ≤ r.2
  let sorted := proper.mergeSort fun a b => a.1 ≤ b.1
  ⟨(sorted.foldl pushRange []).reverse⟩

def range (lo hi : Nat) : Charset := ofRanges [(lo, hi)]

def single (c : Char) : Charset := ⟨[(c.toNat, c.toNat)]⟩

def ofChars (s : String) : Charset := ofRanges (s.toList.map fun c => (c.toNat, c.toNat))

def mem (c : Nat) (s : Charset) : Bool := s.ranges.any fun r => r.1 ≤ c && c ≤ r.2

def isEmpty (s : Charset) : Bool := s.ranges.isEmpty

def union (a b : Charset) : Charset := ofRanges (a.ranges ++ b.ranges)

/-- The gaps of a list of ranges from code point `next` on. -/
def gaps (next : Nat) : List (Nat × Nat) → List (Nat × Nat)
  | [] => if next ≤ lastCodePoint then [(next, lastCodePoint)] else []
  | (lo, hi) :: rest =>
    if next < lo then (next, lo - 1) :: gaps (hi + 1) rest else gaps (hi + 1) rest

def complement (s : Charset) : Charset := ⟨gaps 0 s.ranges⟩

def inter (a b : Charset) : Charset := (a.complement.union b.complement).complement

def diff (a b : Charset) : Charset := a.inter b.complement

/-- The code points that belong to exactly one of the two sets. -/
def symmDiff (a b : Charset) : Charset := (a.diff b).union (b.diff a)

/-- The set together with the other case of each of its ASCII letters. -/
def closeCase (s : Charset) : Charset :=
  let letters (lo hi : Char) (shift : Int) : List (Nat × Nat) :=
    s.ranges.filterMap fun r =>
      let a := max r.1 lo.toNat
      let b := min r.2 hi.toNat
      if a ≤ b then some (((a : Int) + shift).toNat, ((b : Int) + shift).toNat) else none
  ofRanges (s.ranges ++ letters 'a' 'z' (-32) ++ letters 'A' 'Z' 32)

end Charset

end Lumen
