/-!
# Sizes

Rows, columns and counts that come from outside are sizes of 64 bits. A sum that no size can hold is
a fault, and so is a difference below zero. Places and stretches that a list does not have are
faults as well. What met a fault has no result.
-/

namespace Lumen

/-- What keeps a computation from having a result. -/
inductive Fault where
  | overflow
  | underflow
  | noPlace (place length : Nat)
  | noStretch (start stop length : Nat)
deriving BEq, Repr, Inhabited, DecidableEq

def Fault.message : Fault → String
  | .overflow => "attempt to add with overflow"
  | .underflow => "attempt to subtract with overflow"
  | .noPlace place length =>
    s!"index out of bounds: the len is {length} but the index is {place}"
  | .noStretch start stop length =>
    if stop < start then s!"slice index starts at {start} but ends at {stop}"
    else s!"range end index {stop} out of range for slice of length {length}"

/-- A result, unless a fault was met on the way to it. -/
abbrev Checked := Except Fault

namespace Size

def largest : Nat := Nat.pow 2 64 - 1

def add (a b : Nat) : Checked Nat :=
  if a + b ≤ largest then .ok (a + b) else .error .overflow

def sub (a b : Nat) : Checked Nat :=
  if b ≤ a then .ok (a - b) else .error .underflow

end Size

end Lumen
