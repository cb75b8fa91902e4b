/-!
# Debouncers

A `Debouncer` gathers a burst of triggers into one run. It holds nothing but the time at which the
burst is over, and is told the time whenever it is asked. One that acts on the trailing edge runs
when a burst is over; one that acts on the leading edge runs at the first trigger of a burst.
-/

namespace Lumen

/-- The end of a burst at which to run. -/
inductive Edge where
  | leading
  | trailing
deriving BEq, Repr, Inhabited, DecidableEq

/-- A gatherer of triggers. Times and the delay are in milliseconds. -/
structure Debouncer (edge : Edge) where
  delay : Nat
  /-- When the burst is over, while there is one. -/
  deadline : Option Nat := none
deriving BEq, Repr, Inhabited, DecidableEq

namespace Debouncer

variable {edge : Edge}

def pending (d : Debouncer edge) : Bool := d.deadline.isSome

/-- Begins a burst or prolongs it, and tells whether to run at once. -/
def trigger (d : Debouncer edge) (now : Nat) : Bool × Debouncer edge :=
  (edge = .leading && d.deadline.isNone, { d with deadline := some (now + d.delay) })

def cancel (d : Debouncer edge) : Debouncer edge := { d with deadline := none }

/-- Ends the burst if it is over by now, and tells whether to run at its end. -/
def poll (d : Debouncer edge) (now : Nat) : Bool × Debouncer edge :=
  match d.deadline with
  | some deadline => if deadline ≤ now then (edge = .trailing, d.cancel) else (false, d)
  | none => (false, d)

end Debouncer

end Lumen
