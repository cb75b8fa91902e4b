import Lumen.Editor.Script
import Lumen.Pump.Basic
import Lumen.Store.Basic

/-!
# Sessions

A session is an editor, the pump that keeps up with it and the store that the pump writes to. What
can happen in a session is a `Command`, and a `tick` renews what is due: first the overlay, then
the stored copy.
-/

namespace Lumen

/-- What a tick has done. -/
structure Renewal where
  highlighted : Option Nat := none
  persisted : Bool := false
deriving BEq, Repr, Inhabited, DecidableEq

/-- An editor with all that follows it. -/
structure Session (τ σ : Type) where
  pump : Pump τ
  editor : Editor
  store : σ

namespace Session

variable {τ σ : Type}

def persist [Storage σ] (s : Session τ σ) : Session τ σ × Option SaveError :=
  let (store, failure) := Storage.set s.store sourceKey s.editor.text
  ({ s with store }, failure)

def renewOverlay (s : Session τ σ) (now : Nat) : Checked (Option Nat × Session τ σ) := do
  let (due, highlight) := s.pump.highlight.poll now
  let s := { s with pump := { s.pump with highlight } }
  if due then
    let (count, editor) ← s.pump.overlay s.editor none
    return (some count, { s with editor })
  else return (none, s)

/-- Renews the stored copy if it is due, and tells whether it was written. -/
def renewCopy [Storage σ] (s : Session τ σ) (now : Nat) : Bool × Session τ σ :=
  let (due, persistTimer) := s.pump.persist.poll now
  let s := { s with pump := { s.pump with persist := persistTimer } }
  if due then
    let (s, failure) := s.persist
    (failure.isNone, s)
  else (false, s)

def tick [Storage σ] (s : Session τ σ) (now : Nat) : Checked (Renewal × Session τ σ) := do
  let (highlighted, s) ← s.renewOverlay now
  let (persisted, s) := s.renewCopy now
  return (⟨highlighted, persisted⟩, s)

/-- Ticks at each deadline until nothing is to come, at most `n` times, or up to a fault. There are
no more such ticks than renewals to come, so as many are enough. -/
def settle [Storage σ] : Nat → Session τ σ → Session τ σ × Option Fault
  | 0, s => (s, none)
  | n + 1, s =>
    match s.pump.nextDeadline with
    | none => (s, none)
    | some now =>
      match s.tick now with
      | .ok (_, s) => settle n s
      | .error fault => (s, some fault)

/-- What can happen in a session. Times are in milliseconds. -/
inductive Command where
  | edit (command : Editor.Command)
  | start (now : Nat)
  | pump (now : Nat)
  | handleChanges (changes : List Change) (now : Nat)
  | handleViewport (now : Nat)
  | cancel
  | tick (now : Nat)
  | overlay (rows : Option RowRange)
  | persist
deriving Inhabited

inductive Answer where
  | done
  | edited (answer : Editor.Answer)
  | failed (failure : NoTree)
  | renewed (renewal : Renewal)
  | marked (count : Nat)
  | saved (failure : Option SaveError)

def Answer.ofFailure : Option NoTree → Answer
  | none => .done
  | some failure => .failed failure

def run [Storage σ] (s : Session τ σ) : Command → Checked (Answer × Session τ σ)
  | .edit command => do
    let (answer, editor) ← s.editor.run command
    return (.edited answer, { s with editor })
  | .start now => do
    let (pump, editor, failure) ← s.pump.start s.editor now
    return (.ofFailure failure, { s with pump, editor })
  | .pump now => do
    let (pump, editor, failure) ← s.pump.pumpEvents s.editor now
    return (.ofFailure failure, { s with pump, editor })
  | .handleChanges changes now => do
    let (pump, editor, failure) ← s.pump.handleChanges s.editor changes now
    return (.ofFailure failure, { s with pump, editor })
  | .handleViewport now => return (.done, { s with pump := s.pump.handleViewport now })
  | .cancel => return (.done, { s with pump := s.pump.cancel })
  | .tick now => do
    let (renewal, s) ← s.tick now
    return (.renewed renewal, s)
  | .overlay rows => do
    let (count, editor) ← s.pump.overlay s.editor rows
    return (.marked count, { s with editor })
  | .persist =>
    let (s, failure) := s.persist
    return (.saved failure, s)

/-- The session after commands that follow one another, and what comes of each. -/
def runAll [Storage σ] (s : Session τ σ) : List Command → Checked (List Answer × Session τ σ)
  | [] => return ([], s)
  | c :: cs => do
    let (answer, s) ← s.run c
    let (answers, s) ← s.runAll cs
    return (answer :: answers, s)

end Session

end Lumen
