import Lumen.Highlight.Overlay
import Lumen.Pump.Debouncer

/-!
# Pumps

A `Pump` keeps the tree of an editor's text, its overlay and a stored copy of the text up to date.
It learns of edits by the events of the editor alone: it replays the changes on a text of its own,
and parses that text from the tree of the one before, moved by the same edits. A line feed after
the text is parsed with it. Overlay and copy are renewed later, when no event has come for a
while.

* `reparse` is where a text is parsed, and what there was before is only given up for its tree.
* `handleEvents` goes through events in order, and stops at the first whose text has no tree.
* `pumpEvents` takes the events of an editor; if the replayed text is another than the editor's
  after all, the editor's text is parsed as a new one.

What can find no tree gives back the pump and the editor as it leaves them, with the failure if
there is one.
-/

namespace Lumen

/-- What a pump asks of a language, by trees of some kind. -/
structure Reader (τ : Type) where
  /-- The tree of a text, given the moved tree of an earlier text perhaps. -/
  parse? : Text → Option τ → Option τ
  /-- A tree moved by an edit of its text. -/
  edit : Edit → τ → τ
  /-- What a query captures in some rows of a tree of a text. -/
  captures : τ → Text → RowRange → List Highlight.Capture

structure NoTree where
  bytes : Nat
deriving BEq, Repr, Inhabited, DecidableEq

def NoTree.message (e : NoTree) : String := s!"Parser returned no tree ({e.bytes} bytes)"

/-- The tree of the text that was parsed last. -/
structure LiveTree (τ : Type) where
  tree : Option τ := none
  generation : Nat := 0
deriving Inhabited

namespace LiveTree

variable {τ : Type}

/-- A copy of the tree moved by edits that follow one another. -/
def moved (live : LiveTree τ) (r : Reader τ) (edits : List Edit) : Option τ :=
  live.tree.map fun t => edits.foldl (fun t e => r.edit e t) t

def install (live : LiveTree τ) (tree : τ) : LiveTree τ := ⟨some tree, live.generation + 1⟩

end LiveTree

/-- What keeps up with an editor: the text by the changes that have been handled, the text of the
live tree, and when to renew the overlay and the stored copy. -/
structure Pump (τ : Type) where
  reader : Reader τ
  palette : Highlight.Palette
  highlight : Debouncer .trailing
  persist : Debouncer .trailing
  live : LiveTree τ := {}
  source : Text := []
  parsed : Text := []
  parses : Nat := 0

namespace Pump

variable {τ : Type}

/-- A pump that has seen no text, with its delays in milliseconds. -/
def create (reader : Reader τ) (palette : Highlight.Palette) (highlightDelay persistDelay : Nat) :
    Pump τ :=
  { reader, palette, highlight := ⟨highlightDelay, none⟩, persist := ⟨persistDelay, none⟩ }

def captures? (p : Pump τ) : Option (RowRange → List Highlight.Capture) :=
  p.live.tree.map fun t => p.reader.captures t p.parsed

/-- Renews the overlay of some rows, or of those that can be seen. -/
def overlay (p : Pump τ) (e : Editor) (rows? : Option RowRange) : Checked (Nat × Editor) :=
  Highlight.overlay e p.captures? p.palette rows?

/-! ## Parsing -/

/-- Replays changes on a text and parses what comes out, from the live tree or from nothing. -/
def reparse (p : Pump τ) (source : Text) (changes : List Change) (fromLive : Bool) :
    Checked (Pump τ × Option NoTree) := do
  let (edits, source) ← Change.editAll changes source
  let base := if fromLive then p.live.moved p.reader edits else none
  let text := source ++ ['\n']
  match p.reader.parse? text base with
  | none => return (p, some ⟨text.byteLength⟩)
  | some tree =>
    let p := { p with live := p.live.install tree }
    let p := { p with source }
    let p := { p with parsed := text }
    let p := { p with parses := p.parses + 1 }
    return (p, none)

/-- Triggers both renewals. The overlay would be renewed here if it had to be at once. -/
def schedule (p : Pump τ) (e : Editor) (now : Nat) : Checked (Pump τ × Editor) := do
  let (atOnce, highlight) := p.highlight.trigger now
  let p := { p with highlight }
  let (_, e) ← if atOnce then p.overlay e none else pure (0, e)
  let p := { p with persist := (p.persist.trigger now).2 }
  return (p, e)

def refresh (p : Pump τ) (e : Editor) (source : Text) (changes : List Change) (fromLive : Bool)
    (now : Nat) : Checked (Pump τ × Editor × Option NoTree) := do
  match ← p.reparse source changes fromLive with
  | (p, some failure) => return (p, e, some failure)
  | (p, none) =>
    let (p, e) ← p.schedule e now
    return (p, e, none)

/-- Parses the text of an editor, which has nothing to do with those before it. -/
def start (p : Pump τ) (e : Editor) (now : Nat) : Checked (Pump τ × Editor × Option NoTree) :=
  p.refresh e e.text [] false now

/-! ## Events -/

def handleChanges (p : Pump τ) (e : Editor) (changes : List Change) (now : Nat) :
    Checked (Pump τ × Editor × Option NoTree) :=
  p.refresh e p.source changes true now

/-- Handles a move of the rows that can be seen; only the overlay has to follow. -/
def handleViewport (p : Pump τ) (now : Nat) : Pump τ :=
  { p with highlight := (p.highlight.trigger now).2 }

def handle (p : Pump τ) (e : Editor) (now : Nat) : Event → Checked (Pump τ × Editor × Option NoTree)
  | .changes batch => p.handleChanges e batch now
  | .viewport _ => return (p.handleViewport now, e, none)

/-- Handles events in their order up to the first whose text has no tree. -/
def handleEvents (p : Pump τ) (e : Editor) (now : Nat) :
    List Event → Checked (Pump τ × Editor × Option NoTree)
  | [] => return (p, e, none)
  | event :: events => do
    match ← p.handle e now event with
    | (p, e, some failure) => return (p, e, some failure)
    | (p, e, none) => handleEvents p e now events

def tellsChanges : Event → Bool
  | .changes _ => true
  | .viewport _ => false

/-- Takes the events of an editor and handles them. -/
def pumpEvents (p : Pump τ) (e : Editor) (now : Nat) :
    Checked (Pump τ × Editor × Option NoTree) := do
  let (events, e) := e.drain
  match ← p.handleEvents e now events with
  | (p, e, some failure) => return (p, e, some failure)
  | (p, e, none) =>
    if events.any tellsChanges ∧ p.source ≠ e.text then p.start e now
    else return (p, e, none)

/-! ## Renewals -/

def nextDeadline (p : Pump τ) : Option Nat :=
  match p.highlight.deadline, p.persist.deadline with
  | some a, some b => some (min a b)
  | a, b => a <|> b

def pending (p : Pump τ) : Bool := p.highlight.pending || p.persist.pending

def waiting (p : Pump τ) : Nat := p.highlight.pending.toNat + p.persist.pending.toNat

def cancel (p : Pump τ) : Pump τ :=
  { p with highlight := p.highlight.cancel, persist := p.persist.cancel }

end Pump

end Lumen
