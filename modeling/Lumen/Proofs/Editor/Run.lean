import Lumen.Editor.Script
import Lumen.Proofs.Editor.Splice

/-!
# What commands make of an editor

What a command makes of a text is a list of splices (`Command.splices`) that depends on nothing but
the text. An editor that runs commands holds the text that their splices lead to and keeps their
changes until the outermost operation ends, when it tells of them by one event:

* `runAll_inside` — inside an operation, changes are kept and none is told;
* `run_outside` — outside of one, the changes of a command are told as one batch, after the moves of
  the rows that can be seen, unless there are none;
* `runAll_edits_ok` — edits never meet a fault.
-/

namespace Lumen

/-! ## Edits of a text -/

namespace Text

/-- The splice that puts a text in place of what is between two points, which may come in any
order. -/
def spliceBetween (t : Text) (p q : Point) (inserted : Text) : Splice :=
  let start := min (t.indexOf p) (t.indexOf q)
  let stop := max (t.indexOf p) (t.indexOf q)
  ⟨t.takeBytes start, t.between start stop, t.dropBytes stop, inserted⟩

/-- The splices of an edit between two points: none if nothing is removed or inserted. -/
def splices (t : Text) (p q : Point) (inserted : Text) : List Splice :=
  let s := t.spliceBetween p q inserted
  if s.removed = [] ∧ inserted = [] then [] else [s]

theorem isBoundary_min (t : Text) (p q : Point) :
    t.IsBoundary (min (t.indexOf p) (t.indexOf q)) := by
  rcases Nat.le_total (t.indexOf p) (t.indexOf q) with h | h
  · rw [Nat.min_eq_left h]
    exact isBoundary_indexOf t p
  · rw [Nat.min_eq_right h]
    exact isBoundary_indexOf t q

theorem isBoundary_max (t : Text) (p q : Point) :
    t.IsBoundary (max (t.indexOf p) (t.indexOf q)) := by
  rcases Nat.le_total (t.indexOf p) (t.indexOf q) with h | h
  · rw [Nat.max_eq_right h]
    exact isBoundary_indexOf t q
  · rw [Nat.max_eq_left h]
    exact isBoundary_indexOf t p

theorem min_indexOf_le_max (t : Text) (p q : Point) :
    min (t.indexOf p) (t.indexOf q) ≤ max (t.indexOf p) (t.indexOf q) := by
  omega

theorem front_append_removed (t : Text) (p q : Point) (x : Text) :
    (t.spliceBetween p q x).front ++ (t.spliceBetween p q x).removed =
      t.takeBytes (max (t.indexOf p) (t.indexOf q)) :=
  takeBytes_append_between (t.isBoundary_min p q) (t.min_indexOf_le_max p q)

/-- A splice between two points of a text is made in that text. -/
theorem before_spliceBetween (t : Text) (p q : Point) (x : Text) :
    (t.spliceBetween p q x).before = t := by
  rw [Splice.before, front_append_removed]
  exact takeBytes_append_dropBytes t _

/-- Nothing is removed just if both points have the same index. -/
theorem removed_eq_nil_iff (t : Text) (p q : Point) (x : Text) :
    (t.spliceBetween p q x).removed = [] ↔
      min (t.indexOf p) (t.indexOf q) = max (t.indexOf p) (t.indexOf q) := by
  have hbytes := congrArg byteLength (t.front_append_removed p q x)
  rw [byteLength_append, t.isBoundary_max p q] at hbytes
  have hfront : (t.spliceBetween p q x).front.byteLength = min (t.indexOf p) (t.indexOf q) :=
    t.isBoundary_min p q
  constructor
  · intro h
    rw [h, hfront, byteLength_nil] at hbytes
    omega
  · intro h
    exact eq_nil_of_byteLength_eq_zero (by omega)

theorem chain_splices (t : Text) (p q : Point) (x : Text) : Splice.Chain t (t.splices p q x) := by
  rw [splices]
  split
  · trivial
  · exact ⟨t.before_spliceBetween p q x, trivial⟩

end Text

namespace Editor

namespace Command

mutual
/-- Whether a test holds of a command, or of all that is inside it if it is an operation. -/
def every (test : Command → Bool) : Command → Bool
  | .operation commands => everyIn test commands
  | c => test c
/-- Whether a test holds of commands and of all that is inside them. -/
def everyIn (test : Command → Bool) : List Command → Bool
  | [] => true
  | c :: cs => every test c && everyIn test cs
end

/-- Whether a command is an edit. -/
def isEdit : Command → Bool
  | .insert .. | .delete .. | .replace .. | .append _ | .setText _ => true
  | _ => false

/-- Whether a command takes no events. -/
def leavesEvents : Command → Bool
  | .drain => false
  | _ => true

/-- Whether a command takes no events, makes no marks and removes none. -/
def leavesMarks : Command → Bool
  | .drain | .mark .. | .clearMark _ => false
  | _ => true

mutual
theorem every_mono {p q : Command → Bool} (hpq : ∀ c, p c = true → q c = true) (c : Command)
    (h : c.every p = true) : c.every q = true := by
  cases c with
  | operation commands =>
      rw [every] at h ⊢
      exact everyIn_mono hpq commands h
  | _ => exact hpq _ h
theorem everyIn_mono {p q : Command → Bool} (hpq : ∀ c, p c = true → q c = true)
    (cs : List Command) (h : everyIn p cs = true) : everyIn q cs = true := by
  cases cs with
  | nil => rfl
  | cons c cs =>
      rw [everyIn, Bool.and_eq_true] at h ⊢
      exact ⟨every_mono hpq c h.1, everyIn_mono hpq cs h.2⟩
end

theorem leavesEvents_of_isEdit (c : Command) (h : c.isEdit = true) : c.leavesEvents = true := by
  cases c with
  | drain => exact absurd h (by simp [isEdit])
  | _ => rfl

theorem leavesEvents_of_leavesMarks (c : Command) (h : c.leavesMarks = true) :
    c.leavesEvents = true := by
  cases c with
  | drain => exact absurd h (by simp [leavesMarks])
  | _ => rfl

mutual
/-- The splices that a command makes of a text. -/
def splices (t : Text) : Command → List Splice
  | .insert p x => t.splices p p x
  | .delete p q => t.splices p q []
  | .replace p q x => t.splices p q x
  | .append x => t.splices (t.pointAt t.byteLength) (t.pointAt t.byteLength) x
  | .setText x => t.splices .zero (t.pointAt t.byteLength) x
  | .operation commands => splicesIn t commands
  | _ => []
/-- The splices that commands which follow one another make of a text. -/
def splicesIn (t : Text) : List Command → List Splice
  | [] => []
  | c :: cs => splices t c ++ splicesIn (Splice.outcome t (splices t c)) cs
end

mutual
theorem chain_splices (t : Text) (c : Command) : Splice.Chain t (splices t c) := by
  cases c with
  | operation commands =>
      rw [splices]
      exact chain_splicesIn t commands
  | _ => first
    | exact Text.chain_splices t _ _ _
    | trivial
theorem chain_splicesIn (t : Text) (cs : List Command) : Splice.Chain t (splicesIn t cs) := by
  cases cs with
  | nil => trivial
  | cons c cs =>
      rw [splicesIn]
      exact Splice.chain_append (chain_splices t c) (chain_splicesIn _ cs)
end

end Command

/-! ## Steps -/

/-- The end of an operation touches neither the text nor the marks, nor which rows can be seen. -/
theorem leave_eq (e : Editor) : ∃ depth pending events operations,
    e.leave = { e with depth, pending, events, operations } := by
  unfold leave
  simp only
  split
  · split
    · exact ⟨_, _, _, _, rfl⟩
    · exact ⟨_, _, _, _, rfl⟩
  · exact ⟨_, _, _, _, rfl⟩

theorem run_operation_eq {e e' : Editor} {commands : List Command} {answer : Answer}
    (h : e.run (.operation commands) = .ok (answer, e')) :
    ∃ answers e₁, e.enter.runAll commands = .ok (answers, e₁) ∧ e' = e₁.leave := by
  rw [run] at h
  obtain ⟨⟨answers, e₁⟩, hall, hpair⟩ := Checked.bind_eq_ok.mp h
  exact ⟨answers, e₁, hall, (Prod.mk.inj (Checked.pure_eq_ok.mp hpair)).2.symm⟩

theorem run_scrollTo_eq {e e' : Editor} {row : Nat} {answer : Answer}
    (h : e.run (.scrollTo row) = .ok (answer, e')) : e.scrollTo row = .ok e' := by
  rw [run] at h
  obtain ⟨e₁, hscroll, hpair⟩ := Checked.bind_eq_ok.mp h
  rw [hscroll, (Prod.mk.inj (Checked.pure_eq_ok.mp hpair)).2]

theorem run_resize_eq {e e' : Editor} {rows : Nat} {answer : Answer}
    (h : e.run (.resize rows) = .ok (answer, e')) : e.resize rows = .ok e' := by
  rw [run] at h
  obtain ⟨e₁, hresize, hpair⟩ := Checked.bind_eq_ok.mp h
  rw [hresize, (Prod.mk.inj (Checked.pure_eq_ok.mp hpair)).2]

/-- A command that only looks something up leaves the editor as it is. -/
theorem eq_of_lookup {α : Type} {x : Checked α} {f : α → Answer} {e e' : Editor} {answer : Answer}
    (h : (do return (f (← x), e)) = (.ok (answer, e') : Checked (Answer × Editor))) : e' = e := by
  obtain ⟨_, -, hpair⟩ := Checked.bind_eq_ok.mp h
  exact (Prod.mk.inj (Checked.pure_eq_ok.mp hpair)).2.symm

theorem runAll_cons_eq {e e' : Editor} {c : Command} {cs : List Command} {answers : List Answer}
    (h : e.runAll (c :: cs) = .ok (answers, e')) :
    ∃ answer answers₁ e₁, e.run c = .ok (answer, e₁) ∧ e₁.runAll cs = .ok (answers₁, e') := by
  rw [runAll] at h
  obtain ⟨⟨answer, e₁⟩, hrun, hothers⟩ := Checked.bind_eq_ok.mp h
  obtain ⟨⟨answers₁, e₂⟩, hall, hpair⟩ := Checked.bind_eq_ok.mp hothers
  obtain ⟨-, rfl⟩ := Prod.mk.inj (Checked.pure_eq_ok.mp hpair)
  exact ⟨answer, answers₁, e₁, hrun, hall⟩

/-! ## Inside an operation -/

/-- What commands that make some splices come to inside an operation: the changes are kept, and no
events are told but moves of the rows that can be seen, which do not move untold. -/
structure Inside (e : Editor) (ss : List Splice) (e' : Editor) : Prop where
  text : e'.text = Splice.outcome e.text ss
  depth : e'.depth = e.depth
  pending : e'.pending = e.pending ++ ss.map Splice.change
  events : ∃ moves : List RowRange, e'.events = e.events ++ moves.map Event.viewport
  rows : e'.events = e.events → e'.topRow = e.topRow ∧ e'.visibleRows = e.visibleRows

namespace Inside

theorem refl (e : Editor) : Inside e [] e where
  text := rfl
  depth := rfl
  pending := by simp
  events := ⟨[], by simp⟩
  rows _ := ⟨rfl, rfl⟩

theorem trans {e e' e'' : Editor} {ss us : List Splice} (h : Inside e ss e')
    (h' : Inside e' us e'') : Inside e (ss ++ us) e'' := by
  obtain ⟨moves, hmoves⟩ := h.events
  obtain ⟨moves', hmoves'⟩ := h'.events
  constructor
  · rw [h'.text, h.text, Splice.outcome_append]
  · rw [h'.depth, h.depth]
  · rw [h'.pending, h.pending, List.map_append, List.append_assoc]
  · exact ⟨moves ++ moves', by rw [hmoves', hmoves, List.map_append, List.append_assoc]⟩
  · intro hsame
    -- events are only added, so neither part has told any
    rw [hmoves', hmoves, List.append_assoc] at hsame
    obtain ⟨hnil, hnil'⟩ := List.append_eq_nil_iff.mp (List.append_right_eq_self.mp hsame)
    rw [hnil', List.append_nil] at hmoves'
    rw [hnil, List.append_nil] at hmoves
    obtain ⟨htop, hvisible⟩ := h.rows hmoves
    obtain ⟨htop', hvisible'⟩ := h'.rows hmoves'
    exact ⟨htop'.trans htop, hvisible'.trans hvisible⟩

/-- What holds from the beginning of an operation on holds with the operation itself, if it is
inside another. -/
theorem leave {e e' : Editor} {ss : List Splice} (h : Inside e.enter ss e')
    (hdepth : 0 < e.depth) : Inside e ss e'.leave := by
  have hd : e'.depth = e.depth + 1 := h.depth
  have hleave : e'.leave = { e' with depth := e.depth } := by
    rw [Editor.leave]
    simp only [hd, Nat.add_sub_cancel]
    rw [if_neg (by omega)]
  rw [hleave]
  exact ⟨h.text, rfl, h.pending, h.events, h.rows⟩

end Inside

/-- The indices of an edit are those of its points, the smaller one first. -/
theorem spanOf_eq (e : Editor) (p q : Point) :
    e.spanOf p q = (min (e.text.indexOf p) (e.text.indexOf q),
      max (e.text.indexOf p) (e.text.indexOf q)) := by
  rw [spanOf]
  split
  · next h =>
      have hle := e.text.indexOf_mono (Point.upTo_of_before h)
      rw [Nat.min_eq_right hle, Nat.max_eq_left hle]
  · next h =>
      have hle := e.text.indexOf_mono (Point.upTo_of_not_before h)
      rw [Nat.min_eq_left hle, Nat.max_eq_right hle]

/-- The bytes between two points are replaced by a splice. -/
theorem inside_replaceBytes (e : Editor) (p q : Point) (x : Text) :
    Inside e (e.text.splices p q x) (e.replaceBytes (e.spanOf p q).1 (e.spanOf p q).2 x) := by
  rw [spanOf_eq, Text.splices, replaceBytes]
  -- both leave out an edit that removes and inserts nothing, one by its indices, one by its texts
  simp only [Text.removed_eq_nil_iff]
  by_cases hidle : min (e.text.indexOf p) (e.text.indexOf q) =
      max (e.text.indexOf p) (e.text.indexOf q) ∧ x = []
  · rw [if_pos hidle, if_pos hidle]
    exact Inside.refl e
  · rw [if_neg hidle, if_neg hidle]
    have hstart : e.text.pointAt (min (e.text.indexOf p) (e.text.indexOf q)) =
        (Extent.ofChars (e.text.spliceBetween p q x).front).point :=
      (e.text.isBoundary_min p q).pointAt_eq
    have hstop : e.text.pointAt (max (e.text.indexOf p) (e.text.indexOf q)) =
        (Extent.ofChars ((e.text.spliceBetween p q x).front ++
          (e.text.spliceBetween p q x).removed)).point := by
      rw [Text.front_append_removed]
      exact (e.text.isBoundary_max p q).pointAt_eq
    constructor
    · rfl
    · rfl
    · simp only [List.map_cons, List.map_nil, hstart, hstop]
      rfl
    · exact ⟨[], by simp⟩
    · exact fun _ => ⟨rfl, rfl⟩

theorem viewportMoved_eq {e e' : Editor} (h : e.viewportMoved = .ok e') :
    ∃ rows, e' = { e with events := e.events ++ [.viewport rows] } := by
  obtain ⟨rows, -, hrows⟩ := Checked.bind_eq_ok.mp h
  exact ⟨rows, (Checked.pure_eq_ok.mp hrows).symm⟩

theorem scrollTo_eq {e e' : Editor} {row : Nat} (h : e.scrollTo row = .ok e') :
    ∃ topRow events, e' = { e with topRow, events } := by
  unfold scrollTo at h
  simp only at h
  split at h
  · obtain rfl := Checked.pure_eq_ok.mp h
    exact ⟨_, _, rfl⟩
  · obtain ⟨rows, rfl⟩ := viewportMoved_eq h
    exact ⟨_, _, rfl⟩

theorem resize_eq {e e' : Editor} {rows : Nat} (h : e.resize rows = .ok e') :
    ∃ visibleRows events, e' = { e with visibleRows, events } := by
  unfold resize at h
  simp only at h
  split at h
  · obtain rfl := Checked.pure_eq_ok.mp h
    exact ⟨_, _, rfl⟩
  · obtain ⟨rows, rfl⟩ := viewportMoved_eq h
    exact ⟨_, _, rfl⟩

/-- That the row past the last one that can be seen would be a size, in a text long enough to have
it. -/
def RowsFit (e : Editor) : Prop :=
  min e.topRow (e.text.lineCount - 1) + e.visibleRows ≤ Size.largest

instance (e : Editor) : Decidable e.RowsFit := Nat.decLe _ _

/-- The rows that can be seen are told just if they fit. -/
theorem exists_viewport_iff {e : Editor} : (∃ rows, e.viewport = .ok rows) ↔ e.RowsFit := by
  constructor
  · rintro ⟨rows, hrows⟩
    obtain ⟨past, hpast, -⟩ := Checked.bind_eq_ok.mp hrows
    unfold Size.add at hpast
    split at hpast
    · next hfit => exact hfit
    · cases hpast
  · intro hfit
    unfold viewport
    simp only
    rw [Size.add_of_le hfit, Checked.ok_bind]
    exact ⟨_, rfl⟩

theorem inside_scrollTo {e e' : Editor} {row : Nat} (h : e.scrollTo row = .ok e') :
    Inside e [] e' := by
  rw [scrollTo] at h
  split at h
  · rw [← Checked.pure_eq_ok.mp h]
    exact Inside.refl e
  · obtain ⟨rows, rfl⟩ := viewportMoved_eq h
    exact ⟨rfl, rfl, by simp, ⟨[rows], rfl⟩, fun hsame => absurd hsame (by simp)⟩

theorem inside_resize {e e' : Editor} {rows : Nat} (h : e.resize rows = .ok e') :
    Inside e [] e' := by
  rw [resize] at h
  split at h
  · rw [← Checked.pure_eq_ok.mp h]
    exact Inside.refl e
  · obtain ⟨rows, rfl⟩ := viewportMoved_eq h
    exact ⟨rfl, rfl, by simp, ⟨[rows], rfl⟩, fun hsame => absurd hsame (by simp)⟩

mutual
/-- What a command can be: an operation, by itself or around an edit, or one that leaves the text
alone. -/
theorem run_cases (c : Command) (e : Editor) (hc : c.every Command.leavesEvents = true)
    {answer : Answer} {e' : Editor} (h : e.run c = .ok (answer, e')) :
    (∃ e₁, Inside e.enter (c.splices e.text) e₁ ∧ e' = e₁.leave) ∨
      c.splices e.text = [] ∧ Inside e [] e' := by
  cases c with
  | operation commands =>
      obtain ⟨answers, e₁, hall, rfl⟩ := run_operation_eq h
      rw [Command.every] at hc
      rw [Command.splices]
      exact .inl ⟨e₁, runAll_inside commands e.enter hc (Nat.succ_pos _) hall, rfl⟩
  | insert p x =>
      -- an edit is an operation around what it replaces, whatever the text is
      obtain ⟨-, rfl⟩ := Prod.mk.inj (Checked.pure_eq_ok.mp h)
      exact .inl ⟨_, inside_replaceBytes e.enter p p x, rfl⟩
  | delete p q =>
      obtain ⟨-, rfl⟩ := Prod.mk.inj (Checked.pure_eq_ok.mp h)
      exact .inl ⟨_, inside_replaceBytes e.enter p q [], rfl⟩
  | replace p q x =>
      obtain ⟨-, rfl⟩ := Prod.mk.inj (Checked.pure_eq_ok.mp h)
      exact .inl ⟨_, inside_replaceBytes e.enter p q x, rfl⟩
  | append x =>
      obtain ⟨-, rfl⟩ := Prod.mk.inj (Checked.pure_eq_ok.mp h)
      exact .inl ⟨_, inside_replaceBytes e.enter e.endPoint e.endPoint x, rfl⟩
  | setText x =>
      obtain ⟨-, rfl⟩ := Prod.mk.inj (Checked.pure_eq_ok.mp h)
      exact .inl ⟨_, inside_replaceBytes e.enter .zero e.endPoint x, rfl⟩
  | scrollTo row => exact .inr ⟨rfl, inside_scrollTo (run_scrollTo_eq h)⟩
  | resize rows => exact .inr ⟨rfl, inside_resize (run_resize_eq h)⟩
  | drain => exact absurd hc (by simp [Command.every, Command.leavesEvents])
  | indexOf | pointAt | viewport | render =>
      rw [run] at h
      obtain rfl := eq_of_lookup h
      exact .inr ⟨rfl, Inside.refl _⟩
  | _ =>
      -- marks are none of the things that are kept track of
      obtain ⟨-, rfl⟩ := Prod.mk.inj (Checked.pure_eq_ok.mp h)
      exact .inr ⟨rfl, rfl, rfl, (List.append_nil _).symm, ⟨[], (List.append_nil _).symm⟩,
        fun _ => ⟨rfl, rfl⟩⟩
theorem runAll_inside (cs : List Command) (e : Editor)
    (hcs : Command.everyIn Command.leavesEvents cs = true) (hdepth : 0 < e.depth)
    {answers : List Answer} {e' : Editor} (h : e.runAll cs = .ok (answers, e')) :
    Inside e (Command.splicesIn e.text cs) e' := by
  cases cs with
  | nil =>
      obtain ⟨-, rfl⟩ := Prod.mk.inj (Checked.pure_eq_ok.mp h)
      exact Inside.refl e
  | cons c cs =>
      rw [Command.everyIn, Bool.and_eq_true] at hcs
      obtain ⟨answer, answers₁, e₁, hrun, hall⟩ := runAll_cons_eq h
      have hfirst : Inside e (c.splices e.text) e₁ := by
        rcases run_cases c e hcs.1 hrun with ⟨e₀, hin, rfl⟩ | ⟨hnone, hin⟩
        · exact hin.leave hdepth
        · rw [hnone]
          exact hin
      have hothers := runAll_inside cs e₁ hcs.2 (hfirst.depth ▸ hdepth) hall
      rw [hfirst.text] at hothers
      rw [Command.splicesIn]
      exact hfirst.trans hothers
end

theorem run_inside {c : Command} {e : Editor} (hc : c.every Command.leavesEvents = true)
    (hdepth : 0 < e.depth) {answer : Answer} {e' : Editor} (h : e.run c = .ok (answer, e')) :
    Inside e (c.splices e.text) e' := by
  rcases run_cases c e hc h with ⟨e₀, hin, rfl⟩ | ⟨hnone, hin⟩
  · exact hin.leave hdepth
  · rw [hnone]
    exact hin

/-! ## Outside of operations -/

/-- An editor outside of operations, of which all changes have been told. -/
structure AtRest (e : Editor) : Prop where
  depth : e.depth = 0
  pending : e.pending = []

theorem atRest_ofText (t : Text) (rows : Nat) : AtRest (ofText t rows) := ⟨rfl, rfl⟩

/-- The event that tells of some splices, if there are any. -/
def told (ss : List Splice) : List Event :=
  if ss = [] then [] else [.changes (ss.map Splice.change)]

/-- What a command that makes some splices comes to outside of operations: the changes are told,
after the moves of the rows that can be seen. -/
structure Outside (e : Editor) (ss : List Splice) (e' : Editor) : Prop where
  text : e'.text = Splice.outcome e.text ss
  atRest : e'.AtRest
  events : ∃ moves : List RowRange, e'.events = e.events ++ (moves.map Event.viewport ++ told ss)
  rows : e'.events = e.events → e'.topRow = e.topRow ∧ e'.visibleRows = e.visibleRows

/-- The outermost operation tells of all changes made since it began. -/
theorem Inside.leave_atRest {e e' : Editor} {ss : List Splice} (h : Inside e.enter ss e')
    (hrest : e.AtRest) : Outside e ss e'.leave := by
  obtain ⟨moves, hmoves⟩ := h.events
  have hdepth : e'.depth - 1 = 0 := by
    rw [h.depth]
    exact hrest.depth
  have hpending : e'.pending = ss.map Splice.change := by
    rw [h.pending, enter, hrest.pending, List.nil_append]
  rw [Editor.leave]
  simp only [hdepth, ↓reduceIte, hpending, List.map_eq_nil_iff]
  by_cases hss : ss = []
  · rw [if_pos hss]
    refine ⟨h.text, ⟨rfl, ?_⟩, ⟨moves, ?_⟩, h.rows⟩
    · rw [hss, List.map_nil]
    · rw [told, if_pos hss, List.append_nil]
      exact hmoves
  · rw [if_neg hss]
    refine ⟨h.text, ⟨rfl, rfl⟩, ⟨moves, ?_⟩, ?_⟩
    · rw [told, if_neg hss, ← List.append_assoc]
      exact congrArg (· ++ _) hmoves
    · intro hsame
      -- the changes are told last, so there is an event more
      simp only [hmoves, enter] at hsame
      simp at hsame

/-- A command outside of operations tells of its changes in one batch. -/
theorem run_outside {c : Command} {e : Editor} (hc : c.every Command.leavesEvents = true)
    (hrest : e.AtRest) {answer : Answer} {e' : Editor} (h : e.run c = .ok (answer, e')) :
    Outside e (c.splices e.text) e' := by
  rcases run_cases c e hc h with ⟨e₁, hin, rfl⟩ | ⟨hnone, hin⟩
  · exact hin.leave_atRest hrest
  · obtain ⟨moves, hmoves⟩ := hin.events
    rw [hnone]
    refine ⟨hin.text, ⟨?_, ?_⟩, ⟨moves, ?_⟩, hin.rows⟩
    · rw [hin.depth, hrest.depth]
    · rw [hin.pending, hrest.pending, List.map_nil, List.append_nil]
    · rw [told, if_pos rfl, List.append_nil, hmoves]

/-! ## Marks -/

theorem replaceBytes_of_splices_nil {e : Editor} {p q : Point} {x : Text}
    (h : e.text.splices p q x = []) :
    e.replaceBytes (e.spanOf p q).1 (e.spanOf p q).2 x = e := by
  rw [spanOf_eq, replaceBytes]
  by_cases hidle : min (e.text.indexOf p) (e.text.indexOf q) =
      max (e.text.indexOf p) (e.text.indexOf q) ∧ x = []
  · rw [if_pos hidle]
  · simp only [Text.splices, Text.removed_eq_nil_iff] at h
    rw [if_neg hidle] at h
    cases h

theorem marks_leave (e : Editor) : e.leave.marks = e.marks := by
  obtain ⟨_, _, _, _, hleave⟩ := leave_eq e
  rw [hleave]

mutual
/-- A command that makes no splices moves no marks. -/
theorem run_marks (c : Command) (e : Editor) (hc : c.every Command.leavesMarks = true)
    (hnone : c.splices e.text = []) {answer : Answer} {e' : Editor}
    (h : e.run c = .ok (answer, e')) : e'.marks = e.marks := by
  -- an edit without splices replaces nothing by nothing, which returns before the marks are moved
  have hidle : ∀ {p q : Point} {x : Text}, e.text.splices p q x = [] →
      (e.replace p q x).marks = e.marks := by
    intro p q x hsplices
    have hsame : e.enter.replaceBytes (e.spanOf p q).1 (e.spanOf p q).2 x = e.enter :=
      replaceBytes_of_splices_nil (e := e.enter) hsplices
    rw [replace]
    simp only
    rw [marks_leave, hsame]
    rfl
  cases c with
  | operation commands =>
      obtain ⟨answers, e₁, hall, rfl⟩ := run_operation_eq h
      rw [Command.every] at hc
      rw [Command.splices] at hnone
      rw [marks_leave]
      exact runAll_marks commands e.enter hc (Nat.succ_pos _) hnone hall
  | insert | delete | replace | append | setText =>
      obtain ⟨-, rfl⟩ := Prod.mk.inj (Checked.pure_eq_ok.mp h)
      exact hidle hnone
  | scrollTo row =>
      obtain ⟨_, _, rfl⟩ := scrollTo_eq (run_scrollTo_eq h)
      rfl
  | resize rows =>
      obtain ⟨_, _, rfl⟩ := resize_eq (run_resize_eq h)
      rfl
  | indexOf | pointAt | viewport | render =>
      rw [run] at h
      rw [eq_of_lookup h]
  | drain | mark | clearMark => exact absurd hc (by simp [Command.every, Command.leavesMarks])
  | _ =>
      obtain ⟨-, rfl⟩ := Prod.mk.inj (Checked.pure_eq_ok.mp h)
      rfl
theorem runAll_marks (cs : List Command) (e : Editor)
    (hcs : Command.everyIn Command.leavesMarks cs = true) (hdepth : 0 < e.depth)
    (hnone : Command.splicesIn e.text cs = []) {answers : List Answer} {e' : Editor}
    (h : e.runAll cs = .ok (answers, e')) : e'.marks = e.marks := by
  cases cs with
  | nil =>
      obtain ⟨-, rfl⟩ := Prod.mk.inj (Checked.pure_eq_ok.mp h)
      rfl
  | cons c cs =>
      rw [Command.everyIn, Bool.and_eq_true] at hcs
      obtain ⟨answer, answers₁, e₁, hrun, hall⟩ := runAll_cons_eq h
      rw [Command.splicesIn] at hnone
      obtain ⟨hfirst, hothers⟩ := List.append_eq_nil_iff.mp hnone
      have hleaves := Command.every_mono Command.leavesEvents_of_leavesMarks c hcs.1
      have hin := run_inside hleaves hdepth hrun
      rw [← hin.text] at hothers
      rw [runAll_marks cs e₁ hcs.2 (hin.depth ▸ hdepth) hothers hall,
        run_marks c e hcs.1 hfirst hrun]
end

/-! ## Faults -/

mutual
/-- An edit never meets a fault. -/
theorem run_edit_ok (c : Command) (e : Editor) (hc : c.every Command.isEdit = true) :
    ∃ answer e', e.run c = .ok (answer, e') := by
  cases c with
  | operation commands =>
      rw [Command.every] at hc
      obtain ⟨answers, e', h⟩ := runAll_edits_ok commands e.enter hc
      exact ⟨.answers answers, e'.leave, by rw [run, h]; rfl⟩
  | insert | delete | replace | append | setText => exact ⟨_, _, rfl⟩
  | _ => exact absurd hc (by simp [Command.every, Command.isEdit])
theorem runAll_edits_ok (cs : List Command) (e : Editor)
    (hcs : Command.everyIn Command.isEdit cs = true) :
    ∃ answers e', e.runAll cs = .ok (answers, e') := by
  cases cs with
  | nil => exact ⟨_, _, rfl⟩
  | cons c cs =>
      rw [Command.everyIn, Bool.and_eq_true] at hcs
      obtain ⟨answer, e₁, h⟩ := run_edit_ok c e hcs.1
      obtain ⟨answers, e', hall⟩ := runAll_edits_ok cs e₁ hcs.2
      refine ⟨answer :: answers, e', ?_⟩
      rw [runAll, h, Checked.ok_bind]
      simp only
      rw [hall]
      rfl
end

end Editor

end Lumen
