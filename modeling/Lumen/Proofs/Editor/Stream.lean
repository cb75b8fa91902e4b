import Lumen.Proofs.Editor.Replay
import Lumen.Proofs.Editor.Screen

/-!
# The stream of events

What commands tell is settled before they are run, by what can be seen of the editor (`View`) and by
the commands alone. A move of the rows that can be seen is told when it is made (`Command.moves`),
and the changes of an operation are told when the outermost operation ends. So the events of
commands outside of operations are a stream (`Command.stream`) in which each command has the moves
inside it, and then one event for the records of all edits inside it that change anything.

* `agree_run`, `agree_runAll` — commands make the moves that are told of them, and meet a fault just
  where these do;
* `agree_runAll_stream` — outside of operations they tell the stream, also if events are taken in
  between;
* `operations_tell_in_order` — what is told inside and outside of operations, taken together.
-/

namespace Lumen

/-! ## Moves -/

namespace Event

/-- The rows that an event tells can be seen. -/
def move? : Event → Option RowRange
  | .viewport rows => some rows
  | .changes _ => none

/-- The rows that events tell can be seen, one after the other. -/
def moves (events : List Event) : List RowRange := events.filterMap move?

theorem moves_append (es fs : List Event) : moves (es ++ fs) = moves es ++ moves fs :=
  List.filterMap_append

@[simp] theorem moves_map_viewport (rows : List RowRange) : moves (rows.map viewport) = rows := by
  induction rows with
  | nil => rfl
  | cons r rs ih => exact congrArg (r :: ·) ih

end Event

namespace Editor

@[simp] theorem moves_told (ss : List Splice) : Event.moves (told ss) = [] := by
  unfold told
  split <;> rfl

/-! ## Views -/

/-- What can be seen of an editor: its text, and which rows of it. -/
structure View where
  text : Text
  topRow : Nat
  visibleRows : Nat
deriving DecidableEq

def view (e : Editor) : View := ⟨e.text, e.topRow, e.visibleRows⟩

namespace View

/-- The rows that can be seen, as long as the row past them is a size. -/
def rows (v : View) : Checked RowRange :=
  Editor.viewport { text := v.text, topRow := v.topRow, visibleRows := v.visibleRows }

/-- The moves that it takes to come to another view: one to its rows, or none if it is the same. -/
def moveTo (v w : View) : Checked (List RowRange × View) :=
  if w = v then return ([], v)
  else do
    let rows ← w.rows
    return ([rows], w)

end View

namespace Command

mutual
/-- The moves that a command makes, and the view after it. -/
def moves (v : View) : Command → Checked (List RowRange × View)
  | .scrollTo row => v.moveTo { v with topRow := min row (v.text.lineCount - 1) }
  | .resize rows => v.moveTo { v with visibleRows := max rows 1 }
  | .operation commands => movesIn v commands
  | .viewport | .render => do
    let _ ← v.rows
    return ([], v)
  | c => return ([], { v with text := Splice.outcome v.text (c.splices v.text) })
/-- The moves that commands make which follow one another, and the view after them. -/
def movesIn (v : View) : List Command → Checked (List RowRange × View)
  | [] => return ([], v)
  | c :: cs => do
    let (rows, w) ← moves v c
    let (others, u) ← movesIn w cs
    return (rows ++ others, u)
end

/-- The events that commands outside of operations tell: each of them the moves that it makes, and
after them the changes of all that it splices, if there are any. -/
def stream (v : View) : List Command → Checked (List Event)
  | [] => return []
  | c :: cs => do
    let (rows, w) ← c.moves v
    let events ← stream w cs
    return rows.map Event.viewport ++ told (c.splices v.text) ++ events

/-- Whether a command is an operation, by itself or around an edit. -/
def isOperation : Command → Bool
  | .operation _ => true
  | c => c.isEdit

/-- The number of outermost operations among commands that begin at a depth. -/
def outermost (depth : Nat) (cs : List Command) : Nat :=
  if depth = 0 then cs.countP isOperation else 0

theorem outermost_cons (depth : Nat) (c : Command) (cs : List Command) :
    outermost depth (c :: cs) = outermost depth [c] + outermost depth cs := by
  unfold outermost
  split
  · rw [← List.countP_append, List.singleton_append]
  · rfl

theorem outermost_of_not {c : Command} (hc : c.isOperation = false) (depth : Nat) :
    outermost depth [c] = 0 := by
  simp [outermost, hc]

end Command

/-! ## What a command moves -/

/-- That an editor becomes another by some moves to a view, while some outermost operations end. -/
structure Moved (e : Editor) (ended : Nat) (m : List RowRange × View) (e' : Editor) : Prop where
  view : e'.view = m.2
  moves : Event.moves e'.events = Event.moves e.events ++ m.1
  depth : e'.depth = e.depth
  operations : e'.operations = e.operations + ended

namespace Moved

variable {e e' e'' : Editor} {n n' : Nat} {m m' : List RowRange × View}

theorem refl (e : Editor) : Moved e 0 ([], e.view) e :=
  ⟨rfl, (List.append_nil _).symm, rfl, rfl⟩

theorem trans (h : Moved e n m e') (h' : Moved e' n' m' e'') :
    Moved e (n + n') (m.1 ++ m'.1, m'.2) e'' where
  view := h'.view
  moves := by rw [h'.moves, h.moves, List.append_assoc]
  depth := h'.depth.trans h.depth
  operations := by rw [h'.operations, h.operations, Nat.add_assoc]

/-- The end of an operation moves nothing, and counts if it is the outermost one. -/
theorem leave (h : Moved e.enter 0 m e') :
    Moved e (if e.depth = 0 then 1 else 0) m e'.leave := by
  have hdepth : e'.depth = e.depth + 1 := h.depth
  have hview : e'.view = m.2 := h.view
  have hmoves : Event.moves e'.events = Event.moves e.events ++ m.1 := h.moves
  have hoperations : e'.operations = e.operations := h.operations
  unfold Editor.leave
  simp only [hdepth, Nat.add_sub_cancel]
  by_cases hzero : e.depth = 0
  · rw [if_pos hzero, if_pos hzero]
    split
    · exact ⟨hview, hmoves, rfl, congrArg (· + 1) hoperations⟩
    · refine ⟨hview, ?_, rfl, congrArg (· + 1) hoperations⟩
      -- the event that is told is one of changes
      show Event.moves (e'.events ++ [.changes e'.pending]) = _
      rw [Event.moves_append, hmoves]
      exact List.append_nil _
  · rw [if_neg hzero, if_neg hzero]
    exact ⟨hview, hmoves, rfl, hoperations⟩

/-- An edit is an operation that moves no rows. -/
theorem replace (e : Editor) (p q : Point) (x : Text) :
    Moved e (if e.depth = 0 then 1 else 0)
      ([], { e.view with text := Splice.outcome e.text (e.text.splices p q x) })
      (e.replace p q x) := by
  rw [replace_eq]
  apply Moved.leave
  exact ⟨rfl, (List.append_nil _).symm, rfl, rfl⟩

end Moved

/-- Rows that can be seen are told when they have been moved; `same` asks whether they have not. -/
theorem agree_moveTo {e e₁ : Editor} {same : Prop} [Decidable same]
    (hsame : same ↔ e₁.view = e.view) (hevents : e₁.events = e.events)
    (hdepth : e₁.depth = e.depth) (hoperations : e₁.operations = e.operations) :
    Checked.Agree (fun e' m => Moved e 0 m e') (if same then pure e else e₁.viewportMoved)
      (e.view.moveTo e₁.view) := by
  unfold View.moveTo
  by_cases h : same
  · rw [if_pos h, if_pos (hsame.mp h)]
    exact .ok (Moved.refl e)
  · have hmoved : ¬e₁.view = e.view := fun hview => h (hsame.mpr hview)
    rw [if_neg h, if_neg hmoved]
    have hrows : e₁.view.rows = e₁.viewport := rfl
    rw [hrows]
    unfold viewportMoved
    cases e₁.viewport with
    | error fault => exact .error fault
    | ok rows =>
        refine .ok ⟨rfl, ?_, hdepth, hoperations⟩
        show Event.moves (e₁.events ++ [.viewport rows]) = _
        rw [hevents, Event.moves_append]
        rfl

theorem agree_scrollTo (e : Editor) (row : Nat) :
    Checked.Agree (fun e' m => Moved e 0 m e') (e.scrollTo row)
      (Command.moves e.view (.scrollTo row)) := by
  unfold scrollTo
  rw [Command.moves]
  refine agree_moveTo ?_ rfl rfl rfl
  simp [view]

theorem agree_resize (e : Editor) (rows : Nat) :
    Checked.Agree (fun e' m => Moved e 0 m e') (e.resize rows)
      (Command.moves e.view (.resize rows)) := by
  unfold resize
  rw [Command.moves]
  refine agree_moveTo ?_ rfl rfl rfl
  simp [view]

mutual
/-- A command makes the moves that are told of it, or meets the fault that they meet. -/
theorem agree_run (c : Command) {e : Editor} (he : e.Reachable)
    (hc : c.every Command.leavesEvents = true) :
    Checked.Agree (fun r m => Moved e (Command.outermost e.depth [c]) m r.2) (e.run c)
      (c.moves e.view) := by
  cases c with
  | operation commands =>
      rw [Command.every] at hc
      rw [run, Command.moves]
      -- inside, no operation is the outermost one, so what is counted is this one at most
      apply (agree_runAll commands (he.calls (.single (.enter e))) hc).map
      intro r m _ hmoved
      exact hmoved.leave
  | insert | delete | replace | append | setText =>
      rw [run, Command.moves]
      · exact .ok (Moved.replace e _ _ _)
      all_goals simp
  | scrollTo row =>
      rw [run, Command.outermost_of_not rfl]
      apply (agree_scrollTo e row).map
      intro e' m _ hmoved
      exact hmoved
  | resize rows =>
      rw [run, Command.outermost_of_not rfl]
      apply (agree_resize e rows).map
      intro e' m _ hmoved
      exact hmoved
  | indexOf p =>
      -- what a text is asked for is always found
      rw [run, Command.moves, Command.outermost_of_not rfl, Text.indexAt_eq]
      · exact .ok (Moved.refl e)
      all_goals simp
  | pointAt i =>
      rw [run, Command.moves, Command.outermost_of_not rfl, Text.pointIn_eq]
      · exact .ok (Moved.refl e)
      all_goals simp
  | viewport =>
      have hrows : e.view.rows = e.viewport := rfl
      rw [run, Command.moves, hrows, Command.outermost_of_not rfl]
      cases e.viewport with
      | error fault => exact .error fault
      | ok rows => exact .ok (Moved.refl e)
  | render =>
      have hrows : e.view.rows = e.viewport := rfl
      rw [run, Command.moves, hrows, Command.outermost_of_not rfl]
      cases hviewport : e.viewport with
      | error fault =>
          rw [render, hviewport]
          exact .error fault
      | ok rows =>
          obtain ⟨-, shown, hrender, -⟩ := he.exists_render hviewport
          rw [hrender]
          exact .ok (Moved.refl e)
  | drain => exact absurd hc (by simp [Command.every, Command.leavesEvents])
  | _ =>
      -- marks are not told of, and what is asked changes nothing
      rw [run, Command.moves, Command.outermost_of_not rfl]
      · exact .ok ⟨rfl, (List.append_nil _).symm, rfl, rfl⟩
      all_goals simp
theorem agree_runAll (cs : List Command) {e : Editor} (he : e.Reachable)
    (hcs : Command.everyIn Command.leavesEvents cs = true) :
    Checked.Agree (fun r m => Moved e (Command.outermost e.depth cs) m r.2) (e.runAll cs)
      (Command.movesIn e.view cs) := by
  cases cs with
  | nil =>
      have hnone : Command.outermost e.depth [] = 0 := ite_self 0
      rw [runAll, Command.movesIn, hnone]
      exact .ok (Moved.refl e)
  | cons c cs =>
      rw [Command.everyIn, Bool.and_eq_true] at hcs
      rw [runAll, Command.movesIn, Command.outermost_cons]
      apply (agree_run c he hcs.1).bind
      rintro ⟨answer, e₁⟩ ⟨rows, v⟩ hrun hfirst
      obtain rfl : e₁.view = v := hfirst.view
      have he₁ : e₁.Reachable := he.calls (calls_run c e hrun).1
      apply (agree_runAll cs he₁ hcs.2).bind
      rintro ⟨answers, e₂⟩ ⟨others, w⟩ _ hothers
      have hdepth : e₁.depth = e.depth := hfirst.depth
      rw [hdepth] at hothers
      exact .ok (hfirst.trans hothers)
end

/-! ## What is told -/

/-- The events that an answer hands over. -/
def Answer.drained : Answer → List Event
  | .events list => list
  | _ => []

/-- The events that answers hand over, one after the other. -/
def drained (answers : List Answer) : List Event := answers.flatMap Answer.drained

theorem drained_cons (answer : Answer) (answers : List Answer) :
    drained (answer :: answers) = answer.drained ++ drained answers :=
  List.flatMap_cons

/-- Only a command that takes events hands any over. -/
theorem drained_run {c : Command} {e e' : Editor} {answer : Answer} (hc : c.leavesEvents = true)
    (h : e.run c = .ok (answer, e')) : answer.drained = [] := by
  cases c with
  | drain => exact absurd hc (by simp [Command.leavesEvents])
  | scrollTo | resize | operation | indexOf | pointAt | viewport | render =>
      rw [run] at h
      obtain ⟨result, -, hpair⟩ := Checked.bind_eq_ok.mp h
      obtain ⟨rfl, -⟩ := Prod.mk.inj (Checked.pure_eq_ok.mp hpair)
      rfl
  | _ =>
      obtain ⟨rfl, -⟩ := Prod.mk.inj (Checked.pure_eq_ok.mp h)
      rfl

/-- If moves are told first, then they are the moves that are made. -/
theorem Moved.events {e e' : Editor} {n : Nat} {m : List RowRange × View} (h : Moved e n m e')
    {others : List Event} (hothers : Event.moves others = [])
    (hfirst : ∃ rows : List RowRange, e'.events = e.events ++ (rows.map Event.viewport ++ others)) :
    e'.events = e.events ++ (m.1.map Event.viewport ++ others) := by
  obtain ⟨rows, hrows⟩ := hfirst
  have hsame := h.moves
  rw [hrows, Event.moves_append, Event.moves_append, Event.moves_map_viewport, hothers,
    List.append_nil] at hsame
  rw [hrows, List.append_cancel_left hsame]

/-- Commands outside of operations tell their stream, in part to those who take events in
between. -/
theorem agree_runAll_stream (ds : List Command) {e : Editor} (hreach : e.Reachable) (he : e.AtRest)
    (hds : Command.everyIn Command.leavesEvents (ds.filter Command.leavesEvents) = true) :
    Checked.Agree (fun r events => drained r.1 ++ r.2.events = e.events ++ events ∧ r.2.AtRest ∧
      r.2.operations = e.operations + ds.countP Command.isOperation) (e.runAll ds)
      (Command.stream e.view ds) := by
  -- the events before are any, as those after a command are told behind those of the command
  induction ds generalizing e with
  | nil => exact .ok ⟨(List.append_nil _).symm, he, rfl⟩
  | cons c ds ih =>
      rw [runAll, Command.stream]
      by_cases hc : c.leavesEvents = true
      · rw [List.filter_cons_of_pos hc, Command.everyIn, Bool.and_eq_true] at hds
        apply (agree_run c hreach hds.1).bind
        rintro ⟨answer, e₁⟩ ⟨rows, v⟩ hrun hmoved
        obtain rfl : e₁.view = v := hmoved.view
        have hreach₁ : e₁.Reachable := hreach.calls (calls_run c e hrun).1
        have hout := run_outside hds.1 he hrun
        have hevents : e₁.events = _ := hmoved.events (moves_told _) hout.events
        apply (ih hreach₁ hout.atRest hds.2).bind
        rintro ⟨answers, e₂⟩ events _ ⟨htold, hrest, hoperations⟩
        refine .ok ⟨?_, hrest, ?_⟩
        · have hnone : answer.drained = [] := drained_run hc hrun
          show drained (answer :: answers) ++ e₂.events = _
          rw [drained_cons, hnone, List.nil_append, htold, hevents]
          simp only [List.append_assoc]
          rfl
        · have hfirst : e₁.operations = _ := hmoved.operations
          show e₂.operations = _
          rw [hoperations, hfirst, Command.outermost, if_pos he.depth, Nat.add_assoc,
            ← List.countP_append, List.singleton_append]
      · cases c with
        | drain =>
            rw [List.filter_cons_of_neg hc] at hds
            -- the events before are handed over, and those after are told as from the start
            apply (ih (hreach.calls (.single (.drain e))) ⟨he.depth, he.pending⟩ hds).bind
            rintro ⟨answers, e₂⟩ events _ ⟨htold, hrest, hoperations⟩
            refine .ok ⟨?_, hrest, hoperations⟩
            show drained (.events e.events :: answers) ++ e₂.events = _
            rw [drained_cons, List.append_assoc, htold]
            rfl
        | _ => exact absurd rfl hc

/-- It makes no difference to the stream where events are taken. -/
theorem stream_filter (ds : List Command) (v : View) :
    Command.stream v (ds.filter Command.leavesEvents) = Command.stream v ds := by
  induction ds generalizing v with
  | nil => rfl
  | cons c ds ih =>
      by_cases hc : c.leavesEvents = true
      · rw [List.filter_cons_of_pos hc, Command.stream, Command.stream]
        simp only [ih]
      · cases c with
        | drain =>
            rw [List.filter_cons_of_neg hc, ih]
            -- to take events makes no splices, and it moves nothing
            show Command.stream v ds = (Command.stream v ds >>= fun events => pure events)
            exact (bind_pure _).symm
        | _ => exact absurd rfl hc

theorem countP_filter_leavesEvents (ds : List Command) :
    (ds.filter Command.leavesEvents).countP Command.isOperation =
      ds.countP Command.isOperation := by
  rw [List.countP_filter]
  apply List.countP_congr
  intro c _
  cases c <;> simp [Command.isOperation, Command.isEdit, Command.leavesEvents]

/-- Inside an operation, commands tell nothing but the moves that they make, when they make them.
The changes wait, and no operation is counted. -/
theorem agree_runAll_inside {cs : List Command} {e : Editor} (he : e.Reachable)
    (hdepth : 0 < e.depth) (hcs : Command.everyIn Command.leavesEvents cs = true) :
    Checked.Agree (fun r m => r.2.events = e.events ++ m.1.map Event.viewport ∧
      r.2.pending = e.pending ++ (Command.splicesIn e.text cs).map Splice.change ∧
      r.2.depth = e.depth ∧ r.2.operations = e.operations ∧ r.2.view = m.2) (e.runAll cs)
      (Command.movesIn e.view cs) := by
  apply (agree_runAll cs he hcs).mono
  rintro ⟨answers, e'⟩ m hrun hmoved
  have hin := runAll_inside cs e hcs hdepth hrun
  have hnone : Command.outermost e.depth cs = 0 := if_neg (Nat.ne_of_gt hdepth)
  rw [hnone] at hmoved
  refine ⟨?_, hin.pending, hmoved.depth, hmoved.operations, hmoved.view⟩
  have hnothing : Event.moves [] = [] := rfl
  have hevents := hmoved.events hnothing
  simp only [List.append_nil] at hevents
  exact hevents hin.events

/-- Commands that begin outside of operations tell a stream of events which is settled before: for
each of them the moves of the rows that can be seen, as they are made, and then one event with the
changes of all edits inside it, in the order in which these are made, if any of them changes
anything. They meet a fault just if a move does. If events are taken in between, those taken and
those left make up the same stream. In the end all operations have ended, of which the outermost
ones have been counted, and no change waits. Inside an operation only the moves are told, and all
changes wait. -/
theorem operations_tell_in_order {e : Editor} (he : e.Reachable) {cs : List Command}
    (hcs : Command.everyIn Command.leavesEvents cs = true) :
    (e.depth = 0 → ∀ ds : List Command, ds.filter Command.leavesEvents = cs →
      Checked.Agree (fun r events => drained r.1 ++ r.2.events = e.events ++ events ∧
        r.2.depth = 0 ∧ r.2.pending = [] ∧
        r.2.operations = e.operations + cs.countP Command.isOperation) (e.runAll ds)
        (Command.stream e.view cs)) ∧
    (0 < e.depth → Checked.Agree (fun r m => r.2.events = e.events ++ m.1.map Event.viewport ∧
        r.2.pending = e.pending ++ (Command.splicesIn e.text cs).map Splice.change ∧
        r.2.depth = e.depth ∧ r.2.operations = e.operations ∧ r.2.view = m.2) (e.runAll cs)
        (Command.movesIn e.view cs)) := by
  constructor
  · rintro hdepth ds rfl
    rw [stream_filter, countP_filter_leavesEvents]
    apply (agree_runAll_stream ds he (he.atRest hdepth) hcs).mono
    rintro r events _ ⟨htold, hrest, hoperations⟩
    exact ⟨htold, hrest.depth, hrest.pending, hoperations⟩
  · intro hdepth
    exact agree_runAll_inside he hdepth hcs

/-- An operation with a move and another operation inside, edits that change nothing, and events
that are taken after the first operation and before the last edit. -/
theorem operations_tell_in_order_of_nested :
    let e := ofText ['a', '\n', 'b'] 1
    let first : Command := .operation [.insert ⟨0, 0⟩ ['x'], .scrollTo 1,
      .operation [.delete ⟨9, 9⟩ ⟨0, 1⟩, .insert ⟨0, 0⟩ []], .mark ⟨0, 0⟩ ⟨0, 1⟩ {}]
    let cs : List Command := [first, .insert ⟨0, 0⟩ [], .resize 3, .append ['y']]
    let ds : List Command := [first, .drain, .insert ⟨0, 0⟩ [], .resize 3, .drain, .append ['y']]
    let inserted : Change := ⟨⟨0, 0⟩, ⟨0, 0⟩, [['x']], [[]]⟩
    let deleted : Change := ⟨⟨0, 1⟩, ⟨1, 1⟩, [[]], [['a'], ['b']]⟩
    let appended : Change := ⟨⟨0, 1⟩, ⟨0, 1⟩, [['y']], [[]]⟩
    e.Reachable ∧ Command.everyIn Command.leavesEvents cs = true ∧
    ds.filter Command.leavesEvents = cs ∧
    (∃ answers e', e.runAll ds = .ok (answers, e') ∧
      drained answers ++ e'.events = [.viewport ⟨1, 1⟩, .changes [inserted, deleted],
        .viewport ⟨0, 0⟩, .changes [appended]] ∧
      e'.depth = 0 ∧ e'.pending = [] ∧ e'.operations = 3) ∧
    ∃ answers e', e.enter.runAll cs = .ok (answers, e') ∧
      e'.events = [.viewport ⟨1, 1⟩, .viewport ⟨0, 0⟩] ∧
      e'.pending = [inserted, deleted, appended] ∧ e'.depth = 1 ∧ e'.operations = 0 := by
  intro e first cs ds inserted deleted appended
  have he : e.Reachable := reachable_ofText _ 1
  have hbegun : e.enter.Reachable := he.calls (.single (.enter e))
  have hcs : Command.everyIn Command.leavesEvents cs = true := by decide
  obtain ⟨events, hstream, htest⟩ := Checked.exists_ok (Command.stream e.view cs)
    (fun events => decide (events = [.viewport ⟨1, 1⟩, .changes [inserted, deleted],
      .viewport ⟨0, 0⟩, .changes [appended]])) (by decide +kernel)
  obtain ⟨m, hmoves, htest'⟩ := Checked.exists_ok (Command.movesIn e.enter.view cs)
    (fun m => decide (m.1 = [⟨1, 1⟩, ⟨0, 0⟩])) (by decide +kernel)
  obtain rfl := of_decide_eq_true htest
  have hrows : m.1 = _ := of_decide_eq_true htest'
  -- the same commands are run twice, outside of operations and inside one
  have houtside := (operations_tell_in_order he hcs).1 rfl ds rfl
  have hinside := (operations_tell_in_order hbegun hcs).2 (by decide)
  rw [hstream] at houtside
  rw [hmoves] at hinside
  obtain ⟨⟨answers, e₁⟩, hrun, htold, hdepth, hpending, hoperations⟩ := houtside.exists_ok
  obtain ⟨⟨answers', e₂⟩, hrun', hevents, hwaiting, hdepth', hnone, -⟩ := hinside.exists_ok
  rw [hrows] at hevents
  have hsplices : (Command.splicesIn e.enter.text cs).map Splice.change =
      [inserted, deleted, appended] := by decide +kernel
  rw [hsplices] at hwaiting
  exact ⟨he, hcs, rfl, ⟨answers, e₁, hrun, htold, hdepth, hpending, hoperations⟩,
    answers', e₂, hrun', hevents, hwaiting, hdepth', hnone⟩

end Editor

end Lumen
