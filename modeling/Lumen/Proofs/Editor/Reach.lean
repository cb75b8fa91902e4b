import Lumen.Proofs.Highlight.Overlay
import Mathlib.Logic.Relation

/-!
# What editors can become

Whatever is done to an editor is made up of a few single steps (`Step`): operations begin and end,
bytes between two points are replaced, rows are moved, marks are made and cleared, and events are
taken. So what each of these steps keeps, any use of an editor keeps (`Reaches`).

Who uses an editor cannot take all of these steps just as they please. What can be called on it is a
`Call`, and an editor is `Reachable` if it comes about by calls:

* `Reachable.atRest` — outside of operations, nothing waits to be told;
* `calls_run`, `calls_runAll` — commands are made up of calls, with all that is inside operations;
* `calls_overlay` — and so is laying an overlay, also inside an operation.
-/

namespace Lumen

namespace Editor

/-- A single step of an editor. Operations begin and end in steps of their own, so that anything can
happen inside them. -/
inductive Step : Editor → Editor → Prop
  | enter (e : Editor) : Step e e.enter
  | leave (e : Editor) : Step e e.leave
  | replace (e : Editor) (p q : Point) (inserted : Text) :
      Step e (e.replaceBytes (e.spanOf p q).1 (e.spanOf p q).2 inserted)
  | scrollTo {e e' : Editor} {row : Nat} : e.scrollTo row = .ok e' → Step e e'
  | resize {e e' : Editor} {rows : Nat} : e.resize rows = .ok e' → Step e e'
  | mark (e : Editor) (p q : Point) (style : Style) : Step e (e.mark p q style).2
  | clearMark (e : Editor) (id : Nat) : Step e (e.clearMark id)
  | drain (e : Editor) : Step e e.drain.2

/-- That an editor becomes another by steps that follow one another. -/
abbrev Reaches : Editor → Editor → Prop := Relation.ReflTransGen Step

/-! ## Calls -/

/-- What can be called on an editor. Operations begin and end by calls of their own, but none ends
that has not begun, and the bytes of an edit are replaced inside an operation of the edit. -/
inductive Call : Editor → Editor → Prop
  | enter (e : Editor) : Call e e.enter
  | leave {e : Editor} : 0 < e.depth → Call e e.leave
  | replace (e : Editor) (p q : Point) (inserted : Text) : Call e (e.replace p q inserted)
  | scrollTo {e e' : Editor} {row : Nat} : e.scrollTo row = .ok e' → Call e e'
  | resize {e e' : Editor} {rows : Nat} : e.resize rows = .ok e' → Call e e'
  | mark (e : Editor) (p q : Point) (style : Style) : Call e (e.mark p q style).2
  | clearMark (e : Editor) (id : Nat) : Call e (e.clearMark id)
  | drain (e : Editor) : Call e e.drain.2

/-- That an editor becomes another by calls that follow one another. -/
abbrev Calls : Editor → Editor → Prop := Relation.ReflTransGen Call

/-- That an editor can come about: calls on one that has just been made of a text lead to it. -/
def Reachable (e : Editor) : Prop := ∃ t rows, (ofText t rows).Calls e

theorem reaches_replace (e : Editor) (p q : Point) (x : Text) : e.Reaches (e.replace p q x) := by
  have hinside : e.enter.Reaches
      (e.enter.replaceBytes (e.spanOf p q).1 (e.spanOf p q).2 x).leave :=
    .head (.replace e.enter p q x) (.single (.leave _))
  exact .head (.enter e) hinside

theorem Call.reaches {e e' : Editor} (h : Call e e') : e.Reaches e' := by
  cases h with
  | enter => exact .single (.enter e)
  | leave => exact .single (.leave e)
  | replace p q x => exact reaches_replace e p q x
  | scrollTo hscroll => exact .single (.scrollTo hscroll)
  | resize hresize => exact .single (.resize hresize)
  | mark p q style => exact .single (.mark e p q style)
  | clearMark id => exact .single (.clearMark e id)
  | drain => exact .single (.drain e)

theorem Calls.reaches {e e' : Editor} (h : e.Calls e') : e.Reaches e' := by
  induction h with
  | refl => exact .refl
  | tail _ hcall ih =>
      -- a call can be more than one step
      exact ih.trans hcall.reaches

theorem Reachable.calls {e e' : Editor} (he : e.Reachable) (h : e.Calls e') : e'.Reachable := by
  obtain ⟨t, rows, hcalls⟩ := he
  exact ⟨t, rows, hcalls.trans h⟩

theorem reachable_ofText (t : Text) (rows : Nat) : (ofText t rows).Reachable := ⟨t, rows, .refl⟩

/-- When the outermost operation ends, nothing is left to be told. -/
theorem pending_leave {e : Editor} (h : e.leave.depth = 0) : e.leave.pending = [] := by
  unfold leave at h ⊢
  simp only at h ⊢
  split at h
  · split at h
    · next hzero hnone => rw [if_pos hzero, if_pos hnone]; exact hnone
    · next hzero hsome => rw [if_pos hzero, if_neg hsome]
  · next hinside => exact absurd h hinside

/-- Outside of operations nothing waits to be told. -/
theorem Call.pending_eq_nil {e e' : Editor} (h : Call e e')
    (he : e.depth = 0 → e.pending = []) : e'.depth = 0 → e'.pending = [] := by
  cases h with
  | enter =>
      intro hzero
      exact absurd hzero (Nat.succ_ne_zero _)
  | leave => exact pending_leave
  | replace p q x => exact pending_leave
  | scrollTo hscroll =>
      obtain ⟨_, _, rfl⟩ := scrollTo_eq hscroll
      exact he
  | resize hresize =>
      obtain ⟨_, _, rfl⟩ := resize_eq hresize
      exact he
  | mark | clearMark | drain => exact he

theorem Calls.pending_eq_nil {e e' : Editor} (h : e.Calls e')
    (he : e.depth = 0 → e.pending = []) : e'.depth = 0 → e'.pending = [] := by
  induction h with
  | refl => exact he
  | tail _ hcall ih => exact hcall.pending_eq_nil ih

theorem Reachable.atRest {e : Editor} (he : e.Reachable) (hdepth : e.depth = 0) : e.AtRest := by
  obtain ⟨t, rows, hcalls⟩ := he
  exact ⟨hdepth, hcalls.pending_eq_nil (fun _ => rfl) hdepth⟩

/-! ## Commands -/

theorem depth_leave (e : Editor) : e.leave.depth = e.depth - 1 := by
  unfold leave
  simp only
  split
  · split <;> rfl
  · rfl

theorem depth_replace (e : Editor) (p q : Point) (x : Text) :
    (e.replace p q x).depth = e.depth := by
  have hinside := (inside_replaceBytes e.enter p q x).depth
  show (leave _).depth = e.depth
  rw [depth_leave, Nat.sub_eq_of_eq_add]
  exact hinside

mutual
/-- Commands are made up of calls, which leave as many operations begun as there were. -/
theorem calls_run (c : Command) (e : Editor) {answer : Answer} {e' : Editor}
    (h : e.run c = .ok (answer, e')) : e.Calls e' ∧ e'.depth = e.depth := by
  cases c with
  | operation commands =>
      obtain ⟨answers, e₁, hall, rfl⟩ := run_operation_eq h
      -- what is called inside stands between its begin and its end
      obtain ⟨hinside, hdepth⟩ := calls_runAll commands e.enter hall
      have hbegun : e₁.depth = e.depth + 1 := hdepth
      refine ⟨.head (.enter e) (.tail hinside (.leave ?_)), ?_⟩
      · omega
      · rw [depth_leave, hbegun, Nat.add_sub_cancel]
  | insert | delete | replace | append | setText =>
      obtain ⟨-, rfl⟩ := Prod.mk.inj (Checked.pure_eq_ok.mp h)
      exact ⟨.single (.replace e _ _ _), depth_replace e _ _ _⟩
  | scrollTo row =>
      have hscroll := run_scrollTo_eq h
      refine ⟨.single (.scrollTo hscroll), ?_⟩
      obtain ⟨_, _, rfl⟩ := scrollTo_eq hscroll
      rfl
  | resize rows =>
      have hresize := run_resize_eq h
      refine ⟨.single (.resize hresize), ?_⟩
      obtain ⟨_, _, rfl⟩ := resize_eq hresize
      rfl
  | mark p q style =>
      obtain ⟨-, rfl⟩ := Prod.mk.inj (Checked.pure_eq_ok.mp h)
      exact ⟨.single (.mark e p q style), rfl⟩
  | clearMark id =>
      obtain ⟨-, rfl⟩ := Prod.mk.inj (Checked.pure_eq_ok.mp h)
      exact ⟨.single (.clearMark e id), rfl⟩
  | drain =>
      obtain ⟨-, rfl⟩ := Prod.mk.inj (Checked.pure_eq_ok.mp h)
      exact ⟨.single (.drain e), rfl⟩
  | indexOf | pointAt | viewport | render =>
      rw [run] at h
      obtain rfl := eq_of_lookup h
      exact ⟨.refl, rfl⟩
  | _ =>
      obtain ⟨-, rfl⟩ := Prod.mk.inj (Checked.pure_eq_ok.mp h)
      exact ⟨.refl, rfl⟩
theorem calls_runAll (cs : List Command) (e : Editor) {answers : List Answer} {e' : Editor}
    (h : e.runAll cs = .ok (answers, e')) : e.Calls e' ∧ e'.depth = e.depth := by
  cases cs with
  | nil =>
      obtain ⟨-, rfl⟩ := Prod.mk.inj (Checked.pure_eq_ok.mp h)
      exact ⟨.refl, rfl⟩
  | cons c cs =>
      obtain ⟨answer, answers₁, e₁, hrun, hall⟩ := runAll_cons_eq h
      obtain ⟨hfirst, hdepth⟩ := calls_run c e hrun
      obtain ⟨hothers, hdepth'⟩ := calls_runAll cs e₁ hall
      exact ⟨hfirst.trans hothers, hdepth'.trans hdepth⟩
end

theorem reaches_runAll (cs : List Command) (e : Editor) {answers : List Answer} {e' : Editor}
    (h : e.runAll cs = .ok (answers, e')) : e.Reaches e' :=
  (calls_runAll cs e h).1.reaches

/-! ## Overlays -/

/-- To clear marks one after the other leaves those of no cleared id. -/
theorem foldl_clearMark (ids : List Nat) (e : Editor) :
    ids.foldl clearMark e = { e with marks := e.marks.filter fun m => m.id ∉ ids } := by
  induction ids generalizing e with
  | nil =>
      have hall : e.marks.filter (fun m => m.id ∉ []) = e.marks := by simp
      rw [hall]
      rfl
  | cons id ids ih =>
      rw [List.foldl_cons, ih]
      simp only [clearMark, List.filter_filter]
      congr 2
      funext m
      by_cases h : m.id = id <;> simp [h]

/-- All marks are gone when each of their ids has been cleared. -/
theorem clearMarks_eq (e : Editor) : e.markIds.foldl clearMark e = { e with marks := [] } := by
  rw [foldl_clearMark]
  congr 1
  rw [List.filter_eq_nil_iff]
  intro m hm
  have hid : m.id ∈ e.markIds := List.mem_map_of_mem hm
  simp [hid]

theorem calls_clearMarks (e : Editor) : e.Calls { e with marks := [] } := by
  have hclear : ∀ (ids : List Nat) (e : Editor), e.Calls (ids.foldl clearMark e) := by
    intro ids
    induction ids with
    | nil => exact fun e => .refl
    | cons id ids ih => exact fun e => .head (.clearMark e id) (ih _)
  have h := hclear e.markIds e
  rwa [clearMarks_eq] at h

theorem calls_markAll (palette : Highlight.Palette) (cs : List Highlight.Capture) (e : Editor) :
    e.Calls (Highlight.markAll palette cs e) := by
  induction cs generalizing e with
  | nil => exact .refl
  | cons c cs ih => exact .head (.mark e c.start c.stop _) (ih _)

/-- An overlay is laid in an operation that clears all marks and makes new ones. -/
theorem calls_overlay {e e' : Editor} {captures? : Option (RowRange → List Highlight.Capture)}
    {palette : Highlight.Palette} {rows? : Option RowRange} {n : Nat}
    (h : Highlight.overlay e captures? palette rows? = .ok (n, e')) : e.Calls e' := by
  obtain ⟨kept, -, -, rfl⟩ := Highlight.overlay_cases h
  have hmarks := (calls_clearMarks e.enter).trans (calls_markAll palette kept _)
  have hbegun : 0 < (Highlight.markAll palette kept { e.enter with marks := [] }).depth := by
    rw [Highlight.markAll_eq]
    exact Nat.succ_pos _
  exact .head (.enter e) (.tail hmarks (.leave hbegun))

theorem reaches_overlay {e e' : Editor} {captures? : Option (RowRange → List Highlight.Capture)}
    {palette : Highlight.Palette} {rows? : Option RowRange} {n : Nat}
    (h : Highlight.overlay e captures? palette rows? = .ok (n, e')) : e.Reaches e' :=
  (calls_overlay h).reaches

end Editor

end Lumen
