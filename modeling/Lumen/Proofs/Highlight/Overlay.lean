import Lumen.Highlight.Overlay
import Lumen.Proofs.Editor.Run

/-!
# What laying an overlay does

Laying an overlay in an editor outside of operations puts the marks of the kept captures in place of
all others and counts as one operation; nothing else of the editor changes (`overlay_eq`). Where and
how the marks are depends on the text alone, so overlays of the same captures look alike in editors
of the same text (`map_look_laid`).
-/

namespace Lumen

/-- What can be seen of a mark: where it is and how it is styled. -/
def Mark.look (m : Mark) : Nat × Nat × Style := (m.start, m.stop, m.style)

namespace Highlight

/-- The mark of a capture in a text. -/
def markOf (palette : Palette) (t : Text) (id : Nat) (c : Capture) : Mark where
  id
  start := min (t.indexOf c.start) (t.indexOf c.stop)
  stop := max (t.indexOf c.start) (t.indexOf c.stop)
  style := styleOf palette c

/-- The marks of captures in a text, with ids that follow one another. -/
def laid (palette : Palette) (t : Text) : Nat → List Capture → List Mark
  | _, [] => []
  | id, c :: cs => markOf palette t id c :: laid palette t (id + 1) cs

/-- The ids of the marks make no difference to what can be seen of them. -/
theorem map_look_laid (palette : Palette) (t : Text) (id id' : Nat) (cs : List Capture) :
    (laid palette t id cs).map Mark.look = (laid palette t id' cs).map Mark.look := by
  induction cs generalizing id id' with
  | nil => rfl
  | cons c cs ih =>
      rw [laid, laid, List.map_cons, List.map_cons, ih (id + 1) (id' + 1)]
      rfl

theorem markAll_eq (palette : Palette) (cs : List Capture) (e : Editor) :
    markAll palette cs e =
      { e with
        marks := e.marks ++ laid palette e.text e.nextMark cs
        nextMark := e.nextMark + cs.length } := by
  induction cs generalizing e with
  | nil => simp [markAll, laid]
  | cons c cs ih =>
      rw [markAll, ih, laid]
      simp [Editor.mark, markOf, Nat.add_comm, Nat.add_left_comm]

/-- The captures that are marked in an editor. -/
inductive Kept (e : Editor) (captures? : Option (RowRange → List Capture))
    (rows? : Option RowRange) : List Capture → Prop
  | none : captures? = none → Kept e captures? rows? []
  | rows {captures rows} : captures? = some captures → rows? = some rows →
      Kept e captures? rows? (firstOfNodes (captures rows))
  | viewport {captures rows} : captures? = some captures → rows? = none →
      e.viewport = .ok rows → Kept e captures? rows? (firstOfNodes (captures rows))

/-- An overlay is laid in an operation in which all marks are cleared and the kept captures are
marked. -/
theorem overlay_cases {e e' : Editor} {captures? : Option (RowRange → List Capture)}
    {palette : Palette} {rows? : Option RowRange} {n : Nat}
    (h : overlay e captures? palette rows? = .ok (n, e')) :
    ∃ kept, Kept e captures? rows? kept ∧ n = kept.length ∧
      e' = (markAll palette kept { e.enter with marks := [] }).leave := by
  unfold overlay at h
  cases captures? with
  | none =>
      obtain ⟨rfl, rfl⟩ := Prod.mk.inj (Checked.pure_eq_ok.mp h)
      exact ⟨[], .none rfl, rfl, rfl⟩
  | some captures =>
      cases rows? with
      | none =>
          obtain ⟨rows, hrows, hpair⟩ := Checked.bind_eq_ok.mp h
          obtain ⟨rfl, rfl⟩ := Prod.mk.inj (Checked.pure_eq_ok.mp hpair)
          exact ⟨_, .viewport rfl rfl hrows, rfl, rfl⟩
      | some rows =>
          obtain ⟨rfl, rfl⟩ := Prod.mk.inj (Checked.pure_eq_ok.mp h)
          exact ⟨_, .rows rfl rfl, rfl, rfl⟩

/-- An overlay is laid as soon as it is clear which captures are marked. -/
theorem overlay_of_kept {e : Editor} {captures? : Option (RowRange → List Capture)}
    {rows? : Option RowRange} {kept : List Capture} (h : Kept e captures? rows? kept)
    (palette : Palette) :
    overlay e captures? palette rows? =
      .ok (kept.length, (markAll palette kept { e.enter with marks := [] }).leave) := by
  unfold overlay
  cases h with
  | none hnone =>
      rw [hnone]
      rfl
  | rows hcaptures hrows =>
      rw [hcaptures, hrows]
      rfl
  | viewport hcaptures hnone hrows =>
      have hrows' : Editor.viewport { e.enter with marks := [] } = .ok _ := hrows
      rw [hcaptures, hnone]
      simp only
      rw [hrows']
      rfl

/-- An operation in which only marks were made ends as if nothing had happened but them. -/
theorem leave_marks {e : Editor} (hrest : e.AtRest) (marks : List Mark) (next : Nat) :
    Editor.leave { e.enter with marks, nextMark := next } =
      { e with marks, nextMark := next, operations := e.operations + 1 } := by
  obtain ⟨hdepth, hpending⟩ := hrest
  cases e
  simp only [Editor.leave, Editor.enter] at hdepth hpending ⊢
  simp [hdepth, hpending]

/-- Laying an overlay puts the marks of the kept captures in place of all others. -/
theorem overlay_eq {e e' : Editor} {captures? : Option (RowRange → List Capture)}
    {palette : Palette} {rows? : Option RowRange} {n : Nat} (hrest : e.AtRest)
    (h : overlay e captures? palette rows? = .ok (n, e')) :
    ∃ kept, Kept e captures? rows? kept ∧ n = kept.length ∧
      e' = { e with
        marks := laid palette e.text e.nextMark kept
        nextMark := e.nextMark + kept.length
        operations := e.operations + 1 } := by
  obtain ⟨kept, hkept, hcount, rfl⟩ := overlay_cases h
  refine ⟨kept, hkept, hcount, ?_⟩
  rw [markAll_eq]
  exact leave_marks hrest _ _

/-- Laying an overlay touches neither the text nor which rows can be seen, also inside an
operation. -/
theorem overlay_keeps {e e' : Editor} {captures? : Option (RowRange → List Capture)}
    {palette : Palette} {rows? : Option RowRange} {n : Nat}
    (h : overlay e captures? palette rows? = .ok (n, e')) :
    e'.text = e.text ∧ e'.topRow = e.topRow ∧ e'.visibleRows = e.visibleRows := by
  obtain ⟨kept, -, -, rfl⟩ := overlay_cases h
  obtain ⟨_, _, _, _, hleave⟩ := Editor.leave_eq (markAll palette kept { e.enter with marks := [] })
  rw [hleave, markAll_eq]
  exact ⟨rfl, rfl, rfl⟩

/-- An overlay of the rows that can be seen is laid as long as there are such rows. -/
theorem exists_overlay {e : Editor} {rows : RowRange} (hrows : e.viewport = .ok rows)
    (captures : RowRange → List Capture) (palette : Palette) :
    ∃ n e', overlay e (some captures) palette none = .ok (n, e') :=
  ⟨_, _, overlay_of_kept (.viewport rfl rfl hrows) palette⟩

/-- That there are such rows is asked for just if there are captures to show. -/
theorem exists_overlay_iff {e : Editor} {captures? : Option (RowRange → List Capture)}
    {palette : Palette} :
    (∃ n e', overlay e captures? palette none = .ok (n, e')) ↔
      (captures?.isSome = true → e.RowsFit) := by
  rw [← Editor.exists_viewport_iff]
  constructor
  · rintro ⟨n, e', h⟩ hsome
    obtain ⟨kept, hkept, -, -⟩ := overlay_cases h
    cases hkept with
    | none hnone => exact absurd hsome (by simp [hnone])
    | rows _ hrows => cases hrows
    | viewport _ _ hrows => exact ⟨_, hrows⟩
  · intro hrows
    cases captures? with
    | none => exact ⟨_, _, rfl⟩
    | some captures =>
        obtain ⟨rows, hrows⟩ := hrows rfl
        exact exists_overlay hrows captures palette

end Highlight

end Lumen
