import Lumen.Proofs.Editor.Records

/-!
# The rows that can be seen

The rows that can be seen start at the top row, or at the last row of a text that has become too
short for it, and there are as many of them as are asked for and the text has. They are told unless
the row past them is no size:

* `viewport_cases` — both cases, with all that is said of the rows;
* `Turn` — what it comes to when rows are moved, which `turn_scrollTo` and `turn_resize` show;
* `viewport_inside_text` — what holds of every editor that can come about.

How many rows are seen is limited by nothing, so there are editors whose rows can not be told
(`viewport_faults_past_sizes`).
-/

namespace Lumen

namespace Text

/-- A text has a line for each of its rows, and at least one. -/
theorem lineCount_pos (t : Text) : 0 < t.lineCount := Nat.succ_pos _

end Text

namespace Editor

variable {e e' : Editor} {rows : RowRange}

/-! ## Viewports -/

/-- The row that is seen first. -/
def firstRow (e : Editor) : Nat := min e.topRow (e.text.lineCount - 1)

/-- That rows are those to be seen in an editor: from its first one, and all of them rows of its
text, as many as are asked for, or as the text has from there on. -/
structure Displays (e : Editor) (rows : RowRange) : Prop where
  start : rows.start = e.firstRow
  ordered : rows.start ≤ rows.stop
  inside : rows.stop < e.text.lineCount
  count : rows.stop + 1 - rows.start = min e.visibleRows (e.text.lineCount - rows.start)

theorem firstRow_lt (e : Editor) : e.firstRow < e.text.lineCount := by
  have hpos := e.text.lineCount_pos
  unfold firstRow
  omega

/-- At least one row is seen, so the last one is not before the first. -/
theorem displays_of_pos (h : 1 ≤ e.visibleRows) :
    e.Displays ⟨e.firstRow, min (e.firstRow + e.visibleRows - 1) (e.text.lineCount - 1)⟩ := by
  have hfirst := e.firstRow_lt
  refine ⟨rfl, ?_, ?_, ?_⟩
  · show e.firstRow ≤ min _ _
    omega
  · show min _ _ < e.text.lineCount
    omega
  · show min _ _ + 1 - e.firstRow = min e.visibleRows (e.text.lineCount - e.firstRow)
    omega

/-- The rows to be seen are told, unless they do not fit. -/
theorem viewport_cases (h : 1 ≤ e.visibleRows) :
    (e.firstRow + e.visibleRows ≤ Size.largest ∧ ∃ rows, e.viewport = .ok rows ∧ e.Displays rows) ∨
      Size.largest < e.firstRow + e.visibleRows ∧ e.viewport = .error .overflow := by
  by_cases hfit : e.firstRow + e.visibleRows ≤ Size.largest
  · refine .inl ⟨hfit, _, ?_, displays_of_pos h⟩
    show (Size.add e.firstRow e.visibleRows >>= _) = _
    rw [Size.add_of_le hfit, Checked.ok_bind]
    rfl
  · refine .inr ⟨Nat.lt_of_not_le hfit, ?_⟩
    show (Size.add e.firstRow e.visibleRows >>= _) = _
    rw [Size.add, if_neg hfit]
    rfl

/-! ## Moves -/

/-- What it comes to when an editor is asked for a top row and a number of rows. If it has them
already, nothing happens, and else it tells of the rows that it shows from then on, unless these do
not fit. -/
inductive Turn (e : Editor) (topRow visibleRows : Nat) : Checked Editor → Prop
  | same : e.topRow = topRow → e.visibleRows = visibleRows → Turn e topRow visibleRows (.ok e)
  | moved {e' : Editor} {rows : RowRange} : e.topRow ≠ topRow ∨ e.visibleRows ≠ visibleRows →
      e' = { e with topRow, visibleRows, events := e.events ++ [.viewport rows] } →
      e'.viewport = .ok rows → e'.Displays rows → Turn e topRow visibleRows (.ok e')
  | fault : e.topRow ≠ topRow ∨ e.visibleRows ≠ visibleRows →
      Size.largest < ({ e with topRow, visibleRows } : Editor).firstRow + visibleRows →
      Turn e topRow visibleRows (.error .overflow)

/-- To tell of rows is to add one event, which changes nothing about the rows. -/
theorem turn_viewportMoved {topRow visibleRows : Nat}
    (hchange : e.topRow ≠ topRow ∨ e.visibleRows ≠ visibleRows) (h : 1 ≤ visibleRows) :
    e.Turn topRow visibleRows ({ e with topRow, visibleRows } : Editor).viewportMoved := by
  rcases viewport_cases (e := { e with topRow, visibleRows }) h with
    ⟨-, rows, hrows, hdisplays⟩ | ⟨hlarge, hfault⟩
  · have hmoved : ({ e with topRow, visibleRows } : Editor).viewportMoved =
        .ok { e with topRow, visibleRows, events := e.events ++ [.viewport rows] } := by
      rw [viewportMoved, hrows]
      rfl
    rw [hmoved]
    exact .moved hchange rfl hrows ⟨hdisplays.start, hdisplays.ordered, hdisplays.inside,
      hdisplays.count⟩
  · have hmoved : ({ e with topRow, visibleRows } : Editor).viewportMoved = .error .overflow := by
      rw [viewportMoved, hfault]
      rfl
    rw [hmoved]
    exact .fault hchange hlarge

theorem turn_scrollTo (h : 1 ≤ e.visibleRows) (row : Nat) :
    e.Turn (min row (e.text.lineCount - 1)) e.visibleRows (e.scrollTo row) := by
  unfold scrollTo
  simp only
  by_cases hsame : min row (e.text.lineCount - 1) = e.topRow
  · rw [if_pos hsame]
    exact .same hsame.symm rfl
  · rw [if_neg hsame]
    exact turn_viewportMoved (.inl (Ne.symm hsame)) h

theorem turn_resize (e : Editor) (rows : Nat) : e.Turn e.topRow (max rows 1) (e.resize rows) := by
  unfold resize
  simp only
  by_cases hsame : max rows 1 = e.visibleRows
  · rw [if_pos hsame]
    exact .same rfl hsame.symm
  · rw [if_neg hsame]
    exact turn_viewportMoved (.inr (Ne.symm hsame)) (Nat.le_max_right rows 1)

/-! ## Reachable editors -/

theorem visibleRows_leave (e : Editor) : e.leave.visibleRows = e.visibleRows := by
  obtain ⟨_, _, _, _, hleave⟩ := leave_eq e
  rw [hleave]

/-- A call leaves at least one row to be seen. -/
theorem Call.visibleRows_pos (h : Call e e') (he : 1 ≤ e.visibleRows) : 1 ≤ e'.visibleRows := by
  cases h with
  | enter => exact he
  | leave =>
      rw [visibleRows_leave]
      exact he
  | replace p q x =>
      rw [(rows_replace e p q x).2]
      exact he
  | @scrollTo _ row hscroll =>
      have hturn := turn_scrollTo he row
      rw [hscroll] at hturn
      cases hturn with
      | same => exact he
      | moved _ heq =>
          subst heq
          exact he
  | @resize _ rows hresize =>
      have hturn := turn_resize e rows
      rw [hresize] at hturn
      cases hturn with
      | same => exact he
      | moved _ heq =>
          subst heq
          exact Nat.le_max_right rows 1
  | mark p q style => exact he
  | clearMark id => exact he
  | drain => exact he

/-- In every editor that can come about, at least one row is to be seen. -/
theorem Reachable.visibleRows_pos (h : e.Reachable) : 1 ≤ e.visibleRows := by
  obtain ⟨t, rows, hcalls⟩ := h
  induction hcalls with
  | refl => exact Nat.le_max_right rows 1
  | tail _ hcall ih => exact hcall.visibleRows_pos ih

/-- The rows that are told are those to be seen. -/
theorem Reachable.displays (h : e.Reachable) (hrows : e.viewport = .ok rows) : e.Displays rows := by
  rcases viewport_cases h.visibleRows_pos with ⟨-, rows', hrows', hdisplays⟩ | ⟨-, hfault⟩
  · obtain rfl := Except.ok.inj (hrows.symm.trans hrows')
    exact hdisplays
  · rw [hrows] at hfault
    cases hfault

/-- In every editor that can come about, at least one row is to be seen. The rows are told just if
the first of them and their number add up to a size, and then they start at the top row, or at the
last row of the text if that comes before, they are rows of the text, and there are as many as are
asked for, or as the text has from there on. So they are told as long as their number and that of
the rows of the text add up to a size or to the number after the largest. To scroll or to resize
does nothing if top row and number of rows are what they were, and tells else of the rows that are
seen from then on. Where the sum is no size, there is a fault instead. -/
theorem viewport_inside_text (h : e.Reachable) :
    1 ≤ e.visibleRows ∧
    ((∃ rows, e.viewport = .ok rows) ↔ e.firstRow + e.visibleRows ≤ Size.largest) ∧
    (∀ rows, e.viewport = .ok rows → e.Displays rows) ∧
    (∀ fault, e.viewport = .error fault →
      fault = .overflow ∧ Size.largest < e.firstRow + e.visibleRows) ∧
    (e.visibleRows + e.text.lineCount ≤ Size.largest + 1 → ∃ rows, e.viewport = .ok rows) ∧
    (∀ row, e.Turn (min row (e.text.lineCount - 1)) e.visibleRows (e.scrollTo row)) ∧
    ∀ rows, e.Turn e.topRow (max rows 1) (e.resize rows) := by
  have hpos := h.visibleRows_pos
  refine ⟨hpos, ?_, ?_, ?_, ?_, ?_, ?_⟩
  · exact exists_viewport_iff
  · intro rows hrows
    exact h.displays hrows
  · intro fault hfault
    rcases viewport_cases hpos with ⟨-, rows, hrows, -⟩ | ⟨hlarge, hfault'⟩
    · rw [hfault] at hrows
      cases hrows
    · exact ⟨Except.error.inj (hfault.symm.trans hfault'), hlarge⟩
  · intro hsum
    -- the first row is one of the text, so it is below the number of rows
    have hfirst := e.firstRow_lt
    refine exists_viewport_iff.mpr ?_
    show e.firstRow + e.visibleRows ≤ Size.largest
    omega
  · exact turn_scrollTo hpos
  · exact turn_resize e

/-- The last row of a text of three rows is scrolled to and the text is cut short, so that the row
that is seen first is another than the top row; then more rows are asked for than there are. -/
theorem viewport_inside_text_of_cut :
    let cs : List Command := [.scrollTo 9, .setText ['a', '\n', 'é'], .drain]
    ∃ answers e e', (ofText ['a', '\n', '\n', 'b'] 2).runAll cs = .ok (answers, e) ∧ e.Reachable ∧
      e.topRow = 2 ∧ e.viewport = .ok ⟨1, 1⟩ ∧ e.Displays ⟨1, 1⟩ ∧
      e.resize 7 = .ok e' ∧ e'.events = [.viewport ⟨1, 1⟩] ∧ e.Turn 2 7 (.ok e') := by
  intro cs
  obtain ⟨⟨answers, e⟩, hrun, htest⟩ := Checked.exists_ok
    ((ofText ['a', '\n', '\n', 'b'] 2).runAll cs)
    (fun r => r.2.topRow = 2 ∧
      (r.2.viewport.map fun rows => decide (rows = ⟨1, 1⟩)).toOption = some true ∧
      ((r.2.resize 7).map fun e' => decide (e'.events = [.viewport ⟨1, 1⟩])).toOption = some true)
    (by decide +kernel)
  -- the top row is past the cut text, of which the last row is shown
  obtain ⟨htop, hviewport, hresize⟩ := of_decide_eq_true htest
  obtain ⟨rows, hrows, hsame⟩ := Checked.exists_ok _ _ hviewport
  obtain rfl := of_decide_eq_true hsame
  obtain ⟨e', he', hevents⟩ := Checked.exists_ok _ _ hresize
  have he : e.Reachable := (reachable_ofText _ 2).calls (calls_runAll cs _ hrun).1
  obtain ⟨-, -, hdisplays, -, -, -, hturn⟩ := viewport_inside_text he
  have hmoved := hturn 7
  rw [htop, he'] at hmoved
  exact ⟨answers, e, e', hrun, he, htop, hrows, hdisplays _ hrows, he', of_decide_eq_true hevents,
    hmoved⟩

/-- The largest number of rows is to be seen of a text of two. From the first of them on, the rows
can be told, but the second can not be scrolled to. An editor that shows fewer rows can have that
row as its top row, and while its text is too short for it, there is room for the largest number of
rows; when the text has the row again, the rows can not be told. -/
theorem viewport_faults_past_sizes :
    let t : Text := ['a', '\n', 'b']
    (ofText t Size.largest).viewport = .ok ⟨0, 1⟩ ∧
    (ofText t Size.largest).scrollTo 1 = .error .overflow ∧
    ∃ answers e, (ofText t 2).runAll
        [.scrollTo 1, .setText ['a'], .resize Size.largest, .setText t] = .ok (answers, e) ∧
      e.Reachable ∧ e.viewport = .error .overflow := by
  intro t
  obtain ⟨⟨answers, e⟩, hrun, htest⟩ := Checked.exists_ok
    ((ofText t 2).runAll [.scrollTo 1, .setText ['a'], .resize Size.largest, .setText t])
    (fun r => r.2.topRow = 1 ∧ r.2.text.lineCount = 2 ∧ r.2.visibleRows = Size.largest)
    (by decide +kernel)
  -- the text has the top row again, and from there on the rows do not fit
  obtain ⟨htop, hlines, hvisible⟩ :
      e.topRow = 1 ∧ e.text.lineCount = 2 ∧ e.visibleRows = Size.largest := of_decide_eq_true htest
  have he : e.Reachable := (reachable_ofText t 2).calls (calls_runAll _ _ hrun).1
  obtain ⟨rows, hrows, hsame⟩ := Checked.exists_ok (ofText t Size.largest).viewport
    (fun rows => rows = ⟨0, 1⟩) (by decide +kernel)
  obtain rfl := of_decide_eq_true hsame
  refine ⟨hrows, ?_, answers, e, hrun, he, ?_⟩
  · have hturn := turn_scrollTo (e := ofText t Size.largest) (Nat.le_max_right _ _) 1
    generalize (ofText t Size.largest).scrollTo 1 = scrolled at hturn
    cases hturn with
    | same htop => exact absurd htop (by decide)
    | moved _ heq hshown _ =>
        subst heq
        have hfit : min 1 (t.lineCount - 1) + max Size.largest 1 ≤ Size.largest :=
          exists_viewport_iff.mp ⟨_, hshown⟩
        exact absurd hfit (by decide)
    | fault => rfl
  · rcases viewport_cases he.visibleRows_pos with ⟨hfit, -⟩ | ⟨-, hfault⟩
    · have hfirst : e.firstRow = 1 := by
        unfold firstRow
        rw [htop, hlines]
        rfl
      omega
    · exact hfault

end Editor

end Lumen
