import Lumen.Proofs.Pump.Follow

/-!
# Overlays of sessions at rest

Marks lag behind the text while events have not been taken or the overlay has not been renewed, and
then they are moved by edits and may be those of other rows. But whatever makes them lag also sees
to it that they are renewed. The main statement is `overlay_fresh_at_rest`: once the overlay has
been renewed in a run, it is as if it had just been laid whenever no event waits and no renewal is
to come.

* `Fresh` — the marks look like those of an overlay that is laid now;
* `Current` — a renewal is to come, or an event waits, or the marks are fresh. This holds from the
  first renewal on (`Current.run`).
-/

namespace Lumen

variable {τ σ : Type}

namespace Editor

/-- The rows that can be seen are settled by the text and by which rows the editor shows. -/
theorem viewport_congr {e e' : Editor} (htext : e'.text = e.text) (htop : e'.topRow = e.topRow)
    (hvisible : e'.visibleRows = e.visibleRows) : e'.viewport = e.viewport := by
  rw [viewport, viewport, htext, htop, hvisible]

end Editor

namespace Session

/-- Whether a command can come after a start if nothing but ticks is to make marks and remove
them, and no renewal is to be given up. -/
def Command.marksByTicks : Command → Bool
  | .edit c => c.every Editor.Command.leavesMarks
  | .pump _ | .handleViewport _ | .tick _ | .persist => true
  | _ => false

theorem Command.routine_of_marksByTicks {c : Command} (h : c.marksByTicks = true) :
    c.routine = true := by
  cases c with
  | edit c => exact Editor.Command.every_mono Editor.Command.leavesEvents_of_leavesMarks c h
  | start | handleChanges => exact absurd h (by simp [marksByTicks])
  | _ => rfl

/-- Whether an answer is that of a tick that has renewed the overlay. -/
def Answer.lit : Answer → Bool
  | .renewed renewal => renewal.highlighted.isSome
  | _ => false

/-- The marks look like those of an overlay that is laid now for the tree of the text. -/
def Fresh (s : Session τ σ) (r : Reader τ) : Prop :=
  ∃ tree rows, r.parse? (s.editor.text ++ ['\n']) none = some tree ∧
    s.editor.viewport = .ok rows ∧
    s.editor.marks.map Mark.look =
      (Highlight.laid s.pump.palette s.editor.text 0
        (Highlight.firstOfNodes (r.captures tree (s.editor.text ++ ['\n']) rows))).map Mark.look

/-- If the marks are not fresh, they are going to be renewed. -/
def Current (s : Session τ σ) (r : Reader τ) : Prop :=
  s.pump.highlight.pending = true ∨ s.editor.events ≠ [] ∨ s.Fresh r

variable {s s' : Session τ σ} {r : Reader τ} {t : Text} {ds : List Editor.Command}
  {handled waiting : List (List Splice)}

theorem Fresh.congr (h : s.Fresh r) (hpalette : s'.pump.palette = s.pump.palette)
    (htext : s'.editor.text = s.editor.text) (hviewport : s'.editor.viewport = s.editor.viewport)
    (hmarks : s'.editor.marks = s.editor.marks) : s'.Fresh r := by
  obtain ⟨tree, rows, htree, hrows, hlook⟩ := h
  rw [Fresh, hpalette, htext, hviewport, hmarks]
  exact ⟨tree, rows, htree, hrows, hlook⟩

/-- An overlay that is laid when no event waits is laid for the tree of the editor's text. -/
theorem Following.fresh (h : s.Following r t ds handled waiting) (htotal : r.Total)
    (hdrained : s.editor.events = []) {count : Nat} {e : Editor}
    (hlay : s.pump.overlay s.editor none = .ok (count, e)) : { s with editor := e }.Fresh r := by
  -- nothing waits, so all that has been told has been handled
  have hnone : waiting = [] := by
    have hevents := h.events
    rw [hdrained] at hevents
    exact List.map_eq_nil_iff.mp hevents.symm
  have hall : Splice.outcome t handled.flatten = s.editor.text := by
    rw [h.text, h.flatten_eq, hnone, List.flatten_nil, List.append_nil]
  have hreads := h.reads
  rw [hall] at hreads
  obtain ⟨tree, htree⟩ := htotal (s.editor.text ++ ['\n']) none
  have hcaptures : s.pump.captures? = some (r.captures tree (s.editor.text ++ ['\n'])) := by
    rw [Pump.captures?, hreads.tree, hreads.parsed, hreads.reader, htree]
    rfl
  obtain ⟨kept, hkept, -, rfl⟩ := Highlight.overlay_eq h.atRest hlay
  cases hkept with
  | none habsent => exact absurd (habsent.symm.trans hcaptures) (by simp)
  | rows _ hrows => cases hrows
  | @viewport captures rows hpresent _ hrows =>
      obtain rfl := Option.some.inj (hpresent.symm.trans hcaptures)
      exact ⟨tree, rows, htree, hrows, Highlight.map_look_laid _ _ _ _ _⟩

variable [Storage σ]

namespace Current

/-- An edit tells of itself, or it has changed neither the text nor the rows that can be seen nor
the marks. -/
theorem edit (h : s.Current r) (hrest : s.editor.AtRest) {c : Editor.Command}
    (hc : c.every Editor.Command.leavesMarks = true) {answer : Answer}
    (hrun : s.run (.edit c) = .ok (answer, s')) : s'.Current r := by
  obtain ⟨said, e, hedit, -, rfl⟩ := run_edit_eq hrun
  have hleaves := Editor.Command.every_mono Editor.Command.leavesEvents_of_leavesMarks c hc
  have hout := Editor.run_outside hleaves hrest hedit
  obtain ⟨moves, hmoves⟩ := hout.events
  by_cases hwaits : e.events = []
  · rw [hmoves] at hwaits
    obtain ⟨hdrained, htold⟩ := List.append_eq_nil_iff.mp hwaits
    -- without an event there were no changes
    have hnone : c.splices s.editor.text = [] := by
      have hquiet := (List.append_eq_nil_iff.mp htold).2
      rw [Editor.told] at hquiet
      by_cases hsplices : c.splices s.editor.text = []
      · exact hsplices
      · rw [if_neg hsplices] at hquiet
        cases hquiet
    have htext : e.text = s.editor.text := by
      rw [hout.text, hnone]
      rfl
    have hsame : e.events = s.editor.events := by rw [hmoves, htold, List.append_nil]
    obtain ⟨htop, hvisible⟩ := hout.rows hsame
    have hmarks := Editor.run_marks c s.editor hc hnone hedit
    rcases h with hpending | hwaits' | hfresh
    · exact .inl hpending
    · exact absurd hdrained hwaits'
    · exact .inr (.inr (hfresh.congr rfl htext (Editor.viewport_congr htext htop hvisible) hmarks))
  · exact .inr (.inl hwaits)

/-- Any event that is taken puts off the renewal of the overlay. -/
theorem pump (h : s.Current r) (htotal : s.pump.reader.Total) {now : Nat} {answer : Answer}
    (hrun : s.run (.pump now) = .ok (answer, s')) : s'.Current r := by
  obtain ⟨p, e, failure, hpump, -, rfl⟩ := run_pump_eq hrun
  obtain ⟨rfl, rfl, hput⟩ := Pump.pumpEvents_total htotal hpump
  have hhighlight := hput.highlight
  by_cases hdrained : s.editor.events = []
  · rw [if_pos hdrained] at hhighlight
    rcases h with hpending | hwaits | hfresh
    · exact .inl ((congrArg Debouncer.pending hhighlight).trans hpending)
    · exact absurd hdrained hwaits
    · exact .inr (.inr (hfresh.congr hput.palette rfl rfl rfl))
  · rw [if_neg hdrained] at hhighlight
    exact .inl (congrArg Debouncer.pending hhighlight)

/-- Once a tick has renewed the overlay, the marks are fresh or an event waits. -/
theorem tick (hfollowing : s.Following r t ds handled waiting) (htotal : r.Total) {now : Nat}
    {renewal : Renewal} (htick : s.tick now = .ok (renewal, s'))
    (h : s.Current r ∨ renewal.highlighted.isSome = true) : s'.Current r := by
  obtain ⟨s₁, hoverlay, hcopy⟩ := tick_eq htick
  have hcurrent : s₁.Current r := by
    rcases renewOverlay_cases hoverlay with ⟨-, hnone, rfl⟩ | ⟨-, count, e, hlay, -, rfl⟩
    · rcases h with h | hlit
      · exact h
      · rw [hnone] at hlit
        cases hlit
    · by_cases hdrained : s.editor.events = []
      · exact .inr (.inr ((hfollowing.fresh htotal hdrained hlay).congr rfl rfl rfl rfl))
      · -- the tree may be that of an earlier text, but then the events that lead on still wait
        obtain ⟨kept, -, -, rfl⟩ := Highlight.overlay_eq hfollowing.atRest hlay
        exact .inr (.inl hdrained)
  -- writing the copy changes nothing that the marks depend on
  rcases renewCopy_cases s₁ now with ⟨-, hcopy'⟩ | ⟨-, hcopy'⟩
  all_goals
    rw [hcopy'] at hcopy
    obtain ⟨-, rfl⟩ := Prod.mk.inj hcopy
    rcases hcurrent with hpending | hwaits | hfresh
    · exact .inl hpending
    · exact .inr (.inl hwaits)
    · exact .inr (.inr (hfresh.congr rfl rfl rfl rfl))

/-- Nothing but a tick has an answer that tells of a renewal. -/
theorem tick_of_lit {c : Command} {answer : Answer} (hrun : s.run c = .ok (answer, s'))
    (hlit : answer.lit = true) : ∃ now, c = .tick now := by
  cases c with
  | edit c =>
      obtain ⟨said, e, -, rfl, -⟩ := run_edit_eq hrun
      cases hlit
  | overlay rows =>
      obtain ⟨count, e, -, rfl, -⟩ := run_overlay_eq hrun
      cases hlit
  | start | handleChanges | pump =>
      obtain ⟨⟨p, e, failure⟩, -, hpair⟩ := Checked.bind_eq_ok.mp hrun
      cases Checked.pure_eq_ok.mp hpair
      cases failure with
      | none => cases hlit
      | some failure => cases hlit
  | handleViewport | cancel | persist =>
      cases Checked.pure_eq_ok.mp hrun
      cases hlit
  | tick now => exact ⟨now, rfl⟩

/-- What is current stays so in any step, and a step that renews the overlay makes it so. -/
theorem step (hfollowing : s.Following r t ds handled waiting) (htotal : r.Total) {c : Command}
    (hc : c.marksByTicks = true) {answer : Answer} (hrun : s.run c = .ok (answer, s'))
    (h : s.Current r ∨ answer.lit = true) : s'.Current r := by
  -- only a tick can lay the first overlay, so any other step needs one from before
  have hcurrent : (∀ now, c ≠ .tick now) → s.Current r := by
    intro hne
    rcases h with h | hlit
    · exact h
    · obtain ⟨now, rfl⟩ := tick_of_lit hrun hlit
      exact absurd rfl (hne now)
  cases c with
  | edit c => exact (hcurrent (by simp)).edit hfollowing.atRest hc hrun
  | pump now => exact (hcurrent (by simp)).pump (hfollowing.reads.reader ▸ htotal) hrun
  | handleViewport now =>
      obtain ⟨-, rfl⟩ := Prod.mk.inj (Checked.pure_eq_ok.mp hrun)
      exact .inl rfl
  | persist =>
      obtain ⟨-, rfl⟩ := Prod.mk.inj (Checked.pure_eq_ok.mp hrun)
      exact hcurrent (by simp)
  | tick now =>
      obtain ⟨renewal, htick, rfl⟩ := run_tick_eq hrun
      exact tick hfollowing htotal htick h
  | _ => exact absurd hc (by simp [Command.marksByTicks])

/-- From the first renewal of the overlay on, all states of a run are current. -/
theorem run (hfollowing : s.Following r t ds handled waiting) (htotal : r.Total)
    (hincremental : r.Incremental) {cs : List Command} (hcs : ∀ c ∈ cs, c.marksByTicks = true)
    {answers : List Answer} (hrun : s.runAll cs = .ok (answers, s'))
    (h : s.Current r ∨ answers.any Answer.lit = true) : s'.Current r := by
  induction cs generalizing s ds handled waiting answers with
  | nil =>
      obtain ⟨rfl, rfl⟩ := Prod.mk.inj (Checked.pure_eq_ok.mp hrun)
      -- the first overlay is laid by the first command or by one of the others
      rcases h with h | hlit
      · exact h
      · cases hlit
  | cons c cs ih =>
      obtain ⟨answer, answers₁, s₁, hfirst, hall, rfl⟩ := runAll_cons_eq hrun
      have hc := hcs c List.mem_cons_self
      obtain ⟨handled₁, waiting₁, hfollowing₁, -, -⟩ :=
        hfollowing.step htotal hincremental (Command.routine_of_marksByTicks hc) hfirst
      refine ih hfollowing₁ (fun d hd => hcs d (List.mem_cons_of_mem c hd)) hall ?_
      rcases h with h | hlit
      · exact .inl (step hfollowing htotal hc hfirst (.inl h))
      · rw [List.any_cons, Bool.or_eq_true] at hlit
        rcases hlit with hlit | hlit
        · exact .inl (step hfollowing htotal hc hfirst (.inr hlit))
        · exact .inr hlit

end Current

variable {s₀ : Session τ σ}

/-- Once a tick has renewed the overlay in a run from a start, then whenever no event waits and no
renewal of the overlay is to come, the marks look like those of an overlay that is laid, in any
editor in which the same rows of the same text can be seen, for the tree that this text has when it
is parsed from nothing. -/
theorem overlay_fresh_at_rest (h : s₀.Unstarted r) (htotal : r.Total)
    (hincremental : r.Incremental) {start : Nat} {cs : List Command}
    (hcs : ∀ c ∈ cs, c.marksByTicks = true) {answers : List Answer}
    (hrun : s₀.runAll (.start start :: cs) = .ok (answers, s))
    (hlit : answers.any Answer.lit = true) (hdrained : s.editor.events = [])
    (hidle : s.pump.highlight.pending = false) :
    ∃ tree, r.parse? (s.editor.text ++ ['\n']) none = some tree ∧
      ∀ e : Editor, e.AtRest → e.text = s.editor.text → e.viewport = s.editor.viewport →
        ∃ count e', Highlight.overlay e (some (r.captures tree (s.editor.text ++ ['\n'])))
            s.pump.palette none = .ok (count, e') ∧
          s.editor.marks.map Mark.look = e'.marks.map Mark.look := by
  obtain ⟨answer, answers₁, s₁, hfirst, hall, rfl⟩ := runAll_cons_eq hrun
  obtain ⟨rfl, hfollowing, -⟩ := h.start htotal hfirst
  have hcurrent := Current.run hfollowing htotal hincremental hcs hall (.inr hlit)
  rcases hcurrent with hpending | hwaits | hfresh
  · rw [hidle] at hpending
    cases hpending
  · exact absurd hdrained hwaits
  -- both overlays lay the same captures on the same text, so their marks look the same
  · obtain ⟨tree, rows, htree, hrows, hlook⟩ := hfresh
    refine ⟨tree, htree, ?_⟩
    intro e hrest htext hviewport
    have hrows' : e.viewport = .ok rows := hviewport.trans hrows
    obtain ⟨count, e', hlay⟩ := Highlight.exists_overlay hrows'
      (r.captures tree (s.editor.text ++ ['\n'])) s.pump.palette
    refine ⟨count, e', hlay, ?_⟩
    obtain ⟨kept, hkept, -, rfl⟩ := Highlight.overlay_eq hrest hlay
    cases hkept with
    | none habsent => cases habsent
    | rows _ hrows₂ => cases hrows₂
    | @viewport captures rows₂ hpresent _ hrows₂ =>
        obtain rfl := Option.some.inj hpresent
        obtain rfl := Except.ok.inj (hrows'.symm.trans hrows₂)
        rw [hlook, htext]
        exact Highlight.map_look_laid _ _ _ _ _

/-- A run in which the overlay is renewed while an edit and a scroll wait, and once more after these
have been taken. -/
theorem overlay_fresh_of_comments :
    let s₀ : Session CommentTree MemoryStore :=
      ⟨.create .comments .default 150 400, .ofText "// é\n// b\n// c".toList 2, {}⟩
    let cs : List Command :=
      [.edit (.insert ⟨0, 3⟩ ['x']), .tick 160, .pump 170,
        .edit (.operation [.delete ⟨0, 6⟩ ⟨1, 4⟩, .insert ⟨0, 4⟩ ['\n', '/', '/']]),
        .edit (.scrollTo 1), .tick 320, .pump 330, .tick 400, .tick 480]
    s₀.Unstarted .comments ∧ Reader.comments.Total ∧ Reader.comments.Incremental ∧
      (∀ c ∈ cs, c.marksByTicks = true) ∧
      ∃ answers s, s₀.runAll (.start 0 :: cs) = .ok (answers, s) ∧
        answers.any Answer.lit = true ∧ s.editor.events = [] ∧
        s.pump.highlight.pending = false ∧ s.editor.marks.length = 2 ∧
        ∃ tree, Reader.comments.parse? (s.editor.text ++ ['\n']) none = some tree ∧
          ∀ e : Editor, e.AtRest → e.text = s.editor.text → e.viewport = s.editor.viewport →
            ∃ count e',
              Highlight.overlay e
                  (some (Reader.comments.captures tree (s.editor.text ++ ['\n'])))
                  s.pump.palette none = .ok (count, e') ∧
                s.editor.marks.map Mark.look = e'.marks.map Mark.look := by
  intro s₀ cs
  have hunstarted : s₀.Unstarted .comments := ⟨⟨_, _, _, rfl⟩, ⟨rfl, rfl⟩, rfl⟩
  have hcs : ∀ c ∈ cs, c.marksByTicks = true := by decide
  obtain ⟨⟨answers, s⟩, hrun, htest⟩ := Checked.exists_ok (s₀.runAll (.start 0 :: cs))
    (fun (answers, s) => answers.any Answer.lit ∧ s.editor.events = [] ∧
      s.pump.highlight.pending = false ∧ s.editor.marks.length = 2) (by decide +kernel)
  obtain ⟨hlit, hdrained, hidle, hcount⟩ := of_decide_eq_true htest
  exact ⟨hunstarted, Reader.total_comments, Reader.incremental_comments, hcs, answers, s, hrun,
    hlit, hdrained, hidle, hcount, overlay_fresh_at_rest hunstarted Reader.total_comments
      Reader.incremental_comments hcs hrun hlit hdrained hidle⟩

end Session

end Lumen
