import Lumen.Proofs.Editor.Append
import Lumen.Proofs.Editor.Screen
import Lumen.Proofs.Pump.Deadline
import Lumen.Proofs.Pump.Freshness
import Lumen.Proofs.Store.Laws

/-!
# A session from start to end

While lines are fed to a session, at whatever times, the pump has parsed all that the editor holds,
and whatever is behind the text is going to be renewed: the overlay is fresh or due later, and the
stored copy is the text or due later (`Fed`). Each line keeps this up (`Fed.feed`), and so does each
tick (`Fed.tick`). In the end everything that is due later is done (`Fed.settle`), so what is shown
and what is stored last depend on the lines alone (`play_eq`). Only what is shown needs trees that
are the same whether they are made from earlier ones or from nothing.
-/

namespace Lumen

variable {τ σ : Type}

/-! ## What is shown -/

namespace Editor

/-- What is shown of an editor is settled by its text, the rows that can be seen and what can be
seen of its marks. -/
theorem render_congr {e e' : Editor} (htext : e'.text = e.text)
    (hviewport : e'.viewport = e.viewport)
    (hmarks : e'.marks.map Mark.look = e.marks.map Mark.look) : e'.render = e.render := by
  have hspans : ∀ e : Editor, e.coloredSpans = (e.marks.map Mark.look).filterMap
      fun (start, stop, style) => style.color?.map fun c => (start, stop, c) := by
    intro e
    rw [coloredSpans, List.filterMap_map]
    rfl
  rw [render, render, hviewport, hspans e', hspans e, hmarks, htext]

end Editor

namespace Terminal

open Session

/-- A session that has been started with a text and fed some lines, with all its events taken. -/
structure Fed [Storage σ] (s : Session τ σ) (r : Reader τ) (palette : Highlight.Palette)
    (rows : Nat) (store : σ) (t : Text) (lines : List Text) : Prop where
  reader : s.pump.reader = r
  palette_eq : s.pump.palette = palette
  source : s.pump.source = s.editor.text
  text : s.editor.text = t ++ rowsText lines
  reachable : s.editor.Reachable
  atRest : s.editor.AtRest
  drained : s.editor.events = []
  topRow : s.editor.topRow = 0
  visibleRows : s.editor.visibleRows = rows
  /-- The store has been changed by writes of texts alone, and the last of them was the text, unless
  one more is to come. -/
  stored : ∃ texts, s.store = Storage.afterTexts store texts ∧
    (s.pump.persist.pending = true ∨ texts.getLast? = some s.editor.text)
  /-- If trees made from earlier ones are those made from nothing, the tree is that of the text, and
  the overlay is fresh unless it is to be renewed. -/
  current : r.Incremental →
    (∃ handled, s.Following r t (Editor.Command.appends lines) handled []) ∧ s.Current r

variable [Storage σ] {s : Session τ σ} {r : Reader τ} {palette : Highlight.Palette} {rows : Nat}
  {store : σ} {t : Text} {lines : List Text}

namespace Fed

/-- From the top, a number of rows that is a size can be seen. -/
theorem rowsFit (h : Fed s r palette rows store t lines) (hrows : rows ≤ Size.largest) :
    s.editor.RowsFit := by
  rw [Editor.RowsFit, h.topRow, h.visibleRows]
  omega

/-- A tick meets no fault. -/
theorem exists_tick (h : Fed s r palette rows store t lines) (hrows : rows ≤ Size.largest)
    (now : Nat) : ∃ renewal s', s.tick now = .ok (renewal, s') :=
  exists_tick_iff.mpr fun _ _ => h.rowsFit hrows

/-- A tick keeps up what holds, and what was due is not due any more. -/
theorem tick (h : Fed s r palette rows store t lines) (htotal : r.Total) {now : Nat}
    {renewal : Renewal} {s' : Session τ σ} (htick : s.tick now = .ok (renewal, s')) :
    Fed s' r palette rows store t lines ∧
      s'.pump.highlight = (s.pump.highlight.poll now).2 ∧
      s'.pump.persist = (s.pump.persist.poll now).2 := by
  have hquiet := tick_quiet h.atRest htick
  have hcurrent : r.Incremental →
      (∃ handled, s'.Following r t (Editor.Command.appends lines) handled []) ∧ s'.Current r := by
    intro hincremental
    obtain ⟨⟨handled, hfollowing⟩, hcurrent⟩ := h.current hincremental
    exact ⟨⟨handled, (hfollowing.quiet hquiet).1⟩,
      Current.tick hfollowing htotal htick (.inl hcurrent)⟩
  obtain ⟨⟨highlight, persist, hpump⟩, marks, next, operations, heditor⟩ := hquiet
  have htext : s'.editor.text = s.editor.text := by rw [heditor]
  obtain ⟨s₁, hoverlay, hcopy⟩ := tick_eq htick
  -- the overlay comes first, and nothing of it is read by what comes second
  have hfirst : s₁.pump.highlight = (s.pump.highlight.poll now).2 ∧
      s₁.pump.persist = s.pump.persist ∧ s₁.store = s.store ∧
      s₁.editor.text = s.editor.text ∧ s₁.editor.Reachable := by
    rcases renewOverlay_cases hoverlay with ⟨hdue, -, rfl⟩ | ⟨hdue, count, e, hlay, -, rfl⟩
    · rw [Debouncer.poll_of_not_due hdue]
      exact ⟨rfl, rfl, rfl, rfl, h.reachable⟩
    · rw [Debouncer.poll_of_due hdue]
      have hreachable : e.Reachable := h.reachable.calls (Editor.calls_overlay hlay)
      obtain ⟨_, _, _, rfl⟩ := overlay_quiet h.atRest hlay
      exact ⟨rfl, rfl, rfl, rfl, hreachable⟩
  obtain ⟨hhighlight, hpersist, hstore, htext₁, hreachable⟩ := hfirst
  have hcopied : s'.pump.highlight = s₁.pump.highlight ∧ s'.editor = s₁.editor ∧
      s'.pump.persist = (s.pump.persist.poll now).2 ∧
      ∃ texts, s'.store = Storage.afterTexts store texts ∧
        (s'.pump.persist.pending = true ∨ texts.getLast? = some s'.editor.text) := by
    rw [htext]
    obtain ⟨texts, htexts, hlast⟩ := h.stored
    rcases renewCopy_cases s₁ now with ⟨hdue, hcopy'⟩ | ⟨hdue, hcopy'⟩
    · rw [hcopy'] at hcopy
      obtain ⟨-, rfl⟩ := Prod.mk.inj hcopy
      rw [hpersist] at hdue
      rw [Debouncer.poll_of_not_due hdue, hpersist, hstore]
      exact ⟨rfl, rfl, rfl, texts, htexts, hlast⟩
    · rw [hcopy'] at hcopy
      obtain ⟨-, rfl⟩ := Prod.mk.inj hcopy
      rw [hpersist] at hdue
      rw [Debouncer.poll_of_due hdue]
      refine ⟨rfl, rfl, congrArg Debouncer.cancel hpersist, texts ++ [s.editor.text], ?_, .inr ?_⟩
      · simp only [hstore, htexts, htext₁, Storage.afterTexts, List.foldl_append, List.foldl_cons,
          List.foldl_nil]
      · simp
  obtain ⟨hhighlight', heditor', hpersist', hstored⟩ := hcopied
  refine ⟨?_, hhighlight'.trans hhighlight, hpersist'⟩
  exact {
    reader := (congrArg Pump.reader hpump).trans h.reader
    palette_eq := (congrArg Pump.palette hpump).trans h.palette_eq
    source := by rw [hpump, htext]; exact h.source
    text := htext.trans h.text
    reachable := heditor' ▸ hreachable
    atRest := by rw [heditor]; exact ⟨h.atRest.depth, h.atRest.pending⟩
    drained := (congrArg Editor.events heditor).trans h.drained
    topRow := (congrArg Editor.topRow heditor).trans h.topRow
    visibleRows := (congrArg Editor.visibleRows heditor).trans h.visibleRows
    stored := hstored
    current := hcurrent }

/-- A line that is added is parsed and puts off what is due later, whenever it is pumped. -/
theorem pump (h : Fed s r palette rows store t lines) (htotal : r.Total) {line : Text}
    (hfits : (t ++ rowsText (lines ++ [line])).Fits) (now : Nat) :
    ∃ p e, s.pump.pumpEvents (s.editor.append (line ++ ['\n'])) now = .ok (p, e, none) ∧
      Fed ⟨p, e, s.store⟩ r palette rows store t (lines ++ [line]) := by
  -- the line is added to the text
  obtain ⟨hadded, hrest, htold⟩ := Editor.append_line h.atRest line
  have hbatches : Event.batches (s.editor.append (line ++ ['\n'])).events =
      [[⟨s.editor.text, [], [], line ++ ['\n']⟩]].map (·.map Splice.change) := by
    rw [htold, h.drained]
    rfl
  have htext : (s.editor.append (line ++ ['\n'])).text = t ++ rowsText (lines ++ [line]) := by
    rw [hadded, h.text, rowsText_append, List.append_assoc, rowsText_cons, rowsText_nil,
      List.append_nil]
  -- its change waits, and is taken by the pump
  have hchain : Splice.Chain s.pump.source [⟨s.editor.text, [], [], line ++ ['\n']⟩] :=
    ⟨(List.append_nil _).trans ((List.append_nil _).trans h.source.symm), trivial⟩
  have hafter : (Splice.mk s.editor.text [] [] (line ++ ['\n'])).after =
      (s.editor.append (line ++ ['\n'])).text := by
    rw [hadded]
    simp [Splice.after]
  have hfits' : ∀ u ∈ [Splice.mk s.editor.text [] [] (line ++ ['\n'])], u.after.Fits := by
    intro u hu
    obtain rfl := List.mem_singleton.mp hu
    rw [hafter, htext]
    exact hfits
  obtain ⟨p, hpump, hsource⟩ :=
    Pump.exists_pumpEvents (h.reader.symm ▸ htotal) hbatches hchain hfits' hafter now
  obtain ⟨-, -, hput⟩ := Pump.pumpEvents_total (h.reader.symm ▸ htotal) hpump
  obtain ⟨hhighlight, hpersist⟩ := hput.pending (hbatches ▸ List.cons_ne_nil _ _)
  obtain ⟨htop, hvisible⟩ := Editor.rows_replace s.editor _ _ (line ++ ['\n'])
  obtain ⟨texts, htexts, -⟩ := h.stored
  exact ⟨p, _, hpump, {
    reader := hput.reader.trans h.reader
    palette_eq := hput.palette.trans h.palette_eq
    source := hsource
    text := htext
    reachable := h.reachable.calls (.tail (.single (.replace s.editor _ _ _)) (.drain _))
    atRest := ⟨hrest.depth, hrest.pending⟩
    drained := rfl
    topRow := htop.trans h.topRow
    visibleRows := hvisible.trans h.visibleRows
    stored := ⟨texts, htexts, .inl hpersist⟩
    current := by
      intro hincremental
      obtain ⟨⟨handled, hfollowing⟩, -⟩ := h.current hincremental
      have hedit : s.run (.edit (.append (line ++ ['\n']))) =
          .ok (.edited .done, ⟨s.pump, s.editor.append (line ++ ['\n']), s.store⟩) := rfl
      obtain ⟨hedited, -⟩ := hfollowing.edit rfl hedit
      have hrun : Session.run ⟨s.pump, s.editor.append (line ++ ['\n']), s.store⟩ (.pump now) =
          .ok (.done, ⟨p, { s.editor.append (line ++ ['\n']) with events := [] }, s.store⟩) := by
        rw [Session.run, hpump]
        rfl
      obtain ⟨-, -, hpumped, -⟩ := hedited.pump htotal hincremental hrun
      rw [← Editor.Command.appends_append] at hpumped
      exact ⟨⟨_, hpumped⟩, .inl hhighlight⟩ }⟩

/-- A line that is fed is pumped, and then a tick follows. -/
theorem feed (h : Fed s r palette rows store t lines) (htotal : r.Total)
    (hrows : rows ≤ Size.largest) {line : Text}
    (hfits : (t ++ rowsText (lines ++ [line])).Fits) (now : Nat) :
    ∃ s', Terminal.feed s line now = .ok (s', none) ∧
      Fed s' r palette rows store t (lines ++ [line]) := by
  obtain ⟨p, e, hpump, hfed⟩ := h.pump htotal hfits now
  obtain ⟨renewal, s', htick⟩ := hfed.exists_tick hrows now
  refine ⟨s', ?_, (hfed.tick htotal htick).1⟩
  rw [Terminal.feed, hpump, Checked.ok_bind]
  simp only
  rw [htick]
  rfl

/-- Lines are fed one after the other. -/
theorem feedAll (h : Fed s r palette rows store t lines) (htotal : r.Total)
    (hrows : rows ≤ Size.largest) {more : List Text}
    (hfits : (t ++ rowsText (lines ++ more)).Fits) (clock : Nat → Nat) (i : Nat) :
    ∃ s', Terminal.feedAll clock i s (more.map some) = (s', none) ∧
      Fed s' r palette rows store t (lines ++ more) := by
  induction more generalizing s lines i with
  | nil => exact ⟨s, rfl, (List.append_nil lines).symm ▸ h⟩
  | cons line more ih =>
      have hsplit : lines ++ line :: more = (lines ++ [line]) ++ more := by simp
      rw [hsplit] at hfits ⊢
      have hfirst : (t ++ rowsText (lines ++ [line])).Fits := by
        rw [rowsText_append, Text.Fits, Text.byteLength_append, Text.byteLength_append] at hfits
        rw [Text.Fits, Text.byteLength_append]
        omega
      obtain ⟨s₁, hfeed, hfed⟩ := h.feed htotal hrows hfirst (clock i)
      obtain ⟨s', hall, hfed'⟩ := ih hfed hfits (i + 1)
      refine ⟨s', ?_, hfed'⟩
      rw [List.map_cons, Terminal.feedAll, hfeed]
      exact hall

end Fed

/-! ## The end -/

/-- A session settles in as many ticks as renewals are to come. -/
theorem Fed.settle (h : Fed s r palette rows store t lines) (htotal : r.Total)
    (hrows : rows ≤ Size.largest) {n : Nat} (hn : s.pump.waiting ≤ n) :
    ∃ s', s.settle n = (s', none) ∧ Fed s' r palette rows store t lines ∧
      s'.pump.highlight.pending = false ∧ s'.pump.persist.pending = false := by
  induction n generalizing s with
  | zero =>
      have hnone := Nat.add_eq_zero_iff.mp (Nat.le_zero.mp hn)
      exact ⟨s, rfl, h, Bool.toNat_eq_zero.mp hnone.1, Bool.toNat_eq_zero.mp hnone.2⟩
  | succ n ih =>
      rw [Session.settle]
      cases hnext : s.pump.nextDeadline with
      | none =>
          obtain ⟨hhighlight, hpersist⟩ := Pump.nextDeadline_eq_none hnext
          exact ⟨s, rfl, h, hhighlight, hpersist⟩
      | some now =>
          obtain ⟨renewal, s₁, htick⟩ := h.exists_tick hrows now
          obtain ⟨hfed, hhighlight, hpersist⟩ := h.tick htotal htick
          -- each tick runs a renewal, so the bound goes down with those that wait
          have hless := Pump.waiting_poll_lt hnext
          have hn₁ : s₁.pump.waiting ≤ n := by
            rw [Pump.waiting, hhighlight, hpersist]
            omega
          simp only [htick]
          exact ih hfed hn₁

/-! ## From start to end -/

/-- What is shown of an editor with a text, from its top, when the overlay has been laid for the
tree that the text has when it is parsed from nothing. -/
def Shows (r : Reader τ) (palette : Highlight.Palette) (rows : Nat) (text : Text)
    (shown : List Text) : Prop :=
  ∃ tree count e, r.parse? (text ++ ['\n']) none = some tree ∧
    Highlight.overlay (.ofText text rows) (some (r.captures tree (text ++ ['\n']))) palette none =
      .ok (count, e) ∧
    e.render = .ok shown

/-- A text is shown in one way only. -/
theorem Shows.unique {text : Text} {shown shown' : List Text} (h : Shows r palette rows text shown)
    (h' : Shows r palette rows text shown') : shown' = shown := by
  obtain ⟨tree, count, e, htree, hlay, hshown⟩ := h
  obtain ⟨tree', count', e', htree', hlay', hshown'⟩ := h'
  obtain rfl := Option.some.inj (htree.symm.trans htree')
  obtain ⟨-, rfl⟩ := Prod.mk.inj (Except.ok.inj (hlay.symm.trans hlay'))
  exact Except.ok.inj (hshown'.symm.trans hshown)

/-- Once it is fresh, an overlay shows the text as one that is laid anew. -/
theorem Fed.shows (h : Fed s r palette (max rows 1) store t lines) (hincremental : r.Incremental)
    (hidle : s.pump.highlight.pending = false) {shown : List Text}
    (hrender : s.editor.render = .ok shown) :
    Shows r palette rows (t ++ rowsText lines) shown := by
  have htext := h.text
  have hviewport : s.editor.viewport = (Editor.ofText (t ++ rowsText lines) rows).viewport :=
    Editor.viewport_congr htext h.topRow h.visibleRows
  rcases (h.current hincremental).2 with hpending | hwaits | ⟨tree, seen, htree, hseen, hlook⟩
  · rw [hidle] at hpending
    cases hpending
  · exact absurd h.drained hwaits
  · rw [htext] at htree hlook
    rw [hviewport] at hseen
    -- an editor that holds the whole text is given its overlay, and its rows are the same
    obtain ⟨count, e, hlay⟩ :=
      Highlight.exists_overlay hseen (r.captures tree (t ++ rowsText lines ++ ['\n'])) palette
    refine ⟨tree, count, e, htree, hlay, ?_⟩
    rw [← hrender]
    obtain ⟨kept, hkept, -, rfl⟩ :=
      Highlight.overlay_eq (Editor.atRest_ofText (t ++ rowsText lines) rows) hlay
    cases hkept with
    | none habsent => cases habsent
    | rows _ hasked => cases hasked
    | @viewport captures seen' hpresent _ hseen' =>
        obtain rfl := Option.some.inj hpresent
        obtain rfl := Except.ok.inj (hseen.symm.trans hseen')
        symm
        refine Editor.render_congr htext hviewport ?_
        rw [hlook, h.palette_eq]
        exact Highlight.map_look_laid _ _ _ _ _

/-- A session that is started anew has been fed nothing. -/
theorem exists_start (htotal : r.Total) (palette : Highlight.Palette)
    (highlightDelay persistDelay rows : Nat) (store : σ) (t : Text) (now : Nat) :
    ∃ p, (Pump.create r palette highlightDelay persistDelay).start (.ofText t rows) now =
        .ok (p, .ofText t rows, none) ∧
      Fed ⟨p, .ofText t rows, store⟩ r palette (max rows 1) store t [] := by
  obtain ⟨tree, hstart⟩ := Pump.exists_start
    (p := .create r palette highlightDelay persistDelay) htotal (Editor.ofText t rows) now
  have hunstarted : Session.Unstarted
      ⟨.create r palette highlightDelay persistDelay, .ofText t rows, store⟩ r :=
    ⟨⟨_, _, _, rfl⟩, Editor.atRest_ofText t rows, rfl⟩
  -- the start of the program is that of a session, so what follows from it holds here
  have hrun : Session.run ⟨.create r palette highlightDelay persistDelay, .ofText t rows, store⟩
      (.start now) = .ok (.done, ⟨((Pump.create r palette highlightDelay persistDelay).advance
        (Editor.ofText t rows).text tree).scheduled now, .ofText t rows, store⟩) := by
    rw [Session.run, hstart]
    rfl
  obtain ⟨-, hfollowing, -⟩ := hunstarted.start htotal hrun
  exact ⟨_, hstart, {
    reader := rfl
    palette_eq := rfl
    source := rfl
    text := (List.append_nil t).symm
    reachable := Editor.reachable_ofText t rows
    atRest := Editor.atRest_ofText t rows
    drained := rfl
    topRow := rfl
    visibleRows := rfl
    stored := ⟨[], rfl, .inl rfl⟩
    current := fun _ => ⟨⟨[], hfollowing⟩, .inl rfl⟩ }⟩

/-- What a session shows in the end, and what is stored last, is settled by the text that it starts
with and the lines that it is fed. Neither the delays nor the times at which the lines come make a
difference. -/
theorem play_eq (htotal : r.Total) (hrows : max rows 1 ≤ Size.largest)
    (hfits : (t ++ rowsText lines).Fits) (palette : Highlight.Palette)
    (highlightDelay persistDelay : Nat) (store : σ) (clock : Nat → Nat) :
    ∃ s' texts shown,
      play clock (lines.map some)
          ⟨.create r palette highlightDelay persistDelay, .ofText t rows, store⟩ =
        (s', .ok (rowsText shown)) ∧
      s'.store =
        (Storage.set (Storage.afterTexts store texts) sourceKey (t ++ rowsText lines)).1 ∧
      (r.Incremental → Shows r palette rows (t ++ rowsText lines) shown) := by
  obtain ⟨p, hstart, hfed⟩ :=
    exists_start htotal palette highlightDelay persistDelay rows store t (clock 0)
  obtain ⟨s₁, hall, hfed₁⟩ := hfed.feedAll htotal hrows hfits clock 1
  obtain ⟨s', hsettle, hfed', hhighlight, hpersist⟩ :=
    hfed₁.settle htotal hrows (Nat.le_refl _)
  obtain ⟨seen, hseen⟩ := Editor.exists_viewport_iff.mpr (hfed'.rowsFit hrows)
  obtain ⟨-, shown, hrender, -⟩ := hfed'.reachable.exists_render hseen
  obtain ⟨texts, htexts, hlast⟩ := hfed'.stored
  -- no write is to come, so the last text written is the editor's
  have hwritten : texts.getLast? = some s'.editor.text := by
    rcases hlast with hpending | hwritten
    · rw [hpersist] at hpending
      cases hpending
    · exact hwritten
  obtain ⟨before, rfl⟩ := List.getLast?_eq_some_iff.mp hwritten
  refine ⟨s', before, shown, ?_, ?_, ?_⟩
  · rw [play]
    simp only [hstart, hall, hsettle, hrender]
    rfl
  · rw [htexts, Storage.afterTexts, List.foldl_append, hfed'.text]
    rfl
  · exact fun hincremental => hfed'.shows hincremental hhighlight hrender

end Terminal

end Lumen
