import Lumen.Proofs.Editor.Marks
import Lumen.Proofs.Highlight.Captures
import Mathlib.Data.List.Forall2

/-!
# Overlays replace all marks

An overlay that is laid outside of operations puts a mark for each captured node in place of
whatever marks there are, and touches nothing else (`overlay_replaces_marks`). A mark shows the
first capture of its node (`Shows`), and the marks come in the order of these, with ids that follow
one another. To lay the overlay again changes nothing that can be seen.
-/

namespace Lumen

namespace Highlight

/-- What a query captures in a tree of a text, as long as there are both. -/
def capturesOf? (tree? : Option SyntaxTree) (query? : Option Query) (text : String) :
    Option (RowRange → List Capture) :=
  match tree?, query? with
  | some tree, some q => some (captures q tree text)
  | _, _ => none

/-- That a mark shows a capture in a text: it is between the indices of its points, includes what is
inserted at either edge, and has the colour of the place of the capture name. -/
structure Shows (palette : Palette) (t : Text) (c : Capture) (m : Mark) : Prop where
  start : m.start = min (t.indexOf c.start) (t.indexOf c.stop)
  stop : m.stop = max (t.indexOf c.start) (t.indexOf c.stop)
  inclusive : m.style.inclusiveLeft = true ∧ m.style.inclusiveRight = true
  css : ∃ color, palette.colors[c.index % palette.colors.length]? = some color ∧
    m.style.css = "color: ".toList ++ color

variable {captures? : Option (RowRange → List Capture)} {palette : Palette}
  {rows? : Option RowRange} {kept : List Capture} {t : Text}

/-! ## Marks that are laid -/

/-- There is a colour for each capture name, since there is one at all. -/
theorem Palette.getElem?_colors (p : Palette) (index : Nat) :
    p.colors[index % p.colors.length]? = some (p.color index) := by
  have hlt : index % p.colors.length < p.colors.length :=
    Nat.mod_lt _ (List.length_pos_iff.mpr p.ne_nil)
  unfold Palette.color
  rw [List.getD_eq_getElem?_getD, List.getElem?_eq_getElem hlt]
  rfl

theorem shows_markOf (palette : Palette) (t : Text) (id : Nat) (c : Capture) :
    Shows palette t c (markOf palette t id c) :=
  ⟨rfl, rfl, ⟨rfl, rfl⟩, palette.color c.index, palette.getElem?_colors c.index, rfl⟩

/-- What holds of the mark of each capture, holds of the marks that are laid one by one. -/
theorem forall₂_laid {R : Capture → Mark → Prop} {cs : List Capture} (id : Nat)
    (h : ∀ c ∈ cs, ∀ id, R c (markOf palette t id c)) :
    List.Forall₂ R cs (laid palette t id cs) := by
  induction cs generalizing id with
  | nil => exact .nil
  | cons c cs ih =>
      rw [laid]
      refine .cons (h c List.mem_cons_self id) (ih (id + 1) ?_)
      intro d hd
      exact h d (List.mem_cons_of_mem c hd)

theorem map_id_laid (palette : Palette) (t : Text) (id : Nat) (cs : List Capture) :
    (laid palette t id cs).map Mark.id = List.range' id cs.length := by
  induction cs generalizing id with
  | nil => rfl
  | cons c cs ih =>
      rw [laid, List.map_cons, ih, List.length_cons, List.range'_succ]
      rfl

theorem length_laid (palette : Palette) (t : Text) (id : Nat) (cs : List Capture) :
    (laid palette t id cs).length = cs.length := by
  have h := congrArg List.length (map_id_laid palette t id cs)
  rwa [List.length_map, List.length_range'] at h

/-- The mark of a node that does not end before it begins is from the index of its start to the
index of its end. -/
theorem markOf_of_ordered {n : SyntaxTree.Node} {c : Capture} (h : n.Ordered)
    (hstart : c.start = n.start.point) (hstop : c.stop = n.stop.point) (palette : Palette)
    (t : Text) (id : Nat) :
    (markOf palette t id c).start = t.indexOf c.start ∧
      (markOf palette t id c).stop = t.indexOf c.stop := by
  have hle : t.indexOf c.start ≤ t.indexOf c.stop := by
    apply t.indexOf_mono
    rw [hstart, hstop]
    exact h
  exact ⟨Nat.min_eq_left hle, Nat.max_eq_right hle⟩

/-! ## Overlays -/

/-- Which captures are marked depends on nothing of an editor but the rows that can be seen. -/
theorem Kept.of_viewport {e e' : Editor} (h : Kept e captures? rows? kept)
    (hviewport : e'.viewport = e.viewport) : Kept e' captures? rows? kept := by
  cases h with
  | none hnone => exact .none hnone
  | rows hcaptures hrows => exact .rows hcaptures hrows
  | viewport hcaptures hnone hrows => exact .viewport hcaptures hnone (hviewport.trans hrows)

theorem overlay_of_atRest {e : Editor} (hrest : e.AtRest) (h : Kept e captures? rows? kept)
    (palette : Palette) :
    overlay e captures? palette rows? = .ok (kept.length,
      { e with
        marks := laid palette e.text e.nextMark kept
        nextMark := e.nextMark + kept.length
        operations := e.operations + 1 }) := by
  rw [overlay_of_kept h, markAll_eq]
  exact congrArg (fun e' => Except.ok (kept.length, e')) (leave_marks hrest _ _)

/-- The captures of some rows are marked if these rows are asked for or seen. -/
theorem kept_of_rows {e : Editor} {captures : RowRange → List Capture} {rows : RowRange}
    (hrows : rows? = some rows ∨ rows? = none ∧ e.viewport = .ok rows) :
    Kept e (some captures) rows? (firstOfNodes (captures rows)) := by
  rcases hrows with hrows | ⟨hnone, hviewport⟩
  · exact .rows rfl hrows
  · exact .viewport rfl hnone hviewport

/-- Besides the marks, an overlay leaves an editor as it is but for the operation that it counts
as. -/
theorem overlay_frame {e e' : Editor} {n : Nat} (hrest : e.AtRest)
    (h : overlay e captures? palette rows? = .ok (n, e')) :
    n = e'.marks.length ∧
      e' = { e with
        marks := e'.marks, nextMark := e'.nextMark, operations := e.operations + 1 } ∧
      e'.viewport = e.viewport := by
  obtain ⟨kept, -, rfl, rfl⟩ := overlay_eq hrest h
  exact ⟨(length_laid palette e.text _ kept).symm, rfl, rfl⟩

/-- An overlay that is laid once more looks the same. -/
theorem overlay_again {e e' : Editor} {n : Nat} (hrest : e.AtRest)
    (h : overlay e captures? palette rows? = .ok (n, e')) :
    ∃ e'', overlay e' captures? palette rows? = .ok (n, e'') ∧
      e''.marks.map Mark.look = e'.marks.map Mark.look := by
  obtain ⟨kept, hkept, rfl, he'⟩ := overlay_eq hrest h
  obtain ⟨-, -, hviewport⟩ := overlay_frame hrest h
  have hrest' : e'.AtRest := by
    rw [he']
    exact ⟨hrest.depth, hrest.pending⟩
  have htext : e'.text = e.text := by rw [he']
  have hmarks : e'.marks = laid palette e.text e.nextMark kept := by rw [he']
  refine ⟨_, overlay_of_atRest hrest' (hkept.of_viewport hviewport) palette, ?_⟩
  -- the text is the same, so only the ids differ
  simp only [hmarks, htext]
  exact map_look_laid palette e.text _ _ kept

/-- Whatever has been done to an editor and whatever marks it has, an overlay that is laid in it
outside of operations puts other marks in place of all. For each captured node in the rows that are
asked for, or else in those that can be seen, there is a mark of its first capture, in the order in
which these are captured, with ids that follow one another and are greater than any that was given
before. No node of the tree of a text ends before it begins, and where none does, marks are from the
index of the start of their node to the index of its end. Without a tree or a query no mark is left.
The result is the number of marks. All else is left as it is but that one operation more has ended,
and to lay the overlay once more makes marks that look the same. -/
theorem overlay_replaces_marks {e : Editor} (he : e.Reachable) (hdepth : e.depth = 0)
    (tree? : Option SyntaxTree) (query? : Option Query) (text : String) (palette : Palette)
    (rows? : Option RowRange) :
    let lay := fun e : Editor => overlay e (capturesOf? tree? query? text) palette rows?
    (∀ tree q rows, tree? = some tree → query? = some q →
      (rows? = some rows ∨ rows? = none ∧ e.viewport = .ok rows) →
      ∃ kept e', lay e = .ok (kept.length, e') ∧ Firsts (captures q tree text rows) kept ∧
        List.Forall₂ (Shows palette e.text) kept e'.marks ∧
        e'.markIds = List.range' e.nextMark kept.length ∧
        (∀ c ∈ kept, rows.contains c.start.row = true) ∧
        (tree.Ordered → List.Forall₂ (fun c m => m.start = e.text.indexOf c.start ∧
          m.stop = e.text.indexOf c.stop) kept e'.marks) ∧
        ∀ l s, Language.tree? l s = some tree → tree.Ordered) ∧
    (tree? = none ∨ query? = none → ∃ e', lay e = .ok (0, e') ∧ e'.marks = []) ∧
    (∀ n e', lay e = .ok (n, e') → n = e'.marks.length ∧
      e' = { e with
        marks := e'.marks, nextMark := e'.nextMark, operations := e.operations + 1 } ∧
      e'.viewport = e.viewport ∧
      ∃ e'', lay e' = .ok (n, e'') ∧ e''.marks.map Mark.look = e'.marks.map Mark.look) ∧
    ∀ d p q style, (Editor.mark d p q style).2.Calls e →
      (Editor.mark d p q style).1 < e.nextMark := by
  intro lay
  have hrest := he.atRest hdepth
  refine ⟨?_, ?_, ?_, ?_⟩
  · rintro tree q rows rfl rfl hrows
    -- what is kept depends on the captures alone, not on the marks from before
    have hkept : Kept e (capturesOf? (some tree) (some q) text) rows?
        (firstOfNodes (captures q tree text rows)) := kept_of_rows hrows
    have hfirsts := firsts_firstOfNodes (captures q tree text rows)
    have hlaid := overlay_of_atRest hrest hkept palette
    refine ⟨_, _, hlaid, hfirsts, ?_, map_id_laid _ _ _ _, ?_, ?_, ?_⟩
    · exact forall₂_laid _ fun c _ id => shows_markOf palette e.text id c
    · intro c hc
      exact (of_mem_captures (hfirsts.subset hc)).1
    · intro hordered
      apply forall₂_laid
      intro c hc id
      obtain ⟨-, hstart, hstop⟩ := of_mem_captures (hfirsts.subset hc)
      exact markOf_of_ordered (hordered.node c.node) hstart hstop palette e.text id
    · intro l s htree
      exact SyntaxTree.ordered_of_tree? htree
  · intro hnone
    have hcaptures : capturesOf? tree? query? text = none := by
      rcases hnone with rfl | rfl
      · rfl
      · cases tree? <;> rfl
    exact ⟨_, overlay_of_atRest hrest (.none hcaptures) palette, rfl⟩
  · intro n e' h
    obtain ⟨hcount, hframe, hviewport⟩ := overlay_frame hrest h
    exact ⟨hcount, hframe, hviewport, overlay_again hrest h⟩
  · intro d p q style hcalls
    exact hcalls.reaches.ids.1

/-- An editor with a mark and an event that nobody has taken yet, in which an overlay of the rows
that can be seen is laid twice, and then one without a query. -/
theorem overlay_replaces_marks_of_marked :
    let e := ((Editor.ofText ['a', '\n', 'é'] 2).mark ⟨7, 0⟩ ⟨0, 0⟩ {}).2.insert ⟨0, 1⟩ ['b']
    let tree : SyntaxTree := ⟨#[
      { symbol := 1, named := true, missing := false, start := ⟨0, 0, 0⟩, stop := ⟨6, 2, 0⟩
        parent := none, next := 2, depth := 0 },
      { symbol := 2, named := true, missing := false, start := ⟨3, 1, 0⟩, stop := ⟨5, 1, 2⟩
        parent := some 0, next := 2, depth := 1 }], false⟩
    let q : Query := ⟨#["node"],
      #[{ captures := [0], depth := 0, hasCaptures := true }, { depth := 0, isEnd := true }],
      #[[]], #[⟨0, 0, true⟩], []⟩
    let lay := fun e : Editor =>
      overlay e (capturesOf? (some tree) (some q) "ab\né\n") .default none
    e.Reachable ∧ e.depth = 0 ∧ e.markIds = [1] ∧ e.events.length = 1 ∧ tree.Ordered ∧
    (∃ kept e', lay e = .ok (kept.length, e') ∧ kept.length = 2 ∧
      Firsts (captures q tree "ab\né\n" ⟨0, 1⟩) kept ∧
      List.Forall₂ (Shows .default e.text) kept e'.marks ∧
      List.Forall₂ (fun c m => m.start = e.text.indexOf c.start ∧ m.stop = e.text.indexOf c.stop)
        kept e'.marks ∧
      e'.markIds = List.range' 2 kept.length ∧ e'.events = e.events ∧ e'.operations = 2 ∧
      ∃ e'', lay e' = .ok (kept.length, e'') ∧
        e''.marks.map Mark.look = e'.marks.map Mark.look) ∧
    ∃ e', overlay e (capturesOf? (some tree) none "ab\né\n") .default none = .ok (0, e') ∧
      e'.marks = [] := by
  intro e tree q lay
  have he : e.Reachable :=
    (Editor.reachable_ofText _ 2).calls (.head (.mark _ _ _ _) (.single (.replace _ _ _ _)))
  have hordered : tree.Ordered := by decide
  obtain ⟨hlaid, -, hframe, -⟩ :=
    overlay_replaces_marks he rfl (some tree) (some q) "ab\né\n" .default none
  obtain ⟨-, hnone, -, -⟩ :=
    overlay_replaces_marks he rfl (some tree) none "ab\né\n" .default none
  obtain ⟨kept, e', hlay, hfirsts, hshows, hids, -, hranges, -⟩ :=
    hlaid tree q ⟨0, 1⟩ rfl rfl (.inr ⟨rfl, rfl⟩)
  obtain ⟨-, he', -, hagain⟩ := hframe kept.length e' hlay
  have hcount : ((lay e).map Prod.fst).toOption = some 2 := by decide +kernel
  rw [show lay e = _ from hlay] at hcount
  have hevents : e'.events = e.events := by rw [he']
  have hoperations : e'.operations = 2 := by
    rw [he']
    rfl
  exact ⟨he, rfl, by decide, by decide, hordered,
    ⟨kept, e', hlay, Option.some.inj hcount, hfirsts, hshows, hranges hordered, hids, hevents,
      hoperations, hagain⟩,
    hnone (.inr rfl)⟩

end Highlight

end Lumen
