import Lumen.Proofs.Highlight.Replacement

/-!
# The bytes that are marked

A tree is made of a text with a line feed after it, and its nodes are told by points of that text.
So a node can end on a row that the text itself does not have. The points are looked up in the text
without the line feed, and what is past its end leads to its end (`indexOf_pointAt_append`). So a
mark covers just those bytes of its node that the text has (`marks_land_on_captured_bytes`).
-/

namespace Lumen

/-- The point of an index between characters leads back to the index in each stretch from the start
of the text, if it has the index, and else to the end of the stretch. -/
theorem Text.indexOf_pointAt_append {t others : Text} {i : Nat} (h : (t ++ others).IsBoundary i) :
    t.indexOf ((t ++ others).pointAt i) = min i t.byteLength := by
  rcases Nat.le_total i t.byteLength with hle | hle
  · rw [Nat.min_eq_left hle]
    rw [isBoundary_append_iff hle] at h
    obtain ⟨a, b, rfl, rfl⟩ := h.exists_stretch
    rw [List.append_assoc, pointAt_append, indexOf_point]
  · rw [Nat.min_eq_right hle]
    -- the point is not before that of the end of the stretch
    have hend : (t ++ others).pointAt t.byteLength = t.pointAt t.byteLength := by
      rw [pointAt_append, pointAt_byteLength]
    have hup := pointAt_mono (isBoundary_append t others) h hle
    rw [hend, pointAt_upTo_iff t.isBoundary_byteLength] at hup
    exact Nat.le_antisymm (t.isBoundary_indexOf _).le_byteLength hup

namespace SyntaxTree

/-- That a node begins and ends between characters of a text, at the points of its byte indices. -/
structure Node.LiesIn (t : Text) (n : Node) : Prop where
  start : t.IsBoundary n.start.bytes
  start_point : n.start.point = t.pointAt n.start.bytes
  stop : t.IsBoundary n.stop.bytes
  stop_point : n.stop.point = t.pointAt n.stop.bytes

instance (t : Text) (n : Node) : Decidable (n.LiesIn t) :=
  decidable_of_iff (t.IsBoundary n.start.bytes ∧ n.start.point = t.pointAt n.start.bytes ∧
      t.IsBoundary n.stop.bytes ∧ n.stop.point = t.pointAt n.stop.bytes)
    ⟨fun ⟨h₁, h₂, h₃, h₄⟩ => ⟨h₁, h₂, h₃, h₄⟩, fun ⟨h₁, h₂, h₃, h₄⟩ => ⟨h₁, h₂, h₃, h₄⟩⟩

/-- The node that stands for those which a tree does not have is empty and at the start. -/
theorem liesIn_default (t : Text) : (default : Node).LiesIn t := by
  have hstart : t.IsBoundary 0 := Text.isBoundary_append [] t
  have hzero : Point.zero = t.pointAt 0 := (Text.pointAt_append [] t).symm
  exact ⟨hstart, hzero, hstart, hzero⟩

end SyntaxTree

namespace Highlight

/-- In an editor of a text, a mark of a node in the text and a line feed after it covers the bytes
of the node, as far as the text has them. -/
theorem markOf_of_liesIn {t : Text} {n : SyntaxTree.Node} (hordered : n.Ordered)
    (hlies : n.LiesIn (t ++ ['\n'])) {c : Capture} (hstart : c.start = n.start.point)
    (hstop : c.stop = n.stop.point) (palette : Palette) (id : Nat) :
    (markOf palette t id c).start = min n.start.bytes t.byteLength ∧
      (markOf palette t id c).stop = min n.stop.bytes t.byteLength := by
  obtain ⟨hfirst, hlast⟩ := markOf_of_ordered hordered hstart hstop palette t id
  rw [hfirst, hlast, hstart, hstop, hlies.start_point, hlies.stop_point,
    Text.indexOf_pointAt_append hlies.start, Text.indexOf_pointAt_append hlies.stop]
  exact ⟨rfl, rfl⟩

/-- Let the nodes of a tree be between characters of a text with a line feed after it, at the points
of their byte indices, and none end before it starts. An overlay in an editor that holds the text
itself, of whatever rows, marks each captured node by the bytes from its start to its end, or up to
the end of the text if the node goes on behind it. -/
theorem marks_land_on_captured_bytes {t : Text} {tree : SyntaxTree} (hordered : tree.Ordered)
    (hlies : ∀ n ∈ tree.nodes, n.LiesIn (t ++ ['\n'])) {e : Editor} (htext : e.text = t) (q : Query)
    (palette : Palette) (rows? : Option RowRange) {rows : RowRange}
    (hrows : rows? = some rows ∨ rows? = none ∧ e.viewport = .ok rows) :
    let captured := captures q tree (String.ofList (t ++ ['\n']))
    ∃ kept e', overlay e (some captured) palette rows? = .ok (kept.length, e') ∧
      Firsts (captured rows) kept ∧
      List.Forall₂ (fun c m => m.start = min (tree.node c.node).start.bytes t.byteLength ∧
        m.stop = min (tree.node c.node).stop.bytes t.byteLength) kept e'.marks := by
  intro captured
  have hfirsts := firsts_firstOfNodes (captured rows)
  refine ⟨_, _, overlay_of_kept (kept_of_rows hrows) palette, hfirsts, ?_⟩
  have hmarks : (markAll palette (firstOfNodes (captured rows))
      { e.enter with marks := [] }).leave.marks =
        laid palette t e.nextMark (firstOfNodes (captured rows)) := by
    rw [Editor.marks_leave, markAll_eq, ← htext]
    rfl
  rw [hmarks]
  apply forall₂_laid
  intro c hc id
  obtain ⟨-, hstart, hstop⟩ := of_mem_captures (hfirsts.subset hc)
  have hnode : (tree.node c.node).LiesIn (t ++ ['\n']) :=
    SyntaxTree.node_of_forall (SyntaxTree.liesIn_default _) hlies c.node
  exact markOf_of_liesIn (hordered.node c.node) hnode hstart hstop palette id

/-- A tree with a node over two rows, one of the line feed after the text, and an empty one behind
it, in an editor that is inside an operation. -/
theorem marks_land_on_captured_bytes_of_last_row :
    let t : Text := ['a', 'é', '\n', 'ß']
    let l : Language := { (default : Language) with
      symbols := #[⟨"document", true, true, false⟩, ⟨"word", true, true, false⟩] }
    let s : Subtree := .mk { symbol := 0, padding := {}, size := ⟨7, 2, 0⟩, visible := true }
      [.mk { symbol := 1, padding := ⟨1, 0, 1⟩, size := ⟨5, 1, 2⟩, visible := true } [],
        .mk { symbol := 1, padding := {}, size := ⟨1, 1, 0⟩, visible := true } [],
        .mk { symbol := 1, padding := {}, size := {}, visible := true } []]
    let tree := SyntaxTree.ofSubtree l s
    let q : Query := ⟨#["word"],
      #[{ symbol := some 1, captures := [0], depth := 0, hasCaptures := true },
        { depth := 0, isEnd := true }],
      #[[]], #[], [(1, [⟨0, 0, true⟩])]⟩
    let captured := captures q tree (String.ofList (t ++ ['\n']))
    tree.Ordered ∧ (∀ n ∈ tree.nodes, n.LiesIn (t ++ ['\n'])) ∧
    (tree.nodes.map fun n => (min n.start.bytes 6, min n.stop.bytes 6)) =
      #[(0, 6), (1, 6), (6, 6), (6, 6)] ∧
    ∃ kept e', overlay (Editor.ofText t 1).enter (some captured) .default (some ⟨0, 7⟩) =
        .ok (kept.length, e') ∧ kept.length = 3 ∧
      Firsts (captured ⟨0, 7⟩) kept ∧
      List.Forall₂ (fun c m => m.start = min (tree.node c.node).start.bytes 6 ∧
        m.stop = min (tree.node c.node).stop.bytes 6) kept e'.marks := by
  intro t l s tree q captured
  have hordered : tree.Ordered := SyntaxTree.ordered_ofSubtree l s
  have hlies : ∀ n ∈ tree.nodes, n.LiesIn (t ++ ['\n']) := by decide +kernel
  have hlength : t.byteLength = 6 := by decide
  -- the node of the line feed and the one behind it keep their marks, which are empty
  have hcount : ((overlay (Editor.ofText t 1).enter (some captured) .default (some ⟨0, 7⟩)).map
      Prod.fst).toOption = some 3 := by decide +kernel
  obtain ⟨kept, e', hlay, hmarks⟩ := marks_land_on_captured_bytes
    (e := (Editor.ofText t 1).enter) hordered hlies rfl q .default (some ⟨0, 7⟩) (.inl rfl)
  rw [hlay] at hcount
  rw [hlength] at hmarks
  exact ⟨hordered, hlies, by decide +kernel, kept, e', hlay, Option.some.inj hcount, hmarks⟩

end Highlight

end Lumen
