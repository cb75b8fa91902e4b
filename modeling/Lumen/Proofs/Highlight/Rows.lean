import Lumen.Proofs.Highlight.Bytes

/-!
# The captures of some rows

To find what starts in some rows, a query is run over a part of the text, and what starts outside of
the rows is left out of what its cursor finds there. The cursor keeps to the nodes that touch the
part (`KeepsTo`), and it is told the part in numbers below `placeBound`. So the row after the last
one that is asked for is told as another, if it is not below the bound, and what starts from there
on is not found (`IsCutOff`):

* `touches_spanOfRows` — of the nodes from the first row on, the part touches those not cut off;
* `capturesBy_eq_filter` — so the captures of rows are those of all rows that start in them and are
  not cut off;
* `captures_of_rows` — and they are just those that start in the rows, unless one of them is cut
  off.

Nothing is if the row after the last one is below the bound, or there is none.
-/

namespace Lumen

/-! ## Nodes and spans -/

namespace SyntaxTree.Node

variable {t : Text} {n : Node}

/-- There is a byte of the text for each row before a node and one for what is in the node. -/
theorem LiesIn.row_lt (h : n.LiesIn t) (hsome : n.start.bytes < n.stop.bytes) :
    n.start.row < t.byteLength := by
  have hrow : n.start.row = (t.pointAt n.start.bytes).row := congrArg Point.row h.start_point
  rw [h.start.pointAt_eq] at hrow
  have hle := Extent.row_add_column_le (t.takeBytes n.start.bytes)
  rw [h.start] at hle
  have hstop := h.stop.le_byteLength
  simp only [Extent.point] at hrow
  omega

/-- A node that is not empty ends at a later point than it starts. -/
theorem LiesIn.start_before_stop (h : n.LiesIn t) (hsome : n.start.bytes < n.stop.bytes) :
    n.start.point.before n.stop.point = true := by
  by_contra hbefore
  have hup := Point.upTo_of_not_before hbefore
  rw [h.start_point, h.stop_point, Text.pointAt_upTo_iff h.stop, h.start.indexOf_pointAt] at hup
  omega

end SyntaxTree.Node

/-- A span touches a node that is not empty just if it starts before the end of the node and, if it
has an end, ends after the start of the node. -/
theorem Query.Span.touches_iff {s : Query.Span} {n : SyntaxTree.Node}
    (hsome : n.start.bytes < n.stop.bytes) :
    s.touches n = true ↔ s.start.before n.stop.point = true ∧
      ∀ stop, s.stop = some stop → n.start.point.before stop = true := by
  have hbytes : n.stop.bytes ≠ 0 := by omega
  have hstart : n.stop.point.upTo s.start = false ↔ s.start.before n.stop.point = true := by
    rw [← Bool.not_eq_true, Point.upTo_iff, Point.before_iff]
    omega
  simp only [touches, isPast, isAhead, hbytes, decide_false, Bool.false_or, Bool.and_eq_true,
    Bool.not_eq_true', hstart]
  apply and_congr_right
  intro _
  cases hstop : s.stop with
  | none => simp [reached, hstop]
  | some stop =>
      have hend : stop.upTo n.start.point = false ↔ n.start.point.before stop = true := by
        rw [← Bool.not_eq_true, Point.upTo_iff, Point.before_iff]
        omega
      simp [reached, hstop, hend]

namespace Highlight

/-! ## The part of some rows -/

/-- The row that the part of some rows ends before, as a cursor is told it. -/
def rowAfter (rows : RowRange) : Nat := min (rows.stop + 1) Size.largest % placeBound

/-- That the part of some rows has an end, and a row is not before it. -/
def IsCutOff (rows : RowRange) (row : Nat) : Prop :=
  rows.start ≤ rowAfter rows ∧ 0 < rowAfter rows ∧ rowAfter rows ≤ row

instance (rows : RowRange) (row : Nat) : Decidable (IsCutOff rows row) :=
  inferInstanceAs (Decidable (_ ∧ _))

/-- What the part of some rows is, if their first one can be told. -/
theorem spanOfRows_cases {rows : RowRange} (h : rows.start < placeBound) :
    (rowAfter rows = 0 ∧ spanOfRows rows = { start := ⟨rows.start, 0⟩ }) ∨
    (0 < rowAfter rows ∧ rowAfter rows < rows.start ∧ spanOfRows rows = {}) ∨
    (0 < rowAfter rows ∧ rows.start ≤ rowAfter rows ∧
      spanOfRows rows = { start := ⟨rows.start, 0⟩, stop := some ⟨rowAfter rows, 0⟩ }) := by
  have hspan : spanOfRows rows =
      if (⟨rowAfter rows, 0⟩ : Point) == .zero then { start := ⟨rows.start, 0⟩ }
      else if Point.before ⟨rowAfter rows, 0⟩ ⟨rows.start, 0⟩ then {}
      else { start := ⟨rows.start, 0⟩, stop := some ⟨rowAfter rows, 0⟩ } := by
    unfold spanOfRows
    rw [Nat.mod_eq_of_lt h]
    rfl
  have hbefore : Point.before ⟨rowAfter rows, 0⟩ ⟨rows.start, 0⟩ = true ↔
      rowAfter rows < rows.start := by
    rw [Point.before_iff]
    simp
  -- an end at the very first point stands for no end at all
  rcases Nat.eq_zero_or_pos (rowAfter rows) with hzero | hpos
  · left
    refine ⟨hzero, ?_⟩
    rw [hspan, hzero]
    rfl
  · have hend : ((⟨rowAfter rows, 0⟩ : Point) == .zero) = false := by
      obtain ⟨row, hrow⟩ := Nat.exists_eq_add_of_lt hpos
      rw [hrow, Nat.zero_add]
      rfl
    right
    rw [hspan, hend]
    by_cases hlt : rowAfter rows < rows.start
    · left
      refine ⟨hpos, hlt, ?_⟩
      rw [if_neg Bool.false_ne_true, if_pos (hbefore.mpr hlt)]
    · right
      refine ⟨hpos, Nat.le_of_not_lt hlt, ?_⟩
      rw [if_neg Bool.false_ne_true, if_neg (fun h => hlt (hbefore.mp h))]

/-- No part ends before it starts. -/
theorem spanOfRows_inOrder (rows : RowRange) {stop : Point}
    (h : (spanOfRows rows).stop = some stop) : (spanOfRows rows).start.upTo stop = true := by
  unfold spanOfRows at h ⊢
  simp only at h ⊢
  split at h
  · cases h
  · split at h
    · cases h
    · next hzero hbefore =>
        obtain rfl := Option.some.inj h
        rw [if_neg hzero, if_neg hbefore]
        exact Point.upTo_of_not_before hbefore

/-- Of the nodes that start in the first of some rows or later, the part of the rows touches those
that are not cut off. -/
theorem touches_spanOfRows {text : Text} (htext : text.byteLength < placeBound)
    {n : SyntaxTree.Node} (hlies : n.LiesIn text) (hsome : n.start.bytes < n.stop.bytes)
    {rows : RowRange} (hstart : rows.start ≤ n.start.row) :
    (spanOfRows rows).touches n = true ↔ ¬ IsCutOff rows n.start.row := by
  have hrow := hlies.row_lt hsome
  have hstop := Point.before_iff.mp (hlies.start_before_stop hsome)
  have hreached : Point.before ⟨rows.start, 0⟩ n.stop.point = true := by
    rw [Point.before_iff]
    simp only [Extent.point] at hstop ⊢
    omega
  -- what has no end ends before nothing
  have hopen : ∀ stop, none = some stop → n.start.point.before stop = true := by
    intro stop h
    cases h
  rw [Query.Span.touches_iff hsome]
  unfold IsCutOff
  have hfirst : rows.start < placeBound := by omega
  rcases spanOfRows_cases hfirst with
    ⟨hzero, hspan⟩ | ⟨hpos, hlt, hspan⟩ | ⟨hpos, hle, hspan⟩
  · rw [hspan]
    refine iff_of_true ⟨hreached, hopen⟩ ?_
    omega
  · rw [hspan]
    have hall : Point.zero.before n.stop.point = true := by
      rw [Point.before_iff]
      simp only [Extent.point, Point.zero] at hstop ⊢
      omega
    refine iff_of_true ⟨hall, hopen⟩ ?_
    omega
  · rw [hspan]
    have hend : Point.before n.start.point ⟨rowAfter rows, 0⟩ = true ↔
        n.start.row < rowAfter rows := by
      rw [Point.before_iff]
      simp [Extent.point]
    constructor
    · rintro ⟨-, hbefore⟩
      have := hend.mp (hbefore _ rfl)
      omega
    · intro hcut
      refine ⟨hreached, ?_⟩
      intro stop hstop
      obtain rfl := Option.some.inj hstop
      exact hend.mpr (by omega)

/-- All rows, as they are asked for. -/
def allRows : RowRange := ⟨0, Size.largest⟩

theorem not_isCutOff_allRows {row : Nat} (h : row + 1 < placeBound) : ¬ IsCutOff allRows row := by
  have hafter : rowAfter allRows = placeBound - 1 := by decide
  unfold IsCutOff
  rw [hafter]
  omega

/-- Where the row after the last one is below the bound, nothing in the rows is cut off, and neither
is anything where it is as large as a number of rows can be. -/
theorem not_isCutOff {rows : RowRange} {row : Nat} (hrow : row + 1 < placeBound)
    (hcontains : rows.contains row = true)
    (h : rows.stop + 1 < placeBound ∨ Size.largest ≤ rows.stop + 1) : ¬ IsCutOff rows row := by
  have hlargest : placeBound ≤ Size.largest := by decide
  have hlast : Size.largest % placeBound = placeBound - 1 := by decide
  simp only [RowRange.contains, Bool.and_eq_true, decide_eq_true_eq] at hcontains
  unfold IsCutOff rowAfter
  rcases h with h | h
  · rw [Nat.min_eq_left (by omega), Nat.mod_eq_of_lt h]
    omega
  · rw [Nat.min_eq_right h, hlast]
    omega

/-! ## Captures -/

/-- That a cursor finds in a part of a text that does not end before it starts just those captures
whose nodes the part touches, in the order in which it finds them in the whole text. -/
def KeepsTo (t : SyntaxTree) (cursor : Query.Span → Array Query.Capture) : Prop :=
  ∀ span, (∀ stop, span.stop = some stop → span.start.upTo stop = true) →
    (cursor span).toList = (cursor {}).toList.filter fun c => span.touches (t.node c.node)

/-- That a cursor finds no empty nodes. -/
def FindsNoneEmpty (t : SyntaxTree) (cursor : Query.Span → Array Query.Capture) : Prop :=
  ∀ c ∈ cursor {}, (t.node c.node).start.bytes < (t.node c.node).stop.bytes

/-- The cursor that finds in each part of a text those of some captures that the part touches. -/
def touched (t : SyntaxTree) (cs : Array Query.Capture) (span : Query.Span) : Array Query.Capture :=
  cs.filter fun c => span.touches (t.node c.node)

theorem keepsTo_touched (t : SyntaxTree) {cs : Array Query.Capture} (h : touched t cs {} = cs) :
    KeepsTo t (touched t cs) := by
  intro span _
  rw [h]
  exact Array.toList_filter

/-- What is told of a node that has been captured. -/
def captureOf (names : Array String) (t : SyntaxTree) (c : Query.Capture) : Capture :=
  ⟨names.getD c.id "", c.id, c.node, (t.node c.node).start.point, (t.node c.node).stop.point⟩

variable {t : SyntaxTree} {cursor : Query.Span → Array Query.Capture} {names : Array String}

theorem capturesBy_eq_map (rows : RowRange) :
    capturesBy cursor names t rows =
      ((cursor (spanOfRows rows)).toList.filter
        fun c => rows.contains (t.node c.node).start.row).map (captureOf names t) := by
  unfold capturesBy
  induction (cursor (spanOfRows rows)).toList with
  | nil => rfl
  | cons c cs ih =>
      cases hrows : rows.contains (t.node c.node).start.row with
      | true =>
          simp only [List.filter_cons, hrows, if_true, List.map_cons, ← ih]
          exact List.filterMap_cons_some (by simp only [hrows]; rfl)
      | false =>
          simp only [List.filter_cons, hrows, Bool.false_eq_true, if_false, ← ih]
          exact List.filterMap_cons_none (by simp [hrows])

section

variable {text : Text} (htext : text.byteLength < placeBound) (hlies : ∀ n ∈ t.nodes, n.LiesIn text)
  (hsome : FindsNoneEmpty t cursor) (hkeeps : KeepsTo t cursor)

include htext hlies hsome in
/-- What a cursor finds starts in a row that can be told, and so can the row after it. -/
theorem row_succ_lt {c : Query.Capture} (hc : c ∈ cursor {}) :
    (t.node c.node).start.row + 1 < placeBound := by
  have hnode : (t.node c.node).LiesIn text :=
    SyntaxTree.node_of_forall (SyntaxTree.liesIn_default _) hlies c.node
  have := hnode.row_lt (hsome c hc)
  omega

include htext hlies hsome hkeeps in
/-- What a cursor finds for some rows, and starts there, are the captures of the whole text that
start there and are not cut off. -/
theorem filter_cursor_eq (rows : RowRange) :
    ((cursor (spanOfRows rows)).toList.filter fun c => rows.contains (t.node c.node).start.row) =
      (cursor {}).toList.filter fun c => rows.contains (t.node c.node).start.row &&
        !decide (IsCutOff rows (t.node c.node).start.row) := by
  rw [hkeeps _ fun _ => spanOfRows_inOrder rows, List.filter_filter]
  apply List.filter_congr
  intro c hc
  cases hrows : rows.contains (t.node c.node).start.row with
  | false => rfl
  | true =>
      have hnode : (t.node c.node).LiesIn text :=
        SyntaxTree.node_of_forall (SyntaxTree.liesIn_default _) hlies c.node
      have hstart : rows.start ≤ (t.node c.node).start.row := by
        simp only [RowRange.contains, Bool.and_eq_true, decide_eq_true_eq] at hrows
        exact hrows.1
      have htouches := touches_spanOfRows htext hnode (hsome c (Array.mem_toList_iff.mp hc)) hstart
      rw [Bool.true_and, Bool.true_and, Bool.eq_iff_iff, htouches]
      simp

include htext hlies hsome hkeeps in
/-- All rows together have all captures. -/
theorem capturesBy_allRows :
    capturesBy cursor names t allRows = (cursor {}).toList.map (captureOf names t) := by
  rw [capturesBy_eq_map, filter_cursor_eq htext hlies hsome hkeeps]
  congr 1
  rw [List.filter_eq_self]
  intro c hc
  have hrow := row_succ_lt htext hlies hsome (Array.mem_toList_iff.mp hc)
  have hall : (t.node c.node).start.row ≤ Size.largest := by
    have hlargest : placeBound ≤ Size.largest := by decide
    omega
  simp [RowRange.contains, allRows, hall, show ¬ IsCutOff ⟨0, Size.largest⟩ _ from
    not_isCutOff_allRows hrow]

include htext hlies hsome hkeeps in
/-- The captures of some rows are those of all rows that start in them and are not cut off. -/
theorem capturesBy_eq_filter (rows : RowRange) :
    capturesBy cursor names t rows = (capturesBy cursor names t allRows).filter fun c =>
      rows.contains c.start.row && !decide (IsCutOff rows c.start.row) := by
  rw [capturesBy_allRows htext hlies hsome hkeeps, capturesBy_eq_map,
    filter_cursor_eq htext hlies hsome hkeeps, List.filter_map]
  rfl

end

/-- Let a tree be of a text whose bytes can be told below the bound, and let a cursor find no empty
nodes in it and keep to the parts of the text that it is given. The captures of all rows are those
that the cursor finds in the whole text. Whatever rows are asked for, their captures are those of
all rows that start in them, in the same order, but for what is cut off. So they are just those that
start in the rows if nothing that starts there is cut off, and only then. This is so if the row
after the last one is below the bound, and also for as many rows as there can be. -/
theorem captures_of_rows {text : Text} (htext : text.byteLength < placeBound)
    (hlies : ∀ n ∈ t.nodes, n.LiesIn text) (hsome : FindsNoneEmpty t cursor)
    (hkeeps : KeepsTo t cursor) (names : Array String) (rows : RowRange) :
    let whole := capturesBy cursor names t ⟨0, Size.largest⟩
    let found := capturesBy cursor names t rows
    let sought := whole.filter fun c => rows.contains c.start.row
    whole = (cursor {}).toList.map (captureOf names t) ∧
    found = sought.filter (fun c => ¬ IsCutOff rows c.start.row) ∧
    (found = sought ↔ ∀ c ∈ whole, rows.contains c.start.row = true →
      ¬ IsCutOff rows c.start.row) ∧
    (rows.stop + 1 < placeBound ∨ Size.largest ≤ rows.stop + 1 → found = sought) := by
  intro whole found sought
  have hall : whole = (cursor {}).toList.map (captureOf names t) :=
    capturesBy_allRows htext hlies hsome hkeeps
  -- the two filters may come in any order
  have hfound : found = sought.filter (fun c => ¬ IsCutOff rows c.start.row) := by
    show capturesBy cursor names t rows = _
    rw [capturesBy_eq_filter htext hlies hsome hkeeps, List.filter_filter]
    apply List.filter_congr
    intro c _
    rw [Bool.and_comm, decide_not]
  have hsame : found = sought ↔ ∀ c ∈ whole, rows.contains c.start.row = true →
      ¬ IsCutOff rows c.start.row := by
    rw [hfound, List.filter_eq_self]
    simp only [sought, List.mem_filter, decide_eq_true_eq, and_imp]
  refine ⟨hall, hfound, hsame, ?_⟩
  intro hrows
  rw [hsame]
  intro c hc hcontains
  rw [hall] at hc
  obtain ⟨found, hmem, rfl⟩ := List.mem_map.mp hc
  exact not_isCutOff (row_succ_lt htext hlies hsome (Array.mem_toList_iff.mp hmem)) hcontains hrows

/-- A cursor that finds the three nodes of a text in two rows, one of them over both rows, is run
over the last row, over rows that end before they start, and over more rows than can be told. -/
theorem captures_of_rows_of_two_rows :
    let text : Text := ['1', '\n', '2']
    let node (start stop : Extent) : SyntaxTree.Node :=
      { (default : SyntaxTree.Node) with start, stop }
    let t : SyntaxTree :=
      ⟨#[node ⟨0, 0, 0⟩ ⟨3, 1, 1⟩, node ⟨0, 0, 0⟩ ⟨1, 0, 1⟩, node ⟨2, 1, 0⟩ ⟨3, 1, 1⟩], false⟩
    let cursor := touched t #[⟨0, 0⟩, ⟨1, 1⟩, ⟨2, 1⟩]
    let found (rows : RowRange) := capturesBy cursor #["all", "number"] t rows
    let sought (rows : RowRange) :=
      (found ⟨0, Size.largest⟩).filter fun c => rows.contains c.start.row
    text.byteLength < placeBound ∧ (∀ n ∈ t.nodes, n.LiesIn text) ∧ FindsNoneEmpty t cursor ∧
    KeepsTo t cursor ∧
    found ⟨0, Size.largest⟩ = (cursor {}).toList.map (captureOf #["all", "number"] t) ∧
    found ⟨1, 1⟩ = sought ⟨1, 1⟩ ∧ found ⟨1, 0⟩ = sought ⟨1, 0⟩ ∧
    found ⟨0, Size.largest - 1⟩ = sought ⟨0, Size.largest - 1⟩ ∧
    found ⟨0, placeBound⟩ =
      (sought ⟨0, placeBound⟩).filter (fun c => ¬ IsCutOff ⟨0, placeBound⟩ c.start.row) ∧
    (found ⟨1, 1⟩).map (fun c => c.name) = ["number"] ∧
    (found ⟨0, placeBound⟩).map (fun c => c.name) = ["all", "number"] := by
  intro text node t cursor found sought
  have htext : text.byteLength < placeBound := by decide
  have hlies : ∀ n ∈ t.nodes, n.LiesIn text := by decide +kernel
  have hsome : FindsNoneEmpty t cursor := by
    unfold FindsNoneEmpty
    decide +kernel
  have hkeeps : KeepsTo t cursor := keepsTo_touched t (by rfl)
  -- one run for each of the ways in which rows can end
  have hlaw := captures_of_rows htext hlies hsome hkeeps #["all", "number"]
  obtain ⟨hall, -, -, hlast⟩ := hlaw ⟨1, 1⟩
  obtain ⟨-, -, -, hnone⟩ := hlaw ⟨1, 0⟩
  obtain ⟨-, -, -, hmost⟩ := hlaw ⟨0, Size.largest - 1⟩
  obtain ⟨-, hcut, -, -⟩ := hlaw ⟨0, placeBound⟩
  exact ⟨htext, hlies, hsome, hkeeps, hall, hlast (.inl (by decide)), hnone (.inl (by decide)),
    hmost (.inr (by decide)), hcut, by decide +kernel, by decide +kernel⟩

/-- With a last row that can be held but not told, a number in the second row is lost, though it is
among the captures of all rows. -/
theorem captures_lost_past_placeBound :
    let text : Text := ['1', '\n', '2']
    let node (start stop : Extent) : SyntaxTree.Node :=
      { (default : SyntaxTree.Node) with start, stop }
    let t : SyntaxTree := ⟨#[node ⟨0, 0, 0⟩ ⟨1, 0, 1⟩, node ⟨2, 1, 0⟩ ⟨3, 1, 1⟩], false⟩
    let cursor := touched t #[⟨0, 0⟩, ⟨1, 0⟩]
    let rows : RowRange := ⟨0, placeBound⟩
    rows.stop ≤ Size.largest ∧ (∀ n ∈ t.nodes, n.LiesIn text) ∧ FindsNoneEmpty t cursor ∧
    KeepsTo t cursor ∧
    capturesBy cursor #["number"] t rows ≠
      (capturesBy cursor #["number"] t ⟨0, Size.largest⟩).filter
        fun c => rows.contains c.start.row := by
  intro text node t cursor rows
  have hsome : FindsNoneEmpty t cursor := by
    unfold FindsNoneEmpty
    decide +kernel
  exact ⟨by decide, by decide +kernel, hsome, keepsTo_touched t (by rfl), by decide +kernel⟩

end Highlight

end Lumen
