import Lumen.Proofs.Editor.Reach
import Lumen.Proofs.Text.Row

/-!
# Marks in order

The marks of an editor are kept in the order in which they were made, and each is between two
characters of the text at either end (`InOrder`). A splice moves an index between characters to one
between characters (`isBoundary_moved`), so marks that follow the splices of a text stay in place
(`Placed.followAll`). A step of an editor moves its marks, makes one or clears some
(`Step.marks_cases`), and the main statement follows from what each of these keeps:

* `marks_kept_in_order` — whatever is done to an editor, its marks are in order, their ranges lead
  back to their ends, and no id is given a second time.
-/

namespace Lumen

/-! ## Indices through a splice -/

namespace Text

theorem takeBytes_append_of_le {a : Text} {i : Nat} (h : i ≤ a.byteLength) (b : Text) :
    (a ++ b).takeBytes i = a.takeBytes i := by
  induction a generalizing i with
  | nil =>
      obtain rfl := Nat.le_zero.mp h
      simp
  | cons c cs ih =>
      rw [byteLength_cons] at h
      rw [List.cons_append, takeBytes, takeBytes]
      split
      · rw [ih (by omega)]
      · rfl

/-- In the first of two stretches, the indices between characters are those of the stretch. -/
theorem isBoundary_append_iff {a : Text} {i : Nat} (h : i ≤ a.byteLength) (b : Text) :
    (a ++ b).IsBoundary i ↔ a.IsBoundary i := by
  unfold IsBoundary
  rw [takeBytes_append_of_le h]

/-- In the second of two stretches, they are those of the stretch, counted from its start. -/
theorem isBoundary_append_add_iff (a b : Text) (i : Nat) :
    (a ++ b).IsBoundary (a.byteLength + i) ↔ b.IsBoundary i := by
  unfold IsBoundary
  rw [takeBytes_append_add, byteLength_append]
  omega

section

variable (t : Text) (p q : Point) (x : Text)

theorem byteLength_front :
    (t.spliceBetween p q x).front.byteLength = min (t.indexOf p) (t.indexOf q) :=
  t.isBoundary_min p q

theorem byteLength_front_removed :
    ((t.spliceBetween p q x).front ++ (t.spliceBetween p q x).removed).byteLength =
      max (t.indexOf p) (t.indexOf q) := by
  rw [front_append_removed]
  exact t.isBoundary_max p q

theorem byteLength_front_inserted :
    ((t.spliceBetween p q x).front ++ (t.spliceBetween p q x).inserted).byteLength =
      min (t.indexOf p) (t.indexOf q) + x.byteLength := by
  rw [byteLength_append, byteLength_front]
  rfl

end

end Text

namespace Mark

/-- Where an index is after a splice. -/
def movedBy (s : Splice) (i : Nat) (after : Bool) : Nat :=
  moved i s.front.byteLength (s.front ++ s.removed).byteLength (s.front ++ s.inserted).byteLength
    after

/-- A splice moves an index between characters to one between characters. -/
theorem isBoundary_movedBy {s : Splice} {i : Nat} (h : s.before.IsBoundary i) (after : Bool) :
    s.after.IsBoundary (movedBy s i after) := by
  have hfront : s.after.IsBoundary s.front.byteLength := by
    unfold Splice.after
    rw [List.append_assoc]
    exact Text.isBoundary_append _ _
  have hinserted : s.after.IsBoundary (s.front ++ s.inserted).byteLength :=
    Text.isBoundary_append _ _
  -- the splice moves an index with what it stands in: before it, behind it, or replaced by it
  unfold movedBy moved
  by_cases hbefore : i < s.front.byteLength
  · rw [if_pos hbefore]
    unfold Splice.before at h
    unfold Splice.after
    rw [List.append_assoc, Text.isBoundary_append_iff (by omega)] at h ⊢
    exact h
  · rw [if_neg hbefore]
    by_cases hbehind : (s.front ++ s.removed).byteLength < i
    · rw [if_pos hbehind]
      obtain ⟨k, rfl⟩ := Nat.exists_eq_add_of_le (Nat.le_of_lt hbehind)
      unfold Splice.before at h
      rw [Text.isBoundary_append_add_iff] at h
      rw [Nat.add_sub_cancel_left, Nat.add_comm]
      exact (Text.isBoundary_append_add_iff _ _ k).mpr h
    · -- what is replaced leaves no index but those of its ends
      rw [if_neg hbehind]
      split
      · split
        · exact hinserted
        · exact hfront
      · split
        · exact hfront
        · split
          · exact hinserted
          · split
            · exact hinserted
            · exact hfront

/-- The mark after a splice, unless nothing is left between its ends. -/
def follow? (s : Splice) (m : Mark) : Option Mark :=
  m.move? s.front.byteLength (s.front ++ s.removed).byteLength (s.front ++ s.inserted).byteLength

/-- Marks after splices that follow one another. -/
def followAll : List Mark → List Splice → List Mark
  | ms, [] => ms
  | ms, s :: ss => followAll (ms.filterMap (follow? s)) ss

/-- A mark that follows a splice has both ends moved, with something left between them. -/
theorem follow?_eq_some_iff {s : Splice} {m m' : Mark} :
    follow? s m = some m' ↔
      movedBy s m.start (!m.style.inclusiveLeft) < movedBy s m.stop m.style.inclusiveRight ∧
        m' = { m with
          start := movedBy s m.start (!m.style.inclusiveLeft)
          stop := movedBy s m.stop m.style.inclusiveRight } := by
  unfold follow? move? movedBy
  simp only
  split
  · next hlt =>
      constructor
      · intro h
        exact ⟨hlt, (Option.some.inj h).symm⟩
      · rintro ⟨-, rfl⟩
        rfl
  · next hlt =>
      constructor
      · intro h
        cases h
      · rintro ⟨h, -⟩
        exact absurd h hlt

/-- Splices leave marks in their order, and make none. -/
theorem map_followAll_sublist (ms : List Mark) (ss : List Splice) :
    ((followAll ms ss).map Mark.id).Sublist (ms.map Mark.id) := by
  induction ss generalizing ms with
  | nil => exact List.Sublist.refl _
  | cons s ss ih =>
      refine (ih _).trans ?_
      induction ms with
      | nil => exact List.Sublist.refl _
      | cons m ms ih =>
          rw [List.filterMap_cons]
          split
          · exact ih.cons m.id
          · next m' hm' =>
              obtain ⟨-, rfl⟩ := follow?_eq_some_iff.mp hm'
              exact ih.cons_cons m.id

/-- That marks are between characters of a text. -/
def Placed (t : Text) (ms : List Mark) : Prop :=
  ∀ m ∈ ms, m.start ≤ m.stop ∧ t.IsBoundary m.start ∧ t.IsBoundary m.stop

theorem Placed.filterMap {s : Splice} {ms : List Mark} (h : Placed s.before ms) :
    Placed s.after (ms.filterMap (follow? s)) := by
  intro m' hm'
  obtain ⟨m, hm, hfollow⟩ := List.mem_filterMap.mp hm'
  obtain ⟨hlt, rfl⟩ := follow?_eq_some_iff.mp hfollow
  obtain ⟨-, hstart, hstop⟩ := h m hm
  exact ⟨Nat.le_of_lt hlt, isBoundary_movedBy hstart _, isBoundary_movedBy hstop _⟩

/-- Marks that follow the splices of a text stay between characters. -/
theorem Placed.followAll {t : Text} {ms : List Mark} {ss : List Splice} (h : Placed t ms)
    (hchain : Splice.Chain t ss) : Placed (Splice.outcome t ss) (followAll ms ss) := by
  induction ss generalizing t ms with
  | nil => exact h
  | cons s ss ih =>
      obtain ⟨rfl, hrest⟩ := hchain
      exact ih h.filterMap hrest

end Mark

/-! ## Steps -/

namespace Editor

variable {e e' : Editor}

/-- The marks follow what is replaced between two points. -/
theorem marks_replaceBytes (e : Editor) (p q : Point) (x : Text) :
    (e.replaceBytes (e.spanOf p q).1 (e.spanOf p q).2 x).marks =
      Mark.followAll e.marks (e.text.splices p q x) := by
  by_cases hnone : e.text.splices p q x = []
  · rw [replaceBytes_of_splices_nil hnone, hnone]
    rfl
  · have hfollow : Mark.follow? (e.text.spliceBetween p q x) = fun m =>
        m.move? (min (e.text.indexOf p) (e.text.indexOf q))
          (max (e.text.indexOf p) (e.text.indexOf q))
          (min (e.text.indexOf p) (e.text.indexOf q) + x.byteLength) := by
      funext m
      unfold Mark.follow?
      rw [e.text.byteLength_front p q x, e.text.byteLength_front_removed p q x,
        e.text.byteLength_front_inserted p q x]
    unfold Text.splices at hnone ⊢
    simp only [Text.removed_eq_nil_iff] at hnone ⊢
    split at hnone
    · exact absurd rfl hnone
    · next hsome =>
        rw [if_neg hsome, spanOf_eq, replaceBytes, if_neg hsome]
        simp only [Mark.followAll, hfollow]

/-- What a step does to the marks: they follow splices of the text, one more is made, or those of an
id are cleared. -/
theorem Step.marks_cases (h : Step e e') :
    (∃ ss, Splice.Chain e.text ss ∧ e'.text = Splice.outcome e.text ss ∧
      e'.marks = Mark.followAll e.marks ss ∧ e'.nextMark = e.nextMark) ∨
    (∃ p q style, e' = (e.mark p q style).2) ∨ ∃ id, e' = e.clearMark id := by
  -- most steps splice nothing, which is the empty list of splices
  have hidle : ∀ {e' : Editor}, e'.text = e.text → e'.marks = e.marks →
      e'.nextMark = e.nextMark →
      ∃ ss, Splice.Chain e.text ss ∧ e'.text = Splice.outcome e.text ss ∧
        e'.marks = Mark.followAll e.marks ss ∧ e'.nextMark = e.nextMark :=
    fun htext hmarks hnext => ⟨[], trivial, htext, hmarks, hnext⟩
  cases h with
  | enter => exact .inl (hidle rfl rfl rfl)
  | leave =>
      obtain ⟨_, _, _, _, hleave⟩ := leave_eq e
      rw [hleave]
      exact .inl (hidle rfl rfl rfl)
  | replace p q x =>
      have hnext : (e.replaceBytes (e.spanOf p q).1 (e.spanOf p q).2 x).nextMark = e.nextMark := by
        unfold replaceBytes
        split <;> rfl
      exact .inl ⟨e.text.splices p q x, e.text.chain_splices p q x,
        (inside_replaceBytes e p q x).text, marks_replaceBytes e p q x, hnext⟩
  | scrollTo hscroll =>
      obtain ⟨_, _, rfl⟩ := scrollTo_eq hscroll
      exact .inl (hidle rfl rfl rfl)
  | resize hresize =>
      obtain ⟨_, _, rfl⟩ := resize_eq hresize
      exact .inl (hidle rfl rfl rfl)
  | mark p q style => exact .inr (.inl ⟨p, q, style, rfl⟩)
  | clearMark id => exact .inr (.inr ⟨id, rfl⟩)
  | drain => exact .inl (hidle rfl rfl rfl)

theorem markIds_mark (e : Editor) (p q : Point) (style : Style) :
    (e.mark p q style).2.markIds = e.markIds ++ [e.nextMark] := by
  simp [markIds, mark]

/-- That the marks of an editor are in the order of their ids, all of which have been given, and
between characters of its text. -/
structure InOrder (e : Editor) : Prop where
  ids : e.markIds.Pairwise (· < ·)
  given : ∀ id ∈ e.markIds, id < e.nextMark
  placed : Mark.Placed e.text e.marks

theorem inOrder_ofText (t : Text) (rows : Nat) : InOrder (ofText t rows) where
  ids := List.Pairwise.nil
  given := by
    intro id hid
    cases hid
  placed := by
    intro m hm
    cases hm

/-- A step keeps the marks in order. -/
theorem InOrder.step (he : e.InOrder) (h : Step e e') : e'.InOrder := by
  rcases h.marks_cases with ⟨ss, hchain, htext, hmarks, hnext⟩ | ⟨p, q, style, rfl⟩ | ⟨id, rfl⟩
  -- splices move marks or drop them, so their ids are some of those before
  · have hids : e'.markIds.Sublist e.markIds := by
      unfold markIds
      rw [hmarks]
      exact Mark.map_followAll_sublist e.marks ss
    refine ⟨he.ids.sublist hids, ?_, ?_⟩
    · intro id hid
      rw [hnext]
      exact he.given id (hids.subset hid)
    · rw [htext, hmarks]
      exact he.placed.followAll hchain
  -- a new mark has the next id and comes last
  · refine ⟨?_, ?_, ?_⟩
    · rw [markIds_mark, List.pairwise_append]
      refine ⟨he.ids, List.pairwise_singleton _ _, ?_⟩
      intro id hid next hnext
      rw [List.mem_singleton.mp hnext]
      exact he.given id hid
    · intro id hid
      rw [markIds_mark, List.mem_append, List.mem_singleton] at hid
      show id < e.nextMark + 1
      rcases hid with hid | rfl
      · exact Nat.lt_succ_of_lt (he.given id hid)
      · exact Nat.lt_succ_self _
    · intro m hm
      rcases List.mem_append.mp hm with hm | hm
      · exact he.placed m hm
      · obtain rfl := List.mem_singleton.mp hm
        exact ⟨e.text.min_indexOf_le_max p q, e.text.isBoundary_min p q, e.text.isBoundary_max p q⟩
  · have hids : (e.clearMark id).markIds.Sublist e.markIds :=
      List.filter_sublist.map Mark.id
    refine ⟨he.ids.sublist hids, ?_, ?_⟩
    · intro id' hid'
      exact he.given id' (hids.subset hid')
    · intro m hm
      exact he.placed m (List.mem_filter.mp hm).1

/-- Whatever is done to an editor, its marks are in order. -/
theorem InOrder.reaches (he : e.InOrder) (h : e.Reaches e') : e'.InOrder := by
  induction h with
  | refl => exact he
  | tail _ hstep ih => exact ih.step hstep

/-- What a step does to ids: those that have been given are given no more. -/
theorem Step.ids (h : Step e e') :
    e.nextMark ≤ e'.nextMark ∧ ∀ id ∈ e'.markIds, id ∈ e.markIds ∨ e.nextMark ≤ id := by
  rcases h.marks_cases with ⟨ss, -, -, hmarks, hnext⟩ | ⟨p, q, style, rfl⟩ | ⟨id, rfl⟩
  · refine ⟨Nat.le_of_eq hnext.symm, ?_⟩
    intro id hid
    unfold markIds at hid
    rw [hmarks] at hid
    exact .inl ((Mark.map_followAll_sublist e.marks ss).subset hid)
  · refine ⟨Nat.le_succ _, ?_⟩
    intro id hid
    rw [markIds_mark, List.mem_append, List.mem_singleton] at hid
    rcases hid with hid | rfl
    · exact .inl hid
    · exact .inr (Nat.le_refl _)
  · refine ⟨Nat.le_refl _, ?_⟩
    intro id' hid'
    exact .inl ((List.filter_sublist.map Mark.id).subset hid')

theorem Reaches.ids (h : e.Reaches e') :
    e.nextMark ≤ e'.nextMark ∧ ∀ id ∈ e'.markIds, id ∈ e.markIds ∨ e.nextMark ≤ id := by
  induction h with
  | refl => exact ⟨Nat.le_refl _, fun id hid => .inl hid⟩
  | tail _ hstep ih =>
      obtain ⟨hnext, hids⟩ := hstep.ids
      refine ⟨Nat.le_trans ih.1 hnext, ?_⟩
      intro id hid
      rcases hids id hid with hid | hid
      · exact ih.2 id hid
      · exact .inr (Nat.le_trans ih.1 hid)

/-! ## Ranges -/

/-- Of marks in the order of their ids, each is found by its own. -/
theorem find?_id {ms : List Mark} (hids : (ms.map Mark.id).Pairwise (· < ·)) {m : Mark}
    (hm : m ∈ ms) : ms.find? (·.id = m.id) = some m := by
  induction ms with
  | nil => cases hm
  | cons m' ms ih =>
      rw [List.map_cons, List.pairwise_cons] at hids
      rcases List.mem_cons.mp hm with rfl | hm
      · simp
      · have hlt : m'.id < m.id := hids.1 m.id (List.mem_map_of_mem hm)
        have hne : m'.id ≠ m.id := Nat.ne_of_lt hlt
        rw [List.find?_cons_of_neg (by simp [hne]), ih hids.2 hm]

/-- The range of a mark leads back to the ends of the mark. -/
theorem InOrder.exists_markRange? (he : e.InOrder) {m : Mark} (hm : m ∈ e.marks) :
    ∃ p q, e.markRange? m.id = some (p, q) ∧ p.upTo q = true ∧
      e.text.indexOf p = m.start ∧ e.text.indexOf q = m.stop := by
  obtain ⟨hle, hstart, hstop⟩ := he.placed m hm
  refine ⟨e.text.pointAt m.start, e.text.pointAt m.stop, ?_, ?_, ?_, ?_⟩
  · unfold markRange?
    rw [find?_id he.ids hm]
    rfl
  · exact Text.pointAt_mono hstart hstop hle
  · exact hstart.indexOf_pointAt
  · exact hstop.indexOf_pointAt

/-- Whatever is done to an editor, its marks are in the strict order of their ids, which are all
below the next one, and each of them is between characters of the text. So each has a range, whose
points lead back to its ends. An id is not given again: a later mark has a greater one, and a mark
that is gone does not come back. -/
theorem marks_kept_in_order {t : Text} {rows : Nat} (h : (ofText t rows).Reaches e) :
    e.markIds.Pairwise (· < ·) ∧ (∀ id ∈ e.markIds, id < e.nextMark) ∧
    (∀ m ∈ e.marks, m.start ≤ m.stop ∧ m.stop ≤ e.text.byteLength ∧
      e.text.IsBoundary m.start ∧ e.text.IsBoundary m.stop) ∧
    (∀ id ∈ e.markIds, ∃ m ∈ e.marks, m.id = id ∧
      ∃ p q, e.markRange? id = some (p, q) ∧ p.upTo q = true ∧
        e.text.indexOf p = m.start ∧ e.text.indexOf q = m.stop) ∧
    (∀ p q style e', (e.mark p q style).2.Reaches e' → ∀ p' q' style',
      (e.mark p q style).1 < (e'.mark p' q' style').1) ∧
    ∀ e', e.Reaches e' → ∀ id ∈ e'.markIds, id ∈ e.markIds ∨ e.nextMark ≤ id := by
  have he := (inOrder_ofText t rows).reaches h
  refine ⟨he.ids, he.given, ?_, ?_, ?_, ?_⟩
  · intro m hm
    obtain ⟨hle, hstart, hstop⟩ := he.placed m hm
    exact ⟨hle, hstop.le_byteLength, hstart, hstop⟩
  · intro id hid
    obtain ⟨m, hm, rfl⟩ := List.mem_map.mp hid
    exact ⟨m, hm, rfl, he.exists_markRange? hm⟩
  · intro p q style e' hreaches p' q' style'
    exact hreaches.ids.1
  · intro e' hreaches
    exact hreaches.ids.2

/-- Marks with their points in reverse order, past the end and inside a character, of which one is
dropped by an edit and one is cleared inside a nested operation; then an overlay is laid. -/
theorem marks_kept_in_order_of_overlay :
    let t : Text := ['a', 'é', '\n', 'ß', 'b']
    let cs : List Command :=
      [.mark ⟨7, 0⟩ ⟨0, 2⟩ { inclusiveRight := true }, .mark ⟨0, 0⟩ ⟨0, 1⟩ {},
        .operation [.mark ⟨1, 0⟩ ⟨1, 2⟩ {}, .delete ⟨0, 0⟩ ⟨0, 1⟩,
          .operation [.insert ⟨0, 1⟩ ['ü', '\n'], .clearMark 3]], .scrollTo 1, .resize 5]
    let captures : RowRange → List Highlight.Capture := fun _ => [⟨"a", 0, 0, ⟨0, 2⟩, ⟨2, 3⟩⟩]
    ∃ answers e n e', (ofText t 2).runAll cs = .ok (answers, e) ∧ (ofText t 2).Reaches e ∧
      Highlight.overlay e (some captures) .default none = .ok (n, e') ∧ e.Reaches e' ∧
      e.markIds = [1] ∧ e'.markIds = [4] ∧ e.markIds.Pairwise (· < ·) ∧
      (∀ m ∈ e.marks, m.start ≤ m.stop ∧ m.stop ≤ e.text.byteLength ∧
        e.text.IsBoundary m.start ∧ e.text.IsBoundary m.stop) ∧
      ∀ id ∈ e'.markIds, id ∈ e.markIds ∨ e.nextMark ≤ id := by
  intro t cs captures
  obtain ⟨⟨answers, e⟩, hrun, htest⟩ := Checked.exists_ok ((ofText t 2).runAll cs)
    (fun run => run.2.markIds = [1] ∧
      ((Highlight.overlay run.2 (some captures) .default none).map fun laid =>
        decide (laid.2.markIds = [4])).toOption = some true)
    (by decide +kernel)
  -- the deletion drops the second mark and the third is cleared, and the overlay replaces the first
  obtain ⟨hids, hlay⟩ := of_decide_eq_true htest
  obtain ⟨⟨n, e'⟩, hoverlay, hids'⟩ := Checked.exists_ok _ _ hlay
  have hreaches := reaches_runAll cs (ofText t 2) hrun
  have hreaches' := reaches_overlay hoverlay
  obtain ⟨hsorted, -, hplaced, -, -, hgiven⟩ := marks_kept_in_order hreaches
  exact ⟨answers, e, n, e', hrun, hreaches, hoverlay, hreaches', hids, of_decide_eq_true hids',
    hsorted, hplaced, hgiven e' hreaches'⟩

end Editor

end Lumen
