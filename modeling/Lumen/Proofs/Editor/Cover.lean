import Lumen.Proofs.Editor.Marks

/-!
# What marks cover

A mark covers the bytes between its ends. Of the bytes around an edit it covers the same before and
after, wherever they have gone to, and of the new bytes all or none (`Mark.TakesIn`). This is shown
for the two ends of a mark first (`moved_le_iff_of_lt`, `moved_le_image_iff`, `moved_le_new_iff`),
then for marks that follow a splice (`covered_image_iff`, `covered_new_iff`) and for those that
follow any number of them (`covered_followAll_iff`):

* `marks_follow_text` — each byte that survives edits is covered by a mark after them just if it was
  before, and an edit drops a mark just if nothing is left for it to cover;
* `idle_edit_keeps_empty_mark` — unless the edit replaces nothing by nothing, which leaves even a
  mark that covers nothing.
-/

namespace Lumen

namespace Mark

/-! ## Ends -/

section

variable {i start stop newStop k : Nat} {after : Bool}

/-- A byte before what is replaced stays on its side of an index. -/
theorem moved_le_iff_of_lt (hstop : start ≤ stop) (hnew : start ≤ newStop) (hk : k < start) :
    moved i start stop newStop after ≤ k ↔ i ≤ k := by
  unfold moved
  repeat' split
  all_goals omega

/-- A byte behind what is replaced stays on its side of an index. -/
theorem moved_le_image_iff (hstop : start ≤ stop) (hnew : start ≤ newStop) (hk : stop ≤ k) :
    moved i start stop newStop after ≤ k - stop + newStop ↔ i ≤ k := by
  unfold moved
  repeat' split
  all_goals omega

/-- The new bytes are all on the same side of an index. -/
theorem moved_le_new_iff (hstop : start ≤ stop) (hk : start ≤ k) (hk' : k < newStop) :
    moved i start stop newStop after ≤ k ↔
      i < start ∨ i = start ∧ (start < stop ∨ after = false) ∨
        start < i ∧ i < stop ∧ after = false := by
  unfold moved
  cases after
  all_goals
    simp only [Bool.false_eq_true, ↓reduceIte, reduceCtorEq, or_false, and_false, or_true, and_true]
    repeat' split
    all_goals omega

end

/-! ## Marks -/

/-- Whether a byte is between the ends of a mark. -/
def Covers (m : Mark) (i : Nat) : Prop := m.start ≤ i ∧ i < m.stop

instance (m : Mark) (i : Nat) : Decidable (m.Covers i) :=
  inferInstanceAs (Decidable (m.start ≤ i ∧ i < m.stop))

/-- Whether what is put in place of the bytes from `start` to `stop` becomes part of a mark. An end
of the mark that is outside of these bytes, or at an edge of them, is where it was, but an end
inside them, or at the place where something is inserted, goes by its flag. -/
def TakesIn (m : Mark) (start stop : Nat) : Prop :=
  (m.start < start ∨ m.start = start ∧ (start < stop ∨ m.style.inclusiveLeft = true) ∨
    start < m.start ∧ m.start < stop ∧ m.style.inclusiveLeft = true) ∧
  (stop < m.stop ∨ m.stop = stop ∧ (start < stop ∨ m.style.inclusiveRight = true) ∨
    start < m.stop ∧ m.stop < stop ∧ m.style.inclusiveRight = true)

/-- Whether a byte is covered by the mark of an id. A mark that is not there covers nothing. -/
def Covered (ms : List Mark) (id i : Nat) : Prop := ∃ m ∈ ms, m.id = id ∧ m.Covers i

end Mark

namespace Splice

theorem byteLength_front_le_removed (s : Splice) :
    s.front.byteLength ≤ (s.front ++ s.removed).byteLength := by
  rw [Text.byteLength_append]
  exact Nat.le_add_right _ _

theorem byteLength_front_le_inserted (s : Splice) :
    s.front.byteLength ≤ (s.front ++ s.inserted).byteLength := by
  rw [Text.byteLength_append]
  exact Nat.le_add_right _ _

/-- Where a byte of the text before is in the text after, unless it is removed. -/
def image? (s : Splice) (i : Nat) : Option Nat :=
  if i < s.front.byteLength then some i
  else if (s.front ++ s.removed).byteLength ≤ i then
    some (i - (s.front ++ s.removed).byteLength + (s.front ++ s.inserted).byteLength)
  else none

theorem image?_of_lt {s : Splice} {i : Nat} (h : i < s.front.byteLength) : s.image? i = some i := by
  unfold image?
  rw [if_pos h]

theorem image?_of_le {s : Splice} {i : Nat} (h : (s.front ++ s.removed).byteLength ≤ i) :
    s.image? i = some (i - (s.front ++ s.removed).byteLength +
      (s.front ++ s.inserted).byteLength) := by
  have hle := s.byteLength_front_le_removed
  unfold image?
  rw [if_neg (by omega), if_pos h]

/-- Where a byte is after splices that follow one another, unless one of them removes it. -/
def images? : List Splice → Nat → Option Nat
  | [], i => some i
  | s :: ss, i => (s.image? i).bind (images? ss)

end Splice

namespace Mark

variable {s : Splice} {m : Mark} {ms : List Mark} {id i j : Nat}

/-- A mark that has been moved covers what is between its moved ends; one that is dropped has
nothing between them. -/
theorem exists_follow?_covers_iff :
    (∃ m', follow? s m = some m' ∧ m'.Covers i) ↔
      movedBy s m.start (!m.style.inclusiveLeft) ≤ i ∧
        i < movedBy s m.stop m.style.inclusiveRight := by
  constructor
  · rintro ⟨m', hfollow, hcovers⟩
    obtain ⟨-, rfl⟩ := follow?_eq_some_iff.mp hfollow
    exact hcovers
  · intro hcovers
    have hlt := Nat.lt_of_le_of_lt hcovers.1 hcovers.2
    exact ⟨_, follow?_eq_some_iff.mpr ⟨hlt, rfl⟩, hcovers⟩

/-- A byte that survives a splice is covered after it just if it was before. -/
theorem exists_follow?_covers_image_iff (h : s.image? i = some j) :
    (∃ m', follow? s m = some m' ∧ m'.Covers j) ↔ m.Covers i := by
  have hremoved := s.byteLength_front_le_removed
  have hinserted := s.byteLength_front_le_inserted
  rw [exists_follow?_covers_iff, ← Nat.not_le]
  unfold Covers movedBy
  unfold Splice.image? at h
  split at h
  · next hi =>
      obtain rfl := Option.some.inj h
      rw [moved_le_iff_of_lt hremoved hinserted hi, moved_le_iff_of_lt hremoved hinserted hi,
        Nat.not_le]
  · split at h
    · next hi =>
        obtain rfl := Option.some.inj h
        rw [moved_le_image_iff hremoved hinserted hi, moved_le_image_iff hremoved hinserted hi,
          Nat.not_le]
    · cases h

/-- What a splice inserts is covered just if the mark takes it in. -/
theorem exists_follow?_covers_new_iff (hi : s.front.byteLength ≤ i)
    (hi' : i < (s.front ++ s.inserted).byteLength) :
    (∃ m', follow? s m = some m' ∧ m'.Covers i) ↔
      m.TakesIn s.front.byteLength (s.front ++ s.removed).byteLength := by
  have hremoved := s.byteLength_front_le_removed
  rw [exists_follow?_covers_iff, ← Nat.not_le]
  unfold movedBy TakesIn
  rw [moved_le_new_iff hremoved hi hi', moved_le_new_iff hremoved hi hi']
  rw [Bool.not_eq_false']
  refine and_congr Iff.rfl ?_
  -- the right end takes in the new bytes just if it does not stay before them
  cases m.style.inclusiveRight
  all_goals simp only [Bool.false_eq_true, reduceCtorEq, or_false, and_false, or_true, and_true]
  all_goals omega

/-- Of marks in the order of their ids, only one has a given id. -/
theorem eq_of_id {m' : Mark} (hids : (ms.map Mark.id).Pairwise (· < ·)) (hm : m ∈ ms)
    (hm' : m' ∈ ms) (hid : m'.id = m.id) : m' = m := by
  have hfind := Editor.find?_id hids hm'
  rw [hid, Editor.find?_id hids hm] at hfind
  exact (Option.some.inj hfind).symm

theorem covered_id_iff (hids : (ms.map Mark.id).Pairwise (· < ·)) (hm : m ∈ ms) :
    Covered ms m.id i ↔ m.Covers i := by
  constructor
  · rintro ⟨m', hm', hid, hcovers⟩
    obtain rfl := eq_of_id hids hm hm' hid
    exact hcovers
  · intro hcovers
    exact ⟨m, hm, rfl, hcovers⟩

/-! ## Marks that follow splices -/

theorem id_of_follow? {m' : Mark} (h : follow? s m = some m') : m'.id = m.id := by
  obtain ⟨-, rfl⟩ := follow?_eq_some_iff.mp h
  rfl

theorem covered_filterMap_iff :
    Covered (ms.filterMap (follow? s)) id i ↔
      ∃ m ∈ ms, m.id = id ∧ ∃ m', follow? s m = some m' ∧ m'.Covers i := by
  constructor
  · rintro ⟨m', hm', hid, hcovers⟩
    obtain ⟨m, hm, hfollow⟩ := List.mem_filterMap.mp hm'
    exact ⟨m, hm, (id_of_follow? hfollow).symm.trans hid, m', hfollow, hcovers⟩
  · rintro ⟨m, hm, hid, m', hfollow, hcovers⟩
    exact ⟨m', List.mem_filterMap.mpr ⟨m, hm, hfollow⟩, (id_of_follow? hfollow).trans hid, hcovers⟩

theorem covered_image_iff (h : s.image? i = some j) :
    Covered (ms.filterMap (follow? s)) id j ↔ Covered ms id i := by
  rw [covered_filterMap_iff]
  unfold Covered
  simp only [exists_follow?_covers_image_iff h]

theorem covered_new_iff (hids : (ms.map Mark.id).Pairwise (· < ·)) (hm : m ∈ ms)
    (hi : s.front.byteLength ≤ i) (hi' : i < (s.front ++ s.inserted).byteLength) :
    Covered (ms.filterMap (follow? s)) m.id i ↔
      m.TakesIn s.front.byteLength (s.front ++ s.removed).byteLength := by
  rw [covered_filterMap_iff, ← exists_follow?_covers_new_iff hi hi']
  constructor
  · rintro ⟨m', hm', hid, hcovers⟩
    obtain rfl := eq_of_id hids hm hm' hid
    exact hcovers
  · intro hcovers
    exact ⟨m, hm, rfl, hcovers⟩

/-- A mark is kept just if it still covers something. -/
theorem mem_ids_iff_exists_covered :
    id ∈ (ms.filterMap (follow? s)).map Mark.id ↔
      ∃ i, Covered (ms.filterMap (follow? s)) id i := by
  constructor
  · intro hid
    obtain ⟨m', hm', rfl⟩ := List.mem_map.mp hid
    obtain ⟨m, -, hfollow⟩ := List.mem_filterMap.mp hm'
    obtain ⟨hlt, rfl⟩ := follow?_eq_some_iff.mp hfollow
    exact ⟨_, _, hm', rfl, Nat.le_refl _, hlt⟩
  · rintro ⟨i, m', hm', rfl, -⟩
    exact List.mem_map_of_mem hm'

/-- That is, just if it covers a byte that is not replaced, or takes in the new bytes. -/
theorem mem_ids_iff (hids : (ms.map Mark.id).Pairwise (· < ·)) (hm : m ∈ ms) :
    m.id ∈ (ms.filterMap (follow? s)).map Mark.id ↔
      (∃ i, (i < s.front.byteLength ∨ (s.front ++ s.removed).byteLength ≤ i) ∧ m.Covers i) ∨
        s.inserted ≠ [] ∧ m.TakesIn s.front.byteLength (s.front ++ s.removed).byteLength := by
  have hlength := Text.byteLength_append s.front s.inserted
  rw [mem_ids_iff_exists_covered]
  constructor
  -- a byte that is covered after the splice is one from before it, a new one, or one from behind it
  · rintro ⟨k, hk⟩
    rcases Nat.lt_or_ge k s.front.byteLength with hbefore | hfront
    · have hcovers := (covered_image_iff (Splice.image?_of_lt hbefore)).mp hk
      exact .inl ⟨k, .inl hbefore, (covered_id_iff hids hm).mp hcovers⟩
    · rcases Nat.lt_or_ge k (s.front ++ s.inserted).byteLength with hnew | hbehind
      · refine .inr ⟨?_, (covered_new_iff hids hm hfront hnew).mp hk⟩
        intro hnil
        rw [hnil, List.append_nil] at hnew
        omega
      · obtain ⟨d, rfl⟩ := Nat.exists_eq_add_of_le' hbehind
        have himage := Splice.image?_of_le (Nat.le_add_left (s.front ++ s.removed).byteLength d)
        rw [Nat.add_sub_cancel] at himage
        have hcovers := (covered_image_iff himage).mp hk
        exact .inl ⟨_, .inr (Nat.le_add_left _ _), (covered_id_iff hids hm).mp hcovers⟩
  · rintro (⟨i, hi | hi, hcovers⟩ | ⟨hsome, htakes⟩)
    · have hcovers := (covered_id_iff hids hm).mpr hcovers
      exact ⟨_, (covered_image_iff (Splice.image?_of_lt hi)).mpr hcovers⟩
    · have hcovers := (covered_id_iff hids hm).mpr hcovers
      exact ⟨_, (covered_image_iff (Splice.image?_of_le hi)).mpr hcovers⟩
    · have hpos : s.inserted.byteLength ≠ 0 := mt Text.eq_nil_of_byteLength_eq_zero hsome
      exact ⟨_, (covered_new_iff hids hm (Nat.le_refl _) (by omega)).mpr htakes⟩

/-- A byte that survives splices is covered after them just if it was before. -/
theorem covered_followAll_iff {ss : List Splice} (h : Splice.images? ss i = some j) :
    Covered (followAll ms ss) id j ↔ Covered ms id i := by
  induction ss generalizing ms i with
  | nil =>
      obtain rfl := Option.some.inj h
      exact Iff.rfl
  | cons s ss ih =>
      obtain ⟨k, hk, hrest⟩ := Option.bind_eq_some_iff.mp h
      exact (ih hrest).trans (covered_image_iff hk)

theorem followAll_append (ms : List Mark) (ss us : List Splice) :
    followAll ms (ss ++ us) = followAll (followAll ms ss) us := by
  induction ss generalizing ms with
  | nil => rfl
  | cons s ss ih => exact ih _

end Mark

/-! ## Edits -/

namespace Editor

/-- That the text of an editor becomes another by splices which its marks follow. -/
structure Followed (e : Editor) (ss : List Splice) (e' : Editor) : Prop where
  text : e'.text = Splice.outcome e.text ss
  marks : e'.marks = Mark.followAll e.marks ss

theorem Followed.trans {e e' e'' : Editor} {ss us : List Splice} (h : Followed e ss e')
    (h' : Followed e' us e'') : Followed e (ss ++ us) e'' := by
  constructor
  · rw [h'.text, h.text, Splice.outcome_append]
  · rw [h'.marks, h.marks, Mark.followAll_append]

theorem Followed.leave {e e' : Editor} {ss : List Splice} (h : Followed e.enter ss e') :
    Followed e ss e'.leave := by
  obtain ⟨_, _, _, _, hleave⟩ := leave_eq e'
  rw [hleave]
  exact ⟨h.text, h.marks⟩

theorem followed_replace (e : Editor) (p q : Point) (x : Text) :
    Followed e (e.text.splices p q x) (e.replace p q x) := by
  have hbytes : Followed e.enter (e.text.splices p q x)
      (e.enter.replaceBytes (e.spanOf p q).1 (e.spanOf p q).2 x) :=
    ⟨(inside_replaceBytes e.enter p q x).text, marks_replaceBytes e.enter p q x⟩
  exact hbytes.leave

mutual
/-- Marks follow the splices of an edit, also those inside operations. -/
theorem run_followed (c : Command) (e : Editor) (hc : c.every Command.isEdit = true)
    {answer : Answer} {e' : Editor} (h : e.run c = .ok (answer, e')) :
    Followed e (c.splices e.text) e' := by
  cases c with
  | operation commands =>
      obtain ⟨answers, e₁, hall, rfl⟩ := run_operation_eq h
      rw [Command.every] at hc
      rw [Command.splices]
      exact (runAll_followed commands e.enter hc hall).leave
  | insert | delete | replace | append | setText =>
      obtain ⟨-, rfl⟩ := Prod.mk.inj (Checked.pure_eq_ok.mp h)
      exact followed_replace e _ _ _
  | _ => exact absurd hc (by simp [Command.every, Command.isEdit])
theorem runAll_followed (cs : List Command) (e : Editor)
    (hcs : Command.everyIn Command.isEdit cs = true) {answers : List Answer} {e' : Editor}
    (h : e.runAll cs = .ok (answers, e')) : Followed e (Command.splicesIn e.text cs) e' := by
  cases cs with
  | nil =>
      obtain ⟨-, rfl⟩ := Prod.mk.inj (Checked.pure_eq_ok.mp h)
      exact ⟨rfl, rfl⟩
  | cons c cs =>
      rw [Command.everyIn, Bool.and_eq_true] at hcs
      obtain ⟨answer, answers₁, e₁, hrun, hall⟩ := runAll_cons_eq h
      have hfirst := run_followed c e hcs.1 hrun
      have hothers := runAll_followed cs e₁ hcs.2 hall
      rw [hfirst.text] at hothers
      rw [Command.splicesIn]
      exact hfirst.trans hothers
end

/-- An edit splices the text between the indices of its points. -/
theorem text_replace (e : Editor) (p q : Point) (x : Text) :
    (e.replace p q x).text =
      e.text.splice (min (e.text.indexOf p) (e.text.indexOf q))
        (max (e.text.indexOf p) (e.text.indexOf q)) x := by
  rw [(followed_replace e p q x).text]
  unfold Text.splices
  simp only [Text.removed_eq_nil_iff]
  split
  · next hidle =>
      obtain ⟨hsame, rfl⟩ := hidle
      unfold Text.splice
      rw [hsame, List.append_nil, Text.takeBytes_append_dropBytes]
      rfl
  · rfl

/-- An edit covers what its splice does. An edit that replaces nothing by nothing makes none, but
that would drop only marks that cover nothing. -/
theorem covered_replace (e : Editor) (p q : Point) (x : Text) {id i : Nat} :
    Mark.Covered (e.replace p q x).marks id i ↔
      Mark.Covered (e.marks.filterMap (Mark.follow? (e.text.spliceBetween p q x))) id i := by
  rw [(followed_replace e p q x).marks]
  unfold Text.splices
  simp only
  split
  · next hidle =>
      obtain ⟨hremoved, rfl⟩ := hidle
      have himage : (e.text.spliceBetween p q []).image? i = some i := by
        rcases Nat.lt_or_ge i (e.text.spliceBetween p q []).front.byteLength with hi | hi
        · exact Splice.image?_of_lt hi
        · -- what is behind the edit moves by no bytes
          rw [Splice.image?_of_le (by rwa [hremoved, List.append_nil]), hremoved]
          have hinserted : (e.text.spliceBetween p q []).inserted = [] := rfl
          rw [hinserted, List.append_nil, Nat.sub_add_cancel hi]
      exact (Mark.covered_image_iff himage).symm
  · exact Iff.rfl

/-- Whatever has been done to an editor, an edit leaves each byte outside of what it replaces
covered by just the marks that covered it before, wherever the byte has gone to, and its new bytes
are in a mark all or none. It drops the marks that have nothing left to cover, unless it replaces
nothing by nothing: then all marks are as they were. So over any number of edits, a byte that
survives them all is covered by just the marks that covered it in the beginning. -/
theorem marks_follow_text {t : Text} {rows : Nat} {e : Editor} (h : (ofText t rows).Reaches e) :
    (∀ m ∈ e.marks, ∀ p q x,
      let start := min (e.text.indexOf p) (e.text.indexOf q)
      let stop := max (e.text.indexOf p) (e.text.indexOf q)
      let e' := e.replace p q x
      let covered := Mark.Covered e'.marks m.id
      e'.text = e.text.splice start stop x ∧
      (∀ i < start, covered i ↔ m.Covers i) ∧
      (∀ i ≥ stop, covered (i - stop + (start + x.byteLength)) ↔ m.Covers i) ∧
      (∀ i, start ≤ i → i < start + x.byteLength → (covered i ↔ m.TakesIn start stop)) ∧
      if start = stop ∧ x = [] then e'.marks = e.marks
      else (∀ m' ∈ e'.marks, m'.start < m'.stop) ∧
        (m.id ∈ e'.markIds ↔
          (∃ i, (i < start ∨ stop ≤ i) ∧ m.Covers i) ∨ x ≠ [] ∧ m.TakesIn start stop)) ∧
    ∀ cs, Command.everyIn Command.isEdit cs = true → ∃ answers e',
      e.runAll cs = .ok (answers, e') ∧
      e'.text = Splice.outcome e.text (Command.splicesIn e.text cs) ∧
      ∀ id i j, Splice.images? (Command.splicesIn e.text cs) i = some j →
        (Mark.Covered e'.marks id j ↔ Mark.Covered e.marks id i) := by
  have he := (inOrder_ofText t rows).reaches h
  refine ⟨?_, ?_⟩
  · intro m hm p q x start stop e' covered
    have hfront := e.text.byteLength_front p q x
    have hremoved := e.text.byteLength_front_removed p q x
    have hinserted := e.text.byteLength_front_inserted p q x
    -- the three kinds of bytes: before what is replaced, behind it, and new ones
    have hbefore : ∀ i < start, covered i ↔ m.Covers i := by
      intro i hi
      have himage := Splice.image?_of_lt (Nat.lt_of_lt_of_eq hi hfront.symm)
      exact (covered_replace e p q x).trans
        ((Mark.covered_image_iff himage).trans (Mark.covered_id_iff he.ids hm))
    have hbehind : ∀ i ≥ stop, covered (i - stop + (start + x.byteLength)) ↔ m.Covers i := by
      intro i hi
      have himage := Splice.image?_of_le (Nat.le_trans (Nat.le_of_eq hremoved) hi)
      rw [hremoved, hinserted] at himage
      exact (covered_replace e p q x).trans
        ((Mark.covered_image_iff himage).trans (Mark.covered_id_iff he.ids hm))
    have hnew : ∀ i, start ≤ i → i < start + x.byteLength →
        (covered i ↔ m.TakesIn start stop) := by
      intro i hi hi'
      have htakes := Mark.covered_new_iff he.ids hm (Nat.le_trans (Nat.le_of_eq hfront) hi)
        (Nat.lt_of_lt_of_eq hi' hinserted.symm)
      rw [hfront, hremoved] at htakes
      exact (covered_replace e p q x).trans htakes
    -- an edit that replaces nothing by nothing is no splice, so it drops no mark
    have hedited := followed_replace e p q x
    unfold Text.splices at hedited
    simp only [Text.removed_eq_nil_iff] at hedited
    by_cases hidle : start = stop ∧ x = []
    · rw [if_pos hidle] at hedited ⊢
      exact ⟨text_replace e p q x, hbefore, hbehind, hnew, hedited.marks⟩
    · rw [if_neg hidle] at hedited ⊢
      have hmarks : e'.marks = e.marks.filterMap (Mark.follow? (e.text.spliceBetween p q x)) :=
        hedited.marks
      refine ⟨text_replace e p q x, hbefore, hbehind, hnew, ?_, ?_⟩
      · intro m' hm'
        rw [hmarks] at hm'
        obtain ⟨m₀, -, hfollow⟩ := List.mem_filterMap.mp hm'
        obtain ⟨hlt, rfl⟩ := Mark.follow?_eq_some_iff.mp hfollow
        exact hlt
      · have hkept := Mark.mem_ids_iff (s := e.text.spliceBetween p q x) he.ids hm
        rw [hfront, hremoved, ← hmarks] at hkept
        exact hkept
  · intro cs hcs
    -- over many edits, a byte is followed by the images of its index
    obtain ⟨answers, e', hrun⟩ := runAll_edits_ok cs e hcs
    have hfollowed := runAll_followed cs e hcs hrun
    refine ⟨answers, e', hrun, hfollowed.text, ?_⟩
    intro id i j himage
    rw [hfollowed.marks]
    exact Mark.covered_followAll_iff himage

/-- A mark that takes in what is inserted at its right edge, of which a character is deleted inside
an operation. The last byte of the text is outside of the mark before and after. -/
theorem marks_follow_text_of_edits :
    let t : Text := ['a', 'é', 'b', 'c', 'd']
    let e := ((ofText t 1).mark ⟨0, 4⟩ ⟨0, 1⟩ { inclusiveRight := true }).2
    let m : Mark := ⟨1, 1, 4, { inclusiveRight := true }⟩
    let cs : List Command :=
      [.insert ⟨0, 4⟩ ['x', 'y'], .operation [.delete ⟨0, 0⟩ ⟨0, 3⟩, .insert ⟨0, 0⟩ ['\n']]]
    let covered := Mark.Covered (e.replace ⟨0, 4⟩ ⟨0, 4⟩ ['x', 'y']).marks 1
    (ofText t 1).Reaches e ∧ m ∈ e.marks ∧ (covered 3 ↔ m.Covers 3) ∧ (covered 6 ↔ m.Covers 4) ∧
    (covered 5 ↔ m.TakesIn 4 4) ∧ m.Covers 3 ∧ ¬m.Covers 4 ∧ m.TakesIn 4 4 ∧
    ∃ answers e', e.runAll cs = .ok (answers, e') ∧
      (Mark.Covered e'.marks 1 1 ↔ Mark.Covered e.marks 1 3) := by
  intro t e m cs covered
  have hreaches : (ofText t 1).Reaches e := .single (.mark _ _ _ _)
  have hmarks : e.marks = [m] := by decide +kernel
  have hm : m ∈ e.marks := by
    rw [hmarks]
    exact List.mem_singleton_self m
  have htakes : m.TakesIn 4 4 := by
    unfold Mark.TakesIn
    decide
  obtain ⟨hedit, hedits⟩ := marks_follow_text hreaches
  obtain ⟨-, hbefore, hbehind, hnew, -⟩ := hedit m hm ⟨0, 4⟩ ⟨0, 4⟩ ['x', 'y']
  obtain ⟨answers, e', hrun, -, himages⟩ := hedits cs rfl
  refine ⟨hreaches, hm, hbefore 3 (by decide +kernel), hbehind 4 (by decide +kernel),
    hnew 5 (by decide +kernel) (by decide +kernel), by decide, by decide, htakes, answers, e', hrun,
    himages 1 3 1 (by decide +kernel)⟩

/-- An empty mark stays empty when nothing is replaced by nothing, but it is not dropped. -/
theorem idle_edit_keeps_empty_mark :
    let e := ((ofText ['a', 'b'] 2).mark ⟨0, 1⟩ ⟨0, 1⟩ {}).2
    let e' := e.insert ⟨0, 0⟩ []
    (ofText ['a', 'b'] 2).Reaches e ∧ e.Reaches e' ∧ e'.markIds = [1] ∧
      ∀ i, ¬Mark.Covered e'.marks 1 i := by
  intro e e'
  have hmarks : e'.marks = [⟨1, 1, 1, {}⟩] := by decide +kernel
  refine ⟨.single (.mark _ _ _ _), reaches_replace e _ _ _, ?_, ?_⟩
  · unfold markIds
    rw [hmarks]
    rfl
  · rintro i ⟨m, hm, -, hcovers⟩
    rw [hmarks] at hm
    obtain rfl := List.mem_singleton.mp hm
    exact absurd (Nat.lt_of_le_of_lt hcovers.1 hcovers.2) (Nat.lt_irrefl 1)

end Editor

end Lumen
