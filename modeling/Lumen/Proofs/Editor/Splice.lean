import Lumen.Proofs.Checked
import Lumen.Proofs.Text.Place

/-!
# Splices

A `Splice` is what an edit does to a text: the stretch between two others gives way to a new one.
It has a change that tells of it and an edit that tells of it by places. The edit is coherent with
the texts before and after (`Splice.coherent`), and there are no other coherent edits
(`Edit.Coherent.exists_splice`). In the text before, the change can stand for nothing but this edit
(`eq_edit`), and it leaves the text after (`replay_change`). So splices that follow one another can
be replayed from their changes alone (`eq_of_editAll`), and this meets no fault as long as the texts
fit (`editAll_changes`).
-/

namespace Lumen

/-- A text of which memory can hold the bytes, with one to spare. -/
def Text.Fits (t : Text) : Prop := t.byteLength < Size.largest

instance (t : Text) : Decidable t.Fits := inferInstanceAs (Decidable (t.byteLength < Size.largest))

/-! ## Coherence -/

namespace Edit

/-- What an edit has to be to tell how one text becomes another. -/
structure Coherent (e : Edit) (t t' : Text) : Prop where
  start_le_oldStop : e.start.bytes ≤ e.oldStop.bytes
  start_le_newStop : e.start.bytes ≤ e.newStop.bytes
  oldStop_le : e.oldStop.bytes ≤ t.byteLength
  start_boundary : t.IsBoundary e.start.bytes
  oldStop_boundary : t.IsBoundary e.oldStop.bytes
  newStop_boundary : t'.IsBoundary e.newStop.bytes
  /-- Both texts begin alike. -/
  front_eq : t.takeBytes e.start.bytes = t'.takeBytes e.start.bytes
  /-- Both texts end alike. -/
  back_eq : t.dropBytes e.oldStop.bytes = t'.dropBytes e.newStop.bytes
  start_point : e.start.point = t.pointAt e.start.bytes
  oldStop_point : e.oldStop.point = t.pointAt e.oldStop.bytes
  newStop_point : e.newStop.point = t'.pointAt e.newStop.bytes

/-- Edits of which each tells how the text that those before it led to becomes another. -/
inductive Path : Text → List Edit → Text → Prop
  | nil (t : Text) : Path t [] t
  | cons {t u v : Text} {e : Edit} {es : List Edit} :
      e.Coherent t u → Path u es v → Path t (e :: es) v

end Edit

/-! ## Splices -/

/-- A text in three stretches, and what the middle one gives way to. -/
structure Splice where
  front : Text
  removed : Text
  back : Text
  inserted : Text

namespace Splice

variable (s : Splice)

def before : Text := s.front ++ s.removed ++ s.back

def after : Text := s.front ++ s.inserted ++ s.back

/-- The change that tells of a splice. -/
def change : Change :=
  Change.ofTexts (Extent.ofChars s.front).point (Extent.ofChars (s.front ++ s.removed)).point
    s.inserted s.removed

/-- The places of a splice. -/
def edit : Edit :=
  ⟨Extent.ofChars s.front, Extent.ofChars (s.front ++ s.removed),
    Extent.ofChars (s.front ++ s.inserted)⟩

/-- The splice in a text that goes on after it. -/
def extend (rest : Text) : Splice := { s with back := s.back ++ rest }

theorem before_extend (rest : Text) : (s.extend rest).before = s.before ++ rest := by
  simp only [extend, before, List.append_assoc]

theorem after_extend (rest : Text) : (s.extend rest).after = s.after ++ rest := by
  simp only [extend, after, List.append_assoc]

/-- The edit of a splice tells rightly of it. -/
theorem coherent : s.edit.Coherent s.before s.after := by
  have hstart : s.before = s.front ++ (s.removed ++ s.back) := List.append_assoc _ _ _
  have hstart' : s.after = s.front ++ (s.inserted ++ s.back) := List.append_assoc _ _ _
  -- offsets are lengths of stretches, and points are those of their extents
  constructor
  · simp only [edit, Extent.bytes_ofChars, Text.byteLength_append]
    omega
  · simp only [edit, Extent.bytes_ofChars, Text.byteLength_append]
    omega
  · simp only [edit, before, Extent.bytes_ofChars, Text.byteLength_append]
    omega
  · rw [hstart, edit, Extent.bytes_ofChars]
    exact Text.isBoundary_append _ _
  · rw [edit, Extent.bytes_ofChars]
    exact Text.isBoundary_append _ _
  · rw [edit, Extent.bytes_ofChars]
    exact Text.isBoundary_append _ _
  · rw [hstart, hstart', edit, Extent.bytes_ofChars, Text.takeBytes_append,
      Text.takeBytes_append]
  · rw [edit, Extent.bytes_ofChars, Extent.bytes_ofChars, before, after, Text.dropBytes_append,
      Text.dropBytes_append]
  · rw [hstart, edit, Extent.bytes_ofChars, Text.pointAt_append]
  · rw [edit, Extent.bytes_ofChars, before, Text.pointAt_append]
  · rw [edit, Extent.bytes_ofChars, after, Text.pointAt_append]

end Splice

/-- A place has the extent of the stretch before it if it has the point of its index. -/
theorem Text.IsBoundary.extent_eq {t : Text} {x : Extent} (h : t.IsBoundary x.bytes)
    (hpoint : x.point = t.pointAt x.bytes) : x = Extent.ofChars (t.takeBytes x.bytes) := by
  obtain ⟨hrow, hcolumn⟩ := Point.mk.inj (hpoint.trans h.pointAt_eq)
  exact Extent.ext ((Extent.bytes_ofChars _).trans h).symm hrow hcolumn

/-- An edit that tells how one text becomes another is the edit of a splice. -/
theorem Edit.Coherent.exists_splice {e : Edit} {t t' : Text} (h : e.Coherent t t') :
    ∃ s : Splice, s.before = t ∧ s.after = t' ∧ s.edit = e := by
  have hstart' : t'.IsBoundary e.start.bytes := by
    have hfront := h.start_boundary
    rwa [Text.IsBoundary, h.front_eq] at hfront
  have hremoved := Text.takeBytes_append_between h.start_boundary h.start_le_oldStop
  have hinserted := Text.takeBytes_append_between hstart' h.start_le_newStop
  rw [← h.front_eq] at hinserted
  refine ⟨⟨t.takeBytes e.start.bytes, t.between e.start.bytes e.oldStop.bytes,
    t.dropBytes e.oldStop.bytes, t'.between e.start.bytes e.newStop.bytes⟩, ?_, ?_, ?_⟩
  · rw [Splice.before, hremoved, Text.takeBytes_append_dropBytes]
  · rw [Splice.after, hinserted, h.back_eq, Text.takeBytes_append_dropBytes]
  · rw [Splice.edit, hremoved, hinserted, ← h.start_boundary.extent_eq h.start_point,
      ← h.oldStop_boundary.extent_eq h.oldStop_point,
      ← h.newStop_boundary.extent_eq h.newStop_point]

namespace Splice

variable (s : Splice)

/-- The lines of a text lead from the end of a stretch to the end of both. -/
theorem eq_of_stopOf {a x : Text} {q : Point}
    (h : Change.stopOf (Extent.ofChars a).point x.splitFeeds = .ok q) :
    q = (Extent.ofChars (a ++ x)).point := by
  unfold Change.stopOf at h
  obtain ⟨pastRow, hrow, hcolumn⟩ := Checked.bind_eq_ok.mp h
  simp only [Text.lastBytes_splitFeeds, Text.length_splitFeeds, Nat.le_add_left, Nat.max_eq_left,
    Extent.point] at hrow hcolumn
  have hpast := Size.eq_of_add hrow
  rw [Extent.ofChars_append]
  -- columns go on from the stretch only as long as its last row does
  split at hcolumn
  · next hone =>
      obtain ⟨column, hadd, hpair⟩ := Checked.bind_eq_ok.mp hcolumn
      rw [← Checked.pure_eq_ok.mp hpair, hpast, Size.eq_of_add hadd]
      have hx : (Extent.ofChars x).row = 0 := by omega
      simp [Extent.point, hx]
  · next hmore =>
      rw [← Checked.pure_eq_ok.mp hcolumn, hpast]
      have hx : (Extent.ofChars x).row ≠ 0 := by omega
      simp [Extent.point, hx]

/-- In a text that fits, lines have an end. -/
theorem exists_stopOf {a x : Text} (h : (a ++ x).Fits) :
    ∃ q, Change.stopOf (Extent.ofChars a).point x.splitFeeds = .ok q := by
  -- each row takes the byte that ends it, so rows and columns are no more than bytes
  have hle := Extent.row_add_column_le (a ++ x)
  rw [Text.Fits] at h
  rw [Extent.ofChars_append] at hle
  simp only [Extent.row_add, Extent.column_add] at hle
  have hrow : (Extent.ofChars a).row + ((Extent.ofChars x).row + 1) ≤ Size.largest := by omega
  rw [Change.stopOf]
  simp only [Text.lastBytes_splitFeeds, Text.length_splitFeeds, Nat.le_add_left, Nat.max_eq_left,
    Extent.point]
  rw [Size.add_of_le hrow, Checked.ok_bind]
  by_cases hx : (Extent.ofChars x).row = 0
  · rw [if_pos hx] at hle
    rw [if_pos (by omega), Size.add_of_le (by omega), Checked.ok_bind]
    exact ⟨_, rfl⟩
  · rw [if_neg (by omega)]
    exact ⟨_, rfl⟩

/-- A change can stand for nothing but the edit of its splice. -/
theorem eq_edit {e : Edit} (h : s.change.edit s.before = .ok e) : e = s.edit := by
  have hstart : s.before.indexOf (Extent.ofChars s.front).point = s.front.byteLength := by
    rw [before, List.append_assoc]
    exact Text.indexOf_point _ _
  have hbytes : ∀ x, s.front.byteLength + Text.byteLength x =
      (Extent.ofChars (s.front ++ x)).bytes := by
    intro x
    rw [Extent.bytes_ofChars, Text.byteLength_append]
  obtain ⟨newStop, hstop, hpair⟩ := Checked.bind_eq_ok.mp h
  rw [← Checked.pure_eq_ok.mp hpair]
  rw [eq_of_stopOf hstop]
  simp only [change, Change.ofTexts]
  rw [hstart, Text.bytesOf_splitFeeds, Text.bytesOf_splitFeeds, hbytes, hbytes,
    ← Extent.bytes_ofChars]
  rfl

/-- A change that leads to a text that fits stands for the edit of its splice. -/
theorem edit_change (h : s.after.Fits) : s.change.edit s.before = .ok s.edit := by
  have hfits : (s.front ++ s.inserted).Fits := by
    simp only [Text.Fits, after, Text.byteLength_append] at h ⊢
    omega
  obtain ⟨newStop, hstop⟩ := exists_stopOf hfits
  obtain ⟨e, he⟩ : ∃ e, s.change.edit s.before = .ok e := by
    rw [Change.edit, change, Change.ofTexts]
    simp only
    rw [hstop]
    exact ⟨_, rfl⟩
  rw [he, s.eq_edit he]

/-- Replaying the change of a splice makes the splice. -/
theorem replay_change : s.change.replay s.edit s.before = s.after := by
  rw [Change.replay, change, Change.ofTexts, edit, Text.joinFeeds_splitFeeds,
    Extent.bytes_ofChars, Extent.bytes_ofChars, before, Text.splice_append, after]

/-! ## Splices that follow one another -/

/-- The text that splices lead to, of which each is made in the text after the one before it. -/
def outcome : Text → List Splice → Text
  | t, [] => t
  | _, s :: ss => outcome s.after ss

/-- Whether each splice is made in the text after the one before it. -/
def Chain : Text → List Splice → Prop
  | _, [] => True
  | t, s :: ss => s.before = t ∧ Chain s.after ss

theorem outcome_append (t : Text) (ss us : List Splice) :
    outcome t (ss ++ us) = outcome (outcome t ss) us := by
  induction ss generalizing t with
  | nil => rfl
  | cons s ss ih => exact ih s.after

theorem chain_append {t : Text} {ss us : List Splice} (hs : Chain t ss)
    (hu : Chain (outcome t ss) us) : Chain t (ss ++ us) := by
  induction ss generalizing t with
  | nil => exact hu
  | cons s ss ih => exact ⟨hs.1, ih hs.2 hu⟩

theorem chain_of_append {t : Text} {ss us : List Splice} (h : Chain t (ss ++ us)) :
    Chain t ss ∧ Chain (outcome t ss) us := by
  induction ss generalizing t with
  | nil => exact ⟨trivial, h⟩
  | cons s ss ih =>
      obtain ⟨hs, hrest⟩ := h
      obtain ⟨hss, hus⟩ := ih hrest
      exact ⟨⟨hs, hss⟩, hus⟩

/-- Changes can be replayed to nothing but the edits of their splices and the text that these lead
to. -/
theorem eq_of_editAll {t t' : Text} {ss : List Splice} {es : List Edit} (hchain : Chain t ss)
    (h : Change.editAll (ss.map change) t = .ok (es, t')) :
    es = ss.map edit ∧ t' = outcome t ss := by
  induction ss generalizing t es with
  | nil =>
      obtain ⟨rfl, rfl⟩ := Prod.mk.inj (Checked.pure_eq_ok.mp h)
      exact ⟨rfl, rfl⟩
  | cons s ss ih =>
      obtain ⟨rfl, hrest⟩ := hchain
      obtain ⟨e, hedit, hothers⟩ := Checked.bind_eq_ok.mp h
      obtain ⟨⟨es', t''⟩, hall, hpair⟩ := Checked.bind_eq_ok.mp hothers
      obtain ⟨rfl, rfl⟩ := Prod.mk.inj (Checked.pure_eq_ok.mp hpair)
      have he := s.eq_edit hedit
      rw [he, replay_change] at hall
      obtain ⟨rfl, rfl⟩ := ih hrest hall
      rw [he]
      exact ⟨rfl, rfl⟩

/-- As long as the texts fit, changes are replayed. -/
theorem editAll_changes {t : Text} {ss : List Splice} (hchain : Chain t ss)
    (hfits : ∀ s ∈ ss, s.after.Fits) :
    Change.editAll (ss.map change) t = .ok (ss.map edit, outcome t ss) := by
  induction ss generalizing t with
  | nil => rfl
  | cons s ss ih =>
      obtain ⟨rfl, hrest⟩ := hchain
      have hs := hfits s List.mem_cons_self
      have hss := ih hrest fun u hu => hfits u (List.mem_cons_of_mem s hu)
      rw [List.map_cons, Change.editAll, edit_change s hs, Checked.ok_bind, replay_change, hss]
      rfl

/-- The edits of splices lead from text to text, also if both go on after them. -/
theorem path_edits {t : Text} {ss : List Splice} (hchain : Chain t ss) (rest : Text) :
    Edit.Path (t ++ rest) (ss.map edit) (outcome t ss ++ rest) := by
  induction ss generalizing t with
  | nil => exact .nil _
  | cons s ss ih =>
      obtain ⟨rfl, hrest⟩ := hchain
      -- what comes after a splice makes no difference to its edit
      have hs := (s.extend rest).coherent
      rw [before_extend, after_extend] at hs
      exact .cons hs (ih hrest)

end Splice

end Lumen
