import Lumen.Proofs.Text.Extent

/-!
# Places between characters

A byte index stands between two characters of a text if it is the size of a stretch from the start
of the text (`IsBoundary`). For such indices, byte index and point tell the same place:

* `pointAt_append` — the point of the index after a stretch is the one of its extent;
* `point_upTo_iff` — the index of a point is the last between characters whose point is not after
  it, so `indexOf` is monotone (`indexOf_mono`) and leads back from a point (`indexOf_point`);
* `splice_append` — a splice between two such indices replaces the stretch between them.
-/

namespace Lumen

/-! ## The order of points -/

namespace Point

theorem upTo_iff {p q : Point} :
    p.upTo q = true ↔ p.row < q.row ∨ p.row = q.row ∧ p.column ≤ q.column := by
  simp [upTo]

theorem before_iff {p q : Point} :
    p.before q = true ↔ p.row < q.row ∨ p.row = q.row ∧ p.column < q.column := by
  simp [before]

theorem upTo_refl (p : Point) : p.upTo p = true := by
  rw [upTo_iff]
  omega

theorem upTo_trans {p q r : Point} (hpq : p.upTo q = true) (hqr : q.upTo r = true) :
    p.upTo r = true := by
  rw [upTo_iff] at *
  omega

theorem upTo_of_before {p q : Point} (h : p.before q = true) : p.upTo q = true := by
  rw [before_iff] at h
  rw [upTo_iff]
  omega

theorem upTo_of_not_before {p q : Point} (h : ¬ q.before p = true) : p.upTo q = true := by
  rw [before_iff] at h
  rw [upTo_iff]
  omega

end Point

namespace Text

/-! ## Stretches from the start -/

theorem takeBytes_append_dropBytes (t : Text) (i : Nat) : t.takeBytes i ++ t.dropBytes i = t := by
  induction t generalizing i with
  | nil => rfl
  | cons c cs ih =>
      rw [takeBytes, dropBytes]
      split
      · rw [List.cons_append, ih]
      · rfl

@[simp] theorem takeBytes_zero (t : Text) : t.takeBytes 0 = [] := by
  cases t with
  | nil => rfl
  | cons c cs =>
      have hpos := c.utf8Size_pos
      rw [takeBytes, if_neg (by omega)]

@[simp] theorem dropBytes_zero (t : Text) : t.dropBytes 0 = t := by
  cases t with
  | nil => rfl
  | cons c cs =>
      have hpos := c.utf8Size_pos
      rw [dropBytes, if_neg (by omega)]

theorem takeBytes_append_add (a b : Text) (i : Nat) :
    (a ++ b).takeBytes (a.byteLength + i) = a ++ b.takeBytes i := by
  induction a with
  | nil => simp
  | cons c cs ih =>
      rw [List.cons_append, takeBytes, byteLength_cons, if_pos (by omega),
        show c.utf8Size + byteLength cs + i - c.utf8Size = byteLength cs + i by omega, ih,
        List.cons_append]

theorem dropBytes_append_add (a b : Text) (i : Nat) :
    (a ++ b).dropBytes (a.byteLength + i) = b.dropBytes i := by
  induction a with
  | nil => simp
  | cons c cs ih =>
      rw [List.cons_append, dropBytes, byteLength_cons, if_pos (by omega),
        show c.utf8Size + byteLength cs + i - c.utf8Size = byteLength cs + i by omega, ih]

@[simp] theorem takeBytes_append (a b : Text) : (a ++ b).takeBytes a.byteLength = a := by
  simpa using takeBytes_append_add a b 0

@[simp] theorem dropBytes_append (a b : Text) : (a ++ b).dropBytes a.byteLength = b := by
  simpa using dropBytes_append_add a b 0

@[simp] theorem takeBytes_byteLength (t : Text) : t.takeBytes t.byteLength = t := by
  have h := takeBytes_append t []
  rwa [List.append_nil] at h

@[simp] theorem dropBytes_byteLength (t : Text) : t.dropBytes t.byteLength = [] := by
  have h := dropBytes_append t []
  rwa [List.append_nil] at h

/-- A byte index between two characters, or at one of the ends. -/
def IsBoundary (t : Text) (i : Nat) : Prop := (t.takeBytes i).byteLength = i

instance (t : Text) (i : Nat) : Decidable (t.IsBoundary i) :=
  inferInstanceAs (Decidable ((t.takeBytes i).byteLength = i))

/-- A stretch from the start ends between two characters. -/
theorem isBoundary_append (a b : Text) : (a ++ b).IsBoundary a.byteLength := by
  rw [IsBoundary, takeBytes_append]

theorem isBoundary_byteLength (t : Text) : t.IsBoundary t.byteLength := by
  rw [IsBoundary, takeBytes_byteLength]

theorem IsBoundary.exists_stretch {t : Text} {i : Nat} (h : t.IsBoundary i) :
    ∃ a b : Text, t = a ++ b ∧ a.byteLength = i :=
  ⟨t.takeBytes i, t.dropBytes i, (takeBytes_append_dropBytes t i).symm, h⟩

/-! ## Points and indices -/

/-- The index after a stretch has the point of its extent. -/
theorem pointAt_append (a b : Text) :
    (a ++ b).pointAt a.byteLength = (Extent.ofChars a).point := by
  induction a with
  | nil =>
      cases b with
      | nil => rfl
      | cons c cs =>
          have hpos := c.utf8Size_pos
          rw [List.nil_append, byteLength_nil, pointAt, if_pos hpos]
          rfl
  | cons c cs ih =>
      rw [List.cons_append, pointAt, byteLength_cons, if_neg (by omega), Nat.add_sub_cancel_left,
        ih, Extent.ofChars_cons]
      by_cases hc : c = '\n'
      · rw [if_pos hc]
        simp [Extent.point, Extent.push, hc, Nat.add_comm]
      · rw [if_neg hc]
        by_cases hrow : (Extent.ofChars cs).row = 0 <;>
          simp [Extent.point, Extent.push, hc, hrow]

theorem IsBoundary.pointAt_eq {t : Text} {i : Nat} (h : t.IsBoundary i) :
    t.pointAt i = (Extent.ofChars (t.takeBytes i)).point := by
  obtain ⟨a, b, rfl, rfl⟩ := h.exists_stretch
  rw [pointAt_append, takeBytes_append]

theorem pointAt_byteLength (t : Text) : t.pointAt t.byteLength = (Extent.ofChars t).point := by
  rw [t.isBoundary_byteLength.pointAt_eq, takeBytes_byteLength]

/-- A stretch from the start ends at a point or before it just if it ends at the index of the point
or before it. -/
theorem point_upTo_iff (a b : Text) (p : Point) :
    (Extent.ofChars a).point.upTo p = true ↔ a.byteLength ≤ (a ++ b).indexOf p := by
  induction a generalizing p with
  | nil =>
      have hzero : (Extent.ofChars []).point.upTo p = true := by
        rw [Point.upTo_iff, Extent.ofChars_nil]
        simp only [Extent.point]
        omega
      exact ⟨fun _ => Nat.zero_le _, fun _ => hzero⟩
  | cons c cs ih =>
      have hpos := c.utf8Size_pos
      rw [List.cons_append, indexOf, Extent.ofChars_cons, byteLength_cons, Point.upTo_iff]
      simp only [Extent.point, Extent.row_add, Extent.column_add]
      by_cases hc : c = '\n'
      · -- the row of the point is counted from the next line on
        subst hc
        simp only [Extent.push, ↓reduceIte, true_or]
        by_cases hrow : p.row = 0
        · rw [if_pos hrow]
          omega
        · have ih := ih ⟨p.row - 1, p.column⟩
          simp only [Point.upTo_iff, Extent.point] at ih
          rw [if_neg hrow]
          split <;> omega
      · simp only [Extent.push, hc, if_false, false_or]
        by_cases hrow : p.row = 0
        · rw [if_pos hrow]
          by_cases hcol : p.column < c.utf8Size
          · rw [if_pos hcol]
            split <;> omega
          · have ih := ih ⟨0, p.column - c.utf8Size⟩
            simp only [Point.upTo_iff, Extent.point] at ih
            rw [if_neg hcol]
            split <;> omega
        · have ih := ih p
          simp only [Point.upTo_iff, Extent.point] at ih
          rw [if_neg hrow]
          split <;> omega

/-- The index of a point is the end of a stretch from the start. -/
theorem exists_indexOf_eq (t : Text) (p : Point) :
    ∃ a b : Text, t = a ++ b ∧ t.indexOf p = a.byteLength := by
  induction t generalizing p with
  | nil => exact ⟨[], [], rfl, rfl⟩
  | cons c cs ih =>
      have hstep : ∀ q, ∃ a b : Text, c :: cs = a ++ b ∧
          c.utf8Size + indexOf cs q = a.byteLength := by
        intro q
        obtain ⟨a, b, ht, hi⟩ := ih q
        exact ⟨c :: a, b, by rw [ht, List.cons_append], by rw [hi, byteLength_cons]⟩
      rw [indexOf]
      split
      · split
        · exact ⟨[], c :: cs, rfl, rfl⟩
        · exact hstep _
      · exact hstep _

theorem isBoundary_indexOf (t : Text) (p : Point) : t.IsBoundary (t.indexOf p) := by
  obtain ⟨a, b, rfl, hi⟩ := exists_indexOf_eq t p
  rw [hi]
  exact isBoundary_append a b

/-- A later point has no earlier index. -/
theorem indexOf_mono (t : Text) {p q : Point} (h : p.upTo q = true) :
    t.indexOf p ≤ t.indexOf q := by
  obtain ⟨a, b, rfl, hi⟩ := exists_indexOf_eq t p
  rw [hi]
  have hp := (point_upTo_iff a b p).mpr (Nat.le_of_eq hi.symm)
  exact (point_upTo_iff a b q).mp (Point.upTo_trans hp h)

/-- A longer stretch ends at a later point. -/
theorem eq_nil_of_point_upTo {a d : Text}
    (h : (Extent.ofChars (a ++ d)).point.upTo (Extent.ofChars a).point = true) : d = [] := by
  rw [Extent.ofChars_append, Point.upTo_iff] at h
  simp only [Extent.point, Extent.row_add, Extent.column_add] at h
  cases d with
  | nil => rfl
  | cons c cs =>
      have hpos := c.utf8Size_pos
      rw [Extent.ofChars_cons] at h
      simp only [Extent.push, Extent.row_add, Extent.column_add] at h
      by_cases hc : c = '\n'
      · simp only [hc, ↓reduceIte] at h
        omega
      · simp only [hc, if_false] at h
        split at h
        · split at h <;> omega
        · omega

/-- The point at the end of a stretch leads back there. -/
theorem indexOf_point (a b : Text) :
    (a ++ b).indexOf (Extent.ofChars a).point = a.byteLength := by
  have hle := (point_upTo_iff a b _).mp (Point.upTo_refl _)
  obtain ⟨a', b', heq, hi⟩ := exists_indexOf_eq (a ++ b) (Extent.ofChars a).point
  have hup : (Extent.ofChars a').point.upTo (Extent.ofChars a).point = true := by
    exact (point_upTo_iff a' b' _).mpr (by rw [← heq]; exact Nat.le_of_eq hi.symm)
  rw [hi] at hle ⊢
  -- the index cannot be before the end of the stretch, and no later one has the same point
  rcases List.append_eq_append_iff.mp heq with ⟨d, rfl, rfl⟩ | ⟨d, rfl, rfl⟩
  · rw [eq_nil_of_point_upTo hup, List.append_nil]
  · rw [byteLength_append] at hle ⊢
    omega

/-! ## Splices -/

theorem splice_append (a m b x : Text) :
    (a ++ m ++ b).splice a.byteLength (a ++ m).byteLength x = a ++ x ++ b := by
  rw [splice, dropBytes_append, List.append_assoc a m b, takeBytes_append]

/-- What is before an index and what is between it and a later one make up what is before that. -/
theorem takeBytes_append_between {t : Text} {i j : Nat} (hi : t.IsBoundary i) (hij : i ≤ j) :
    t.takeBytes i ++ t.between i j = t.takeBytes j := by
  obtain ⟨a, b, rfl, rfl⟩ := hi.exists_stretch
  obtain ⟨k, rfl⟩ := Nat.exists_eq_add_of_le hij
  rw [between, takeBytes_append_add, dropBytes_append, takeBytes_append]

end Text

end Lumen
