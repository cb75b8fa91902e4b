import Lumen.Editor.Script
import Lumen.Proofs.Checked
import Lumen.Proofs.Text.Place
import Mathlib.Order.Bounds.Defs

/-!
# Byte indices and points, row by row

Byte indices between characters and points tell the same places, and `indexOf` and `pointAt` lead
from one to the other as closely as can be:

* `pointAt_upTo_iff` — an index between characters is not after the index of a point just if its
  point is not after the point, which makes the two functions a Galois pair;
* `indexOf_pointAt` — an index inside a character leads back to the start of the character
  (`floor`), and one between characters to itself;
* `exists_row`, `indexOf_eq_rowStart` — a row begins where what is before it ends, and its first
  point leads there;
* `indexOf_eq_rowIndex`, `pointAt_eq_row` — both are what is found by looking up the row in the
  lines into which line feeds, and nothing else, cut the text;
* `indexAt_eq`, `pointIn_eq` — whatever is looked up on the way is in the text, so there is no
  fault.
-/

namespace Lumen

namespace Text

/-! ## Boundaries -/

/-- The last byte index between characters that is not after the given one. -/
def floor (t : Text) (i : Nat) : Nat := (t.takeBytes i).byteLength

@[simp] theorem floor_zero (t : Text) : t.floor 0 = 0 := by
  unfold floor
  simp

theorem floor_cons_of_lt {c : Char} {i : Nat} (h : i < c.utf8Size) (cs : Text) :
    floor (c :: cs) i = 0 := by
  unfold floor
  rw [takeBytes, if_neg (by omega), byteLength_nil]

theorem floor_cons_add (c : Char) (cs : Text) (i : Nat) :
    floor (c :: cs) (c.utf8Size + i) = c.utf8Size + cs.floor i := by
  unfold floor
  rw [takeBytes, if_pos (by omega), byteLength_cons, Nat.add_sub_cancel_left]

theorem floor_le (t : Text) (i : Nat) : t.floor i ≤ i := by
  induction t generalizing i with
  | nil => exact Nat.zero_le i
  | cons c cs ih =>
      by_cases h : i < c.utf8Size
      · rw [floor_cons_of_lt h]
        exact Nat.zero_le i
      · obtain ⟨k, rfl⟩ := Nat.exists_eq_add_of_le (Nat.le_of_not_lt h)
        rw [floor_cons_add]
        exact Nat.add_le_add_left (ih k) _

theorem floor_le_byteLength (t : Text) (i : Nat) : t.floor i ≤ t.byteLength := by
  have h := congrArg byteLength (t.takeBytes_append_dropBytes i)
  rw [byteLength_append] at h
  unfold floor
  omega

theorem isBoundary_floor (t : Text) (i : Nat) : t.IsBoundary (t.floor i) := by
  have h := isBoundary_append (t.takeBytes i) (t.dropBytes i)
  rwa [takeBytes_append_dropBytes] at h

theorem IsBoundary.le_byteLength {t : Text} {i : Nat} (h : t.IsBoundary i) : i ≤ t.byteLength := by
  have hle := t.floor_le_byteLength i
  unfold floor at hle
  rwa [h] at hle

theorem floor_mono (t : Text) {i j : Nat} (h : i ≤ j) : t.floor i ≤ t.floor j := by
  induction t generalizing i j with
  | nil => exact Nat.le_refl _
  | cons c cs ih =>
      by_cases hi : i < c.utf8Size
      · rw [floor_cons_of_lt hi]
        exact Nat.zero_le _
      · obtain ⟨k, rfl⟩ := Nat.exists_eq_add_of_le (Nat.le_of_not_lt hi)
        obtain ⟨l, rfl⟩ := Nat.exists_eq_add_of_le (Nat.le_trans (Nat.le_of_not_lt hi) h)
        rw [floor_cons_add, floor_cons_add]
        have := ih (i := k) (j := l) (by omega)
        omega

/-- No index between characters comes after the floor and not after the index itself. -/
theorem isGreatest_floor (t : Text) (i : Nat) :
    IsGreatest {j | t.IsBoundary j ∧ j ≤ i} (t.floor i) := by
  constructor
  · exact ⟨t.isBoundary_floor i, t.floor_le i⟩
  · intro j hj
    have hmono := t.floor_mono hj.2
    have hfloor : t.floor j = j := hj.1
    omega

/-- An index past the end stands for the end. -/
theorem takeBytes_min (t : Text) (i : Nat) : t.takeBytes (min i t.byteLength) = t.takeBytes i := by
  rcases Nat.le_total i t.byteLength with h | h
  · rw [Nat.min_eq_left h]
  · obtain ⟨k, rfl⟩ := Nat.exists_eq_add_of_le h
    have hpast := takeBytes_append_add t [] k
    rw [List.append_nil, takeBytes, List.append_nil] at hpast
    rw [Nat.min_eq_right h, takeBytes_byteLength, hpast]

theorem floor_min (t : Text) (i : Nat) : t.floor (min i t.byteLength) = t.floor i :=
  congrArg byteLength (t.takeBytes_min i)

/-- What ends after an index is what comes after its floor. -/
theorem dropBytes_floor (t : Text) (i : Nat) : t.dropBytes (t.floor i) = t.dropBytes i := by
  have h := dropBytes_append (t.takeBytes i) (t.dropBytes i)
  rwa [takeBytes_append_dropBytes] at h

/-! ## The Galois pair -/

/-- An index between characters is not after the index of a point just if its point is not after the
point. -/
theorem pointAt_upTo_iff {t : Text} {i : Nat} (h : t.IsBoundary i) (p : Point) :
    (t.pointAt i).upTo p = true ↔ i ≤ t.indexOf p := by
  obtain ⟨a, b, rfl, rfl⟩ := h.exists_stretch
  rw [pointAt_append]
  exact point_upTo_iff a b p

/-- Of the indices between characters, the index of a point is the last whose point is not after the
point. -/
theorem isGreatest_indexOf (t : Text) (p : Point) :
    IsGreatest {i | t.IsBoundary i ∧ i ≤ t.byteLength ∧ (t.pointAt i).upTo p = true}
      (t.indexOf p) := by
  have hboundary := t.isBoundary_indexOf p
  constructor
  · exact ⟨hboundary, hboundary.le_byteLength, (pointAt_upTo_iff hboundary p).mpr (Nat.le_refl _)⟩
  · intro i hi
    exact (pointAt_upTo_iff hi.1 p).mp hi.2.2

/-- An index between characters has a point that leads back to it. -/
theorem IsBoundary.indexOf_pointAt {t : Text} {i : Nat} (h : t.IsBoundary i) :
    t.indexOf (t.pointAt i) = i := by
  obtain ⟨a, b, rfl, rfl⟩ := h.exists_stretch
  rw [pointAt_append, indexOf_point]

/-- Of indices between characters, a later one has a later point. -/
theorem pointAt_mono {t : Text} {i j : Nat} (hi : t.IsBoundary i) (hj : t.IsBoundary j)
    (h : i ≤ j) : (t.pointAt i).upTo (t.pointAt j) = true := by
  rw [pointAt_upTo_iff hi, hj.indexOf_pointAt]
  exact h

/-- An index inside a character has a point that leads to the start of the character. -/
theorem indexOf_pointAt (t : Text) (i : Nat) : t.indexOf (t.pointAt i) = t.floor i := by
  induction t generalizing i with
  | nil => rfl
  | cons c cs ih =>
      unfold pointAt
      by_cases hi : i < c.utf8Size
      · rw [if_pos hi, floor_cons_of_lt hi]
        simp [indexOf, hi]
      · obtain ⟨k, rfl⟩ := Nat.exists_eq_add_of_le (Nat.le_of_not_lt hi)
        rw [if_neg hi, floor_cons_add, Nat.add_sub_cancel_left, ← ih]
        by_cases hc : c = '\n'
        · simp [indexOf, hc]
        · by_cases hrow : (pointAt cs k).row = 0
          · have hzero : (⟨0, (pointAt cs k).column⟩ : Point) = pointAt cs k := by
              rw [← hrow]
            have hlt : ¬ c.utf8Size + (pointAt cs k).column < c.utf8Size := by omega
            simp [indexOf, hc, hrow, hzero, hlt]
          · simp [indexOf, hc, hrow]

/-! ## Rows -/

@[simp] theorem rowStart_zero (t : Text) : t.rowStart 0 = 0 := by
  unfold rowStart
  simp

theorem rowStart_feed (t : Text) (row : Nat) :
    rowStart ('\n' :: t) (row + 1) = 1 + t.rowStart row := by
  unfold rowStart
  rw [splitFeeds_feed]
  simp

/-- A character that is no line feed moves all rows after its own. -/
theorem rowStart_cons {c : Char} (hc : c ≠ '\n') (t : Text) (row : Nat) :
    rowStart (c :: t) (row + 1) = c.utf8Size + t.rowStart (row + 1) := by
  obtain ⟨line, lines, hs, hcons⟩ := splitFeeds_cons hc t
  unfold rowStart
  rw [hs, hcons]
  simp
  omega

/-- No line of a text has a line feed in it. -/
theorem feed_not_mem {t line : Text} (h : line ∈ t.splitFeeds) : '\n' ∉ line := by
  induction t generalizing line with
  | nil =>
      obtain rfl := List.mem_singleton.mp h
      exact List.not_mem_nil
  | cons c cs ih =>
      by_cases hc : c = '\n'
      · subst hc
        rw [splitFeeds_feed] at h
        rcases List.mem_cons.mp h with rfl | h
        · exact List.not_mem_nil
        · exact ih h
      · obtain ⟨first, others, hs, hcons⟩ := splitFeeds_cons hc cs
        rw [hs] at ih
        rw [hcons] at h
        rcases List.mem_cons.mp h with rfl | h
        · -- the character goes to the first line, which had no line feed before
          have hfirst := ih List.mem_cons_self
          intro hmem
          rcases List.mem_cons.mp hmem with hfeed | hmem
          · exact hc hfeed.symm
          · exact hfirst hmem
        · exact ih (List.mem_cons_of_mem first h)

/-- There are as many lines as are counted. -/
theorem length_splitFeeds_eq_lineCount (t : Text) : t.splitFeeds.length = t.lineCount := by
  unfold lineCount
  induction t with
  | nil => rfl
  | cons c cs ih =>
      by_cases hc : c = '\n'
      · subst hc
        rw [splitFeeds_feed, List.length_cons, ih, List.count_cons_self]
      · obtain ⟨line, lines, hs, hcons⟩ := splitFeeds_cons hc cs
        rw [hs] at ih
        rw [hcons, List.count_cons_of_ne hc, ← ih, List.length_cons, List.length_cons]

/-- A text has all lines that are counted. -/
theorem exists_line? {t : Text} {row : Nat} (h : row < t.lineCount) :
    ∃ line, t.line? row = some line := by
  rw [← length_splitFeeds_eq_lineCount] at h
  exact ⟨_, List.getElem?_eq_getElem h⟩

theorem line?_feed_zero (t : Text) : line? ('\n' :: t) 0 = some [] := by
  unfold line?
  rw [splitFeeds_feed]
  rfl

theorem line?_feed_succ (t : Text) (row : Nat) :
    line? ('\n' :: t) (row + 1) = t.line? row := by
  unfold line?
  rw [splitFeeds_feed]
  rfl

theorem line?_cons_zero {c : Char} (hc : c ≠ '\n') (t : Text) :
    ∃ line, t.line? 0 = some line ∧ line? (c :: t) 0 = some (c :: line) := by
  obtain ⟨line, lines, hs, hcons⟩ := splitFeeds_cons hc t
  refine ⟨line, ?_, ?_⟩
  · unfold line?
    rw [hs]
    rfl
  · unfold line?
    rw [hcons]
    rfl

theorem line?_cons_succ {c : Char} (hc : c ≠ '\n') (t : Text) (row : Nat) :
    line? (c :: t) (row + 1) = t.line? (row + 1) := by
  obtain ⟨line, lines, hs, hcons⟩ := splitFeeds_cons hc t
  unfold line?
  rw [hs, hcons]
  rfl

/-- A row begins where what is before it ends. -/
theorem exists_row {t : Text} {row : Nat} {line : Text} (h : t.line? row = some line) :
    ∃ before after : Text, t = before ++ line ++ after ∧ before.byteLength = t.rowStart row := by
  induction t generalizing row line with
  | nil =>
      cases row with
      | zero =>
          obtain rfl := Option.some.inj h
          exact ⟨[], [], rfl, (rowStart_zero _).symm⟩
      | succ row => cases h
  | cons c cs ih =>
      by_cases hc : c = '\n'
      · subst hc
        cases row with
        | zero =>
            rw [line?_feed_zero] at h
            obtain rfl := Option.some.inj h
            exact ⟨[], '\n' :: cs, rfl, (rowStart_zero _).symm⟩
        | succ row =>
            rw [line?_feed_succ] at h
            obtain ⟨before, after, rfl, hstart⟩ := ih h
            refine ⟨'\n' :: before, after, rfl, ?_⟩
            rw [byteLength_cons, hstart, rowStart_feed]
            rfl
      -- any other character goes to the line that begins with it, so it moves the rows after it
      · cases row with
        | zero =>
            obtain ⟨others, hothers, hcons⟩ := line?_cons_zero hc cs
            obtain rfl := Option.some.inj (hcons.symm.trans h)
            obtain ⟨before, after, rfl, hstart⟩ := ih hothers
            rw [rowStart_zero] at hstart
            obtain rfl := eq_nil_of_byteLength_eq_zero hstart
            exact ⟨[], after, rfl, (rowStart_zero _).symm⟩
        | succ row =>
            rw [line?_cons_succ hc] at h
            obtain ⟨before, after, rfl, hstart⟩ := ih h
            refine ⟨c :: before, after, rfl, ?_⟩
            rw [byteLength_cons, hstart, rowStart_cons hc]

/-- The index of a point, looked up by its row: a column past the end of the row stands for the end
of the row, a row past the last for the end of the text, and a place inside a character for the
start of the character. -/
def rowIndex (t : Text) (p : Point) : Nat :=
  match t.line? p.row with
  | some line => t.floor (t.rowStart p.row + min p.column line.byteLength)
  | none => t.byteLength

/-- The index of a point is the one that is found in its row. -/
theorem indexOf_eq_rowIndex (t : Text) (p : Point) : t.indexOf p = t.rowIndex p := by
  obtain ⟨row, column⟩ := p
  induction t generalizing row column with
  | nil =>
      unfold rowIndex
      split <;> rfl
  | cons c cs ih =>
      unfold indexOf
      by_cases hc : c = '\n'
      · subst hc
        cases row with
        | zero => simp [rowIndex, line?_feed_zero]
        | succ row =>
            -- the row is counted from the next line on
            simp only [Nat.add_one_ne_zero, ↓reduceIte, Nat.add_sub_cancel, ih]
            unfold rowIndex
            simp only [line?_feed_succ]
            cases line? cs row with
            | none => rfl
            | some line =>
                show _ = floor ('\n' :: cs) (rowStart ('\n' :: cs) (row + 1) + _)
                rw [rowStart_feed, Nat.add_assoc]
                exact (floor_cons_add '\n' cs _).symm
      · cases row with
        | zero =>
            obtain ⟨line, hline, hcons⟩ := line?_cons_zero hc cs
            simp only [hc, false_or, ↓reduceIte]
            by_cases hcol : column < c.utf8Size
            · rw [if_pos hcol]
              unfold rowIndex
              simp only [hcons, rowStart_zero, Nat.zero_add, byteLength_cons]
              rw [floor_cons_of_lt (by omega)]
            · obtain ⟨k, rfl⟩ := Nat.exists_eq_add_of_le (Nat.le_of_not_lt hcol)
              rw [if_neg hcol, ih, Nat.add_sub_cancel_left]
              unfold rowIndex
              simp only [hline, hcons, rowStart_zero, Nat.zero_add, byteLength_cons]
              rw [Nat.add_min_add_left, floor_cons_add]
        | succ row =>
            simp only [hc, Nat.add_one_ne_zero, ↓reduceIte, ih]
            unfold rowIndex
            simp only [line?_cons_succ hc]
            cases line? cs (row + 1) with
            | none => rfl
            | some line =>
                show _ = floor (c :: cs) (rowStart (c :: cs) (row + 1) + _)
                rw [rowStart_cons hc, Nat.add_assoc, floor_cons_add]

/-- The index of a row's first point is that at which the row begins. -/
theorem indexOf_eq_rowStart {t : Text} {row : Nat} {line : Text} (h : t.line? row = some line) :
    t.indexOf ⟨row, 0⟩ = t.rowStart row := by
  obtain ⟨before, after, ht, hstart⟩ := exists_row h
  have hboundary : t.IsBoundary (t.rowStart row) := by
    rw [← hstart, ht, List.append_assoc]
    exact isBoundary_append before _
  rw [indexOf_eq_rowIndex, rowIndex]
  simp only [h, Nat.zero_min, Nat.add_zero]
  exact hboundary

/-- The row of an index is the number of line feeds before it, and its column the number of bytes
between the start of the row and the index. -/
theorem pointAt_eq_row (t : Text) (i : Nat) :
    t.pointAt i = ⟨(t.takeBytes i).count '\n',
      min i t.byteLength - t.rowStart ((t.takeBytes i).count '\n')⟩ := by
  induction t generalizing i with
  | nil => simp [pointAt, takeBytes, Point.zero]
  | cons c cs ih =>
      unfold pointAt takeBytes
      by_cases hi : i < c.utf8Size
      · have hle : ¬ c.utf8Size ≤ i := Nat.not_le.mpr hi
        simp only [hi, hle, ↓reduceIte, List.count_nil, rowStart_zero, byteLength_cons]
        -- inside the first character, the index itself is the column
        rw [Nat.min_eq_left (by omega), Nat.sub_zero]
      · obtain ⟨k, rfl⟩ := Nat.exists_eq_add_of_le (Nat.le_of_not_lt hi)
        have hle : c.utf8Size ≤ c.utf8Size + k := Nat.le_add_right _ _
        simp only [hi, hle, ↓reduceIte, Nat.add_sub_cancel_left, ih, byteLength_cons,
          Nat.add_min_add_left]
        by_cases hc : c = '\n'
        · subst hc
          have hfeed : Char.utf8Size '\n' = 1 := rfl
          simp only [↓reduceIte, List.count_cons_self, rowStart_feed, hfeed]
          rw [Nat.add_sub_add_left]
        · simp only [hc, ↓reduceIte, List.count_cons_of_ne (Ne.symm (Ne.symm hc))]
          -- in the first row the column grows with the character, in a later one its start does
          cases (takeBytes cs k).count '\n' with
          | zero => simp
          | succ row =>
              simp only [Nat.add_one_ne_zero, ↓reduceIte, rowStart_cons hc]
              rw [Nat.add_sub_add_left]

/-! ## Lookups -/

theorem takeBytes_prefix (t : Text) (i : Nat) : t.takeBytes i <+: t :=
  ⟨t.dropBytes i, t.takeBytes_append_dropBytes i⟩

/-- The characters before an index are the first ones. -/
theorem take_length_takeBytes (t : Text) (i : Nat) :
    t.take (t.takeBytes i).length = t.takeBytes i :=
  (List.prefix_iff_eq_take.mp (t.takeBytes_prefix i)).symm

theorem bytesAt_charsAt {t : Text} {i : Nat} (h : i ≤ t.byteLength) :
    (t.charsAt i >>= t.bytesAt) = .ok (t.floor i) := by
  have hlength := (t.takeBytes_prefix i).length_le
  rw [charsAt, if_pos h, Checked.ok_bind, bytesAt, if_pos hlength, take_length_takeBytes]
  rfl

/-- A row has a line feed at its end, unless it is the last one, and no other. -/
theorem rowLength_eq {t : Text} {row : Nat} {line : Text} (h : t.line? row = some line) :
    t.rowLength row = .ok line.byteLength := by
  rw [rowLength, rowAt, h]
  by_cases hlast : row + 1 < t.lineCount
  · have hsize : byteLength (line ++ ['\n']) = line.byteLength + 1 := by
      rw [byteLength_append]
      rfl
    simp only [if_pos hlast, Checked.ok_bind]
    rw [if_pos List.getLast?_concat, hsize, Size.sub_of_le (Nat.le_add_left 1 _),
      Nat.add_sub_cancel]
  · have hfeed : '\n' ∉ line := feed_not_mem (List.mem_of_getElem? h)
    simp only [if_neg hlast, Checked.ok_bind]
    rw [if_neg fun hend => hfeed (List.mem_of_getLast? hend)]
    rfl

theorem startAt_eq {t : Text} {row : Nat} (hrow : row ≤ t.lineCount)
    (hstart : t.rowStart row ≤ t.byteLength) : t.startAt row = .ok (t.rowStart row) := by
  rw [startAt, if_pos hrow, Nat.min_eq_left hstart]

/-- All that is looked up on the way from a point to its index is there. -/
theorem indexAt_eq (t : Text) (p : Point) : t.indexAt p = .ok (t.indexOf p) := by
  rw [indexOf_eq_rowIndex, indexAt, rowIndex]
  by_cases hpast : t.lineCount ≤ p.row
  · have hnone : t.line? p.row = none := by
      rw [line?, List.getElem?_eq_none_iff, length_splitFeeds_eq_lineCount]
      exact hpast
    rw [if_pos hpast, hnone]
    rfl
  · obtain ⟨line, hline⟩ := exists_line? (Nat.lt_of_not_le hpast)
    obtain ⟨before, after, ht, hbefore⟩ := exists_row hline
    have hinside : t.rowStart p.row + line.byteLength ≤ t.byteLength := by
      rw [← hbefore, ht, byteLength_append, byteLength_append]
      exact Nat.le_add_right _ _
    have hstart := startAt_eq (Nat.le_of_not_le hpast) (Nat.le_of_add_right_le hinside)
    have hindex : t.rowStart p.row + min p.column line.byteLength ≤ t.byteLength :=
      Nat.le_trans (Nat.add_le_add_left (Nat.min_le_right _ _) _) hinside
    rw [if_neg hpast, hline, rowLength_eq hline, Checked.ok_bind, hstart, Checked.ok_bind]
    exact bytesAt_charsAt hindex

/-- The row of an index does not begin behind it. -/
theorem rowStart_count_le (t : Text) (i : Nat) :
    t.rowStart ((t.takeBytes i).count '\n') ≤ t.floor i := by
  induction t generalizing i with
  | nil => simp [takeBytes]
  | cons c cs ih =>
      by_cases hi : i < c.utf8Size
      · have hle : ¬ c.utf8Size ≤ i := Nat.not_le.mpr hi
        simp [takeBytes, hle]
      · obtain ⟨k, rfl⟩ := Nat.exists_eq_add_of_le (Nat.le_of_not_lt hi)
        rw [floor_cons_add, takeBytes, if_pos (Nat.le_add_right _ _), Nat.add_sub_cancel_left]
        have hk := ih k
        by_cases hc : c = '\n'
        · subst hc
          rw [List.count_cons_self, rowStart_feed]
          exact Nat.add_le_add_left hk 1
        · rw [List.count_cons_of_ne hc]
          cases hcount : (takeBytes cs k).count '\n' with
          | zero => simp
          | succ row =>
              rw [hcount] at hk
              rw [rowStart_cons hc]
              exact Nat.add_le_add_left hk _

/-- All that is looked up on the way from an index to its point is there. -/
theorem pointIn_eq (t : Text) (i : Nat) : t.pointIn i = .ok (t.pointAt i) := by
  have hrow : (t.takeBytes i).count '\n' ≤ t.lineCount :=
    Nat.le_succ_of_le ((t.takeBytes_prefix i).sublist.count_le '\n')
  have hstart : t.rowStart ((t.takeBytes i).count '\n') ≤ min i t.byteLength :=
    Nat.le_trans (t.rowStart_count_le i) (Nat.le_min.mpr ⟨t.floor_le i, t.floor_le_byteLength i⟩)
  rw [pointAt_eq_row, pointIn, rowOf, if_pos (Nat.min_le_right _ _), takeBytes_min, Checked.ok_bind,
    startAt_eq hrow (Nat.le_trans hstart (Nat.min_le_right _ _)), Checked.ok_bind,
    Size.sub_of_le hstart]
  rfl

/-! ## Both ways -/

/-- Indices and points are a Galois pair. The index of a point is the last between characters whose
point is not after it, so a later point has no earlier index, and an index leads to its point and
back to itself, or to the start of the character that it is inside. Both are found by rows, which
end at line feeds only, and nothing is looked up that the text does not have. An editor answers with
them and meets no fault on the way, and changes are replayed from the index of the point at which
they start. -/
theorem galois_indexOf_pointAt (t : Text) :
    (∀ p, IsGreatest {i | t.IsBoundary i ∧ i ≤ t.byteLength ∧ (t.pointAt i).upTo p = true}
      (t.indexOf p)) ∧
    (∀ p q : Point, p.upTo q = true → t.indexOf p ≤ t.indexOf q) ∧
    (∀ i, t.IsBoundary i → t.indexOf (t.pointAt i) = i) ∧
    (∀ i, IsGreatest {j | t.IsBoundary j ∧ j ≤ i} (t.indexOf (t.pointAt i))) ∧
    (∀ p, (t.pointAt (t.indexOf p)).upTo p = true) ∧
    (∀ p, t.indexOf p = t.rowIndex p) ∧
    (∀ i, t.pointAt i = ⟨(t.takeBytes i).count '\n',
      min i t.byteLength - t.rowStart ((t.takeBytes i).count '\n')⟩) ∧
    (∀ p, t.indexAt p = .ok (t.indexOf p)) ∧
    (∀ i, t.pointIn i = .ok (t.pointAt i)) ∧
    (∀ e : Editor, e.text = t → ∀ p i, e.run (.indexOf p) = .ok (.number (t.indexOf p), e) ∧
      e.run (.pointAt i) = .ok (.point (t.pointAt i), e)) ∧
    ∀ (c : Change) (edit : Edit), c.edit t = .ok edit → edit.start.bytes = t.indexOf c.start := by
  refine ⟨t.isGreatest_indexOf, ?_, ?_, ?_, ?_, t.indexOf_eq_rowIndex, t.pointAt_eq_row,
    t.indexAt_eq, t.pointIn_eq, ?_, ?_⟩
  · intro p q hpq
    exact t.indexOf_mono hpq
  · intro i hi
    exact hi.indexOf_pointAt
  · intro i
    rw [indexOf_pointAt]
    exact t.isGreatest_floor i
  · intro p
    exact (t.isGreatest_indexOf p).1.2.2
  · intro e he p i
    subst he
    rw [Editor.run, Editor.run, indexAt_eq, pointIn_eq]
    exact ⟨rfl, rfl⟩
  · intro c edit hedit
    obtain ⟨newStop, -, hpair⟩ := Checked.bind_eq_ok.mp hedit
    rw [← Checked.pure_eq_ok.mp hpair]

/-- A text with characters of one, two and three bytes, a carriage return before a line feed, a line
separator that ends no row, and an empty last row. -/
theorem galois_indexOf_pointAt_of_separators :
    let t : Text := ['a', 'é', '\r', '\n', '\u2028', '\n']
    let e := Editor.ofText t 2
    let c := Change.ofTexts ⟨1, 2⟩ ⟨5, 0⟩ ['x'] []
    t.lineCount = 3 ∧ t.IsBoundary 8 ∧ t.indexOf (t.pointAt 8) = 8 ∧
      IsGreatest {j | t.IsBoundary j ∧ j ≤ 2} (t.indexOf (t.pointAt 2)) ∧
      t.indexOf (t.pointAt 2) = 1 ∧
      Point.upTo ⟨0, 2⟩ ⟨0, 9⟩ = true ∧ t.indexOf ⟨0, 2⟩ ≤ t.indexOf ⟨0, 9⟩ ∧
      t.indexOf ⟨0, 9⟩ = t.rowIndex ⟨0, 9⟩ ∧ t.indexOf ⟨0, 9⟩ = 4 ∧ t.indexOf ⟨7, 0⟩ = 9 ∧
      t.indexAt ⟨2, 5⟩ = .ok (t.indexOf ⟨2, 5⟩) ∧ t.pointIn 30 = .ok (t.pointAt 30) ∧
      e.run (.indexOf ⟨1, 2⟩) = .ok (.number (t.indexOf ⟨1, 2⟩), e) ∧
      ∃ edit, c.edit t = .ok edit ∧ edit.start.bytes = t.indexOf ⟨1, 2⟩ := by
  intro t e c
  obtain ⟨-, hmono, hback, hfloor, -, hrow, -, hindex, hpoint, hrun, hedit⟩ :=
    galois_indexOf_pointAt t
  obtain ⟨edit, hok, -⟩ := Checked.exists_ok (c.edit t) (fun _ => true) (by decide)
  exact ⟨by decide, by decide, hback 8 (by decide), hfloor 2, by decide, by decide,
    hmono _ _ (by decide), hrow _, by decide, by decide, hindex _, hpoint _, (hrun e rfl _ 0).1,
    edit, hok, hedit c edit hok⟩

end Text

end Lumen
