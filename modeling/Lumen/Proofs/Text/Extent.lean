import Lumen.Editor.Change

/-!
# Extents of texts

The extent of a text tells its bytes, its line feeds and the bytes after the last of these. Extents
of stretches that follow one another add up (`ofChars_append`), and the lines into which a text is
cut tell its extent again:

* `length_splitFeeds` — as many lines as line feeds, and one more;
* `bytesOf_splitFeeds` — the bytes of the lines with a line feed between each two;
* `lastBytes_splitFeeds` — the bytes of the last line;
* `joinFeeds_splitFeeds` — the text itself.
-/

namespace Lumen

attribute [ext] Extent

/-! ## Bytes -/

namespace Text

@[simp] theorem byteLength_nil : byteLength [] = 0 := rfl

@[simp] theorem byteLength_cons (c : Char) (t : Text) :
    byteLength (c :: t) = c.utf8Size + byteLength t :=
  rfl

@[simp] theorem byteLength_append (a b : Text) :
    byteLength (a ++ b) = byteLength a + byteLength b := by
  induction a with
  | nil => rw [List.nil_append, byteLength_nil, Nat.zero_add]
  | cons c cs ih => rw [List.cons_append, byteLength_cons, byteLength_cons, ih, Nat.add_assoc]

/-- Only the empty text has no bytes. -/
theorem eq_nil_of_byteLength_eq_zero {t : Text} (h : t.byteLength = 0) : t = [] := by
  cases t with
  | nil => rfl
  | cons c cs =>
      have hc := c.utf8Size_pos
      rw [byteLength_cons] at h
      omega

end Text

/-! ## Sums of extents -/

namespace Extent

@[simp] theorem bytes_add (a b : Extent) : (a + b).bytes = a.bytes + b.bytes := rfl

@[simp] theorem row_add (a b : Extent) : (a + b).row = a.row + b.row := rfl

@[simp] theorem column_add (a b : Extent) :
    (a + b).column = if b.row = 0 then a.column + b.column else b.column := rfl

/-- What comes after a stretch is what is left when the stretch is taken away. -/
protected theorem add_sub_cancel_left (a b : Extent) : a + b - a = b := by
  obtain ⟨bytes, row, column⟩ := b
  have hsub : a + ⟨bytes, row, column⟩ - a = sub (a + ⟨bytes, row, column⟩) a := rfl
  rw [hsub, sub]
  by_cases hrow : row = 0 <;> simp [hrow]

protected theorem add_assoc (a b c : Extent) : a + b + c = a + (b + c) := by
  ext
  · simp only [bytes_add]
    omega
  · simp only [row_add]
    omega
  · simp only [column_add, row_add]
    by_cases hc : c.row = 0 <;> by_cases hb : b.row = 0 <;> simp [hc, hb, Nat.add_assoc]

/-- The extent of a character. -/
theorem push_eq_add (a : Extent) (c : Char) : a.push c = a + push {} c := by
  by_cases hc : c = '\n' <;> ext <;> simp [push, hc]

theorem foldl_push (cs : List Char) (a : Extent) : cs.foldl push a = a + ofChars cs := by
  induction cs generalizing a with
  | nil => ext <;> simp [ofChars]
  | cons c cs ih =>
      have hcons : ofChars (c :: cs) = push {} c + ofChars cs := ih (push {} c)
      rw [List.foldl_cons, ih, push_eq_add, hcons, Extent.add_assoc]

@[simp] theorem ofChars_nil : ofChars [] = {} := rfl

theorem ofChars_cons (c : Char) (cs : List Char) : ofChars (c :: cs) = push {} c + ofChars cs :=
  foldl_push cs (push {} c)

/-- The extents of stretches that follow one another add up. -/
theorem ofChars_append (a b : List Char) : ofChars (a ++ b) = ofChars a + ofChars b := by
  rw [ofChars, List.foldl_append, foldl_push]
  rfl

@[simp] theorem bytes_ofChars (t : Text) : (ofChars t).bytes = t.byteLength := by
  induction t with
  | nil => rfl
  | cons c cs ih =>
      rw [ofChars_cons, bytes_add, ih, Text.byteLength_cons]
      by_cases hc : c = '\n' <;> simp [push, hc]
      rfl

/-- What is counted in rows and columns is counted in bytes. -/
theorem row_add_column_le (t : Text) : (ofChars t).row + (ofChars t).column ≤ t.byteLength := by
  induction t with
  | nil => simp
  | cons c cs ih =>
      rw [ofChars_cons, row_add, column_add, Text.byteLength_cons]
      have hpos := c.utf8Size_pos
      by_cases hc : c = '\n'
      · simp only [push, if_pos hc]
        split <;> omega
      · simp only [push, if_neg hc]
        split <;> omega

end Extent

/-! ## Lines -/

namespace Text

theorem splitFeeds_ne_nil (t : Text) : t.splitFeeds ≠ [] := by
  cases t with
  | nil => simp [splitFeeds, split]
  | cons c cs =>
      simp only [splitFeeds, split]
      split
      · simp
      · split <;> simp

theorem splitFeeds_feed (t : Text) : splitFeeds ('\n' :: t) = [] :: t.splitFeeds := by
  simp [splitFeeds, split]

/-- A character that is no line feed goes to the first line. -/
theorem splitFeeds_cons {c : Char} (hc : c ≠ '\n') (t : Text) :
    ∃ line lines, t.splitFeeds = line :: lines ∧
      splitFeeds (c :: t) = (c :: line) :: lines := by
  cases hs : t.splitFeeds with
  | nil => exact absurd hs (splitFeeds_ne_nil t)
  | cons line lines =>
      refine ⟨line, lines, rfl, ?_⟩
      rw [splitFeeds] at hs
      rw [splitFeeds, split, if_neg hc, hs]

/-- Cutting a text into lines loses nothing. -/
theorem joinFeeds_splitFeeds (t : Text) : joinFeeds t.splitFeeds = t := by
  induction t with
  | nil => rfl
  | cons c cs ih =>
      by_cases hc : c = '\n'
      · subst hc
        rw [splitFeeds_feed]
        cases hs : splitFeeds cs with
        | nil => exact absurd hs (splitFeeds_ne_nil cs)
        | cons line lines =>
            rw [hs] at ih
            rw [joinFeeds, ih, List.nil_append]
            simp
      · obtain ⟨line, lines, hs, hcons⟩ := splitFeeds_cons hc cs
        rw [hs] at ih
        rw [hcons]
        -- only a line that another one follows is ended by a line feed
        cases lines with
        | nil => rw [joinFeeds] at ih ⊢; rw [ih]
        | cons next rest =>
            rw [joinFeeds] at ih ⊢
            · rw [List.cons_append, ih]
            all_goals simp

theorem length_splitFeeds (t : Text) :
    t.splitFeeds.length = (Extent.ofChars t).row + 1 := by
  induction t with
  | nil => rfl
  | cons c cs ih =>
      rw [Extent.ofChars_cons, Extent.row_add]
      by_cases hc : c = '\n'
      · subst hc
        rw [splitFeeds_feed, List.length_cons, ih]
        simp only [Extent.push, ↓reduceIte]
        omega
      · obtain ⟨line, lines, hs, hcons⟩ := splitFeeds_cons hc cs
        rw [hs] at ih
        rw [hcons]
        simpa [Extent.push, hc] using ih

/-- The bytes of the lines and of the line feeds between them are those of the text. -/
theorem bytesOf_splitFeeds (t : Text) : Change.bytesOf t.splitFeeds = t.byteLength := by
  induction t with
  | nil => rfl
  | cons c cs ih =>
      have hpos := List.length_pos_iff.mpr (splitFeeds_ne_nil cs)
      by_cases hc : c = '\n'
      · subst hc
        have hfeed : Char.utf8Size '\n' = 1 := rfl
        rw [splitFeeds_feed]
        simp only [Change.bytesOf, List.length_cons, List.foldr_cons, byteLength_nil,
          byteLength_cons] at ih ⊢
        omega
      · obtain ⟨line, lines, hs, hcons⟩ := splitFeeds_cons hc cs
        rw [hs] at ih
        rw [hcons]
        simp only [Change.bytesOf, List.length_cons, List.foldr_cons, byteLength_cons] at ih ⊢
        omega

/-- The bytes of the last line are those after the last line feed. -/
theorem lastBytes_splitFeeds (t : Text) :
    (t.splitFeeds.getLast?.map byteLength).getD 0 = (Extent.ofChars t).column := by
  induction t with
  | nil => rfl
  | cons c cs ih =>
      have hlen := length_splitFeeds cs
      rw [Extent.ofChars_cons, Extent.column_add]
      by_cases hc : c = '\n'
      · subst hc
        rw [splitFeeds_feed, List.getLast?_cons, ← ih]
        cases hs : splitFeeds cs with
        | nil => exact absurd hs (splitFeeds_ne_nil cs)
        | cons line lines => simp [Extent.push, List.getLast?_cons]
      · obtain ⟨line, lines, hs, hcons⟩ := splitFeeds_cons hc cs
        rw [hs] at ih hlen
        rw [hcons, ← ih]
        cases lines with
        | nil => simp [Extent.push, hc] at hlen ⊢; simp [← hlen]
        | cons next rest =>
            rw [List.length_cons, List.length_cons] at hlen
            rw [if_neg (by omega)]
            simp [List.getLast?_cons]

end Text

end Lumen
