import Lumen.Editor.Render
import Lumen.Proofs.Editor.Marks
import Mathlib.Data.List.TakeWhile

/-!
# The colours of bytes

A mark gives its bytes a colour if its style has one: if the first declaration of a colour among its
declarations names a colour that is known (`Style.HasColor`). Of several marks that give a byte a
colour, the first one counts, and marks without a colour do not matter (`Mark.ColorAt`).

The colours of a row are laid one stretch after the other on those of its bytes that have none yet.
As no mark ends before it begins, each stretch that a row has of a mark is one of the row
(`exists_colorSpan`), and what has been laid in the end are the colours that the marks give
(`exists_rowColors`).
-/

namespace Lumen

/-! ## Styles -/

theorem Color.named?_eq_some_iff {name : Text} {c : Color} :
    Color.named? name = some c ↔ (String.ofList name, c) ∈ Color.table := by
  have hknown : ∀ entry ∈ Color.table, Color.named? entry.1.toList = some entry.2 := by decide
  constructor
  · intro h
    obtain ⟨entry, hfind, rfl⟩ := Option.map_eq_some_iff.mp h
    have hname := List.find?_some hfind
    rw [decide_eq_true_eq] at hname
    rw [← hname, String.ofList_toList]
    exact List.mem_of_find?_eq_some hfind
  · intro h
    have := hknown _ h
    rwa [String.toList_ofList] at this

namespace Style

/-- That a declaration gives a property a value. They stand before and behind its first colon. -/
def Declares (t property value : Text) : Prop :=
  ∃ left right : Text, t = left ++ ':' :: right ∧ ':' ∉ left ∧ left.trim = property ∧
    right.trim = value

theorem declaration?_eq_some_iff {t property value : Text} :
    declaration? t = some (property, value) ↔ Declares t property value := by
  unfold declaration?
  constructor
  · intro h
    have hsplit := List.takeWhile_append_dropWhile (p := (· ≠ ':')) (l := t)
    split at h
    · cases h
    · next c right hrest =>
        obtain ⟨hleft, hright⟩ := Prod.mk.inj (Option.some.inj h)
        -- what is behind the stretch without a colon begins with one
        have hcolon : c = ':' := by
          have := List.head?_dropWhile_not (p := (· ≠ ':')) (l := t)
          rw [hrest] at this
          simpa using this
        subst hcolon
        rw [hrest] at hsplit
        refine ⟨_, right, hsplit.symm, ?_, hleft, hright⟩
        intro hmem
        have := List.mem_takeWhile_imp hmem
        simp at this
  · rintro ⟨left, right, rfl, hleft, rfl, rfl⟩
    have hbefore : ∀ c ∈ left, decide (c ≠ ':') = true := by
      intro c hc
      rw [decide_eq_true_eq]
      rintro rfl
      exact hleft hc
    rw [List.dropWhile_append_of_pos hbefore, List.takeWhile_append_of_pos hbefore]
    simp

/-- That the first declaration of a colour in a style names one that is known. -/
def HasColor (s : Style) (c : Color) : Prop :=
  ∃ earlier t later name, s.css.split ';' = earlier ++ t :: later ∧
    Declares t "color".toList name ∧ (String.ofList name, c) ∈ Color.table ∧
    ∀ other ∈ earlier, ∀ value, ¬ Declares other "color".toList value

theorem colorValue?_eq_some_iff {t name : Text} :
    colorValue? t = some name ↔ Declares t "color".toList name := by
  unfold colorValue?
  rw [← declaration?_eq_some_iff]
  -- which property it is makes no difference
  generalize "color".toList = sought
  cases declaration? t with
  | none => simp
  | some pair => simp [Prod.ext_iff]

theorem colorValue?_eq_none_iff {t : Text} :
    colorValue? t = none ↔ ∀ name, ¬ Declares t "color".toList name := by
  rw [Option.eq_none_iff_forall_ne_some]
  exact forall_congr' fun name => not_congr colorValue?_eq_some_iff

theorem color?_eq_some_iff {s : Style} {c : Color} : s.color? = some c ↔ s.HasColor c := by
  unfold color? colorName? HasColor
  rw [Option.bind_eq_some_iff]
  constructor
  · rintro ⟨name, hname, hknown⟩
    obtain ⟨earlier, t, later, hsplit, ht, hearlier⟩ := List.findSome?_eq_some_iff.mp hname
    refine ⟨earlier, t, later, name, hsplit, colorValue?_eq_some_iff.mp ht,
      Color.named?_eq_some_iff.mp hknown, ?_⟩
    intro other hother
    exact colorValue?_eq_none_iff.mp (hearlier other hother)
  · rintro ⟨earlier, t, later, name, hsplit, ht, hknown, hearlier⟩
    refine ⟨name, List.findSome?_eq_some_iff.mpr ⟨earlier, t, later, hsplit, ?_, ?_⟩,
      Color.named?_eq_some_iff.mpr hknown⟩
    · exact colorValue?_eq_some_iff.mpr ht
    · intro other hother
      exact colorValue?_eq_none_iff.mpr (hearlier other hother)

end Style

/-! ## Bytes -/

namespace Mark

/-- That a byte is one of those of a mark. -/
def Contains (m : Mark) (i : Nat) : Prop := m.start ≤ i ∧ i < m.stop

/-- That marks give a byte a colour: that of the first of them which contains the byte and has a
colour. They give it none if there is no such mark. -/
def ColorAt (ms : List Mark) (i : Nat) : Option Color → Prop
  | some c => ∃ earlier m later, ms = earlier ++ m :: later ∧ m.Contains i ∧ m.style.HasColor c ∧
      ∀ other ∈ earlier, other.Contains i → ∀ c', ¬ other.style.HasColor c'
  | none => ∀ m ∈ ms, m.Contains i → ∀ c, ¬ m.style.HasColor c

/-- A mark that does not contain a byte, or has no colour, makes no difference to the byte. -/
theorem ColorAt.cons {ms : List Mark} {i : Nat} {color : Option Color} (h : ColorAt ms i color)
    {m : Mark} (hm : m.Contains i → ∀ c, ¬ m.style.HasColor c) : ColorAt (m :: ms) i color := by
  cases color with
  | none =>
      intro other hother
      rcases List.mem_cons.mp hother with rfl | hother
      · exact hm
      · exact h other hother
  | some c =>
      obtain ⟨earlier, first, later, rfl, hcontains, hcolor, hearlier⟩ := h
      refine ⟨m :: earlier, first, later, rfl, hcontains, hcolor, ?_⟩
      intro other hother
      rcases List.mem_cons.mp hother with rfl | hother
      · exact hm
      · exact hearlier other hother

end Mark

namespace Editor

/-- The colour of the first stretch that contains a byte. -/
def colorIn (spans : List (Nat × Nat × Color)) (i : Nat) : Option Color :=
  (spans.find? fun (start, stop, _) => start ≤ i ∧ i < stop).map fun (_, _, c) => c

theorem colorIn_cons (start stop : Nat) (c : Color) (spans : List (Nat × Nat × Color)) (i : Nat) :
    colorIn ((start, stop, c) :: spans) i =
      if start ≤ i ∧ i < stop then some c else colorIn spans i := by
  unfold colorIn
  by_cases h : start ≤ i ∧ i < stop
  · rw [if_pos h, List.find?_cons_of_pos (by simpa using h)]
    rfl
  · rw [if_neg h, List.find?_cons_of_neg (by simpa using h)]

/-- The stretches of an editor's text that have a colour give each byte the colour that the marks
give it. -/
theorem colorAt_colorIn (e : Editor) (i : Nat) :
    Mark.ColorAt e.marks i (colorIn e.coloredSpans i) := by
  unfold coloredSpans
  induction e.marks with
  | nil =>
      intro m hm
      cases hm
  | cons m ms ih =>
      cases hcolor : m.style.color? with
      | none =>
          -- a mark without a colour is no span, and gives no byte a colour either
          rw [List.filterMap_cons_none (by rw [hcolor]; rfl)]
          apply ih.cons
          intro _ c hc
          rw [← Style.color?_eq_some_iff, hcolor] at hc
          cases hc
      | some c =>
          rw [List.filterMap_cons_some (by rw [hcolor]; rfl), colorIn_cons]
          by_cases hcontains : m.start ≤ i ∧ i < m.stop
          · rw [if_pos hcontains]
            refine ⟨[], m, ms, rfl, hcontains, Style.color?_eq_some_iff.mp hcolor, ?_⟩
            intro other hother
            cases hother
          · rw [if_neg hcontains]
            exact ih.cons fun h => absurd h hcontains

/-! ## Rows -/

/-- That colours are those which a function gives the bytes of a row. -/
structure Colors (colors : Array (Option Color)) (length : Nat) (color : Nat → Option Color) :
    Prop where
  size : colors.size = length
  getElem? : ∀ i < length, colors[i]? = some (color i)

variable {colors : Array (Option Color)} {length : Nat} {color : Nat → Option Color}

theorem Colors.congr (h : Colors colors length color) {color' : Nat → Option Color}
    (hsame : ∀ i < length, color i = color' i) : Colors colors length color' where
  size := h.size
  getElem? := by
    intro i hi
    rw [h.getElem? i hi, hsame i hi]

/-- A stretch of a row can be coloured. -/
theorem exists_colorStretch (h : Colors colors length color) {start stop : Nat} (hle : start ≤ stop)
    (hstop : stop ≤ length) (c : Color) :
    ∃ colors', colorStretch colors start stop c = .ok colors' ∧ Colors colors' length
      fun i => if start ≤ i ∧ i < stop then (color i).or (some c) else color i := by
  have hstretch : start ≤ stop ∧ stop ≤ colors.size := ⟨hle, h.size ▸ hstop⟩
  refine ⟨_, if_pos hstretch, ?_, ?_⟩
  · rw [Array.size_mapIdx, h.size]
  · intro i hi
    rw [Array.getElem?_mapIdx, h.getElem? i hi]
    rfl

/-- What a row has of a stretch of the text that does not end before it begins is a stretch of the
row, and it is coloured. -/
theorem exists_colorSpan (h : Colors colors length color) {start stop : Nat} (hle : start ≤ stop)
    (rowStart : Nat) (c : Color) :
    ∃ colors', colorSpan rowStart colors (start, stop, c) = .ok colors' ∧
      Colors colors' length fun i => (color i).or (colorIn [(start, stop, c)] (rowStart + i)) := by
  have hcolor : ∀ i, (color i).or (colorIn [(start, stop, c)] (rowStart + i)) =
      if start ≤ rowStart + i ∧ rowStart + i < stop then (color i).or (some c) else color i := by
    intro i
    have hnone : colorIn [] (rowStart + i) = none := rfl
    rw [colorIn_cons, hnone]
    split
    · rfl
    · exact Option.or_none
  simp only [hcolor]
  unfold colorSpan
  simp only [h.size]
  -- a stretch that has nothing of the row is left out, and others are cut to it
  by_cases hout : stop ≤ rowStart ∨ rowStart + length ≤ start
  · rw [if_pos hout]
    refine ⟨colors, rfl, h.congr ?_⟩
    intro i hi
    rw [if_neg (by omega)]
  · rw [if_neg hout, Size.sub_of_le (Nat.le_max_right _ _), Size.sub_of_le (by omega)]
    have hfirst : max start rowStart - rowStart ≤ min stop (rowStart + length) - rowStart := by
      omega
    obtain ⟨colors', hok, hcolors⟩ := exists_colorStretch h hfirst (by omega) c
    refine ⟨colors', hok, hcolors.congr ?_⟩
    intro i hi
    have hsame : max start rowStart - rowStart ≤ i ∧ i < min stop (rowStart + length) - rowStart ↔
        start ≤ rowStart + i ∧ rowStart + i < stop := by
      omega
    simp only [hsame]

/-- Stretches that are laid one after the other leave each byte the colour that it had, and else
give it that of the first stretch that it is in. -/
theorem exists_foldlM_colorSpan {spans : List (Nat × Nat × Color)}
    (hspans : ∀ span ∈ spans, span.1 ≤ span.2.1) (h : Colors colors length color) (rowStart : Nat) :
    ∃ colors', spans.foldlM (colorSpan rowStart) colors = .ok colors' ∧
      Colors colors' length fun i => (color i).or (colorIn spans (rowStart + i)) := by
  induction spans generalizing colors color with
  | nil =>
      refine ⟨colors, rfl, h.congr ?_⟩
      intro i _
      exact Option.or_none.symm
  | cons span spans ih =>
      obtain ⟨start, stop, c⟩ := span
      obtain ⟨colors₁, hfirst, hcolors⟩ :=
        exists_colorSpan h (hspans _ List.mem_cons_self) rowStart c
      obtain ⟨colors', hothers, hcolors'⟩ :=
        ih (fun span hspan => hspans span (List.mem_cons_of_mem _ hspan)) hcolors
      refine ⟨colors', ?_, hcolors'.congr ?_⟩
      · rw [List.foldlM_cons, hfirst]
        exact hothers
      · intro i _
        -- a byte has the colour of the first stretch that it is in, so the order is that of the
        -- list
        rw [Option.or_assoc, colorIn_cons, colorIn_cons]
        congr 1
        split
        · rfl
        · rfl

/-- If no mark ends before it begins, a row is given the colours of its bytes. -/
theorem exists_rowColors {e : Editor} (hordered : ∀ m ∈ e.marks, m.start ≤ m.stop)
    (rowStart length : Nat) :
    ∃ colors, rowColors e.coloredSpans rowStart length = .ok colors ∧
      Colors colors length fun i => colorIn e.coloredSpans (rowStart + i) := by
  have hspans : ∀ span ∈ e.coloredSpans, span.1 ≤ span.2.1 := by
    intro span hspan
    obtain ⟨m, hm, hcolor⟩ := List.mem_filterMap.mp hspan
    obtain ⟨c, -, rfl⟩ := Option.map_eq_some_iff.mp hcolor
    exact hordered m hm
  have hblank : Colors (Array.replicate length none) length fun _ => none := by
    refine ⟨Array.size_replicate, ?_⟩
    intro i hi
    rw [Array.getElem?_replicate, if_pos hi]
  exact exists_foldlM_colorSpan hspans hblank rowStart

end Editor

end Lumen
