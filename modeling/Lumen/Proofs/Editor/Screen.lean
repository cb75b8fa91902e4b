import Lumen.Proofs.Editor.Colors
import Lumen.Proofs.Editor.Viewport

/-!
# What a terminal shows

A row is written as signs: characters to be shown, and colours to be selected for what comes next
(`Sign`). A terminal knows nothing of how a row came about. It tells the signs from the text that it
is sent (`Sign.read`), and as long as no character of the row begins a control sequence itself, it
gets the signs as they were written (`read_written`).

* `paint_eq` — a row whose bytes all have a colour, or none, is painted, and what is written are its
  signs;
* `paints_signs` — the signs show the characters of the row in the colours of the bytes at which
  these begin, no colour is selected in vain, and in the end none is selected;
* `render_shows_marks` — so in every editor that can come about, the rows that can be seen are shown
  in the colours of the marks.
-/

namespace Lumen

/-- What a terminal is told: to show a character, or to show what comes next in a colour or in
none. -/
inductive Sign where
  | char (c : Char)
  | select (color : Option Color)
deriving DecidableEq

namespace Sign

/-- Signs as they are sent to a terminal. -/
def written : List Sign → Text
  | [] => []
  | char c :: rest => c :: written rest
  | select color :: rest => Color.switch color ++ written rest

/-- The characters that a terminal shows, each in its colour. -/
def displayed (shown : Option Color) : List Sign → List (Char × Option Color)
  | [] => []
  | char c :: rest => (c, shown) :: displayed shown rest
  | select color :: rest => displayed color rest

/-- The colour that is selected in the end. -/
def colorAfter (shown : Option Color) : List Sign → Option Color
  | [] => shown
  | char _ :: rest => colorAfter shown rest
  | select color :: rest => colorAfter color rest

/-- That no colour is selected in vain: it is another than before, and the next sign does not select
one again. -/
def Sparing (shown : Option Color) : List Sign → Prop
  | [] => True
  | char _ :: rest => Sparing shown rest
  | select color :: rest =>
    color ≠ shown ∧ (∀ color' rest', rest ≠ select color' :: rest') ∧ Sparing color rest

/-! ## Reading -/

/-- Where a terminal is in what it is sent: outside of control sequences, behind the character that
begins one, or among the numbers of one, with those before and what is known of the last. -/
inductive Reading where
  | text
  | escape
  | numbers (before : List Nat) (last : Nat)

/-- The colour that the numbers of a control sequence select. -/
def selected? : List Nat → Option (Option Color)
  | [0] => some none
  | [38, 2, red, green, blue] => some (some ⟨red, green, blue⟩)
  | _ => none

/-- The signs that a terminal tells from what it is sent. A control sequence that selects no colour
is passed over. -/
def read : Reading → Text → List Sign
  | _, [] => []
  | .text, c :: cs => if c = '\x1b' then read .escape cs else char c :: read .text cs
  | .escape, c :: cs => if c = '[' then read (.numbers [] 0) cs else read .text cs
  | .numbers before last, c :: cs =>
    if c.isDigit then read (.numbers before (10 * last + (c.toNat - '0'.toNat))) cs
    else if c = ';' then read (.numbers (before ++ [last]) 0) cs
    else if c = 'm' then
      ((selected? (before ++ [last])).map select).toList ++ read .text cs
    else read .text cs

theorem read_digits {digits : Text} (h : ∀ c ∈ digits, c.isDigit = true) (before : List Nat)
    (last : Nat) (rest : Text) :
    read (.numbers before last) (digits ++ rest) =
      read (.numbers before (Nat.ofDigitChars 10 digits last)) rest := by
  induction digits generalizing last with
  | nil => rw [List.nil_append, Nat.ofDigitChars_nil]
  | cons c cs ih =>
      rw [List.cons_append, read, if_pos (h c List.mem_cons_self),
        ih (fun c hc => h c (List.mem_cons_of_mem _ hc)), Nat.ofDigitChars_cons]

theorem read_begin (rest : Text) :
    read .text ('\x1b' :: '[' :: rest) = read (.numbers [] 0) rest := by
  rw [read, if_pos rfl, read, if_pos rfl]

/-- A number is read as it is written. -/
theorem read_toString (n : Nat) (before : List Nat) (rest : Text) :
    read (.numbers before 0) ((toString n).toList ++ rest) = read (.numbers before n) rest := by
  have hdigits : (toString n).toList = Nat.toDigits 10 n := Nat.toList_repr
  rw [hdigits, read_digits, Nat.ofDigitChars_ten_toDigits]
  intro c hc
  exact Nat.isDigit_of_mem_toDigits (by decide) (by decide) hc

theorem read_semicolon (before : List Nat) (last : Nat) (rest : Text) :
    read (.numbers before last) (';' :: rest) = read (.numbers (before ++ [last]) 0) rest := by
  rw [read, if_neg (by decide), if_pos rfl]

theorem read_end (before : List Nat) (last : Nat) (rest : Text) :
    read (.numbers before last) ('m' :: rest) =
      ((selected? (before ++ [last])).map select).toList ++ read .text rest := by
  rw [read, if_neg (by decide), if_neg (by decide), if_pos rfl]

/-- The numbers of a control sequence that leads to a colour. -/
theorem sequence_eq (c : Color) :
    c.sequence = '\x1b' :: '[' :: ((toString 38).toList ++ ';' :: ((toString 2).toList ++ ';' ::
      ((toString c.red).toList ++ ';' :: ((toString c.green).toList ++ ';' ::
        ((toString c.blue).toList ++ ['m']))))) := by
  have hbegin : "\x1b[38;2;".toList = '\x1b' :: '[' ::
      ((toString 38).toList ++ ';' :: ((toString 2).toList ++ [';'])) := by
    decide +kernel
  unfold Color.sequence
  -- the parts of a colour are any texts from here on
  generalize toString c.red = red
  generalize toString c.green = green
  generalize toString c.blue = blue
  rw [hbegin]
  simp

/-- A control sequence that leads to a colour, or to none, is read as such. -/
theorem read_switch (color : Option Color) (rest : Text) :
    read .text (Color.switch color ++ rest) = select color :: read .text rest := by
  cases color with
  | none =>
      have hsequence : Color.plain = '\x1b' :: '[' :: ((toString 0).toList ++ ['m']) := by
        decide +kernel
      rw [Color.switch, hsequence, List.cons_append, List.cons_append, read_begin,
        List.append_assoc, read_toString, List.singleton_append, read_end]
      simp [selected?]
  | some c =>
      rw [Color.switch, sequence_eq]
      simp only [List.append_assoc, List.cons_append, List.nil_append, read_begin, read_toString,
        read_semicolon, read_end]
      simp [selected?]

/-- Signs are read as they are written, unless they show a character that begins a control
sequence. -/
theorem read_written {signs : List Sign} (h : char '\x1b' ∉ signs) :
    read .text (written signs) = signs := by
  induction signs with
  | nil => rfl
  | cons sign rest ih =>
      rw [List.mem_cons, not_or] at h
      cases sign with
      | char c =>
          have hc : c ≠ '\x1b' := by
            rintro rfl
            exact h.1 rfl
          rw [written, read, if_neg hc, ih h.2]
      | select color => rw [written, read_switch, ih h.2]

end Sign

/-! ## Painting -/

namespace Editor

/-- The signs of a row from a byte on, given the colour of each byte and the colour shown so far. -/
def signs (color : Nat → Option Color) (i : Nat) (shown : Option Color) : Text → List Sign
  | [] => if shown.isSome then [.select none] else []
  | c :: cs =>
    (if color i = shown then [] else [.select (color i)]) ++
      .char c :: signs color (i + c.utf8Size) (color i) cs

variable (color : Nat → Option Color) (i : Nat) (shown : Option Color) (line : Text)

/-- Where each byte has been given its colour, a row is painted. -/
theorem paint_eq {color : Nat → Option Color} {colors : Array (Option Color)} {length : Nat}
    (h : Colors colors length color) {i : Nat} {line : Text} (hline : i + line.byteLength ≤ length)
    (shown : Option Color) :
    paint colors i shown line = .ok (Sign.written (signs color i shown line)) := by
  induction line generalizing i shown with
  | nil => cases shown <;> rfl
  | cons c cs ih =>
      have hpos := c.utf8Size_pos
      rw [Text.byteLength_cons] at hline
      have hothers := ih (i := i + c.utf8Size) (by omega) (color i)
      rw [paint, h.getElem? i (by omega)]
      simp only
      rw [hothers, signs]
      split
      · rfl
      · rfl

theorem displayed_signs_cons (c : Char) (cs : Text) :
    Sign.displayed shown (signs color i shown (c :: cs)) =
      (c, color i) :: Sign.displayed (color i) (signs color (i + c.utf8Size) (color i) cs) := by
  rw [signs]
  by_cases hsame : color i = shown
  · subst hsame
    rw [if_pos rfl]
    rfl
  · rw [if_neg hsame]
    rfl

/-- The characters of a row are shown, and nothing else is. -/
theorem chars_signs : (Sign.displayed shown (signs color i shown line)).map Prod.fst = line := by
  induction line generalizing i shown with
  | nil => cases shown <;> rfl
  | cons c cs ih => rw [displayed_signs_cons, List.map_cons, ih]

/-- Each character is shown in the colour of the byte at which it begins. -/
theorem getElem?_displayed_signs (before : Text) (c : Char) (after : Text) :
    (Sign.displayed shown (signs color i shown (before ++ c :: after)))[before.length]? =
      some (c, color (i + before.byteLength)) := by
  induction before generalizing i shown with
  | nil =>
      rw [List.nil_append, displayed_signs_cons]
      rfl
  | cons b bs ih =>
      rw [List.cons_append, displayed_signs_cons, List.length_cons, List.getElem?_cons_succ, ih,
        Text.byteLength_cons, Nat.add_assoc]

theorem sparing_signs : Sign.Sparing shown (signs color i shown line) := by
  induction line generalizing i shown with
  | nil =>
      cases shown with
      | none => trivial
      | some c => exact ⟨by simp, by simp, trivial⟩
  | cons c cs ih =>
      rw [signs]
      by_cases hsame : color i = shown
      · subst hsame
        rw [if_pos rfl]
        exact ih _ _
      · rw [if_neg hsame]
        refine ⟨hsame, ?_, ih _ _⟩
        intro color' rest' h
        cases h

theorem colorAfter_signs : Sign.colorAfter shown (signs color i shown line) = none := by
  induction line generalizing i shown with
  | nil => cases shown <;> rfl
  | cons c cs ih =>
      rw [signs]
      by_cases hsame : color i = shown
      · subst hsame
        rw [if_pos rfl]
        exact ih _ _
      · rw [if_neg hsame]
        exact ih _ _

theorem char_mem_signs {c : Char} (h : .char c ∈ signs color i shown line) : c ∈ line := by
  induction line generalizing i shown with
  | nil => cases shown <;> simp [signs] at h
  | cons d ds ih =>
      rw [signs, List.mem_append, List.mem_cons] at h
      rcases h with h | h | h
      · split at h
        · cases h
        · simp at h
      · cases h
        exact List.mem_cons_self
      · exact List.mem_cons_of_mem _ (ih _ _ h)

/-- That signs show a row that begins at a byte index: just its characters, each in the colour that
marks give the byte at which it begins. No colour is selected in vain, and none in the end. -/
structure Paints (ms : List Mark) (rowStart : Nat) (line : Text) (signs : List Sign) : Prop where
  chars : (Sign.displayed none signs).map Prod.fst = line
  colors : ∀ (before : Text) c after, line = before ++ c :: after → ∃ color,
    (Sign.displayed none signs)[before.length]? = some (c, color) ∧
      Mark.ColorAt ms (rowStart + before.byteLength) color
  sparing : Sign.Sparing none signs
  plain : Sign.colorAfter none signs = none

theorem paints_signs (e : Editor) (rowStart : Nat) :
    Paints e.marks rowStart line
      (signs (fun i => colorIn e.coloredSpans (rowStart + i)) 0 none line) where
  chars := chars_signs _ _ _ line
  colors := by
    rintro before c after rfl
    refine ⟨_, getElem?_displayed_signs _ _ _ before c after, ?_⟩
    rw [Nat.zero_add]
    exact e.colorAt_colorIn _
  sparing := sparing_signs _ _ _ line
  plain := colorAfter_signs _ _ _ line

/-! ## Rows -/

/-- That what a terminal is sent shows a row of an editor. It reads the signs of the row from it,
unless the row itself has a character that begins a control sequence. -/
def ShowsRow (e : Editor) (row : Nat) (sent : Text) : Prop :=
  ∃ line signs, e.text.line? row = some line ∧ sent = Sign.written signs ∧
    Paints e.marks (e.text.rowStart row) line signs ∧
    ('\x1b' ∉ line → Sign.read .text sent = signs)

/-- The rows of a text are painted one after the other. -/
theorem exists_paintRows {e : Editor} (hordered : ∀ m ∈ e.marks, m.start ≤ m.stop) {row count : Nat}
    (h : row + count ≤ e.text.lineCount) :
    ∃ shown, paintRows e.text e.coloredSpans row count = .ok shown ∧ shown.length = count ∧
      ∀ k sent, shown[k]? = some sent → e.ShowsRow (row + k) sent := by
  induction count generalizing row with
  | zero =>
      refine ⟨[], rfl, rfl, ?_⟩
      intro k sent hsent
      cases hsent
  | succ count ih =>
      have hrow : row < e.text.lineCount := by omega
      have hrows : row + 1 + count ≤ e.text.lineCount := by omega
      obtain ⟨others, hothers, hlength, hshows⟩ := ih hrows
      obtain ⟨line, hline⟩ := Text.exists_line? hrow
      obtain ⟨colors, hcolors, hgiven⟩ :=
        exists_rowColors hordered (e.text.rowStart row) line.byteLength
      -- each row is painted by its own colours, which begin with none
      have hpaint := paint_eq hgiven (i := 0) (Nat.le_of_eq (Nat.zero_add _)) none
      have hpainted : paintRows e.text e.coloredSpans row (count + 1) =
          .ok (Sign.written
            (signs (fun i => colorIn e.coloredSpans (e.text.rowStart row + i)) 0 none line) ::
            others) := by
        rw [paintRows, hline]
        simp only
        rw [Text.indexOf_eq_rowStart hline, hcolors, Checked.ok_bind, hpaint, Checked.ok_bind,
          hothers]
        rfl
      refine ⟨_, hpainted, congrArg (· + 1) hlength, ?_⟩
      intro k sent hsent
      cases k with
      | zero =>
          obtain rfl := Option.some.inj hsent
          refine ⟨line, _, hline, rfl, paints_signs line e _, ?_⟩
          intro hescape
          apply Sign.read_written
          exact fun hchar => hescape (char_mem_signs _ _ _ _ hchar)
      | succ k =>
          have := hshows k sent hsent
          rwa [Nat.add_assoc, Nat.add_comm 1 k] at this

theorem Reachable.inOrder {e : Editor} (he : e.Reachable) : e.InOrder := by
  obtain ⟨t, rows, hcalls⟩ := he
  exact (inOrder_ofText t rows).reaches hcalls.reaches

/-- In an editor that can come about, the rows that are to be seen are rendered, one after the
other. -/
theorem Reachable.exists_render {e : Editor} (he : e.Reachable) {rows : RowRange}
    (hrows : e.viewport = .ok rows) :
    e.Displays rows ∧ ∃ shown, e.render = .ok shown ∧ shown.length = rows.stop + 1 - rows.start ∧
      ∀ k sent, shown[k]? = some sent → e.ShowsRow (rows.start + k) sent := by
  have hdisplays := he.displays hrows
  have hmarks : ∀ m ∈ e.marks, m.start ≤ m.stop := fun m hm => (he.inOrder.placed m hm).1
  -- there are no more rows than are to be seen, and these can be counted
  have hfit : e.RowsFit := exists_viewport_iff.mp ⟨rows, hrows⟩
  have hordered := hdisplays.ordered
  have hinside : rows.start + (rows.stop - rows.start + 1) ≤ e.text.lineCount := by
    have := hdisplays.inside
    omega
  have hcount : rows.stop - rows.start + 1 = rows.stop + 1 - rows.start := by omega
  have hsize : rows.stop - rows.start + 1 ≤ Size.largest := by
    have := hdisplays.count
    unfold RowsFit at hfit
    omega
  obtain ⟨shown, hpaint, hlength, hshows⟩ := exists_paintRows hmarks hinside
  refine ⟨hdisplays, shown, ?_, hlength.trans hcount, hshows⟩
  rw [render, hrows, Checked.ok_bind, Size.sub_of_le hordered, Checked.ok_bind,
    Size.add_of_le hsize, Checked.ok_bind, hpaint]

/-- In every editor that can come about, if the rows that can be seen are told, they are rendered
without a fault, and there is one text for each of them. As long as a row has no character that
begins a control sequence, a terminal tells from its text what has been written: just the characters
of the row, each in the colour of the first mark that contains the byte at which the character
begins and has a colour, or in none. The colour is changed only where another one is needed, and in
the end there is none. -/
theorem render_shows_marks {e : Editor} (he : e.Reachable) {rows : RowRange}
    (hrows : e.viewport = .ok rows) :
    rows.start ≤ rows.stop ∧ ∃ shown, e.render = .ok shown ∧
      shown.length = rows.stop + 1 - rows.start ∧
      ∀ row, rows.contains row = true →
        ∃ sent, shown[row - rows.start]? = some sent ∧ e.ShowsRow row sent := by
  obtain ⟨hdisplays, shown, hrender, hlength, hshows⟩ := he.exists_render hrows
  refine ⟨hdisplays.ordered, shown, hrender, hlength, ?_⟩
  intro row hrow
  simp only [RowRange.contains, Bool.and_eq_true, decide_eq_true_eq] at hrow
  have hplace : row - rows.start < shown.length := by
    have := hdisplays.ordered
    omega
  have hsent := List.getElem?_eq_getElem hplace
  have hshow := hshows _ _ hsent
  rw [Nat.add_sub_cancel' hrow.1] at hshow
  exact ⟨_, hsent, hshow⟩

/-- Two marks overlap in a character of two bytes, one of them over the end of a row, and a third
one has no known colour. -/
theorem render_shows_marks_of_overlap :
    let style (css : String) : Style := { css := css.toList }
    let cs : List Command := [.mark ⟨1, 1⟩ ⟨0, 1⟩ (style "color: red"),
      .mark ⟨0, 0⟩ ⟨0, 9⟩ (style "bold; color : navy; color: red"),
      .mark ⟨0, 0⟩ ⟨1, 2⟩ (style "color: mauve")]
    let first : Text := "\x1b[38;2;0;0;128ma\x1b[38;2;255;0;0mé\x1b[0m".toList
    let second : Text := "\x1b[38;2;255;0;0mb\x1b[0mc".toList
    ∃ answers e, (ofText ['a', 'é', '\n', 'b', 'c'] 2).runAll cs = .ok (answers, e) ∧
      e.Reachable ∧ e.viewport = .ok ⟨0, 1⟩ ∧ e.render = .ok [first, second] ∧
      e.ShowsRow 0 first ∧ e.ShowsRow 1 second := by
  intro style cs first second
  obtain ⟨⟨answers, e⟩, hrun, htest⟩ := Checked.exists_ok
    ((ofText ['a', 'é', '\n', 'b', 'c'] 2).runAll cs)
    (fun r => (r.2.viewport.toOption, r.2.render.toOption) =
      (some ⟨0, 1⟩, some [first, second])) (by decide +kernel)
  obtain ⟨hrows, hrender⟩ := Prod.mk.inj (of_decide_eq_true htest)
  have he : e.Reachable := (reachable_ofText _ 2).calls (calls_runAll cs _ hrun).1
  have hviewport : e.viewport = .ok ⟨0, 1⟩ := by
    cases hfound : e.viewport with
    | error fault => simp [hfound, Except.toOption] at hrows
    | ok rows => simpa [hfound, Except.toOption] using hrows
  -- what is shown is what the test has found, so both rows are those of the statement
  obtain ⟨-, shown, hshown, -, hshows⟩ := render_shows_marks he hviewport
  rw [hshown] at hrender
  obtain rfl := Option.some.inj hrender
  obtain ⟨sent, hsent, hfirst⟩ := hshows 0 rfl
  obtain ⟨sent', hsent', hsecond⟩ := hshows 1 rfl
  obtain rfl := Option.some.inj hsent
  obtain rfl := Option.some.inj hsent'
  exact ⟨answers, e, hrun, he, hviewport, hshown, hfirst, hsecond⟩

end Editor

end Lumen
