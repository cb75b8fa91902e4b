import Lumen.Proofs.Yaml.Plain

/-!
# Blocks can be read back

A text with line ends is written as a block of lines below the sign of the block. What is read for
one line does not depend on the lines before it, so that a text which begins with a line is read
along its lines (`Lined`, `lines?_lined`). Before that come the empty lines at the top. They are
told from the indentation of the first line by the sign, which also says how many line ends there
are at the end of the text (`chomping_lined`).

The block ends where the next line that is not indented starts (`blockScalar?_literal`).
-/

namespace Lumen

namespace Yaml

/-! ## The lines of a text -/

/-- A text that begins with a line, and what its block says about the line ends at its end: that
there are none, one or more. -/
inductive Lined : Chomping → Text → Prop where
  | strip {line : Text} (hne : line ≠ []) (hline : ∀ c ∈ line, isBreak c = false) :
      Lined .strip line
  | clip {line : Text} {c : Char} (hne : line ≠ []) (hline : ∀ c ∈ line, isBreak c = false)
      (hc : isBreak c = true) : Lined .clip (line ++ [c])
  | keep {line : Text} {c : Char} {breaks : Text} (hne : line ≠ [])
      (hline : ∀ c ∈ line, isBreak c = false) (hc : isBreak c = true) (hsome : breaks ≠ [])
      (hbreaks : ∀ c ∈ breaks, isBreak c = true) : Lined .keep (line ++ c :: breaks)
  | more {ch : Chomping} {line : Text} {c : Char} {breaks t : Text} (hne : line ≠ [])
      (hline : ∀ c ∈ line, isBreak c = false) (hc : isBreak c = true)
      (hbreaks : ∀ c ∈ breaks, isBreak c = true) (ht : Lined ch t) :
      Lined ch (line ++ c :: (breaks ++ t))

/-- A text is cut where a class of characters ends. -/
theorem exists_stretch (p : Char → Bool) (t : Text) :
    ∃ a b, t = a ++ b ∧ (∀ c ∈ a, p c = true) ∧ ∀ c, b.head? = some c → p c = false := by
  refine ⟨t.takeWhile p, t.dropWhile p, List.takeWhile_append_dropWhile.symm, ?_, ?_⟩
  · exact List.all_eq_true.mp List.all_takeWhile
  · intro c hc
    have hnot := List.head?_dropWhile_not p t
    rw [hc] at hnot
    exact hnot

theorem exists_lined {c : Char} (cs : Text) (h : isBreak c = false) :
    ∃ ch, Lined ch (c :: cs) := by
  generalize hn : (c :: cs).length = n
  -- a line and the breaks behind it are cut off, and what is left is shorter
  induction n using Nat.strongRecOn generalizing c cs with
  | ind n ih =>
      obtain ⟨line, after, hsplit, hline, hafter⟩ :=
        exists_stretch (fun d => !isBreak d) (c :: cs)
      simp only [Bool.not_eq_true', Bool.not_eq_false'] at hline hafter
      have hne : line ≠ [] := by
        rintro rfl
        rw [List.nil_append] at hsplit
        have hbreak := hafter c (hsplit ▸ rfl)
        rw [h] at hbreak
        cases hbreak
      cases after with
      | nil => exact ⟨.strip, by rw [hsplit, List.append_nil]; exact .strip hne hline⟩
      | cons d ds =>
          have hd := hafter d rfl
          obtain ⟨breaks, t, rfl, hbreaks, ht⟩ := exists_stretch isBreak ds
          rw [hsplit] at hn ⊢
          cases t with
          | cons e es =>
              have hless : (e :: es).length < n := by
                rw [← hn]
                simp
                omega
              obtain ⟨ch, hlined⟩ := ih _ hless es (ht e rfl) rfl
              exact ⟨ch, .more hne hline hd hbreaks hlined⟩
          | nil =>
              rw [List.append_nil]
              -- at the end, how many breaks there are tells how the block is chomped
              by_cases hsome : breaks = []
              · exact ⟨.clip, hsome ▸ .clip hne hline hd⟩
              · exact ⟨.keep, .keep hne hline hd hsome hbreaks⟩

theorem Lined.exists_cons {ch : Chomping} {t : Text} (h : Lined ch t) :
    ∃ c cs, t = c :: cs ∧ isBreak c = false := by
  have hcons : ∀ {line : Text}, line ≠ [] → (∀ c ∈ line, isBreak c = false) →
      ∀ u, ∃ c cs, line ++ u = c :: cs ∧ isBreak c = false := by
    intro line hne hline u
    obtain ⟨c, cs, rfl⟩ := List.exists_cons_of_ne_nil hne
    exact ⟨c, cs ++ u, rfl, hline c List.mem_cons_self⟩
  cases h with
  | strip hne hline => simpa using hcons hne hline []
  | clip hne hline => exact hcons hne hline _
  | keep hne hline => exact hcons hne hline _
  | more hne hline => exact hcons hne hline _

/-! ## The sign of a block -/

/-- The sign by which a block says what is done with the line ends at its end. -/
def Chomping.sign : Chomping → Text
  | .strip => ['-']
  | .clip => []
  | .keep => ['+']

theorem chomping_line {line : Text} (front : Text) (hne : line ≠ [])
    (hline : ∀ c ∈ line, isBreak c = false) : chomping (front ++ line) = ['-'] := by
  obtain ⟨init, c, rfl⟩ := (List.eq_nil_or_concat line).resolve_left hne
  have hc := hline c (by simp)
  simp [chomping, hc]

theorem chomping_clip {line : Text} {c : Char} (front : Text) (hne : line ≠ [])
    (hline : ∀ c ∈ line, isBreak c = false) (hc : isBreak c = true) :
    chomping (front ++ (line ++ [c])) = [] := by
  obtain ⟨init, d, rfl⟩ := (List.eq_nil_or_concat line).resolve_left hne
  have hd := hline d (by simp)
  simp [chomping, hc, hd]

theorem chomping_breaks {breaks : Text} (front : Text) (hmany : front = [] ∨ 1 < breaks.length)
    (hsome : breaks ≠ []) (hbreaks : ∀ c ∈ breaks, isBreak c = true) :
    chomping (front ++ breaks) = ['+'] := by
  obtain ⟨init, c, rfl⟩ := (List.eq_nil_or_concat breaks).resolve_left hsome
  have hc := hbreaks c (by simp)
  rcases List.eq_nil_or_concat init with rfl | ⟨init, d, rfl⟩
  · obtain rfl := hmany.resolve_right (by simp)
    simp [chomping, hc]
  · have hd := hbreaks d (by simp)
    simp [chomping, hc, hd]

theorem chomping_lined {ch : Chomping} {t : Text} (h : Lined ch t) (front : Text) :
    chomping (front ++ t) = ch.sign := by
  induction h generalizing front with
  | strip hne hline => exact chomping_line front hne hline
  | clip hne hline hc => exact chomping_clip front hne hline hc
  | @keep line c breaks hne hline hc hsome hbreaks =>
      rw [← List.append_assoc]
      refine chomping_breaks _ (.inr ?_) (List.cons_ne_nil c breaks) ?_
      · simpa using List.length_pos_iff.mpr hsome
      · simpa [hc] using hbreaks
  | @more ch line c breaks t hne hline hc hbreaks ht ih =>
      have hrest := ih (front ++ line ++ c :: breaks)
      simpa using hrest

/-- What a block says is read from its sign. -/
theorem header?_sign (ch : Chomping) (told : Bool) (m : Mark) (u : Text) :
    ∃ m' : Mark, m'.column = 0 ∧ m.line < m'.line ∧
      header? ⟨m, (if told then ['2'] else []) ++ ch.sign ++ '\n' :: u⟩ =
        some ⟨ch, if told then 2 else 0, ⟨m', u⟩⟩ := by
  cases ch <;> cases told <;> exact ⟨_, rfl, Nat.lt_succ_self m.line, rfl⟩

/-! ## Lines as they are written -/

theorem indented_line {line u : Text} (hline : ∀ c ∈ line, isBreak c = false) :
    indented (fun c => [c]) false (line ++ u) = line ++ indented (fun c => [c]) false u := by
  induction line with
  | nil => rfl
  | cons c cs ih =>
      have hrest := ih fun d hd => hline d (List.mem_cons_of_mem c hd)
      rw [List.cons_append, indented, hline c List.mem_cons_self, hrest]
      rfl

theorem indented_break {fresh : Bool} {c : Char} {u : Text} (hc : isBreak c = true) :
    indented (fun c => [c]) fresh (c :: u) = c :: indented (fun c => [c]) true u := by
  rw [indented, if_pos hc]

theorem indented_breaks {breaks u : Text} (hbreaks : ∀ c ∈ breaks, isBreak c = true) :
    indented (fun c => [c]) true (breaks ++ u) = breaks ++ indented (fun c => [c]) true u := by
  induction breaks with
  | nil => rfl
  | cons c cs ih =>
      have hrest := ih fun d hd => hbreaks d (List.mem_cons_of_mem c hd)
      rw [List.cons_append, indented_break (hbreaks c List.mem_cons_self), hrest]
      rfl

theorem indented_fresh {c : Char} {u : Text} (hc : isBreak c = false) :
    indented (fun c => [c]) true (c :: u) = margin ++ indented (fun c => [c]) false (c :: u) := by
  simp [indented, hc]

theorem length_le_indented (fresh : Bool) (t : Text) :
    t.length ≤ (indented (fun c => [c]) fresh t).length := by
  induction t generalizing fresh with
  | nil => exact Nat.zero_le _
  | cons c cs ih =>
      have htrue := ih true
      have hfalse := ih false
      rw [indented]
      split <;> simp only [List.length_append, List.length_cons, List.length_nil] <;> omega

theorem endLine_append {t : Text} (front : Text) (ht : t ≠ []) :
    endLine (front ++ t) = front ++ endLine t := by
  obtain ⟨init, c, rfl⟩ := (List.eq_nil_or_concat t).resolve_left ht
  cases hc : isBreak c <;> simp [endLine, hc]

theorem endLine_breaks {t : Text} (front : Text) (ht : t ≠ [])
    (hbreaks : ∀ c ∈ t, isBreak c = true) : endLine (front ++ t) = front ++ t := by
  obtain ⟨init, c, rfl⟩ := (List.eq_nil_or_concat t).resolve_left ht
  have hc := hbreaks c (by simp)
  simp [endLine, hc]

theorem endLine_concat {c : Char} (t : Text) (hc : isBreak c = false) :
    endLine (t ++ [c]) = t ++ [c] ++ ['\n'] := by
  simp [endLine, hc]

theorem endLine_line {line : Text} (hne : line ≠ []) (hline : ∀ c ∈ line, isBreak c = false) :
    endLine line = line ++ ['\n'] := by
  obtain ⟨init, c, rfl⟩ := (List.eq_nil_or_concat line).resolve_left hne
  rw [List.concat_eq_append]
  exact endLine_concat init (hline c (by simp))

theorem indented_cons {c : Char} (cs : Text) (hc : isBreak c = false) :
    indented (fun c => [c]) false (c :: cs) = c :: indented (fun c => [c]) false cs :=
  indented_line fun _ hd => List.mem_singleton.mp hd ▸ hc

theorem length_le_endLine (t : Text) : t.length ≤ (endLine t).length := by
  rw [endLine]
  split <;> simp

theorem exists_endLine_cons (c : Char) (cs : Text) :
    ∃ u, endLine (c :: cs) = c :: u ∧ cs.length ≤ u.length := by
  rw [endLine]
  split
  · exact ⟨cs, rfl, Nat.le_refl _⟩
  · exact ⟨cs ++ ['\n'], rfl, by simp⟩

/-- A line below empty lines is written after its margin. -/
theorem endLine_indented_fresh {breaks : Text} {c : Char} (front cs : Text)
    (hbreaks : ∀ d ∈ breaks, isBreak d = true) (hc : isBreak c = false) :
    endLine (front ++ indented (fun c => [c]) true (breaks ++ c :: cs)) =
      front ++ (breaks ++ (margin ++ endLine (indented (fun c => [c]) false (c :: cs)))) := by
  have hne : indented (fun c => [c]) false (c :: cs) ≠ [] := by
    rw [indented_cons cs hc]
    exact List.cons_ne_nil _ _
  rw [indented_breaks hbreaks, indented_fresh hc, ← List.append_assoc, ← List.append_assoc,
    endLine_append _ hne]
  simp only [List.append_assoc]

/-! ## Reading lines -/

/-- Empty lines are passed one by one. -/
theorem margin?_breaks {breaks u : Text} {m : Mark} (i : Nat) (hm : m.column = 0)
    (hprint : ∀ c ∈ breaks, isPrintable c = true) (hbreaks : ∀ c ∈ breaks, isBreak c = true) :
    ∃ m' : Mark, m'.column = 0 ∧ m.line ≤ m'.line ∧
      margin? i 0 m (breaks ++ u) =
        (margin? i 0 m' u).map fun r => { r with breaks := breaks ++ r.breaks } := by
  induction breaks generalizing m with
  | nil => exact ⟨m, hm, Nat.le_refl _, by simp⟩
  | cons c cs ih =>
      have hc := hbreaks c List.mem_cons_self
      have hp := hprint c List.mem_cons_self
      obtain ⟨m', hcolumn, hline, hread⟩ := ih (m := m.down) rfl
        (fun d hd => hprint d (List.mem_cons_of_mem c hd))
        (fun d hd => hbreaks d (List.mem_cons_of_mem c hd))
      refine ⟨m', hcolumn, Nat.le_trans (Nat.le_succ _) hline, ?_⟩
      have hspace : c ≠ ' ' ∧ c ≠ '\t' := by constructor <;> (rintro rfl; cases hc)
      rw [List.cons_append, margin?]
      · simp [hspace, hc, hm, breakText_eq hp hc, hread, Function.comp_def]
      · rintro u' rfl -
        cases hp

/-- A line that starts without a blank has no indentation. -/
theorem margin?_start {u : Text} {m : Mark} (i : Nat) (hm : m.column = 0)
    (hu : startsLine u = true) : margin? i 0 m u = some { next := ⟨m, u⟩ } := by
  cases u with
  | nil => simp [margin?, hm]
  | cons c cs =>
      obtain ⟨hbreak, hblank, -⟩ := startsLine_cons hu
      have hspace := ne_of_isBlank hblank
      rw [margin?]
      · simp [hspace, hbreak, hm]
      · rintro u' rfl -
        cases hbreak

/-- The indentation of a line is passed. If it has not been told, the line begins with no blank. -/
theorem margin?_margin {c : Char} {u : Text} {i : Nat} {m : Mark} (hm : m.column = 0)
    (hc : isBreak c = false) (hi : i = 2 ∨ i = 0 ∧ isBlank c = false) :
    margin? i 0 m (margin ++ c :: u) =
      some { widest := 2, next := ⟨m.right 2, c :: u⟩ } := by
  have hreturn : c ≠ '\r' := by
    rintro rfl
    cases hc
  rcases hi with rfl | ⟨rfl, hblank⟩
  · simp [margin, margin?, hm, Mark.right, hreturn, hc]
  · have hspace := ne_of_isBlank hblank
    simp [margin, margin?, hm, Mark.right, hreturn, hc, hspace]

theorem lineEnd_break {c : Char} {u : Text} (m : Mark) (hprint : isPrintable c = true)
    (hc : isBreak c = true) : lineEnd ⟨m, c :: u⟩ = ([c], ⟨m.down, u⟩) := by
  rw [lineEnd]
  split
  · next heq =>
      rw [(List.cons.inj heq).1] at hprint
      cases hprint
  · next heq =>
      obtain ⟨rfl, rfl⟩ := List.cons.inj heq
      rw [if_pos hc, breakText_eq hprint hc, Place.passBreak_eq hprint hc]
  · next heq => cases heq

/-- A line is read with its end, and then the empty lines after it. -/
theorem lines?_line (ch : Chomping) {i n : Nat} {b : Body} {m : Mark} {line u : Text} {c : Char}
    (hm : m.column = i) (hline : ∀ c ∈ line, isBreak c = false) (hprint : isPrintable c = true)
    (hc : isBreak c = true) :
    ∃ blank, lines? true ch i b (n + 1) ⟨m, line ++ c :: u⟩ = do
      let margin ← margin? i 0 (m.right line.length).down u
      let (value, next) ← lines? true ch i ⟨[c], margin.breaks, blank⟩ n margin.next
      return (b.lineEnd ++ b.breaks ++ line ++ value, next) := by
  have hstop : (line ++ c :: u).takeWhile (fun d => !isBreak d) = line := by
    rw [List.takeWhile_append_of_pos (by simpa using hline)]
    simp [hc]
  refine ⟨(line ++ c :: u).head?.any isBlank, ?_⟩
  cases ch <;> simp [lines?, hm, hstop, Place.right, lineEnd_break _ hprint hc, Body.gap]

/-- The end of a block is told by a line that is not indented. -/
theorem lines?_end {ch : Chomping} {i n : Nat} {b : Body} {m : Mark} {u : Text}
    (hm : m.column ≠ i) :
    lines? true ch i b (n + 1) ⟨m, u⟩ = some (match ch with
      | .strip => []
      | .clip => b.lineEnd
      | .keep => b.lineEnd ++ b.breaks, ⟨m, u⟩) := by
  cases ch <;> simp [lines?, hm]

/-- The last line of a block is read with the empty lines after it. -/
theorem lines?_last (ch : Chomping) (breaks : Text) {n : Nat} {b : Body} {m : Mark}
    {line rest : Text} {c : Char} (hm : m.column = 2) (hline : ∀ c ∈ line, isBreak c = false)
    (hprint : ∀ d ∈ c :: breaks, isPrintable d = true)
    (hbreaks : ∀ d ∈ c :: breaks, isBreak d = true) (hrest : startsLine rest = true) :
    ∃ m' : Mark, m'.column = 0 ∧ m.line < m'.line ∧
      lines? true ch 2 b (n + 2) ⟨m, line ++ c :: (breaks ++ rest)⟩ =
        some (b.lineEnd ++ b.breaks ++ line ++ match ch with
          | .strip => []
          | .clip => [c]
          | .keep => c :: breaks, ⟨m', rest⟩) := by
  rw [List.forall_mem_cons] at hprint hbreaks
  obtain ⟨blank, hread⟩ := lines?_line ch (n := n + 1) (b := b) (u := breaks ++ rest) hm
    hline hprint.1 hbreaks.1
  obtain ⟨m', hcolumn, hle, hbreaks⟩ := margin?_breaks (u := rest) (m := (m.right line.length).down)
    2 rfl hprint.2 hbreaks.2
  -- what comes next is not indented, so the block ends there
  have hend : m'.column ≠ 2 := by
    rw [hcolumn]
    decide
  refine ⟨m', hcolumn, hle, ?_⟩
  rw [hread, hbreaks, margin?_start 2 hcolumn hrest]
  simp only [Option.map_some, Option.bind_eq_bind, Option.bind_some, List.append_nil,
    lines?_end hend]
  cases ch <;> rfl

/-- A line of a block is read with the empty lines after it, up to the next line. -/
theorem lines?_next (ch : Chomping) {breaks : Text} {n : Nat} {b : Body} {m : Mark}
    {line u : Text} {c d : Char} (hm : m.column = 2) (hline : ∀ c ∈ line, isBreak c = false)
    (hprint : ∀ e ∈ c :: breaks, isPrintable e = true)
    (hbreaks : ∀ e ∈ c :: breaks, isBreak e = true) (hd : isBreak d = false) :
    ∃ (m' : Mark) (blank : Bool), m'.column = 2 ∧ m.line < m'.line ∧
      lines? true ch 2 b (n + 1) ⟨m, line ++ c :: (breaks ++ (margin ++ d :: u))⟩ =
        (lines? true ch 2 ⟨[c], breaks, blank⟩ n ⟨m', d :: u⟩).map fun r =>
          (b.lineEnd ++ b.breaks ++ line ++ r.1, r.2) := by
  rw [List.forall_mem_cons] at hprint hbreaks
  obtain ⟨blank, hread⟩ := lines?_line ch (n := n) (b := b) (u := breaks ++ (margin ++ d :: u)) hm
    hline hprint.1 hbreaks.1
  obtain ⟨m', hcolumn, hle, hpass⟩ := margin?_breaks (u := margin ++ d :: u)
    (m := (m.right line.length).down) 2 rfl hprint.2 hbreaks.2
  rw [margin?_margin hcolumn hd (.inl rfl)] at hpass
  refine ⟨m'.right 2, blank, by simp [Mark.right, hcolumn], Nat.lt_of_succ_le hle, ?_⟩
  rw [hread, hpass]
  cases hlines : lines? true ch 2 ⟨[c], breaks, blank⟩ n ⟨m'.right 2, d :: u⟩ with
  | none => simp [hlines]
  | some r => simp [hlines]

/-- The lines of a text are read up to what is not indented. -/
theorem lines?_lined {ch : Chomping} {t rest : Text} (h : Lined ch t) {b : Body} {n : Nat}
    {m : Mark} (hprint : ∀ c ∈ t, isPrintable c = true) (hrest : startsLine rest = true)
    (hm : m.column = 2) (hn : t.length < n) :
    ∃ m' : Mark, m'.column = 0 ∧ m.line < m'.line ∧
      lines? true ch 2 b n ⟨m, endLine (indented (fun c => [c]) false t) ++ rest⟩ =
        some (b.lineEnd ++ b.breaks ++ t, ⟨m', rest⟩) := by
  -- each line takes a step, and the last one takes another for the end of the block
  induction h generalizing b n m with
  | @strip line hne hline =>
      have hpos := List.length_pos_iff.mpr hne
      obtain ⟨n, rfl⟩ : ∃ k, n = k + 2 := ⟨n - 2, by omega⟩
      obtain ⟨m', hcolumn, hlt, hread⟩ := lines?_last .strip [] (n := n) (b := b) (c := '\n')
        hm hline (by simp; decide) (by simp; decide) hrest
      refine ⟨m', hcolumn, hlt, ?_⟩
      have hwritten := indented_line (u := []) hline
      simp only [indented, List.append_nil] at hwritten hread
      rw [hwritten, endLine_line hne hline, List.append_assoc]
      exact hread
  | @clip line c hne hline hc =>
      have hpos := List.length_pos_iff.mpr hne
      obtain ⟨n, rfl⟩ : ∃ k, n = k + 2 := ⟨n - 2, by simp at hn; omega⟩
      obtain ⟨m', hcolumn, hlt, hread⟩ := lines?_last .clip [] (n := n) (b := b) (c := c)
        hm hline (by simp [hprint]) (by simp [hc]) hrest
      refine ⟨m', hcolumn, hlt, ?_⟩
      rw [indented_line hline, indented_break hc, indented,
        endLine_breaks line (List.cons_ne_nil c []) (by simp [hc]), List.append_assoc,
        ← List.append_assoc _ line]
      exact hread
  | @keep line c breaks hne hline hc hsome hbreaks =>
      have hpos := List.length_pos_iff.mpr hne
      obtain ⟨n, rfl⟩ : ∃ k, n = k + 2 := ⟨n - 2, by simp at hn; omega⟩
      have hall : ∀ d ∈ c :: breaks, isBreak d = true := by simpa [hc] using hbreaks
      obtain ⟨m', hcolumn, hlt, hread⟩ := lines?_last .keep breaks (n := n) (b := b) (c := c)
        hm hline (fun d hd => hprint d (List.mem_append_right line hd)) hall hrest
      refine ⟨m', hcolumn, hlt, ?_⟩
      have hwritten := indented_breaks (u := []) hbreaks
      simp only [indented, List.append_nil] at hwritten
      rw [indented_line hline, indented_break hc, hwritten, endLine_breaks line
        (List.cons_ne_nil c breaks) hall, List.append_assoc, ← List.append_assoc _ line]
      exact hread
  | @more ch line c breaks t hne hline hc hbreaks ht ih =>
      obtain ⟨n, rfl⟩ : ∃ k, n = k + 1 := ⟨n - 1, by simp at hn; omega⟩
      obtain ⟨d, ds, rfl, hd⟩ := ht.exists_cons
      have hall : ∀ e ∈ c :: breaks, isBreak e = true := by simpa [hc] using hbreaks
      rw [← List.cons_append, ← List.append_assoc] at hprint
      obtain ⟨u, hu, -⟩ := exists_endLine_cons d (indented (fun c => [c]) false ds)
      obtain ⟨m₁, blank, hcolumn₁, hlt₁, hread⟩ := lines?_next ch (n := n) (b := b) (u := u ++ rest)
        hm hline (fun e he => hprint e (List.mem_append_left _ (List.mem_append_right line he)))
        hall hd
      obtain ⟨m', hcolumn, hlt, hrest'⟩ := ih (b := ⟨[c], breaks, blank⟩) (n := n) (m := m₁)
        (fun e he => hprint e (List.mem_append_right _ he)) hcolumn₁ (by
          simp only [List.length_append, List.length_cons] at hn ⊢
          omega)
      refine ⟨m', hcolumn, Nat.lt_trans hlt₁ hlt, ?_⟩
      have hwritten := endLine_indented_fresh (line ++ [c]) ds hbreaks hd
      rw [indented_cons ds hd, hu] at hrest' hwritten
      rw [indented_line hline, indented_break hc]
      simp only [List.append_assoc, List.cons_append, List.nil_append] at hwritten hrest' ⊢
      rw [hwritten]
      simp only [List.append_assoc, List.cons_append]
      rw [hread, hrest']
      simp

/-! ## Reading a block -/

/-- After its sign a block is read as its empty lines and the lines after them. -/
theorem blockScalar?_sign (ch : Chomping) (told : Bool) (m : Mark) (u : Text) :
    ∃ (m' : Mark) (n : Nat), m'.column = 0 ∧ m.line < m'.line ∧ u.length < n ∧
      blockScalar? true (some 0)
          ⟨m, '|' :: ((if told then ['2'] else []) ++ ch.sign ++ '\n' :: u)⟩ =
        (margin? (if told then 2 else 0) 0 m' u).bind fun margin =>
          lines? true ch (if told then 2 else max margin.widest 1) { breaks := margin.breaks }
            (n + 1) margin.next := by
  obtain ⟨m', hcolumn, hlt, hheader⟩ := header?_sign ch told m.right u
  refine ⟨m', ('|' :: ((if told then ['2'] else []) ++ ch.sign ++ '\n' :: u)).length, hcolumn, hlt,
    ?_, ?_⟩
  · simp only [List.length_cons, List.length_append]
    omega
  · rw [blockScalar?, Place.right, List.drop_succ_cons, List.drop_zero, hheader]
    cases told <;> rfl

theorem endLine_literal {t : Text} (ht : t ≠ []) :
    endLine (literal t) = '|' :: ((if t.head?.any isGap then ['2'] else []) ++ chomping t ++
      '\n' :: endLine (indented (fun c => [c]) true t)) := by
  have hne : indented (fun c => [c]) true t ≠ [] := by
    have hlength := length_le_indented true t
    have hpos := List.length_pos_iff.mpr ht
    exact List.length_pos_iff.mp (by omega)
  have happend := endLine_append
    ('|' :: ((if t.head?.any isGap then ['2'] else []) ++ chomping t ++ ['\n'])) hne
  simpa [literal] using happend

/-- Empty lines are all kept when there is nothing else. -/
theorem blockScalar?_breaks {breaks rest : Text} (m : Mark)
    (hprint : ∀ c ∈ breaks, isPrintable c = true) (hne : breaks ≠ [])
    (hbreaks : ∀ c ∈ breaks, isBreak c = true) (hrest : startsLine rest = true) :
    ∃ m' : Mark, m'.column = 0 ∧ m.line < m'.line ∧
      blockScalar? true (some 0) ⟨m, endLine (literal breaks) ++ rest⟩ =
        some (breaks, ⟨m', rest⟩) := by
  -- a text of nothing but breaks is kept whole and has no line to be indented
  have hgap : breaks.head?.any isGap = true := by
    obtain ⟨c, cs, rfl⟩ := List.exists_cons_of_ne_nil hne
    simp [isGap, hbreaks c List.mem_cons_self]
  have hsign : chomping breaks = Chomping.keep.sign :=
    chomping_breaks [] (.inl rfl) hne hbreaks
  have hindented := indented_breaks (u := []) hbreaks
  have hend := endLine_breaks [] hne hbreaks
  simp only [indented, List.append_nil, List.nil_append] at hindented hend
  obtain ⟨m₁, n, hcolumn₁, hlt₁, -, hread⟩ := blockScalar?_sign .keep true m (breaks ++ rest)
  obtain ⟨m', hcolumn, hle, hpass⟩ := margin?_breaks (u := rest) 2 hcolumn₁ hprint hbreaks
  have hout : m'.column ≠ 2 := by
    rw [hcolumn]
    decide
  refine ⟨m', hcolumn, Nat.lt_of_lt_of_le hlt₁ hle, ?_⟩
  rw [margin?_start 2 hcolumn hrest] at hpass
  rw [endLine_literal hne, hgap, hsign, hindented, hend]
  simp only [List.cons_append, List.append_assoc, if_true] at hread ⊢
  rw [hread, hpass]
  simp [lines?_end hout]

/-- The lines of a text are read below the empty lines at its top. The sign tells their
indentation, unless the first of them shows it. -/
theorem blockScalar?_lined {ch : Chomping} {breaks cs rest : Text} {c : Char} (m : Mark)
    (hprint : ∀ e ∈ breaks ++ c :: cs, isPrintable e = true)
    (hbreaks : ∀ e ∈ breaks, isBreak e = true) (hc : isBreak c = false)
    (hlined : Lined ch (c :: cs)) (hrest : startsLine rest = true) :
    ∃ m' : Mark, m'.column = 0 ∧ m.line < m'.line ∧
      blockScalar? true (some 0) ⟨m, endLine (literal (breaks ++ c :: cs)) ++ rest⟩ =
        some (breaks ++ c :: cs, ⟨m', rest⟩) := by
  obtain ⟨w, hw, -⟩ := exists_endLine_cons c (indented (fun c => [c]) false cs)
  obtain ⟨told, htold⟩ : ∃ told, told = (breaks ++ c :: cs).head?.any isGap := ⟨_, rfl⟩
  -- the indentation is told where the text begins with a break or a blank, and else it is that of
  -- the first line
  have hi : (if told then 2 else 0) = 2 ∨ (if told then 2 else 0) = 0 ∧ isBlank c = false := by
    cases told with
    | true => exact .inl rfl
    | false =>
        refine .inr ⟨rfl, ?_⟩
        cases breaks with
        | nil => simpa [isGap, hc] using htold
        | cons b bs => simp [isGap, hbreaks b List.mem_cons_self] at htold
  have hwritten := endLine_indented_fresh [] cs hbreaks hc
  obtain ⟨m₁, n, hcolumn₁, hlt₁, hn, hread⟩ := blockScalar?_sign ch told m
    (breaks ++ (margin ++ c :: (w ++ rest)))
  obtain ⟨m₂, hcolumn₂, hle₂, hpass⟩ := margin?_breaks (u := margin ++ c :: (w ++ rest))
    (if told then 2 else 0) hcolumn₁ (fun e he => hprint e (List.mem_append_left _ he)) hbreaks
  rw [margin?_margin hcolumn₂ hc hi] at hpass
  have hlength : (c :: cs).length < n + 1 := by
    have hcs := length_le_indented false cs
    have hcsw := length_le_endLine (c :: indented (fun c => [c]) false cs)
    rw [hw] at hcsw
    simp only [List.length_append, List.length_cons] at hn hcsw ⊢
    omega
  obtain ⟨m', hcolumn, hlt, hlines⟩ := lines?_lined hlined (b := { breaks := breaks })
    (m := m₂.right 2) (fun e he => hprint e (List.mem_append_right _ he)) hrest
    (by simp [Mark.right, hcolumn₂]) hlength
  refine ⟨m', hcolumn, Nat.lt_of_lt_of_le hlt₁ (Nat.le_trans hle₂ (Nat.le_of_lt hlt)), ?_⟩
  rw [indented_cons cs hc, hw] at hlines hwritten
  rw [List.nil_append, List.nil_append] at hwritten
  rw [endLine_literal (by simp), ← htold, chomping_lined hlined, hwritten]
  simp only [List.cons_append, List.append_assoc] at hread hlines ⊢
  rw [hread, hpass]
  cases told <;> simpa using hlines

/-- A text in a block is read as the text, up to the next line that is not indented. -/
theorem blockScalar?_literal {t rest : Text} (m : Mark) (h : allowsBlock t = true)
    (hrest : startsLine rest = true) :
    ∃ m' : Mark, m'.column = 0 ∧ m.line < m'.line ∧
      blockScalar? true (some 0) ⟨m, endLine (literal t) ++ rest⟩ = some (t, ⟨m', rest⟩) := by
  simp only [allowsBlock, isClear, Bool.and_eq_true, decide_eq_true_eq] at h
  obtain ⟨⟨⟨hprint, -⟩, hne⟩, -⟩ := h
  rw [List.all_eq_true] at hprint
  obtain ⟨breaks, u, rfl, hbreaks, hu⟩ := exists_stretch isBreak t
  cases u with
  | nil =>
      rw [List.append_nil] at hne hprint ⊢
      exact blockScalar?_breaks m hprint hne hbreaks hrest
  | cons c cs =>
      have hc := hu c rfl
      obtain ⟨ch, hlined⟩ := exists_lined cs hc
      exact blockScalar?_lined m hprint hbreaks hc hlined hrest

end Yaml

end Lumen
