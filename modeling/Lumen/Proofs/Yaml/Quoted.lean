import Lumen.Proofs.Yaml.Plain

/-!
# Quoted scalars can be read back

In double quotes every character that does not show is escaped, and one escaped character is read as
that character (`escape?_escape`). So the text stands in one line (`quoted?_double`).

In single quotes nothing but the quote can be escaped. A line end that shows is written as it is,
and the next line is indented. Blanks around it would be lost, which is why texts that have any are
not written in this way (`quoted?_single`).

Either scalar is read up to its closing quote, whatever comes after it (`quotedScalar?_double`,
`quotedScalar?_single`).
-/

namespace Lumen

namespace Yaml

/-! ## Escaped characters -/

theorem hexDigit?_hexDigit : ∀ n < 16, hexDigit? (hexDigit n) = some n := by decide

theorem length_hexDigits (n k : Nat) : (hexDigits n k).length = n := by
  induction n generalizing k with
  | zero => rfl
  | succ n ih => rw [hexDigits, List.length_append, ih, List.length_singleton]

theorem hexNumber?_hexDigits {n k : Nat} (h : k < Nat.pow 16 n) :
    hexNumber? (hexDigits n k) = some k := by
  induction n generalizing k with
  | zero =>
      obtain rfl : k = 0 := Nat.lt_one_iff.mp h
      rfl
  | succ n ih =>
      have hlast := hexDigit?_hexDigit (k % 16) (Nat.mod_lt k (by decide))
      have hk : k < 16 * Nat.pow 16 n := Nat.mul_comm (Nat.pow 16 n) 16 ▸ h
      have hfront := ih (Nat.div_lt_of_lt_mul hk)
      rw [hexNumber?] at hfront
      rw [hexDigits, hexNumber?, List.foldl_append, hfront]
      simp only [List.foldl_cons, List.foldl_nil, hlast, Option.bind_eq_bind, Option.bind_some,
        pure]
      exact congrArg some (by omega)

theorem charOf?_toNat (c : Char) : charOf? c.toNat = some c := by
  have hvalid : c.toNat < 0xD800 ∨ 0xDFFF < c.toNat ∧ c.toNat < 0x110000 := c.valid
  rw [charOf?, if_pos hvalid, Char.ofNat_toNat]

theorem escape?_letter {c l : Char} (h : letter? c = some l) (more : Text) :
    isBreak l = false ∧ escape? (l :: more) = some (c, 1) := by
  have hc := Char.ofNat_toNat c
  rw [letter?] at h
  split at h <;> first
    | next heq =>
        rw [heq] at hc
        obtain rfl := Option.some.inj h
        subst hc
        exact ⟨by decide, rfl⟩
    | cases h

theorem escape?_digits {c x : Char} {n : Nat} (hx : codeLength x = n) (hn : n ≠ 0)
    (hlt : c.toNat < Nat.pow 16 n) (more : Text) :
    escape? (x :: (hexDigits n c.toNat ++ more)) = some (c, n + 1) := by
  have hlength : ¬ (hexDigits n c.toNat ++ more).length < n := by
    rw [List.length_append, length_hexDigits]
    omega
  have htake : (hexDigits n c.toNat ++ more).take n = hexDigits n c.toNat :=
    List.take_left' (length_hexDigits n c.toNat)
  simp only [escape?, hx, if_neg hn, if_neg hlength, htake, hexNumber?_hexDigits hlt,
    Option.bind_eq_bind, Option.bind_some, charOf?_toNat]
  rfl

/-- A character stands for itself, or a backslash is read with what comes after it as the
character. -/
theorem escape_cases (c : Char) :
    (escape c = [c] ∧ isPrintable c = true ∧ isBreak c = false ∧ c ≠ '"' ∧ c ≠ '\\') ∨
      ∃ d w, escape c = '\\' :: d :: w ∧ isBreak d = false ∧
        ∀ more, escape? (d :: (w ++ more)) = some (c, w.length + 1) := by
  rw [escape]
  split
  · next h =>
      simp only [Bool.and_eq_true, Bool.not_eq_true', decide_eq_true_eq] at h
      exact .inl ⟨rfl, h.1.1.1, h.1.1.2, h.1.2, h.2⟩
  · refine .inr ?_
    have hdigits : ∀ (x : Char) (n : Nat), codeLength x = n → n ≠ 0 → isBreak x = false →
        c.toNat < Nat.pow 16 n → ∃ d w, '\\' :: x :: hexDigits n c.toNat = '\\' :: d :: w ∧
          isBreak d = false ∧ ∀ more, escape? (d :: (w ++ more)) = some (c, w.length + 1) := by
      intro x n hx hn hbreak hlt
      refine ⟨x, _, rfl, hbreak, ?_⟩
      intro more
      rw [length_hexDigits]
      exact escape?_digits hx hn hlt more
    split
    · next l hl =>
        exact ⟨l, [], rfl, (escape?_letter hl []).1, fun more => (escape?_letter hl more).2⟩
    · split
      · next hlt => exact hdigits 'x' 2 rfl (by decide) (by decide) hlt
      · split
        · next hlt => exact hdigits 'u' 4 rfl (by decide) (by decide) hlt
        · have hvalid : c.toNat < 0xD800 ∨ 0xDFFF < c.toNat ∧ c.toNat < 0x110000 := c.valid
          have hlt : c.toNat < 0x100000000 := by omega
          exact hdigits 'U' 8 rfl (by decide) (by decide) hlt

/-! ## Double quotes -/

theorem quoted?_double {t b : Text} (rest : Text) {m : Mark} {n : Nat} (hcolumn : 0 < m.column)
    (hn : t.length < n) :
    quoted? false { blanks := b } n ⟨m, t.flatMap escape ++ '"' :: rest⟩ =
      some (b ++ t, ⟨m.right ((t.flatMap escape).length + 1), rest⟩) := by
  induction t generalizing b m n with
  | nil =>
      obtain ⟨n, rfl⟩ := Nat.exists_eq_succ_of_ne_zero (Nat.ne_of_gt hn)
      have hsees := Place.seesDocument_of_pos (p := ⟨m, '"' :: rest⟩) hcolumn
      simp [quoted?, hsees, isBreak, isBlank, Gap.value, Place.right]
  | cons c cs ih =>
      obtain ⟨n, rfl⟩ := Nat.exists_eq_succ_of_ne_zero (Nat.ne_of_gt (Nat.zero_lt_of_lt hn))
      have hn' : cs.length < n := Nat.lt_of_succ_lt_succ hn
      have hright : ∀ k, 0 < (m.right k).column := fun k => Nat.add_pos_left hcolumn k
      rw [List.flatMap_cons, List.append_assoc]
      rcases escape_cases c with ⟨hc, hprint, hbreak, hquote, hslash⟩ | ⟨d, w, hc, hbreak, hread⟩
      · have hrest := fun b => ih (b := b) (hright 1) hn'
        have hsees := Place.seesDocument_of_pos
          (p := ⟨m, c :: (cs.flatMap escape ++ '"' :: rest)⟩) hcolumn
        rw [hc, List.singleton_append, quoted?]
        by_cases hblank : isBlank c = true
        · simp [hbreak, hblank, Gap.addBlank, Place.right, hrest, Nat.add_comm]
        · simp [hbreak, hblank, hsees, hquote, hslash, Place.right, hrest, Gap.value,
            Nat.add_comm]
      · have hrest := ih (b := []) (hright (w.length + 2)) hn'
        have hsees := Place.seesDocument_of_pos
          (p := ⟨m, '\\' :: (d :: (w ++ (cs.flatMap escape ++ '"' :: rest)))⟩) hcolumn
        have hslash : isBreak '\\' = false ∧ isBlank '\\' = false := by decide
        rw [hc, List.cons_append, List.cons_append, quoted?]
        simp [hslash, hbreak, hsees, hread, Place.right, hrest, Gap.value]
        exact congrArg (m.right ·) (by omega)

/-- A text in double quotes is read as the text. -/
theorem quotedScalar?_double (t rest : Text) (m : Mark) :
    quotedScalar? false ⟨m, doubleQuoted t ++ rest⟩ =
      some (t, ⟨m.right (doubleQuoted t).length, rest⟩) := by
  have hlength : t.length ≤ (t.flatMap escape).length := by
    induction t with
    | nil => exact Nat.le_refl 0
    | cons c cs ih =>
        have hc : 0 < (escape c).length := by
          rcases escape_cases c with ⟨hc, -⟩ | ⟨d, w, hc, -⟩ <;> simp [hc]
        simp only [List.flatMap_cons, List.length_append, List.length_cons]
        omega
  have hfuel : t.length < (doubleQuoted t ++ rest).length + 1 := by
    simp only [doubleQuoted, List.length_append, List.length_cons]
    omega
  have hread := quoted?_double (b := []) rest (m := m.right) (Nat.succ_pos _) hfuel
  simp only [quotedScalar?, Place.right, doubleQuoted] at hread ⊢
  simpa [Nat.add_comm] using hread

/-! ## Single quotes -/

/-- The lines of a text up to the quote that closes it. -/
def framed (fresh : Bool) : Text → Text
  | [] => (if fresh then margin else []) ++ ['\'']
  | c :: cs =>
    if isBreak c then c :: framed true cs
    else (if fresh then margin else []) ++ double c ++ framed false cs

theorem framed_eq (fresh : Bool) (t : Text) :
    framed fresh t = indented double fresh t ++
      (if (t.getLast?.map isBreak).getD fresh then margin else []) ++ ['\''] := by
  induction t generalizing fresh with
  | nil => rfl
  | cons c cs ih =>
      rw [framed, indented]
      cases cs with
      | nil => cases hc : isBreak c <;> simp [framed, indented, hc]
      | cons d ds =>
          rw [ih, ih, List.getLast?_cons_cons,
            List.getLast?_eq_some_getLast (List.cons_ne_nil d ds)]
          split <;> simp

theorem singleQuoted_eq (t : Text) : singleQuoted t = '\'' :: framed false t := by
  rw [singleQuoted, framed_eq, List.cons_append, List.cons_append]
  cases t.getLast? <;> rfl

/-- The blanks that indent a line are passed. -/
theorem quoted?_margin {g : Gap} (hg : g.broken = true) (n : Nat) (m : Mark) (t : Text) :
    quoted? true g (n + 2) ⟨m, margin ++ t⟩ = quoted? true g n ⟨m.right 2, t⟩ := by
  have hspace : isBreak ' ' = false ∧ isBlank ' ' = true := by decide
  rw [margin, List.cons_append, List.cons_append, List.nil_append, quoted?]
  simp only [hspace, Bool.false_eq_true, if_false, if_true, Gap.addBlank, hg, Place.right,
    List.drop_one, List.tail_cons]
  rw [quoted?]
  simp [hspace, Gap.addBlank, hg, Place.right]

theorem quoted?_close {g : Gap} {n : Nat} {m : Mark} {rest : Text} (hcolumn : 0 < m.column)
    (hrest : rest.head? ≠ some '\'') :
    quoted? true g (n + 1) ⟨m, '\'' :: rest⟩ = some (g.value, ⟨m.right, rest⟩) := by
  have hquote : isBreak '\'' = false ∧ isBlank '\'' = false := by decide
  simp [quoted?, hquote, Place.seesDocument_of_pos (p := ⟨m, '\'' :: rest⟩) hcolumn, hrest,
    Place.right]

/-- One character is read, be it a quote written twice. -/
theorem quoted?_character {g : Gap} {n : Nat} {m : Mark} {c : Char} {u : Text}
    (hcolumn : 0 < m.column) (hbreak : isBreak c = false) (hblank : isBlank c = false) :
    quoted? true g (n + 1) ⟨m, double c ++ u⟩ =
      (quoted? true {} n ⟨m.right (double c).length, u⟩).map fun r =>
        (g.value ++ c :: r.1, r.2) := by
  have hsees := fun t => Place.seesDocument_of_pos (p := ⟨m, t⟩) hcolumn
  by_cases hc : c = '\''
  · subst hc
    simp [double, quoted?, hbreak, hblank, hsees, Place.right]
  · simp [double, quoted?, hbreak, hblank, hsees, hc, Place.right]

theorem quoted?_break {single : Bool} {g : Gap} {n : Nat} {m : Mark} {c : Char} {u : Text}
    (hprint : isPrintable c = true) (hbreak : isBreak c = true) :
    quoted? single g (n + 1) ⟨m, c :: u⟩ = quoted? single (g.addBreak [c]) n ⟨m.down, u⟩ := by
  have hreturn : c ≠ '\r' := by
    rintro rfl
    cases hprint
  rw [quoted?]
  simp only [hbreak, if_true, if_neg hreturn, breakText_eq hprint hbreak,
    Place.passBreak_eq hprint hbreak]

/-- A text that single quotes can hold. -/
structure Held (t : Text) : Prop where
  printable : ∀ c ∈ t, isPrintable c = true
  no_feed : '\n' ∉ t
  not_before : meets (· = ' ') isBreak t = false
  not_after : meets isBreak (· = ' ') t = false

theorem Held.tail {c : Char} {cs : Text} (h : Held (c :: cs)) : Held cs := by
  obtain ⟨hprint, hfeed, hbefore, hafter⟩ := h
  exact ⟨fun d hd => hprint d (List.mem_cons_of_mem c hd),
    fun hmem => hfeed (List.mem_cons_of_mem c hmem), meets_tail hbefore, meets_tail hafter⟩

/-- No line ends after a blank. -/
theorem Held.after_blank {cs : Text} (h : Held (' ' :: cs)) : cs.head?.any isBreak = false := by
  cases cs with
  | nil => rfl
  | cons d ds => simpa using meets_head h.not_before

/-- No line begins with a blank. -/
theorem Held.after_break {c : Char} {cs : Text} (h : Held (c :: cs)) (hc : isBreak c = true) :
    cs.head? ≠ some ' ' := by
  cases cs with
  | nil => exact nofun
  | cons d ds =>
      have hafter := meets_head h.not_after
      intro hd
      obtain rfl := Option.some.inj hd
      simp [hc] at hafter

/-- A gap with which single quotes go on: blanks in a line, or line ends that stay as they are. -/
structure Gap.Fits (g : Gap) (t : Text) (m : Mark) : Prop where
  stays : g.broken = true → g.first ≠ ['\n'] ∧ t.head? ≠ some ' '
  in_line : g.broken = false → 0 < m.column
  goes_on : g.broken = false → t.head?.any isBreak = true → g.blanks = []

theorem Gap.fits_empty {t : Text} {m : Mark} (h : 0 < m.column) : Gap.Fits {} t m :=
  ⟨nofun, fun _ => h, fun _ _ => rfl⟩

/-- A line end that shows stays what it is, whether or not others come before it. -/
theorem Gap.Fits.addBreak {g : Gap} {c : Char} {cs : Text} {m : Mark} (hg : g.Fits (c :: cs) m)
    (h : Held (c :: cs)) (hc : isBreak c = true) :
    (g.addBreak [c]).broken = true ∧ (g.addBreak [c]).value = g.value ++ [c] ∧
      (g.addBreak [c]).Fits cs m.down := by
  have hfeed : c ≠ '\n' := fun heq => h.no_feed (heq ▸ List.mem_cons_self)
  have hadd : (g.addBreak [c]).broken = true ∧ (g.addBreak [c]).first ≠ ['\n'] ∧
      (g.addBreak [c]).value = g.value ++ [c] := by
    cases hbroken : g.broken with
    | true => simp [Gap.addBreak, Gap.value, hbroken, (hg.stays hbroken).1]
    | false =>
        have hblanks := hg.goes_on hbroken (by simp [hc])
        simp [Gap.addBreak, Gap.value, hbroken, hblanks, hfeed]
  obtain ⟨hbroken, hfirst, hvalue⟩ := hadd
  exact ⟨hbroken, hvalue, fun _ => ⟨hfirst, h.after_break hc⟩, by simp [hbroken], by simp [hbroken]⟩

/-- Where a line has begun its indentation is passed. -/
theorem quoted?_framed {g : Gap} {t u : Text} {m : Mark} {n : Nat} (hg : g.Fits t m)
    (hn : ((if g.broken then margin else []) ++ u).length ≤ n) :
    ∃ (m' : Mark) (k : Nat), m'.line = m.line ∧ 0 < m'.column ∧ u.length ≤ k ∧ ∀ rest,
      quoted? true g n ⟨m, ((if g.broken then margin else []) ++ u) ++ rest⟩ =
        quoted? true g k ⟨m', u ++ rest⟩ := by
  cases hbroken : g.broken with
  | false =>
      rw [hbroken] at hn
      exact ⟨m, n, rfl, hg.in_line hbroken, hn, fun _ => rfl⟩
  | true =>
      rw [hbroken] at hn
      obtain ⟨k, rfl⟩ : ∃ k, n = k + 2 := ⟨n - 2, by simp [margin] at hn; omega⟩
      refine ⟨m.right 2, k, rfl, Nat.succ_pos _, by simpa [margin] using hn, fun rest => ?_⟩
      rw [if_pos rfl, List.append_assoc, quoted?_margin hbroken]

theorem quoted?_single {t rest : Text} {g : Gap} {m : Mark} {n : Nat} (h : Held t)
    (hg : g.Fits t m) (hrest : rest.head? ≠ some '\'') (hn : (framed g.broken t).length ≤ n) :
    ∃ m' : Mark, m.line ≤ m'.line ∧
      quoted? true g n ⟨m, framed g.broken t ++ rest⟩ = some (g.value ++ t, ⟨m', rest⟩) := by
  induction t generalizing g m n with
  | nil =>
      obtain ⟨m', k, hline, hcolumn, hk, hpass⟩ := quoted?_framed hg hn
      obtain ⟨k, rfl⟩ := Nat.exists_eq_succ_of_ne_zero (Nat.ne_of_gt (Nat.lt_of_succ_le hk))
      refine ⟨m'.right, Nat.le_of_eq hline.symm, ?_⟩
      rw [framed, hpass, List.singleton_append, quoted?_close hcolumn hrest, List.append_nil]
  | cons c cs ih =>
      have hprint := h.printable c List.mem_cons_self
      rw [framed] at hn ⊢
      split at hn
      · next hbreak =>
        obtain ⟨n, rfl⟩ := Nat.exists_eq_succ_of_ne_zero (Nat.ne_of_gt (Nat.zero_lt_of_lt hn))
        obtain ⟨hbroken, hvalue, hfits⟩ := hg.addBreak h hbreak
        obtain ⟨m', hline, hread⟩ := ih (n := n) h.tail hfits
          (by rw [hbroken]; exact Nat.le_of_succ_le_succ hn)
        rw [hbroken, hvalue] at hread
        refine ⟨m', Nat.le_trans (Nat.le_succ _) hline, ?_⟩
        rw [if_pos hbreak, List.cons_append, quoted?_break hprint hbreak, hread,
          List.append_assoc, List.singleton_append]
      · next hbreak =>
        rw [if_neg hbreak]
        rw [Bool.not_eq_true] at hbreak
        rw [List.append_assoc] at hn
        obtain ⟨m', k, hline, hcolumn, hk, hpass⟩ := quoted?_framed hg hn
        have hdouble : 0 < (double c).length := by rw [double]; split <;> simp
        rw [List.length_append] at hk
        obtain ⟨k, rfl⟩ : ∃ i, k = i + 1 := ⟨k - 1, by omega⟩
        have hright : ∀ i, 0 < (m'.right i).column := fun i => Nat.add_pos_left hcolumn i
        rw [← hline, List.append_assoc _ (double c), hpass, List.append_assoc]
        by_cases hblank : isBlank c = true
        · rw [isBlank_eq hprint, decide_eq_true_eq] at hblank
          subst hblank
          have hbroken : g.broken = false := by
            rw [← Bool.not_eq_true]
            exact fun hbroken => (hg.stays hbroken).2 rfl
          have hfits : ({ g with blanks := g.blanks ++ [' '] } : Gap).Fits cs m'.right :=
            ⟨by simp [hbroken], fun _ => hright 1, fun _ hc => by simp [h.after_blank] at hc⟩
          obtain ⟨m'', hline, hread⟩ := ih (n := k) h.tail hfits (by
            simp only [hbroken, double, Char.reduceEq, if_false, List.length_singleton] at hk ⊢
            omega)
          refine ⟨m'', hline, ?_⟩
          simp only [hbroken] at hread
          simp [double, quoted?, isBreak, isBlank, Gap.addBlank, hbroken, Place.right, hread,
            Gap.value]
        · rw [Bool.not_eq_true] at hblank
          obtain ⟨m'', hline, hread⟩ := ih (n := k) h.tail (Gap.fits_empty (hright _))
            (show (framed false cs).length ≤ k by omega)
          refine ⟨m'', hline, ?_⟩
          rw [quoted?_character hcolumn hbreak hblank, hread]
          rfl

/-- A text in single quotes is read as the text. -/
theorem quotedScalar?_single {t : Text} (rest : Text) (m : Mark) (h : Held t)
    (hrest : rest.head? ≠ some '\'') :
    ∃ m' : Mark, m.line ≤ m'.line ∧
      quotedScalar? true ⟨m, singleQuoted t ++ rest⟩ = some (t, ⟨m', rest⟩) := by
  have hfits := Gap.fits_empty (t := t) (m := m.right) (Nat.succ_pos _)
  obtain ⟨m', hline, hread⟩ := quoted?_single (n := (singleQuoted t ++ rest).length + 1) h hfits
    hrest (by simp [singleQuoted_eq]; omega)
  refine ⟨m', hline, ?_⟩
  rw [singleQuoted_eq] at hread ⊢
  exact hread

theorem held_of_allowsSingle {t : Text} (h : allowsSingle t = true) (hfeed : '\n' ∉ t) :
    Held t := by
  simp only [allowsSingle, isClear, Bool.and_eq_true, Bool.not_eq_true'] at h
  exact ⟨List.all_eq_true.mp h.1.1, hfeed, h.1.2, h.2⟩

end Yaml

end Lumen
