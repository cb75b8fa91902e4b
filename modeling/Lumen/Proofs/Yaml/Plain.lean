import Lumen.Yaml.Scanner
import Lumen.Yaml.Spelling

/-!
# Plain scalars can be read back

A text that is `Flat` can stand in a line as it is: no line end, no colon before a blank and no
number sign after one is in it, and it does not end with a colon or a blank. It is read up to what
comes after it, which is the colon of a key (`plain?_key`) or the end of the line (`plain?_value`).
-/

namespace Lumen

namespace Yaml

/-! ## Characters -/

/-- The line ends that show are line feeds and separators. -/
theorem isBreak_cases {c : Char} (hprint : isPrintable c = true) (hbreak : isBreak c = true) :
    c = '\n' ∨ c = '\u2028' ∨ c = '\u2029' := by
  simp only [isBreak, Bool.or_eq_true, decide_eq_true_eq] at hbreak
  rcases hbreak with (((rfl | rfl) | rfl) | h) | h
  · exact .inl rfl
  · simp [isPrintable] at hprint
  · simp [isPrintable] at hprint
  · exact .inr (.inl h)
  · exact .inr (.inr h)

theorem breakText_eq {c : Char} (hprint : isPrintable c = true) (hbreak : isBreak c = true) :
    breakText c = [c] := by
  rcases isBreak_cases hprint hbreak with rfl | rfl | rfl <;> rfl

/-- The only blank that shows is a space. -/
theorem isBlank_eq {c : Char} (hprint : isPrintable c = true) : isBlank c = decide (c = ' ') := by
  have htab : c ≠ '\t' := by
    rintro rfl
    simp [isPrintable] at hprint
  simp [isBlank, htab]

theorem ne_of_isBlank {c : Char} (h : isBlank c = false) : c ≠ ' ' ∧ c ≠ '\t' := by
  simpa [isBlank] using h

theorem isAllowed_of_isPrintable {c : Char} (h : isPrintable c = true) : isAllowed c = true := by
  simp only [isPrintable, isAllowed, Bool.or_eq_true, Bool.and_eq_true, decide_eq_true_eq] at h ⊢
  rcases h with ((h | h) | h) | h
  · exact .inl (.inl (.inl (.inl (.inl (.inr h)))))
  · exact .inl (.inl (.inl (.inr h)))
  · exact .inl (.inr h.1)
  · exact .inr h

/-! ## Places -/

@[simp] theorem Mark.right_zero (m : Mark) : m.right 0 = m := rfl

@[simp] theorem Mark.right_right (m : Mark) (a b : Nat) :
    (m.right a).right b = m.right (a + b) := by
  simp [Mark.right, Nat.add_assoc]

/-- A line end that shows is one character. -/
theorem Place.passBreak_eq {c : Char} {u : Text} {m : Mark} (hprint : isPrintable c = true)
    (hbreak : isBreak c = true) : Place.passBreak ⟨m, c :: u⟩ = ⟨m.down, u⟩ := by
  rw [passBreak]
  split
  · next heq =>
      rw [(List.cons.inj heq).1] at hprint
      cases hprint
  · next heq =>
      obtain ⟨rfl, rfl⟩ := List.cons.inj heq
      rw [if_pos hbreak]
  · next heq => cases heq

/-! ## Texts in a line -/

theorem meets_head {p q : Char → Bool} {c d : Char} {cs : Text}
    (h : meets p q (c :: d :: cs) = false) : (p c && q d) = false := by
  rw [meets, Bool.or_eq_false_iff] at h
  exact h.1

theorem meets_tail {p q : Char → Bool} {c : Char} {cs : Text} (h : meets p q (c :: cs) = false) :
    meets p q cs = false := by
  cases cs with
  | nil => rfl
  | cons d ds =>
      rw [meets, Bool.or_eq_false_iff] at h
      exact h.2

/-- A text that can stand in a line as it is, with a sign or the line's end after it. -/
structure Flat (t : Text) : Prop where
  no_break : ∀ c ∈ t, isBreak c = false
  no_colon : meets (· = ':') isGap t = false
  no_comment : meets isGap (· = '#') t = false
  last_not_colon : t.getLast? ≠ some ':'
  last_not_blank : ∀ c, t.getLast? = some c → isBlank c = false

theorem Flat.tail {c : Char} {cs : Text} (h : Flat (c :: cs)) : Flat cs := by
  obtain ⟨hbreak, hcolon, hcomment, hlast, hblank⟩ := h
  refine ⟨fun d hd => hbreak d (List.mem_cons_of_mem c hd), meets_tail hcolon, meets_tail hcomment,
    ?_, ?_⟩
  · cases cs with
    | nil => exact nofun
    | cons d ds => exact hlast
  · cases cs with
    | nil => exact nofun
    | cons d ds => exact hblank

/-- What comes after a blank is neither the end nor the sign of a comment. -/
theorem Flat.after_blank {c : Char} {cs : Text} (h : Flat (c :: cs)) (hc : isBlank c = true) :
    cs ≠ [] ∧ cs.head? ≠ some '#' := by
  cases cs with
  | nil =>
      rw [h.last_not_blank c rfl] at hc
      cases hc
  | cons d ds =>
      refine ⟨List.cons_ne_nil d ds, ?_⟩
      intro hd
      obtain rfl := Option.some.inj hd
      have hcomment := meets_head h.no_comment
      simp [isGap, hc] at hcomment

/-- What comes after a colon is neither the end nor a blank nor a line end. -/
theorem Flat.after_colon {cs : Text} (h : Flat (':' :: cs)) (u : Text) :
    atSpace (cs ++ u) = false := by
  cases cs with
  | nil => exact absurd rfl h.last_not_colon
  | cons d ds =>
      have hcolon := meets_head h.no_colon
      simpa [atSpace, isGap] using hcolon

theorem Place.seesTriple_of_pos {p : Place} (h : 0 < p.mark.column) (x : Char) :
    p.seesTriple x = false := by
  simp [seesTriple, Nat.ne_of_gt h]

theorem Place.seesDocument_of_pos {p : Place} (h : 0 < p.mark.column) : p.seesDocument = false := by
  simp [seesDocument, seesTriple_of_pos h]

/-- A flat text is read up to its end, with the blanks that were read before it. -/
theorem plain?_append {t u : Text} {b : Text} {m : Mark} {indent : Nat} (h : Flat t)
    (hindent : indent ≤ 1) (hb : b ≠ [] → t ≠ [] ∧ t.head? ≠ some '#' ∧ 0 < m.column) :
    plain? false indent { blanks := b } m (t ++ u) =
      (plain? false indent {} (m.right t.length) u).map fun r =>
        { r with value := b ++ t ++ r.value } := by
  induction t generalizing b m with
  | nil =>
      have hnil : b = [] := Decidable.byContradiction fun hne => (hb hne).1 rfl
      subst hnil
      simp
  | cons c cs ih =>
      have hbreak := h.no_break c List.mem_cons_self
      have hright : m.right (c :: cs).length = m.right.right cs.length := by
        rw [Mark.right_right, List.length_cons, Nat.add_comm]
      rw [List.cons_append, hright, plain?.eq_3]
      · simp only [hbreak, Bool.false_eq_true, if_false]
        by_cases hblank : isBlank c = true
        · have hafter := h.after_blank hblank
          rw [if_pos hblank, if_neg (by simp), Gap.addBlank, if_neg (by simp)]
          rw [ih h.tail fun _ => ⟨hafter.1, hafter.2, Nat.succ_pos _⟩]
          simp
        · -- a gap before this character does not end the scalar
          have hgap : (!Gap.isEmpty { blanks := b } &&
              ((!false && decide (m.column < indent)) || Place.seesDocument ⟨m, c :: (cs ++ u)⟩ ||
                decide (c = '#'))) = false := by
            by_cases hnil : b = []
            · simp [Gap.isEmpty, hnil]
            · obtain ⟨-, hhash, hcol⟩ := hb hnil
              have hc : c ≠ '#' := fun heq => hhash (heq ▸ rfl)
              have hin : ¬ m.column < indent := by omega
              simp [Place.seesDocument_of_pos (p := ⟨m, _⟩) hcol, hc, hin]
          have hcolon : (decide (c = ':') && atSpace (cs ++ u)) = false := by
            by_cases hc : c = ':'
            · subst hc
              simp [h.after_colon u]
            · simp [hc]
          have hrest := ih (b := []) (m := m.right) h.tail (absurd rfl)
          simp only [hblank, hgap, hcolon, Bool.false_and, Bool.or_self, Bool.false_eq_true,
            if_false, hrest, Option.map_map]
          simp [Gap.value, Function.comp_def]
      · rintro cs' rfl -
        cases hbreak

/-- A text before a colon is read up to the colon. -/
theorem plain?_key {t u : Text} {m : Mark} {indent : Nat} (h : Flat t) (hindent : indent ≤ 1)
    (hu : atSpace u = true) :
    plain? false indent {} m (t ++ ':' :: u) =
      some ⟨t, false, m.right t.length, ':' :: u⟩ := by
  have hrest := plain?_append (u := ':' :: u) (b := []) (m := m) h hindent (absurd rfl)
  have hcolon : plain? false indent {} (m.right t.length) (':' :: u) =
      some ⟨[], false, m.right t.length, ':' :: u⟩ := by
    simp [plain?, isBreak, isBlank, Gap.isEmpty, hu]
  rw [hrest, hcolon]
  simp

/-- Whether something starts here that is no blank and no comment, or the text ends. -/
def startsLine (t : Text) : Bool := t.head?.all fun c => !isGap c && c ≠ '#' && c ≠ '\ufeff'

theorem startsLine_cons {c : Char} {cs : Text} (h : startsLine (c :: cs) = true) :
    isBreak c = false ∧ isBlank c = false ∧ c ≠ '#' ∧ c ≠ '\ufeff' := by
  simp only [startsLine, List.head?_cons, Option.all_some, isGap, Bool.and_eq_true,
    Bool.not_eq_true', Bool.or_eq_false_iff, decide_eq_true_eq] at h
  exact ⟨h.1.1.2, h.1.1.1, h.1.2, h.2⟩

/-- A text at the end of a line is read with the line's end. -/
theorem plain?_value {t u : Text} {m : Mark} (h : Flat t) (hu : startsLine u = true) :
    plain? false 1 {} m (t ++ '\n' :: u) =
      some ⟨t, true, (m.right t.length).down, u⟩ := by
  have hrest := plain?_append (u := '\n' :: u) (b := []) (m := m) h (Nat.le_refl 1) (absurd rfl)
  have hend : plain? false 1 {} (m.right t.length) ('\n' :: u) =
      some ⟨[], true, (m.right t.length).down, u⟩ := by
    rw [plain?.eq_3, if_pos (by decide)]
    · cases u with
      | nil => rfl
      | cons d ds =>
          obtain ⟨hbreak, hblank, -⟩ := startsLine_cons hu
          rw [plain?.eq_3]
          · simp [hbreak, hblank, Gap.addBreak, Gap.isEmpty, Mark.down]
          · rintro ds' rfl -
            cases hbreak
    · rintro cs hfeed -
      cases hfeed
  rw [hrest, hend]
  simp

/-! ## Which texts are plain -/

theorem flat_of_allowsPlain {t : Text} (h : allowsPlain t = true) : Flat t := by
  simp only [allowsPlain, hasSign, Bool.and_eq_true, Bool.not_eq_true', Bool.or_eq_false_iff,
    decide_eq_true_eq, decide_eq_false_iff_not] at h
  obtain ⟨⟨⟨⟨hprint, hbreak⟩, -⟩, hspace⟩, ⟨⟨-, hcolon⟩, hlast⟩, hcomment⟩ := h
  refine ⟨?_, hcolon, hcomment, hlast, ?_⟩
  · intro c hc
    simpa using List.any_eq_false.mp hbreak c hc
  · intro c hc
    rw [isBlank_eq (List.all_eq_true.mp hprint c (List.mem_of_getLast? hc))]
    exact decide_eq_false fun heq => hspace (heq ▸ hc)

theorem startsLine_of_allowsPlain {c : Char} {cs : Text} (h : allowsPlain (c :: cs) = true)
    (u : Text) : startsLine (c :: u) = true := by
  simp only [allowsPlain, hasSign, beginsWithSign, Bool.and_eq_true, Bool.not_eq_true',
    Bool.or_eq_false_iff, decide_eq_true_eq] at h
  obtain ⟨⟨⟨⟨hprint, hbreak⟩, hspace⟩, -⟩, ⟨⟨⟨⟨hsign, -⟩, -⟩, -⟩, -⟩, -⟩ := h
  have hc := List.all_eq_true.mp hprint c List.mem_cons_self
  have hblank : isBlank c = false := by
    rw [isBlank_eq hc]
    exact decide_eq_false fun heq => hspace (heq ▸ rfl)
  have hhash : c ≠ '#' := by
    rintro rfl
    simp at hsign
  have hbom : c ≠ '\ufeff' := by
    rintro rfl
    simp [isPrintable] at hc
  simp at hbreak
  simp [startsLine, isGap, hblank, hbreak, hhash, hbom]

theorem meets_eq_false {p q : Char → Bool} {t : Text}
    (h : (∀ c ∈ t, p c = false) ∨ ∀ c ∈ t, q c = false) : meets p q t = false := by
  induction t with
  | nil => rfl
  | cons a t ih =>
      cases t with
      | nil => rfl
      | cons b cs =>
          have hrest := ih (h.imp (fun h c hc => h c (List.mem_cons_of_mem a hc))
            fun h c hc => h c (List.mem_cons_of_mem a hc))
          rw [meets, hrest]
          rcases h with h | h
          · simp [h a List.mem_cons_self]
          · simp [h b (List.mem_cons_of_mem a List.mem_cons_self)]

theorem mem_digits_of_isDigit {c : Char} (h : c.isDigit = true) : c ∈ "0123456789".toList := by
  have hall : ∀ n < 58, 48 ≤ n → Char.ofNat n ∈ "0123456789".toList := by decide
  simp only [Char.isDigit, Bool.and_eq_true, decide_eq_true_eq] at h
  have hlow : 48 ≤ c.toNat := h.1
  have hhigh : c.toNat ≤ 57 := h.2
  have hc := hall c.toNat (by omega) hlow
  rwa [Char.ofNat_toNat] at hc

/-- What holds of the ten digits holds of every digit. -/
theorem of_isDigit {p : Char → Bool} (hp : "0123456789".toList.all p = true) {c : Char}
    (h : c.isDigit = true) : p c = true :=
  List.all_eq_true.mp hp c (mem_digits_of_isDigit h)

theorem begins_eq_false_of_digit {c : Char} (h : c.isDigit = true) (cs : Text) :
    beginsWithSign (c :: cs) = false ∧ beginsDocument (c :: cs) = false := by
  have hall := of_isDigit (p := fun c => !"#,[]\x7b\x7d&*!|>'\"%@`".toList.contains c &&
    !"?:-".toList.contains c && !('-' == c) && !('.' == c)) (by decide) h
  simp only [Bool.and_eq_true, Bool.not_eq_true'] at hall
  obtain ⟨⟨⟨hsign, hmark⟩, hdash⟩, hdot⟩ := hall
  constructor
  · rw [beginsWithSign, hsign, hmark]
    rfl
  · have hdashes : "---".toList.isPrefixOf (c :: cs) = false := by
      show ('-' == c && _) = false
      rw [hdash, Bool.false_and]
    have hdots : "...".toList.isPrefixOf (c :: cs) = false := by
      show ('.' == c && _) = false
      rw [hdot, Bool.false_and]
    rw [beginsDocument, hdashes, hdots]
    rfl

/-- Digits can stand plain. -/
theorem allowsPlain_of_digits {t : Text} (h : ∀ c ∈ t, c.isDigit = true) :
    allowsPlain t = true := by
  have hclass : ∀ f : Char → Bool, "0123456789".toList.all (fun c => !f c) = true →
      ∀ c ∈ t, f c = false := by
    intro f hf c hc
    simpa using of_isDigit hf (h c hc)
  have hnone : ∀ x ∉ "0123456789".toList, x ∉ t :=
    fun x hx hmem => hx (mem_digits_of_isDigit (h x hmem))
  have hprint : t.all isPrintable = true :=
    List.all_eq_true.mpr fun c hc => of_isDigit (by decide) (h c hc)
  have hbreak : t.any isBreak = false := List.any_eq_false.mpr fun c hc => by
    simp [hclass isBreak (by decide) c hc]
  have hcolon : meets (· = ':') isGap t = false := meets_eq_false (.inr (hclass isGap (by decide)))
  have hcomment : meets isGap (· = '#') t = false :=
    meets_eq_false (.inl (hclass isGap (by decide)))
  have hlast : ∀ x ∉ "0123456789".toList, t.getLast? ≠ some x :=
    fun x hx heq => hnone x hx (List.mem_of_getLast? heq)
  have hhead : t.head? ≠ some ' ' := fun heq => hnone ' ' (by decide) (List.mem_of_head? heq)
  have hbegins : beginsWithSign t = false ∧ beginsDocument t = false := by
    cases t with
    | nil => exact ⟨rfl, rfl⟩
    | cons c cs => exact begins_eq_false_of_digit (h c List.mem_cons_self) cs
  simp [allowsPlain, hasSign, hprint, hbreak, hcolon, hcomment, hbegins, hlast, hhead]

end Yaml

end Lumen
