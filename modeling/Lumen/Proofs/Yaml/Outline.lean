import Lumen.Proofs.Yaml.Tokens

/-!
# Mappings of texts are scanned entry by entry

An `Entry` is a key with a text or with a sequence of texts. Its lines give its tokens up to the
next line (`Entry.exists_leads`). Each token takes at least one character, so that the steps of the
scanner do not run out, and the lines of all entries give the tokens of one mapping
(`Entry.tokens?_flatMap`). What is written has no character that may not be in a text
(`Written.isPrintable`).
-/

namespace Lumen

namespace Yaml

/-! ## Written texts -/

theorem isPrintable_of_mem_hexDigits {n k : Nat} : ∀ c ∈ hexDigits n k, isPrintable c = true := by
  have hdigit : ∀ d < 16, isPrintable (hexDigit d) = true := by decide
  induction n generalizing k with
  | zero => nofun
  | succ n ih =>
      intro c hc
      rw [hexDigits, List.mem_append, List.mem_singleton] at hc
      rcases hc with hc | rfl
      · exact ih c hc
      · exact hdigit _ (Nat.mod_lt k (by decide))

theorem isPrintable_of_mem_escape {c : Char} : ∀ d ∈ escape c, isPrintable d = true := by
  have hslash : isPrintable '\\' = true := rfl
  rw [escape]
  split
  · next h =>
      simp only [Bool.and_eq_true] at h
      simpa using h.1.1.1
  · split
    · next l hl =>
        have hletter : isPrintable l = true := by
          rw [letter?] at hl
          split at hl <;> first
            | (obtain rfl := Option.some.inj hl; rfl)
            | cases hl
        simp [hslash, hletter]
    -- the longer escapes differ in nothing but a letter and the number of digits
    · have hcode : ∀ x n, isPrintable x = true →
          ∀ d ∈ '\\' :: x :: hexDigits n c.toNat, isPrintable d = true := by
        intro x n hx d hd
        rcases List.mem_cons.mp hd with rfl | hd
        · exact hslash
        · rcases List.mem_cons.mp hd with rfl | hd
          · exact hx
          · exact isPrintable_of_mem_hexDigits d hd
      split
      · exact hcode 'x' 2 rfl
      · split
        · exact hcode 'u' 4 rfl
        · exact hcode 'U' 8 rfl

theorem isPrintable_of_mem_margin : ∀ c ∈ margin, isPrintable c = true :=
  List.all_eq_true.mp rfl

theorem isPrintable_of_mem_indented (write : Char → Text) {t : Text}
    (hwrite : ∀ c ∈ t, ∀ d ∈ write c, isPrintable d = true)
    (ht : ∀ c ∈ t, isPrintable c = true) (fresh : Bool) :
    ∀ d ∈ indented write fresh t, isPrintable d = true := by
  induction t generalizing fresh with
  | nil => nofun
  | cons c cs ih =>
      have hrest := ih (fun d hd => hwrite d (List.mem_cons_of_mem c hd))
        (fun d hd => ht d (List.mem_cons_of_mem c hd))
      intro d hd
      rw [indented] at hd
      split at hd
      · rcases List.mem_cons.mp hd with rfl | hd
        · exact ht _ List.mem_cons_self
        · exact hrest true d hd
      · rw [List.append_assoc, List.mem_append, List.mem_append] at hd
        rcases hd with hd | hd | hd
        · split at hd
          · exact isPrintable_of_mem_margin d hd
          · cases hd
        · exact hwrite c List.mem_cons_self d hd
        · exact hrest false d hd

theorem isPrintable_of_mem_plain {t : Text} (h : allowsPlain t = true) :
    ∀ c ∈ t, isPrintable c = true := by
  simp only [allowsPlain, Bool.and_eq_true] at h
  exact List.all_eq_true.mp h.1.1.1.1

theorem isPrintable_of_mem_singleQuoted {t : Text} (hprint : ∀ c ∈ t, isPrintable c = true) :
    ∀ c ∈ singleQuoted t, isPrintable c = true := by
  have hdouble : ∀ c ∈ t, ∀ d ∈ double c, isPrintable d = true := by
    intro c hc d hd
    rw [double] at hd
    split at hd
    · simp only [List.mem_cons, List.not_mem_nil, or_false, or_self] at hd
      subst hd
      rfl
    · rw [List.mem_singleton] at hd
      exact hd ▸ hprint c hc
  have hlines := isPrintable_of_mem_indented double hdouble hprint false
  intro c hc
  simp only [singleQuoted, List.mem_cons, List.mem_append, List.not_mem_nil, or_false] at hc
  rcases hc with ((rfl | hc) | hc) | rfl
  · rfl
  · exact hlines c hc
  · split at hc
    · exact isPrintable_of_mem_margin c hc
    · cases hc
  · rfl

theorem isPrintable_of_mem_doubleQuoted {t : Text} :
    ∀ c ∈ doubleQuoted t, isPrintable c = true := by
  intro c hc
  simp only [doubleQuoted, List.mem_cons, List.mem_append, List.mem_flatMap, List.not_mem_nil,
    or_false] at hc
  rcases hc with (rfl | ⟨d, -, hd⟩) | rfl
  · rfl
  · exact isPrintable_of_mem_escape c hd
  · rfl

theorem isPrintable_of_mem_literal {t : Text} (hprint : ∀ c ∈ t, isPrintable c = true) :
    ∀ c ∈ literal t, isPrintable c = true := by
  have hlines := isPrintable_of_mem_indented (fun c => [c])
    (fun c hc d hd => by rw [List.mem_singleton] at hd; exact hd ▸ hprint c hc) hprint true
  have hsign : (chomping t).all isPrintable = true := by
    rw [chomping]
    repeat' split
    all_goals rfl
  intro c hc
  simp only [literal, List.mem_cons, List.mem_append] at hc
  rcases hc with ((rfl | hc) | hc) | rfl | hc
  · rfl
  · split at hc
    · rw [List.mem_singleton] at hc
      subst hc
      rfl
    · cases hc
  · exact List.all_eq_true.mp hsign c hc
  · rfl
  · exact hlines c hc

/-- A text is written with characters that show. -/
theorem Written.isPrintable {style : Style} {w t : Text} (h : Written style w t) :
    ∀ c ∈ w, isPrintable c = true := by
  cases h with
  | plain _ h => exact isPrintable_of_mem_plain h
  | single hfeed h =>
      exact isPrintable_of_mem_singleQuoted (held_of_allowsSingle h hfeed).printable
  | double t => exact isPrintable_of_mem_doubleQuoted
  | literal h =>
      simp only [allowsBlock, isClear, Bool.and_eq_true] at h
      exact isPrintable_of_mem_literal (List.all_eq_true.mp h.1.1.1)

theorem isPrintable_of_mem_endLine {t : Text} (h : ∀ c ∈ t, isPrintable c = true) :
    ∀ c ∈ endLine t, isPrintable c = true := by
  intro c hc
  rw [endLine] at hc
  split at hc
  · exact h c hc
  · rw [List.mem_append, List.mem_singleton] at hc
    rcases hc with hc | rfl
    · exact h c hc
    · rfl

/-! ## Entries -/

/-- An entry of a mapping: a key with a text that is written in a style, or with a sequence of
texts. -/
inductive Entry where
  | text (key : Text) (style : Style) (written value : Text)
  | texts (key : Text) (items : List Text)

namespace Entry

def key : Entry → Text
  | .text k _ _ _ => k
  | .texts k _ => k

def lines : Entry → Text
  | .text k _ w _ => entryLines k w
  | .texts k items => sequenceLines k items

/-- Whether an entry is written as it has to be. An empty sequence cannot be written. -/
def Valid : Entry → Prop
  | .text k style w t => IsKey k ∧ Written style w t
  | .texts k items => IsKey k ∧ items ≠ []

/-- The tokens after the key. -/
def contentTokens : Entry → List Token
  | .text _ style _ t => [.scalar t style]
  | .texts _ items => itemTokens items

def tokens (e : Entry) : List Token :=
  [.key, .scalar e.key .plain, .value] ++ e.contentTokens

theorem Valid.isKey {e : Entry} (h : e.Valid) : IsKey e.key := by
  cases e with
  | text => exact h.1
  | texts => exact h.1

/-! ## Its characters -/

theorem exists_lines (e : Entry) : ∃ u, e.lines = e.key ++ ':' :: u := by
  cases e with
  | text k style w t =>
      rw [lines, entryLines, endLine_append k (List.cons_ne_nil _ _)]
      obtain ⟨u, hu, -⟩ := exists_endLine_cons ':' (' ' :: w)
      exact ⟨u, by rw [hu]; rfl⟩
  | texts k items => exact ⟨_, rfl⟩

theorem Valid.startsLine {e : Entry} (h : e.Valid) (rest : Text) :
    startsLine (e.lines ++ rest) = true := by
  obtain ⟨u, hu⟩ := e.exists_lines
  have hplain := h.isKey.plain
  obtain ⟨c, cs, hkey⟩ := List.exists_cons_of_ne_nil h.isKey.ne
  rw [hkey] at hplain
  rw [hu, hkey]
  exact startsLine_of_allowsPlain hplain _

theorem Valid.isPrintable {e : Entry} (h : e.Valid) : ∀ c ∈ e.lines, isPrintable c = true := by
  have hkey := isPrintable_of_mem_plain h.isKey.plain
  cases e with
  | text k style w t =>
      -- a colon and a blank stand between key and value
      refine isPrintable_of_mem_endLine fun c hc => ?_
      simp only [List.mem_append, List.mem_cons] at hc
      rcases hc with hc | rfl | rfl | hc
      · exact hkey c hc
      · rfl
      · rfl
      · exact h.2.isPrintable c hc
  | texts k items =>
      intro c hc
      simp only [lines, sequenceLines, List.mem_append, List.mem_cons, List.mem_flatMap] at hc
      rcases hc with hc | rfl | rfl | ⟨t, -, hc⟩
      · exact hkey c hc
      · rfl
      · rfl
      · refine isPrintable_of_mem_endLine (fun d hd => ?_) c hc
        rw [List.mem_cons, List.mem_cons] at hd
        rcases hd with rfl | rfl | hd
        · rfl
        · rfl
        · exact (written_spell t).isPrintable d hd

/-! ## Its tokens -/

theorem length_items (items : List Text) :
    2 * items.length ≤ (items.flatMap fun t => endLine ('-' :: ' ' :: spell t)).length := by
  induction items with
  | nil => exact Nat.le_refl 0
  | cons t items ih =>
      have hitem := length_le_endLine ('-' :: ' ' :: spell t)
      rw [List.flatMap_cons, List.length_append]
      simp only [List.length_cons] at hitem ⊢
      omega

/-- An entry is scanned up to the next line. The first entry begins the mapping. -/
theorem exists_leads {e : Entry} (he : e.Valid) {s : Scan} {ts : List Token} {bs : List Nat}
    {rest : Text} (hbs : bs = [] ∨ bs = [0]) (hrest : Yaml.startsLine rest = true)
    (h : s.Begins ts bs (e.lines ++ rest)) :
    ∃ (s' : Scan) (n : Nat), n ≤ e.lines.length ∧ s.Leads n s' ∧
      s'.Begins (ts ++ (if bs = [] then [.mappingStart] else []) ++ e.tokens) [0] rest := by
  cases e with
  | text k style w t =>
      obtain ⟨s', hleads, hbegins⟩ := Scan.leads_entry he.1 he.2 hbs hrest h
      -- a key, its sign and its value are three steps, for which there are characters enough
      refine ⟨s', 3, ?_, hleads, ?_⟩
      · have hkey := List.length_pos_iff.mpr he.1.ne
        have hlength := length_le_endLine (k ++ ':' :: ' ' :: w)
        simp only [List.length_append, List.length_cons] at hlength
        simp only [lines, entryLines]
        omega
      · simpa [Scan.opening, tokens, key, contentTokens] using hbegins
  | texts k items =>
      obtain ⟨s', hleads, hbegins⟩ := Scan.leads_sequence he.1 hbs hrest h
      refine ⟨s', _, ?_, hleads, ?_⟩
      · have hlength := length_items items
        simp only [lines, sequenceLines, List.length_append, List.length_cons]
        omega
      · simpa [Scan.opening, tokens, key, contentTokens] using hbegins

theorem startsLine_flatMap {es : List Entry} (hes : ∀ e ∈ es, e.Valid) :
    Yaml.startsLine (es.flatMap lines) = true := by
  cases es with
  | nil => rfl
  | cons e es =>
      rw [List.flatMap_cons]
      exact (hes e List.mem_cons_self).startsLine _

/-- The entries after the first are scanned up to the end. -/
theorem exists_leads_flatMap {es : List Entry} (hes : ∀ e ∈ es, e.Valid) {s : Scan}
    {ts : List Token} (h : s.Begins ts [0] (es.flatMap lines)) :
    ∃ (s' : Scan) (n : Nat), n ≤ (es.flatMap lines).length ∧ s.Leads n s' ∧
      s'.Begins (ts ++ es.flatMap tokens) [0] [] := by
  induction es generalizing s ts with
  | nil => exact ⟨s, 0, Nat.le_refl 0, .refl s, by simpa using h⟩
  | cons e es ih =>
      rw [List.forall_mem_cons] at hes
      obtain ⟨s₁, n, hn, hfirst, hbegins⟩ :=
        exists_leads hes.1 (.inr rfl) (startsLine_flatMap hes.2) h
      obtain ⟨s', k, hk, hrest, hend⟩ := ih hes.2 hbegins
      refine ⟨s', k + n, ?_, hfirst.trans hrest, by simpa using hend⟩
      rw [List.flatMap_cons, List.length_append]
      omega

/-- The tokens of a mapping. -/
theorem tokens?_flatMap {es : List Entry} (hsome : es ≠ []) (hes : ∀ e ∈ es, e.Valid) :
    tokens? (es.flatMap lines) = some (.mappingStart :: es.flatMap tokens ++ [.blockEnd]) := by
  have hallowed : (es.flatMap lines).all isAllowed = true := by
    rw [List.all_eq_true]
    intro c hc
    obtain ⟨e, he, hc⟩ := List.mem_flatMap.mp hc
    exact isAllowed_of_isPrintable ((hes e he).isPrintable c hc)
  have hbegins : Scan.Begins { place := ⟨{}, es.flatMap lines⟩ } [] [] (es.flatMap lines) :=
    Scan.begins_start (by simp) rfl (startsLine_flatMap hes) (Scan.past_none _)
  obtain ⟨e, es, rfl⟩ := List.exists_cons_of_ne_nil hsome
  rw [List.forall_mem_cons] at hes
  obtain ⟨s₁, n, hn, hfirst, hbegins⟩ :=
    exists_leads hes.1 (.inl rfl) (startsLine_flatMap hes.2) hbegins
  obtain ⟨s', k, hk, hrest, hend⟩ := exists_leads_flatMap hes.2 hbegins
  -- the scanner has a step for each character, and the entries need no more
  obtain ⟨j, hj⟩ : ∃ j, ((e :: es).flatMap lines).length = j + (k + n) := by
    refine Nat.exists_eq_add_of_le' ?_
    rw [List.flatMap_cons, List.length_append]
    omega
  rw [tokens?, if_pos hallowed, hj, Nat.add_right_comm, hfirst.trans hrest, Scan.tokens?_end j hend]
  simp

end Entry

end Yaml

end Lumen
