import Lumen.Proofs.Store.Laws

/-!
# Entries can be read back

A text of entries is read as these very entries, whatever characters are in their keys and values
(`ofJson?_toJson`), as long as the keys are in their order. They are in all entries that have been
read or built by insertion (`sorted_insert`, `sorted_ofJson?`).

* `string?_escape` — one escaped character is read as that character;
* `member?_line` — a line is read as its entry;
* `addAll?_lines` — lines are read one after the other, up to the end of the object.
-/

namespace Lumen

namespace Entries

/-! ## The order of keys -/

/-- Whether the keys are in their order, each of them once. -/
def Sorted (es : Entries) : Prop := es.Pairwise fun e f => e.1 < f.1

instance (es : Entries) : Decidable es.Sorted :=
  inferInstanceAs (Decidable (es.Pairwise fun e f => e.1 < f.1))

theorem lt_of_not_lt {a b : Text} (hne : a ≠ b) (h : ¬ a < b) : b < a :=
  Decidable.byContradiction fun hnot =>
    hne (List.le_antisymm (List.not_lt.mp hnot) (List.not_lt.mp h))

/-- The entry that was put in and those that were there are all that there are. -/
theorem mem_insert {key value : Text} {es : Entries} {f : Text × Text}
    (h : f ∈ es.insert key value) : f = (key, value) ∨ f ∈ es := by
  induction es with
  | nil => exact .inl (List.mem_singleton.mp h)
  | cons e es ih =>
      rw [insert] at h
      split at h
      · rcases List.mem_cons.mp h with h | h
        · exact .inl h
        · exact .inr (List.mem_cons_of_mem e h)
      · split at h
        · exact List.mem_cons.mp h
        · rcases List.mem_cons.mp h with h | h
          · exact .inr (List.mem_cons.mpr (.inl h))
          · rcases ih h with h | h
            · exact .inl h
            · exact .inr (List.mem_cons_of_mem e h)

theorem sorted_insert {es : Entries} (h : es.Sorted) (key value : Text) :
    (es.insert key value).Sorted := by
  induction es with
  | nil => exact List.pairwise_singleton _ _
  | cons e es ih =>
      obtain ⟨hfirst, hrest⟩ := List.pairwise_cons.mp h
      rw [insert]
      -- the key is the first one, comes before it, or is put among the others
      split
      · next heq => exact List.pairwise_cons.mpr ⟨fun f hf => heq ▸ hfirst f hf, hrest⟩
      · next hne =>
          split
          · next hlt =>
              refine List.pairwise_cons.mpr ⟨?_, h⟩
              intro f hf
              rcases List.mem_cons.mp hf with rfl | hf
              · exact hlt
              · exact List.lt_trans hlt (hfirst f hf)
          · next hnot =>
              refine List.pairwise_cons.mpr ⟨?_, ih hrest⟩
              intro f hf
              rcases mem_insert hf with rfl | hf
              · exact lt_of_not_lt hne hnot
              · exact hfirst f hf

/-- An entry with a key behind all others goes to the end. -/
theorem insert_of_lt {key : Text} (value : Text) {es : Entries} (h : ∀ f ∈ es, f.1 < key) :
    es.insert key value = es ++ [(key, value)] := by
  induction es with
  | nil => rfl
  | cons e es ih =>
      have he := h e List.mem_cons_self
      have hne : key ≠ e.1 := fun heq => List.lt_irrefl key (heq ▸ he)
      rw [insert, if_neg hne, if_neg (List.lt_asymm he), List.cons_append,
        ih fun f hf => h f (List.mem_cons_of_mem e hf)]

/-- Entries that are put in one after the other. -/
def insertAll (es fs : Entries) : Entries := fs.foldl (fun es f => es.insert f.1 f.2) es

/-- Entries in order that are put in in their order are those that come out. -/
theorem insertAll_eq_append {es fs : Entries} (h : (es ++ fs).Sorted) :
    es.insertAll fs = es ++ fs := by
  induction fs generalizing es with
  | nil => exact (List.append_nil es).symm
  | cons f fs ih =>
      have hbehind : ∀ e ∈ es, e.1 < f.1 :=
        fun e he => (List.pairwise_append.mp h).2.2 e he f List.mem_cons_self
      have hsplit : es ++ f :: fs = (es ++ [f]) ++ fs := by simp
      have hinsert : es.insert f.1 f.2 = es ++ [f] := insert_of_lt f.2 hbehind
      rw [insertAll, List.foldl_cons, hinsert, hsplit]
      exact ih (hsplit ▸ h)

/-! ## Characters -/

theorem hexValue?_hexDigit : ∀ n < 16, hexValue? (hexDigit n) = some n := by decide

/-- What is read behind a character is read with it. -/
theorem bind_cons_eq_map (c : Char) (read? : Option (Text × Text)) :
    (do let (t, rest) ← read?; return (c :: t, rest)) =
      read?.map fun read => (c :: read.1, read.2) := by
  cases read? with
  | none => rfl
  | some read => rfl

/-- Four digits that write a unit below those that go in pairs are read as its character, whatever
comes after them. -/
theorem string?_unit {a b c d : Char} {unit : Nat} (h : unit? a b c d = some unit)
    (hlow : unit < 0xD800) (cs : Text) :
    string? ('\\' :: 'u' :: a :: b :: c :: d :: cs) =
      (string? cs).map fun read => (Char.ofNat unit :: read.1, read.2) := by
  rw [string?.eq_def]
  split
  · next heq => cases heq
  · next heq => simp at heq
  · next heq =>
      simp only [List.cons.injEq, true_and] at heq
      obtain ⟨rfl, rfl, rfl, rfl, rfl⟩ := heq
      simp only [h, Option.bind_eq_bind, Option.bind_some, hlow, true_or, if_true]
      exact bind_cons_eq_map _ _
  · next heq =>
      simp only [List.cons.injEq, true_and] at heq
      obtain ⟨rfl, rfl, rfl, rfl, rfl⟩ := heq
      simp only [h, Option.bind_eq_bind, Option.bind_some, hlow, true_or, if_true]
      exact bind_cons_eq_map _ _
  -- the last two branches are for other escapes and other characters
  · next hunit heq =>
      obtain ⟨-, hrest⟩ := List.cons.inj heq
      obtain ⟨rfl, rfl⟩ := List.cons.inj hrest
      exact (hunit _ _ _ _ _ rfl rfl).elim
  · next hletter heq =>
      obtain ⟨rfl, rfl⟩ := List.cons.inj heq
      exact (hletter _ _ rfl rfl).elim

/-- A letter after a backslash is read as the character that it stands for. -/
theorem string?_letter {letter c : Char} (h : unescape? letter = some c) (cs : Text) :
    string? ('\\' :: letter :: cs) =
      (string? cs).map fun read => (c :: read.1, read.2) := by
  rw [string?.eq_def]
  split
  · next heq => cases heq
  · next heq => simp at heq
  · next heq =>
      simp only [List.cons.injEq, true_and] at heq
      obtain ⟨rfl, -⟩ := heq
      cases h
  · next heq =>
      simp only [List.cons.injEq, true_and] at heq
      obtain ⟨rfl, -⟩ := heq
      cases h
  · next heq =>
      simp only [List.cons.injEq, true_and] at heq
      obtain ⟨rfl, rfl⟩ := heq
      rw [h]
      exact bind_cons_eq_map _ _
  · next hletter heq =>
      obtain ⟨rfl, rfl⟩ := List.cons.inj heq
      exact (hletter _ _ rfl rfl).elim

/-- A character that is not escaped is read as itself. -/
theorem string?_plain {c : Char} (hquote : c ≠ '"') (hslash : c ≠ '\\') (hcontrol : ¬ c < ' ')
    (cs : Text) :
    string? (c :: cs) = (string? cs).map fun read => (c :: read.1, read.2) := by
  rw [string?.eq_def]
  split
  · next heq => cases heq
  · next heq => exact absurd (List.cons.inj heq).1 hquote
  · next heq => exact absurd (List.cons.inj heq).1 hslash
  · next heq => exact absurd (List.cons.inj heq).1 hslash
  · next heq => exact absurd (List.cons.inj heq).1 hslash
  · next heq =>
      obtain ⟨rfl, rfl⟩ := List.cons.inj heq
      rw [if_neg (not_or.mpr ⟨hslash, hcontrol⟩)]
      exact bind_cons_eq_map _ _

/-- The letters by which characters are escaped, with these characters. -/
def letters : List (Char × Char) :=
  [('"', '"'), ('\\', '\\'), ('b', '\x08'), ('t', '\t'), ('n', '\n'), ('f', '\x0c'), ('r', '\r')]

theorem unescape?_of_mem_letters :
    ∀ p ∈ letters, unescape? p.1 = some p.2 ∧ escape p.2 = ['\\', p.1] := by
  decide

/-- A control character is written by four digits if it has no letter, and any other such character
stands as it is. -/
theorem escape_of_no_letter {c : Char} (h : ∀ p ∈ letters, p.2 ≠ c) :
    escape c = if c < ' ' then
      ['\\', 'u', '0', '0', hexDigit (c.toNat / 16), hexDigit (c.toNat % 16)] else [c] := by
  have hne : ∀ d ∈ letters.map Prod.snd, c ≠ d := by
    intro d hd
    obtain ⟨p, hp, rfl⟩ := List.mem_map.mp hd
    exact (h p hp).symm
  rw [escape, if_neg (hne _ (by decide)), if_neg (hne _ (by decide)), if_neg (hne _ (by decide)),
    if_neg (hne _ (by decide)), if_neg (hne _ (by decide)), if_neg (hne _ (by decide)),
    if_neg (hne _ (by decide))]

/-- The four digits of a control character are read as its number. -/
theorem unit?_of_lt {c : Char} (h : c < ' ') :
    unit? '0' '0' (hexDigit (c.toNat / 16)) (hexDigit (c.toNat % 16)) = some c.toNat := by
  have hlow : c.toNat < 32 := h
  have hzero : hexValue? '0' = some 0 := by decide
  rw [unit?, hexValue?_hexDigit _ (by omega), hexValue?_hexDigit _ (by omega)]
  simp only [hzero, Option.bind_eq_bind, Option.bind_some]
  exact congrArg some (by omega)

/-- An escaped character is read as that character, whatever comes after it. -/
theorem string?_escape (c : Char) (cs : Text) :
    string? (escape c ++ cs) = (string? cs).map fun read => (c :: read.1, read.2) := by
  by_cases hletter : ∃ p ∈ letters, p.2 = c
  · obtain ⟨p, hp, rfl⟩ := hletter
    obtain ⟨hread, hwrite⟩ := unescape?_of_mem_letters p hp
    rw [hwrite]
    exact string?_letter hread cs
  · have hne : ∀ p ∈ letters, p.2 ≠ c := fun p hp heq => hletter ⟨p, hp, heq⟩
    rw [escape_of_no_letter hne]
    split
    · next hcontrol =>
        have hlow : c.toNat < 32 := hcontrol
        have hread := string?_unit (unit?_of_lt hcontrol) (by omega) cs
        rw [Char.ofNat_toNat] at hread
        exact hread
    · next hcontrol =>
        have hquote : c ≠ '"' := (hne ('"', '"') (by decide)).symm
        have hslash : c ≠ '\\' := (hne ('\\', '\\') (by decide)).symm
        exact string?_plain hquote hslash hcontrol cs

/-- A quoted text is read up to the quote that ends it. -/
theorem string?_quoted (t rest : Text) :
    string? (t.flatMap escape ++ '"' :: rest) = some (t, rest) := by
  induction t with
  | nil => simp [string?]
  | cons c t ih => rw [List.flatMap_cons, List.append_assoc, string?_escape, ih, Option.map_some]

/-! ## Lines -/

theorem skipBlanks_of_not_blank {c : Char} (h : isJsonBlank c = false) (t : Text) :
    skipBlanks (c :: t) = c :: t := by
  rw [skipBlanks, List.dropWhile_cons_of_neg (by simp [h])]

theorem skipBlanks_cons {c : Char} (h : isJsonBlank c = true) (t : Text) :
    skipBlanks (c :: t) = skipBlanks t := by
  rw [skipBlanks, List.dropWhile_cons_of_pos h, skipBlanks]

theorem skipBlanks_line (e : Text × Text) (rest : Text) :
    skipBlanks (line e ++ rest) =
      '"' :: (e.1.flatMap escape ++ '"' :: ':' :: ' ' :: (quote e.2 ++ rest)) := by
  simp only [line, quote, List.cons_append, List.append_assoc, List.nil_append]
  rw [skipBlanks_cons (by decide), skipBlanks_cons (by decide), skipBlanks_of_not_blank (by decide)]

/-- A line is read as its entry, with the blanks that come before it and after it. -/
theorem member?_line {t rest : Text} {e : Text × Text}
    (h : skipBlanks t = skipBlanks (line e ++ rest)) : member? t = some (e, skipBlanks rest) := by
  have hvalue : skipBlanks (' ' :: (quote e.2 ++ rest)) =
      '"' :: (e.2.flatMap escape ++ '"' :: rest) := by
    rw [skipBlanks_cons (by decide), quote]
    simp only [List.cons_append, List.append_assoc, List.nil_append]
    exact skipBlanks_of_not_blank (by decide) _
  rw [member?, h, skipBlanks_line]
  simp only [string?_quoted, Option.bind_eq_bind, Option.bind_some]
  rw [skipBlanks_of_not_blank (by decide)]
  simp only [hvalue, string?_quoted, Option.bind_some]
  rfl

theorem length_le_length_lines (es : Entries) : es.length ≤ (lines es).length := by
  have hline : ∀ e, 0 < (line e).length := fun e => Nat.succ_pos _
  induction es with
  | nil => exact Nat.zero_le _
  | cons e es ih =>
      have he := hline e
      cases es with
      | nil => exact he
      | cons f fs =>
          rw [lines]
          · simp only [List.length_append, List.length_cons] at ih ⊢
            omega
          · simp

/-- Lines are read one after the other, up to the end of the object. -/
theorem addAll?_lines {es : Entries} (hne : es ≠ []) {acc : Entries} {n : Nat} {t : Text}
    (hn : es.length ≤ n) (h : skipBlanks t = skipBlanks (lines es ++ ['\n', '\x7d'])) :
    addAll? acc n t = some (acc.insertAll es) := by
  induction es generalizing acc n t with
  | nil => exact absurd rfl hne
  | cons e es ih =>
      cases n with
      | zero => cases hn
      | succ n =>
          cases es with
          | nil =>
              rw [addAll?, member?_line h]
              rfl
          | cons f fs =>
              -- a comma ends the line of every entry but the last
              have hlines : lines (e :: f :: fs) ++ ['\n', '\x7d'] =
                  line e ++ ',' :: '\n' :: (lines (f :: fs) ++ ['\n', '\x7d']) := by
                rw [lines, List.append_assoc]
                · rfl
                · simp
              rw [hlines] at h
              rw [addAll?, member?_line h]
              simp only [Option.bind_eq_bind, Option.bind_some]
              rw [skipBlanks_of_not_blank (by decide)]
              simp only
              exact ih (by simp) (Nat.le_of_succ_le_succ hn) (skipBlanks_cons (by decide) _)

/-- Only blanks come before the first quote of lines. -/
theorem skipBlanks_lines {es : Entries} (hne : es ≠ []) (rest : Text) :
    ∃ t, skipBlanks (lines es ++ rest) = '"' :: t ∧
      t.length + 3 = (lines es ++ rest).length := by
  obtain ⟨e, es, rfl⟩ := List.exists_cons_of_ne_nil hne
  obtain ⟨more, hmore⟩ : ∃ more, lines (e :: es) = line e ++ more := by
    cases es with
    | nil => exact ⟨[], (List.append_nil _).symm⟩
    | cons f fs => exact ⟨_, lines.eq_3 _ _ (by simp)⟩
  rw [hmore, List.append_assoc, skipBlanks_line]
  refine ⟨_, rfl, ?_⟩
  simp only [line, quote, List.length_append, List.length_cons, List.length_nil]
  omega

/-- Entries are read from their text as they are. -/
theorem ofJson?_toJson {es : Entries} (h : es.Sorted) : ofJson? es.toJson = some es := by
  rw [toJson]
  split
  · next hnil =>
      subst hnil
      rfl
  · next hne =>
      have hall : insertAll [] es = es := insertAll_eq_append h
      obtain ⟨t, ht, hlength⟩ := skipBlanks_lines hne ['\n', '\x7d']
      have hcount := length_le_length_lines es
      rw [List.length_append] at hlength
      -- there are as many steps as characters, and each line has one at least
      have hfuel : es.length ≤ ('"' :: t).length := by
        simp only [List.length_cons, List.length_nil] at hlength ⊢
        omega
      rw [ofJson?]
      simp only [List.cons_append]
      rw [skipBlanks_of_not_blank (by decide)]
      simp only
      rw [skipBlanks_cons (by decide), ht]
      show addAll? [] ('"' :: t).length ('"' :: t) = some es
      have hsame : skipBlanks ('"' :: t) = skipBlanks (lines es ++ ['\n', '\x7d']) := by
        rw [ht]
        exact skipBlanks_of_not_blank (by decide) t
      rw [addAll?_lines hne hfuel hsame, hall]

/-! ## Order of what is read -/

theorem sorted_addAll? {n : Nat} {es fs : Entries} {t : Text} (h : es.Sorted)
    (hread : addAll? es n t = some fs) : fs.Sorted := by
  induction n generalizing es t with
  | zero => cases hread
  | succ n ih =>
      rw [addAll?] at hread
      obtain ⟨⟨e, rest⟩, -, hrest⟩ := Option.bind_eq_some_iff.mp hread
      have hsorted := sorted_insert h e.1 e.2
      simp only at hrest
      split at hrest
      · exact ih hsorted hrest
      · split at hrest
        · obtain rfl := Option.some.inj hrest
          exact hsorted
        · cases hrest
      · cases hrest

/-- What is read is in order, whatever order it is written in. -/
theorem sorted_ofJson? {t : Text} {es : Entries} (h : ofJson? t = some es) : es.Sorted := by
  rw [ofJson?] at h
  split at h
  · split at h
    · split at h
      · obtain rfl := Option.some.inj h
        exact List.Pairwise.nil
      · cases h
    · exact sorted_addAll? List.Pairwise.nil h
  · cases h

end Entries

end Lumen
