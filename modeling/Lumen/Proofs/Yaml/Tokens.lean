import Lumen.Proofs.Yaml.Block
import Lumen.Proofs.Yaml.Quoted

/-!
# Entries are scanned line by line

Between lines the scanner is in one of few states: all that is kept besides the tokens is whether
the mapping has begun (`Scan.Begins`). From such a state it is led to the next one by a key and its
colon (`Scan.leads_key`), then by a text that was written in some style (`Scan.leads_value`) or by
the items of a sequence (`Scan.leads_items`). A key is told from a text only by the colon after it,
so that what was noted before a text has to be out of date when the next line starts (`Scan.Past`).
-/

namespace Lumen

namespace Yaml

/-! ## Keys and values -/

/-- What can be a key: a plain text that is not too long and does not look like the end of a
document. -/
structure IsKey (k : Text) : Prop where
  plain : allowsPlain k = true
  ne : k ≠ []
  head : k.head? ≠ some '-' ∧ k.head? ≠ some '.'
  short : k.length ≤ Scan.keyLimit

/-- A text that is written for another in a style. -/
inductive Written : Style → Text → Text → Prop where
  | plain {t : Text} (ht : t ≠ []) (h : allowsPlain t = true) : Written .plain t t
  | single {t : Text} (hfeed : '\n' ∉ t) (h : allowsSingle t = true) :
      Written .singleQuoted (singleQuoted t) t
  | double (t : Text) : Written .doubleQuoted (doubleQuoted t) t
  | literal {t : Text} (h : allowsBlock t = true) : Written .literal (literal t) t

theorem written_spell (t : Text) : Written (styleOf t) (spell t) t := by
  by_cases hfeed : '\n' ∈ t
  · by_cases hblock : allowsBlock t = true
    · have hstyle : styleOf t = .literal := by simp [styleOf, hfeed, hblock]
      rw [spell, hstyle]
      exact .literal hblock
    · have hstyle : styleOf t = .doubleQuoted := by simp [styleOf, hfeed, hblock]
      rw [spell, hstyle]
      exact .double t
  · by_cases hplain : (allowsPlain t && !isAmbiguous t) = true
    · have hstyle : styleOf t = .plain := by rw [styleOf, if_neg hfeed, if_pos hplain]
      rw [Bool.and_eq_true, Bool.not_eq_true'] at hplain
      have hne : t ≠ [] := by
        rintro rfl
        cases hplain.2
      rw [spell, hstyle]
      exact .plain hne hplain.1
    · by_cases hsingle : allowsSingle t = true
      · have hstyle : styleOf t = .singleQuoted := by
          rw [styleOf, if_neg hfeed, if_neg hplain, if_pos hsingle]
        rw [spell, hstyle]
        exact .single hfeed hsingle
      · have hstyle : styleOf t = .doubleQuoted := by
          rw [styleOf, if_neg hfeed, if_neg hplain, if_neg hsingle]
        rw [spell, hstyle]
        exact .double t

theorem Written.ne {style : Style} {w t : Text} (h : Written style w t) : w ≠ [] := by
  cases h with
  | plain ht _ => exact ht
  | single => exact List.cons_ne_nil _ _
  | double => exact List.cons_ne_nil _ _
  | literal => exact List.cons_ne_nil _ _

/-- The tokens of a sequence of texts. -/
def itemTokens (items : List Text) : List Token :=
  items.flatMap fun t => [.entry, .scalar t (styleOf t)]

theorem length_itemTokens (items : List Text) : (itemTokens items).length = 2 * items.length := by
  induction items with
  | nil => rfl
  | cons t items ih =>
      rw [itemTokens, List.flatMap_cons, List.length_append, ← itemTokens, ih]
      exact Nat.add_comm 2 _

theorem startsLine_items (items : List Text) {rest : Text} (hrest : startsLine rest = true) :
    startsLine ((items.flatMap fun t => endLine ('-' :: ' ' :: spell t)) ++ rest) = true := by
  cases items with
  | nil => exact hrest
  | cons t items =>
      obtain ⟨u, hu, -⟩ := exists_endLine_cons '-' (' ' :: spell t)
      rw [List.flatMap_cons, hu]
      rfl

namespace Scan

/-! ## What comes before a token -/

/-- What is to be scanned once blanks, comments and line ends have been passed. -/
def advance? (s : Scan) : Option Scan :=
  (s.passGap (s.place.rest.length + 1)).dropStale?.map unindent

theorem passGap_start {s : Scan} (n : Nat) (h : startsLine s.place.rest = true) :
    s.passGap (n + 1) = s := by
  obtain ⟨⟨m, t⟩, ts, bs, allowed, cands⟩ := s
  cases t with
  | nil => simp [passGap, Place.passWhile, Place.right]
  | cons c cs =>
      obtain ⟨hbreak, hblank, hhash, hbom⟩ := startsLine_cons h
      have hspace := ne_of_isBlank hblank
      simp [passGap, Place.passWhile, Place.right, hspace, hhash, hbom, hbreak]

theorem passGap_blank {m : Mark} {u : Text} {ts : List Token} {bs : List Nat} {allowed : Bool}
    {cs : List (Option Candidate)} (n : Nat) (h : startsLine u = true) :
    passGap (n + 1) ⟨⟨m, ' ' :: u⟩, ts, bs, allowed, cs⟩ = ⟨⟨m.right, u⟩, ts, bs, allowed, cs⟩ := by
  cases u with
  | nil => simp [passGap, Place.passWhile, Place.right]
  | cons c cs =>
      obtain ⟨hbreak, hblank, hhash, hbom⟩ := startsLine_cons h
      have hspace := ne_of_isBlank hblank
      simp [passGap, Place.passWhile, Place.right, hspace, hhash, hbreak]

theorem passGap_feed {m : Mark} {u : Text} {ts : List Token} {bs : List Nat} {allowed : Bool}
    {c : Option Candidate} (n : Nat) (h : startsLine u = true) :
    passGap (n + 2) ⟨⟨m, '\n' :: u⟩, ts, bs, allowed, [c]⟩ = ⟨⟨m.down, u⟩, ts, bs, true, [c]⟩ := by
  have hfeed : isBreak '\n' = true := rfl
  have hpass : Place.passBreak ⟨m, '\n' :: u⟩ = ⟨m.down, u⟩ := Place.passBreak_eq rfl rfl
  have hrest := passGap_start (s := ⟨⟨m.down, u⟩, ts, bs, true, [c]⟩) n h
  rw [passGap]
  simp [Place.passWhile, Place.right, hfeed, hpass, inFlow, hrest]

theorem unindent_eq {s : Scan} (h : outer s.column s.blocks = s.blocks) : s.unindent = s := by
  simp [unindent, leave, h]

theorem outer_eq {column : Nat} {blocks : List Nat} (h : ∀ b ∈ blocks, b = 0) :
    outer column blocks = blocks := by
  cases blocks with
  | nil => rfl
  | cons b bs => simp [outer, h b List.mem_cons_self]

/-- The candidate for a key, if there is one, is in a line before, and it need not be one. -/
def Past (c : Option Candidate) (line : Nat) : Prop :=
  ∀ k ∈ c, k.mark.line < line ∧ k.required = false

theorem past_none (line : Nat) : Past none line := nofun

theorem dropStale?_past {p : Place} {ts : List Token} {bs : List Nat} {allowed : Bool}
    {c : Option Candidate} (h : Past c p.mark.line) :
    dropStale? ⟨p, ts, bs, allowed, [c]⟩ = some ⟨p, ts, bs, allowed, [none]⟩ := by
  cases c with
  | none => rfl
  | some k =>
      obtain ⟨hline, hrequired⟩ := h k rfl
      simp [dropStale?, isStale, hline, hrequired]

/-- A candidate in the same line is kept if it is not too far away. -/
theorem advance?_near (ts : List Token) (allowed : Bool) {p : Place} {bs : List Nat}
    {k : Candidate} (hbs : ∀ b ∈ bs, b = 0) (hp : startsLine p.rest = true)
    (hline : p.mark.line ≤ k.mark.line) (hindex : p.mark.index ≤ k.mark.index + keyLimit) :
    advance? ⟨p, ts, bs, allowed, [some k]⟩ = some ⟨p, ts, bs, allowed, [some k]⟩ := by
  have hdrop : dropStale? ⟨p, ts, bs, allowed, [some k]⟩ = some ⟨p, ts, bs, allowed, [some k]⟩ := by
    simp [dropStale?, isStale, Nat.not_lt.mpr hline, Nat.not_lt.mpr hindex]
  rw [advance?, passGap_start _ hp, hdrop, Option.map_some, unindent_eq (outer_eq hbs)]

/-- A line starts next, after some tokens and within some blocks. -/
def Begins (s : Scan) (ts : List Token) (blocks : List Nat) (u : Text) : Prop :=
  ∃ m : Mark, m.column = 0 ∧ s.advance? = some { place := ⟨m, u⟩, tokens := ts, blocks }

variable {ts : List Token} {bs : List Nat} {u : Text} {m : Mark}

theorem begins_start {c : Option Candidate} (hbs : ∀ b ∈ bs, b = 0) (hm : m.column = 0)
    (hu : startsLine u = true) (hc : Past c m.line) :
    Begins ⟨⟨m, u⟩, ts, bs, true, [c]⟩ ts bs u := by
  refine ⟨m, hm, ?_⟩
  rw [advance?, passGap_start _ hu, dropStale?_past hc, Option.map_some, unindent_eq (outer_eq hbs)]

theorem begins_feed {c : Option Candidate} {allowed : Bool} (hbs : ∀ b ∈ bs, b = 0)
    (hu : startsLine u = true) (hc : Past c (m.line + 1)) :
    Begins ⟨⟨m, '\n' :: u⟩, ts, bs, allowed, [c]⟩ ts bs u := by
  refine ⟨m.down, rfl, ?_⟩
  rw [advance?, List.length_cons, passGap_feed _ hu, dropStale?_past hc, Option.map_some,
    unindent_eq (outer_eq hbs)]

/-! ## From token to token -/

/-- What is scanned from one place on is scanned from another after some tokens. -/
def Leads (n : Nat) (s s' : Scan) : Prop := ∀ k, tokens? (k + n) s = tokens? k s'

theorem Leads.refl (s : Scan) : Leads 0 s s := fun _ => rfl

theorem Leads.trans {n k : Nat} {s s' s'' : Scan} (h : Leads n s s') (h' : Leads k s' s'') :
    Leads (k + n) s s'' := by
  intro j
  rw [← Nat.add_assoc, h, h']

theorem leads_token {s s' s'' : Scan} {c : Char} {cs : Text} (hadvance : s.advance? = some s')
    (hrest : s'.place.rest = c :: cs) (htoken : s'.token? c cs = some s'') : Leads 1 s s'' := by
  intro k
  obtain ⟨s₁, hdrop, rfl⟩ := Option.map_eq_some_iff.mp hadvance
  rw [tokens?]
  simp [hdrop, hrest, htoken]

/-- At the end all blocks are left. -/
theorem tokens?_end {s : Scan} (n : Nat) (h : s.Begins ts bs []) :
    tokens? (n + 1) s = some (ts ++ List.replicate bs.length .blockEnd) := by
  obtain ⟨m, -, hadvance⟩ := h
  obtain ⟨s₁, hdrop, hs₁⟩ := Option.map_eq_some_iff.mp hadvance
  rw [tokens?]
  simp [hdrop, hs₁, unindentAll, inFlow, leave, dropKey?]

/-! ## Plain scalars -/

theorem atSpace_append {t : Text} (u : Text) (h : atSpace t = false) :
    atSpace (t ++ u) = false := by
  cases t with
  | nil => cases h
  | cons c cs => exact h

theorem any_isBlank_of_atSpace {t : Text} (h : atSpace t = false) :
    t.head?.any isBlank = false := by
  cases t with
  | nil => rfl
  | cons c cs =>
      simp only [atSpace, List.head?_cons, Option.all_some, Bool.or_eq_false_iff] at h
      exact h.1

/-- A text that can stand plain is scanned as a plain scalar. -/
theorem token?_plain {s : Scan} {c : Char} {cs : Text} (hc : allowsPlain (c :: cs) = true)
    (hflow : s.inFlow = false) (hsees : s.place.seesDocument = false) :
    s.token? c (cs ++ u) = s.plainScalar? := by
  obtain ⟨hbreak, hblank, -⟩ := startsLine_cons (startsLine_of_allowsPlain hc u)
  simp only [allowsPlain, hasSign, beginsWithSign, Bool.and_eq_true, Bool.not_eq_true',
    Bool.or_eq_false_iff] at hc
  obtain ⟨-, ⟨⟨⟨⟨hsign, hmark⟩, -⟩, -⟩, -⟩, -⟩ := hc
  rw [Place.seesDocument, Bool.or_eq_false_iff] at hsees
  simp at hsign
  by_cases hmem : "?:-".toList.contains c = true
  · -- such a sign begins a scalar only with something right after it
    rw [hmem, Bool.true_and] at hmark
    have hafter := atSpace_append u hmark
    have hfree := any_isBlank_of_atSpace hafter
    simp only [List.head?_append] at hfree
    simp at hmem
    rcases hmem with rfl | rfl | rfl <;>
      simp [token?, beginsPlain, hflow, hsees, hafter, hfree]
  · simp at hmem
    simp [token?, beginsPlain, hflow, hsees, hsign, hblank, hbreak, hmem]

/-- The tokens at the begin of an entry. The first entry begins the mapping. -/
def opening (bs : List Nat) (k : Text) : List Token :=
  (if bs = [] then [.mappingStart] else []) ++ [.key, .scalar k .plain, .value]

theorem plainScalar?_key (ts : List Token) {k : Text} (hk : IsKey k) (hbs : bs = [] ∨ bs = [0])
    (hu : atSpace u = true) :
    ∃ required, plainScalar? { place := ⟨m, k ++ ':' :: u⟩, tokens := ts, blocks := bs } =
      some { place := ⟨m.right k.length, ':' :: u⟩, tokens := ts ++ [.scalar k .plain], blocks := bs
             keyAllowed := false, candidates := [some ⟨ts.length, m, required⟩] } := by
  have hindent : (bs.head?.map (· + 1)).getD 0 ≤ 1 := by
    rcases hbs with rfl | rfl <;> decide
  have hread := plain?_key (m := m) (flat_of_allowsPlain hk.plain) hindent hu
  refine ⟨decide (bs.head? = some m.column), ?_⟩
  simp [plainScalar?, noteKey?, dropKey?, inFlow, column, emit, hread]
  exact decide_eq_decide.mpr Iff.rfl

theorem value?_key (ts : List Token) (k : Text) (required : Bool) (m' : Mark) (hm : m.column = 0)
    (hbs : bs = [] ∨ bs = [0]) :
    value? { place := ⟨m', ':' :: u⟩, tokens := ts ++ [.scalar k .plain], blocks := bs
             keyAllowed := false, candidates := [some ⟨ts.length, m, required⟩] } =
      some { place := ⟨m'.right, u⟩, tokens := ts ++ opening bs k, blocks := [0]
             keyAllowed := false } := by
  rcases hbs with rfl | rfl <;>
    simp [value?, emitAt, indent, inFlow, sign, emit, opening, hm, Place.right]

/-- A key is scanned with the colon after it. -/
theorem leads_key {s : Scan} {k : Text} (hk : IsKey k) (h : s.Begins ts bs (k ++ ':' :: u))
    (hbs : bs = [] ∨ bs = [0]) (hu : atSpace u = true) :
    ∃ m : Mark, 0 < m.column ∧
      s.Leads 2 { place := ⟨m, u⟩, tokens := ts ++ opening bs k, blocks := [0]
                  keyAllowed := false } := by
  obtain ⟨m, hm, hadvance⟩ := h
  obtain ⟨required, hkey⟩ := plainScalar?_key ts (m := m) hk hbs hu
  have hvalue := value?_key ts k required (m.right k.length) (u := u) hm hbs
  refine ⟨(m.right k.length).right, Nat.succ_pos _, ?_⟩
  obtain ⟨c, cs, rfl⟩ := List.exists_cons_of_ne_nil hk.ne
  have hzero : ∀ b ∈ bs, b = 0 := by rcases hbs with rfl | rfl <;> simp
  have hsees : Place.seesDocument ⟨m, c :: cs ++ ':' :: u⟩ = false := by
    have hhead := hk.head
    simp only [List.head?_cons, ne_eq, Option.some.injEq] at hhead
    simp [Place.seesDocument, Place.seesTriple, hhead]
  have hscalar : Leads 1 s _ :=
    leads_token hadvance rfl ((token?_plain hk.plain rfl hsees).trans hkey)
  -- the colon comes in the same line and not too late for a key
  have hnear := advance?_near (ts ++ [.scalar (c :: cs) .plain]) false
    (p := ⟨m.right (c :: cs).length, ':' :: u⟩) (k := ⟨ts.length, m, required⟩) hzero rfl
    (Nat.le_refl _) (Nat.add_le_add_left hk.short _)
  refine hscalar.trans (leads_token hnear rfl (.trans ?_ hvalue))
  simp [token?, hu, Place.seesTriple]

/-! ## Values -/

/-- Where a value begins a key may begin too, but none has to. -/
theorem noteKey?_value (ts : List Token) (allowed : Bool) {p : Place} (hp : 0 < p.mark.column) :
    ∃ c, (∀ line, p.mark.line < line → Past c line) ∧
      noteKey? ⟨p, ts, [0], allowed, [none]⟩ = some ⟨p, ts, [0], allowed, [c]⟩ := by
  cases allowed with
  | false => exact ⟨none, fun line _ => past_none line, rfl⟩
  | true =>
      refine ⟨some ⟨ts.length, p.mark, false⟩, ?_, ?_⟩
      · rintro line hline k ⟨⟩
        exact ⟨hline, rfl⟩
      · have hout : ¬ 0 = p.mark.column := Nat.ne_of_lt hp
        simp [noteKey?, dropKey?, inFlow, column, hout]

theorem token?_single (ts : List Token) (allowed : Bool) {t rest : Text} (hm : 0 < m.column)
    (hfeed : '\n' ∉ t) (h : allowsSingle t = true) (hrest : startsLine rest = true) :
    ∃ s : Scan, token? ⟨⟨m, '\'' :: (framed false t ++ '\n' :: rest)⟩, ts, [0], allowed, [none]⟩
        '\'' (framed false t ++ '\n' :: rest) = some s ∧
      s.Begins (ts ++ [.scalar t .singleQuoted]) [0] rest := by
  have hsees : ∀ u x, Place.seesTriple ⟨m, u⟩ x = false := fun _ => Place.seesTriple_of_pos hm
  obtain ⟨k, hk, hnote⟩ := noteKey?_value ts allowed
    (p := ⟨m, '\'' :: (framed false t ++ '\n' :: rest)⟩) hm
  obtain ⟨m', hline, hread⟩ := quotedScalar?_single ('\n' :: rest) m
    (held_of_allowsSingle h hfeed) (by simp)
  rw [singleQuoted_eq, List.cons_append] at hread
  refine ⟨⟨⟨m', '\n' :: rest⟩, ts ++ [.scalar t .singleQuoted], [0], false, [k]⟩, ?_, ?_⟩
  · simp [token?, hsees, quotedScalar?, hnote, hread, emit]
  · exact begins_feed (by simp) hrest (hk _ (Nat.lt_succ_of_le hline))

theorem token?_double (ts : List Token) (allowed : Bool) {t rest : Text} (hm : 0 < m.column)
    (hrest : startsLine rest = true) :
    ∃ s : Scan, token? ⟨⟨m, '"' :: (t.flatMap escape ++ '"' :: '\n' :: rest)⟩, ts, [0], allowed,
        [none]⟩ '"' (t.flatMap escape ++ '"' :: '\n' :: rest) = some s ∧
      s.Begins (ts ++ [.scalar t .doubleQuoted]) [0] rest := by
  have hsees : ∀ u x, Place.seesTriple ⟨m, u⟩ x = false := fun _ => Place.seesTriple_of_pos hm
  obtain ⟨k, hk, hnote⟩ := noteKey?_value ts allowed
    (p := ⟨m, '"' :: (t.flatMap escape ++ '"' :: '\n' :: rest)⟩) hm
  have hread := quotedScalar?_double t ('\n' :: rest) m
  rw [doubleQuoted, List.append_assoc, List.cons_append] at hread
  refine ⟨⟨⟨m.right (doubleQuoted t).length, '\n' :: rest⟩, ts ++ [.scalar t .doubleQuoted], [0],
    false, [k]⟩, ?_, ?_⟩
  · rw [List.singleton_append] at hread
    simp [token?, hsees, quotedScalar?, hnote, hread, emit, doubleQuoted]
  · exact begins_feed (by simp) hrest (hk _ (Nat.lt_succ_self _))

theorem token?_literal (ts : List Token) (allowed : Bool) {t rest : Text} (hm : 0 < m.column)
    (h : allowsBlock t = true) (hrest : startsLine rest = true) {cs : Text}
    (hcs : endLine (literal t) ++ rest = '|' :: cs) :
    ∃ s : Scan, token? ⟨⟨m, '|' :: cs⟩, ts, [0], allowed, [none]⟩ '|' cs = some s ∧
      s.Begins (ts ++ [.scalar t .literal]) [0] rest := by
  have hsees : ∀ u x, Place.seesTriple ⟨m, u⟩ x = false := fun _ => Place.seesTriple_of_pos hm
  obtain ⟨m', hcolumn, hline, hread⟩ := blockScalar?_literal m h hrest
  rw [hcs] at hread
  refine ⟨⟨⟨m', rest⟩, ts ++ [.scalar t .literal], [0], true, [none]⟩, ?_, ?_⟩
  · simp [token?, hsees, inFlow, block?, dropKey?, hread, emit]
  · exact begins_start (by simp) hcolumn hrest (past_none _)

theorem token?_value (ts : List Token) (allowed : Bool) {c : Char} {cs rest : Text}
    (hm : 0 < m.column) (h : allowsPlain (c :: cs) = true) (hrest : startsLine rest = true) :
    ∃ s : Scan, token? ⟨⟨m, c :: (cs ++ '\n' :: rest)⟩, ts, [0], allowed, [none]⟩ c
        (cs ++ '\n' :: rest) = some s ∧
      s.Begins (ts ++ [.scalar (c :: cs) .plain]) [0] rest := by
  obtain ⟨k, hk, hnote⟩ := noteKey?_value ts allowed
    (p := ⟨m, c :: (cs ++ '\n' :: rest)⟩) hm
  have hread := plain?_value (m := m) (flat_of_allowsPlain h) hrest
  rw [List.cons_append] at hread
  refine ⟨⟨⟨(m.right (c :: cs).length).down, rest⟩, ts ++ [.scalar (c :: cs) .plain], [0], true,
    [k]⟩, ?_, ?_⟩
  · rw [token?_plain h rfl (Place.seesDocument_of_pos hm), plainScalar?, hnote]
    simp [inFlow, hread, emit]
  · exact begins_start (by simp) rfl hrest (hk _ (Nat.lt_succ_self _))

/-- A text is scanned as it was written, and the next line starts after it. -/
theorem token?_written (ts : List Token) (allowed : Bool) {style : Style} {w t rest : Text}
    (h : Written style w t) (hm : 0 < m.column) (hrest : startsLine rest = true) :
    ∃ (c : Char) (cs : Text) (s : Scan), endLine w ++ rest = c :: cs ∧
      startsLine (c :: cs) = true ∧ token? ⟨⟨m, c :: cs⟩, ts, [0], allowed, [none]⟩ c cs = some s ∧
        s.Begins (ts ++ [.scalar t style]) [0] rest := by
  cases h with
  | plain ht hplain =>
      have hend := endLine_line ht (flat_of_allowsPlain hplain).no_break
      obtain ⟨c, cs, rfl⟩ := List.exists_cons_of_ne_nil ht
      obtain ⟨s, hs, hbegins⟩ := token?_value ts allowed hm hplain hrest
      have hstart := startsLine_of_allowsPlain hplain (cs ++ '\n' :: rest)
      exact ⟨c, cs ++ '\n' :: rest, s, by simp [hend], hstart, hs, hbegins⟩
  | single hfeed hsingle =>
      obtain ⟨s, hs, hbegins⟩ := token?_single ts allowed hm hfeed hsingle hrest
      refine ⟨'\'', _, s, ?_, rfl, hs, hbegins⟩
      rw [singleQuoted, endLine_concat _ rfl, ← singleQuoted, singleQuoted_eq]
      simp
  | double t =>
      obtain ⟨s, hs, hbegins⟩ := token?_double ts allowed (t := t) hm hrest
      refine ⟨'"', _, s, ?_, rfl, hs, hbegins⟩
      rw [doubleQuoted, endLine_concat _ rfl]
      simp
  | literal hblock =>
      have hne : t ≠ [] := by
        rintro rfl
        cases hblock
      have hcs := congrArg (· ++ rest) (endLine_literal hne)
      obtain ⟨s, hs, hbegins⟩ := token?_literal ts allowed hm hblock hrest hcs
      exact ⟨'|', _, s, hcs, rfl, hs, hbegins⟩

theorem leads_value (ts : List Token) (allowed : Bool) {style : Style} {w t rest : Text}
    (h : Written style w t) (hrest : startsLine rest = true) :
    ∃ s : Scan, Leads 1 ⟨⟨m, ' ' :: endLine w ++ rest⟩, ts, [0], allowed, [none]⟩ s ∧
      s.Begins (ts ++ [.scalar t style]) [0] rest := by
  obtain ⟨c, cs, s, hcs, hstart, htoken, hbegins⟩ := token?_written ts allowed
    (m := m.right) h (Nat.succ_pos _) hrest
  refine ⟨s, ?_, hbegins⟩
  have hadvance : advance? ⟨⟨m, ' ' :: c :: cs⟩, ts, [0], allowed, [none]⟩ =
      some ⟨⟨m.right, c :: cs⟩, ts, [0], allowed, [none]⟩ := by
    rw [advance?, passGap_blank _ hstart, dropStale?_past (past_none _),
      Option.map_some, unindent_eq (outer_eq (by simp))]
  rw [List.cons_append, hcs]
  exact leads_token hadvance rfl htoken

/-! ## Entries -/

/-- An entry with one text is scanned up to the next line. -/
theorem leads_entry {s : Scan} {style : Style} {k w t rest : Text} (hk : IsKey k)
    (hw : Written style w t) (hbs : bs = [] ∨ bs = [0]) (hrest : startsLine rest = true)
    (h : s.Begins ts bs (entryLines k w ++ rest)) :
    ∃ s' : Scan, s.Leads 3 s' ∧ s'.Begins (ts ++ opening bs k ++ [.scalar t style]) [0] rest := by
  have hlines : entryLines k w ++ rest = k ++ ':' :: (' ' :: endLine w ++ rest) := by
    have hend := endLine_append (k ++ [':', ' ']) hw.ne
    simpa [entryLines] using congrArg (· ++ rest) hend
  rw [hlines] at h
  obtain ⟨m, -, hkey⟩ := leads_key hk h hbs rfl
  obtain ⟨s', hvalue, hbegins⟩ := leads_value (ts ++ opening bs k) false (m := m) hw hrest
  exact ⟨s', hkey.trans hvalue, hbegins⟩

/-- An item of a sequence is scanned up to the next line. -/
theorem leads_item {s : Scan} {style : Style} {w t rest : Text} (hw : Written style w t)
    (hrest : startsLine rest = true) (h : s.Begins ts [0] (endLine ('-' :: ' ' :: w) ++ rest)) :
    ∃ s' : Scan, s.Leads 2 s' ∧ s'.Begins (ts ++ [.entry, .scalar t style]) [0] rest := by
  have hlines : endLine ('-' :: ' ' :: w) ++ rest = '-' :: (' ' :: endLine w ++ rest) :=
    congrArg (· ++ rest) (endLine_append ['-', ' '] hw.ne)
  rw [hlines] at h
  obtain ⟨m, hm, hadvance⟩ := h
  have hentry : token? ⟨⟨m, '-' :: (' ' :: endLine w ++ rest)⟩, ts, [0], true, [none]⟩ '-'
      (' ' :: endLine w ++ rest) =
      some ⟨⟨m.right, ' ' :: endLine w ++ rest⟩, ts ++ [.entry], [0], true, [none]⟩ := by
    simp [token?, Place.seesTriple, entry?, indentHere, indent, dropKey?, sign, emit, column, hm,
      inFlow, Place.right, atSpace, isBlank]
  obtain ⟨s', hvalue, hbegins⟩ := leads_value (ts ++ [.entry]) true (m := m.right) hw hrest
  refine ⟨s', (leads_token hadvance rfl hentry).trans hvalue, ?_⟩
  simpa using hbegins

theorem leads_items {s : Scan} {items : List Text} {rest : Text} (hrest : startsLine rest = true)
    (h : s.Begins ts [0] ((items.flatMap fun t => endLine ('-' :: ' ' :: spell t)) ++ rest)) :
    ∃ s' : Scan, s.Leads (2 * items.length) s' ∧ s'.Begins (ts ++ itemTokens items) [0] rest := by
  induction items generalizing s ts with
  | nil => exact ⟨s, Leads.refl s, by simpa [itemTokens] using h⟩
  | cons t items ih =>
      rw [List.flatMap_cons, List.append_assoc] at h
      obtain ⟨s₁, hitem, hbegins⟩ := leads_item (written_spell t) (startsLine_items items hrest) h
      obtain ⟨s', hitems, hbegins⟩ := ih hbegins
      refine ⟨s', ?_, ?_⟩
      · exact hitem.trans hitems
      · simpa [itemTokens] using hbegins

/-- An entry with a sequence of texts is scanned up to the next line. -/
theorem leads_sequence {s : Scan} {k rest : Text} {items : List Text} (hk : IsKey k)
    (hbs : bs = [] ∨ bs = [0]) (hrest : startsLine rest = true)
    (h : s.Begins ts bs (sequenceLines k items ++ rest)) :
    ∃ s' : Scan, s.Leads (2 * items.length + 2) s' ∧
      s'.Begins (ts ++ opening bs k ++ itemTokens items) [0] rest := by
  rw [sequenceLines, List.append_assoc, List.cons_append, List.cons_append] at h
  obtain ⟨m, -, hkey⟩ := leads_key hk h hbs rfl
  obtain ⟨s', hread, hbegins⟩ := leads_items hrest
    (begins_feed (by simp) (startsLine_items items hrest) (past_none _))
  exact ⟨s', hkey.trans hread, hbegins⟩

end Scan

end Yaml

end Lumen
