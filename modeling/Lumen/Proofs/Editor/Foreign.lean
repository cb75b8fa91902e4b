import Lumen.Proofs.Text.Row

/-!
# Changes from anywhere

A change need not tell of anything that was done to the text in which it is replayed: its points may
be past the end or inside a character, what it says was removed may be longer than what is left, and
it may have no lines at all. It is replayed all the same.

* `edit_of_overflows`, `exists_edit` — a change has no edit just if it `Overflows`, in whatever
  text;
* `rewrite_replay` — it cuts the text at two places between characters and puts its lines there;
* `edit_withLines`, `replay_withLines` — no lines are replayed as one empty line;
* `any_changes_replayed` — the same of changes that follow one another, each of which refers to what
  those before it have left.
-/

namespace Lumen

namespace Change

/-- Whether no size can hold the row after a change's lines or, if it has at most one line, the
column at which that line ends. -/
def Overflows (c : Change) : Prop :=
  Size.largest < c.start.row + max 1 c.inserted.length ∨
    c.inserted.length ≤ 1 ∧
      Size.largest < c.start.column + (Text.joinFeeds c.inserted).byteLength

instance (c : Change) : Decidable c.Overflows :=
  inferInstanceAs (Decidable (_ < _ ∨ _ ≤ 1 ∧ _ < _))

/-! ## Faults -/

/-- The only line is the last one. -/
theorem lastBytes_of_length_le_one {lines : List Text} (h : lines.length ≤ 1) :
    (lines.getLast?.map Text.byteLength).getD 0 = (Text.joinFeeds lines).byteLength := by
  match lines, h with
  | [], _ => rfl
  | [line], _ => rfl

theorem stopOf_of_overflows {c : Change} (h : c.Overflows) :
    stopOf c.start c.inserted = .error .overflow := by
  rw [Overflows, Nat.max_comm] at h
  rw [stopOf]
  by_cases hrow : Size.largest < c.start.row + max c.inserted.length 1
  · rw [Size.add_of_lt hrow]
    rfl
  · obtain ⟨hone, hcolumn⟩ := h.resolve_left hrow
    rw [Size.add_of_le (Nat.le_of_not_lt hrow), Checked.ok_bind, if_pos (Nat.max_eq_right hone),
      lastBytes_of_length_le_one hone, Size.add_of_lt hcolumn]
    rfl

theorem exists_stopOf {c : Change} (h : ¬ c.Overflows) :
    ∃ p, stopOf c.start c.inserted = .ok p := by
  obtain ⟨hrow, hcolumn⟩ := not_or.mp h
  rw [Nat.max_comm] at hrow
  rw [stopOf, Size.add_of_le (Nat.le_of_not_lt hrow), Checked.ok_bind]
  by_cases hone : c.inserted.length ≤ 1
  · have hfits := Nat.le_of_not_lt fun hlt => hcolumn ⟨hone, hlt⟩
    rw [if_pos (Nat.max_eq_right hone), lastBytes_of_length_le_one hone, Size.add_of_le hfits]
    exact ⟨_, rfl⟩
  · rw [if_neg (by omega)]
    exact ⟨_, rfl⟩

theorem edit_of_overflows {c : Change} (h : c.Overflows) (t : Text) :
    c.edit t = .error .overflow := by
  rw [edit, stopOf_of_overflows h]
  rfl

theorem exists_edit {c : Change} (h : ¬ c.Overflows) (t : Text) : ∃ e, c.edit t = .ok e := by
  obtain ⟨p, hp⟩ := exists_stopOf h
  rw [edit, hp]
  exact ⟨_, rfl⟩

/-! ## What a change does -/

/-- What a change does to a text by its edit, whatever the change says. -/
structure Rewrite (c : Change) (e : Edit) (t t' : Text) : Prop where
  edit_eq : c.edit t = .ok e
  start_le_oldStop : e.start.bytes ≤ e.oldStop.bytes
  start_le_newStop : e.start.bytes ≤ e.newStop.bytes
  start_le : e.start.bytes ≤ t.byteLength
  start_boundary : t.IsBoundary e.start.bytes
  /-- The lines stand for what is between two places: the start, and the last one between characters
  that is neither after the end of what is removed nor after the end of the text. -/
  after_eq : ∃ k, IsGreatest {j | t.IsBoundary j ∧ j ≤ min e.oldStop.bytes t.byteLength} k ∧
    t' = t.takeBytes e.start.bytes ++ Text.joinFeeds c.inserted ++ t.dropBytes k

/-- Changes that are replayed one after the other, each in what those before it have left. -/
inductive Rewrites : Text → List Change → List Edit → Text → Prop
  | nil (t : Text) : Rewrites t [] [] t
  | cons {t u v : Text} {c : Change} {e : Edit} {cs : List Change} {es : List Edit} :
      c.Rewrite e t u → Rewrites u cs es v → Rewrites t (c :: cs) (e :: es) v

theorem rewrite_replay {c : Change} {e : Edit} {t : Text} (h : c.edit t = .ok e) :
    c.Rewrite e t (c.replay e t) := by
  have hboundary := t.isBoundary_indexOf c.start
  have hedit := h
  rw [edit] at hedit
  obtain ⟨newStop, -, hpair⟩ := Checked.bind_eq_ok.mp hedit
  obtain rfl := Checked.pure_eq_ok.mp hpair
  refine ⟨h, Nat.le_add_right _ _, Nat.le_add_right _ _, hboundary.le_byteLength, hboundary, ?_⟩
  refine ⟨_, t.isGreatest_floor _, ?_⟩
  rw [Text.floor_min, Text.dropBytes_floor]
  rfl

/-- A batch meets a fault just at a change that overflows, and else rewrites the text change by
change. -/
theorem editAll_cases (cs : List Change) (t : Text) :
    (∃ c ∈ cs, c.Overflows) ∧ editAll cs t = .error .overflow ∨
      (∀ c ∈ cs, ¬ c.Overflows) ∧
        ∃ es t', editAll cs t = .ok (es, t') ∧ Rewrites t cs es t' := by
  induction cs generalizing t with
  | nil => exact .inr ⟨by simp, [], t, rfl, .nil t⟩
  | cons c cs ih =>
      by_cases hc : c.Overflows
      · refine .inl ⟨⟨c, List.mem_cons_self, hc⟩, ?_⟩
        rw [editAll, edit_of_overflows hc]
        rfl
      · obtain ⟨e, he⟩ := exists_edit hc t
        rw [editAll, he, Checked.ok_bind]
        rcases ih (c.replay e t) with ⟨⟨d, hd, hover⟩, hfault⟩ | ⟨hnone, es, t', hok, hrest⟩
        · refine .inl ⟨⟨d, List.mem_cons_of_mem c hd, hover⟩, ?_⟩
          rw [hfault]
          rfl
        · refine .inr ⟨List.forall_mem_cons.mpr ⟨hc, hnone⟩, e :: es, t', ?_, ?_⟩
          · rw [hok]
            rfl
          · exact .cons (rewrite_replay he) hrest

/-! ## No lines -/

/-- A change that has an empty line wherever it has none. -/
def withLines (c : Change) : Change :=
  let lined (lines : List Text) := if lines = [] then [[]] else lines
  { c with inserted := lined c.inserted, removed := lined c.removed }

theorem edit_withLines (c : Change) (t : Text) : c.withLines.edit t = c.edit t := by
  obtain ⟨start, stop, inserted, removed⟩ := c
  cases inserted <;> cases removed <;> rfl

theorem replay_withLines (c : Change) (e : Edit) (t : Text) :
    c.withLines.replay e t = c.replay e t := by
  obtain ⟨start, stop, inserted, removed⟩ := c
  cases inserted <;> rfl

theorem editAll_withLines (cs : List Change) (t : Text) :
    editAll (cs.map withLines) t = editAll cs t := by
  induction cs generalizing t with
  | nil => rfl
  | cons c cs ih =>
      rw [List.map_cons, editAll, editAll, edit_withLines]
      simp only [replay_withLines, ih]

/-! ## Batches -/

/-- Changes from anywhere meet a fault just if one of them overflows. Else there is an edit for each
of them in their order, which starts between characters of the text that those before it have left
and ends nowhere before that, and each puts its lines in place of what it says was removed, as far
as that is there. No lines are one empty line. -/
theorem any_changes_replayed (cs : List Change) (t : Text) :
    (editAll cs t = .error .overflow ↔ ∃ c ∈ cs, c.Overflows) ∧
    ((∀ c ∈ cs, ¬ c.Overflows) → ∃ es t', editAll cs t = .ok (es, t') ∧ Rewrites t cs es t') ∧
    editAll (cs.map withLines) t = editAll cs t := by
  refine ⟨?_, ?_, editAll_withLines cs t⟩
  · rcases editAll_cases cs t with ⟨hover, hfault⟩ | ⟨hnone, es, t', hok, -⟩
    · exact ⟨fun _ => hover, fun _ => hfault⟩
    · constructor
      · intro hfault
        rw [hok] at hfault
        cases hfault
      · rintro ⟨c, hc, hover⟩
        exact absurd hover (hnone c hc)
  · intro hnone
    rcases editAll_cases cs t with ⟨⟨c, hc, hover⟩, -⟩ | ⟨-, hreplayed⟩
    · exact absurd hover (hnone c hc)
    · exact hreplayed

/-- In a text with a character of two bytes: a change without lines that begins and ends inside the
character, one that removes more than there is, and one that begins past the end. A last one begins
at the largest column. -/
theorem any_changes_replayed_of_strays :
    let t : Text := ['a', 'é', '\n', 'b']
    let cs : List Change := [⟨⟨0, 2⟩, ⟨7, 7⟩, [], [['x']]⟩,
      ⟨⟨1, 0⟩, ⟨0, 0⟩, [['p'], ['q']], [['x', 'y', 'z'], []]⟩, ⟨⟨9, 3⟩, ⟨0, 0⟩, [['r']], []⟩]
    let c : Change := ⟨⟨0, Size.largest⟩, ⟨0, 0⟩, [['s']], []⟩
    (∀ c ∈ cs, ¬ c.Overflows) ∧
      (∃ es, editAll cs t = .ok (es, ['a', 'é', '\n', 'p', '\n', 'q', 'r']) ∧
        Rewrites t cs es ['a', 'é', '\n', 'p', '\n', 'q', 'r'] ∧
        es.map (fun e => (e.start.bytes, e.oldStop.bytes)) = [(1, 2), (4, 8), (7, 7)]) ∧
      (∃ c' ∈ cs ++ [c], c'.Overflows) ∧ editAll (cs ++ [c]) t = .error .overflow := by
  intro t cs c
  have hnone : ∀ c ∈ cs, ¬ c.Overflows := by decide
  have hover : ∃ c' ∈ cs ++ [c], c'.Overflows := by decide
  obtain ⟨es, t', hok, hall⟩ := (any_changes_replayed cs t).2.1 hnone
  obtain ⟨⟨es', t''⟩, hrun, htest⟩ := Checked.exists_ok (editAll cs t)
    (fun r => r.2 = ['a', 'é', '\n', 'p', '\n', 'q', 'r'] ∧
      r.1.map (fun e => (e.start.bytes, e.oldStop.bytes)) = [(1, 2), (4, 8), (7, 7)]) (by decide)
  obtain ⟨rfl, hplaces⟩ := of_decide_eq_true htest
  obtain ⟨rfl, rfl⟩ := Prod.mk.inj (Except.ok.inj (hok.symm.trans hrun))
  exact ⟨hnone, ⟨es, hok, hall, hplaces⟩, hover, (any_changes_replayed (cs ++ [c]) t).1.mpr hover⟩

end Change

end Lumen
