import Lumen.Proofs.Pump.Session

/-!
# Deadlines

Of the two renewals that may be to come, a tick runs those that are due, and the next deadline is
the first time at which one of them is (`nextDeadline_le_iff`). So ticks before it do nothing, and a
tick at it leaves fewer renewals to come (`waiting_poll_lt`). The only thing that keeps a tick from
its result is an overlay for rows that cannot be told (`exists_tick_iff`). So the loop that ticks at
each deadline until there is none (`Session.Drains`) comes to its end after two ticks at most:

* `tick_meets_deadlines` — a tick does what is due and nothing else, whatever becomes of the store,
  and the loop ends just if the rows that an overlay is to be laid for can be told;
* `tick_faults_past_sizes` — which is not so in every session: with the largest number of rows and
  without the first row, no tick gets past the deadline of the overlay.
-/

namespace Lumen

variable {τ σ : Type}

/-! ## Timers -/

namespace Debouncer

theorem pending_poll_le (d : Debouncer .trailing) (now : Nat) :
    (d.poll now).2.pending.toNat ≤ d.pending.toNat := by
  by_cases hdue : d.Due now
  · rw [poll_of_due hdue]
    exact Nat.zero_le _
  · exact Nat.le_of_eq (congrArg (·.2.pending.toNat) (poll_of_not_due hdue))

theorem pending_poll_lt {d : Debouncer .trailing} {now : Nat} (h : d.deadline = some now) :
    (d.poll now).2.pending.toNat < d.pending.toNat := by
  rw [poll_of_due ⟨now, h, Nat.le_refl now⟩, pending, pending, h]
  exact Nat.zero_lt_one

end Debouncer

namespace Pump

variable {p : Pump τ} {now : Nat}

/-- The next deadline is one of the two. -/
theorem nextDeadline_eq_some (h : p.nextDeadline = some now) :
    p.highlight.deadline = some now ∨ p.persist.deadline = some now := by
  rw [nextDeadline] at h
  split at h
  · next a b ha hb =>
      obtain rfl := Option.some.inj h
      rcases Nat.le_total a b with hle | hle
      · exact .inl (ha.trans (congrArg some (Nat.min_eq_left hle).symm))
      · exact .inr (hb.trans (congrArg some (Nat.min_eq_right hle).symm))
  · cases ha : p.highlight.deadline with
    | some a =>
        rw [ha] at h
        exact .inl h
    | none =>
        rw [ha] at h
        exact .inr h

theorem nextDeadline_eq_none (h : p.nextDeadline = none) :
    p.highlight.pending = false ∧ p.persist.pending = false := by
  rw [nextDeadline] at h
  rw [Debouncer.pending, Debouncer.pending]
  cases ha : p.highlight.deadline with
  | some a =>
      rw [ha] at h
      cases hb : p.persist.deadline with
      | some b =>
          rw [hb] at h
          cases h
      | none =>
          rw [hb] at h
          cases h
  | none =>
      rw [ha] at h
      have hb : p.persist.deadline = none := h
      rw [hb]
      exact ⟨rfl, rfl⟩

/-- The next deadline has come just if something is due. -/
theorem nextDeadline_le_iff :
    (∃ deadline, p.nextDeadline = some deadline ∧ deadline ≤ now) ↔
      p.highlight.Due now ∨ p.persist.Due now := by
  unfold Debouncer.Due
  constructor
  · rintro ⟨deadline, hnext, hle⟩
    rcases nextDeadline_eq_some hnext with hdue | hdue
    · exact .inl ⟨deadline, hdue, hle⟩
    · exact .inr ⟨deadline, hdue, hle⟩
  · rw [nextDeadline]
    rintro (⟨a, ha, hle⟩ | ⟨b, hb, hle⟩)
    · rw [ha]
      cases p.persist.deadline with
      | none => exact ⟨a, rfl, hle⟩
      | some b => exact ⟨min a b, rfl, Nat.le_trans (Nat.min_le_left a b) hle⟩
    · rw [hb]
      cases p.highlight.deadline with
      | none => exact ⟨b, rfl, hle⟩
      | some a => exact ⟨min a b, rfl, Nat.le_trans (Nat.min_le_right a b) hle⟩

theorem waiting_le (p : Pump τ) : p.waiting ≤ 2 := by
  have hhighlight := Bool.toNat_le p.highlight.pending
  have hpersist := Bool.toNat_le p.persist.pending
  rw [waiting]
  omega

/-- At the next deadline something is due. -/
theorem waiting_poll_lt (h : p.nextDeadline = some now) :
    (p.highlight.poll now).2.pending.toNat + (p.persist.poll now).2.pending.toNat < p.waiting := by
  rcases nextDeadline_eq_some h with hdue | hdue
  · exact Nat.add_lt_add_of_lt_of_le (Debouncer.pending_poll_lt hdue)
      (p.persist.pending_poll_le now)
  · exact Nat.add_lt_add_of_le_of_lt (p.highlight.pending_poll_le now)
      (Debouncer.pending_poll_lt hdue)

end Pump

/-! ## Ticks -/

namespace Session

theorem renewOverlay_of_not_due {s : Session τ σ} {now : Nat} (hdue : ¬s.pump.highlight.Due now) :
    s.renewOverlay now = .ok (none, s) := by
  unfold renewOverlay
  rw [Debouncer.poll_of_not_due hdue]
  rfl

theorem renewOverlay_of_due {s : Session τ σ} {now count : Nat} {e : Editor}
    (hdue : s.pump.highlight.Due now) (hlay : s.pump.overlay s.editor none = .ok (count, e)) :
    s.renewOverlay now = .ok (some count, { s with
      pump := { s.pump with highlight := s.pump.highlight.cancel }
      editor := e }) := by
  -- the timer is no part of what an overlay is laid by
  have hlay' : Pump.overlay { s.pump with highlight := s.pump.highlight.cancel } s.editor none =
      .ok (count, e) := hlay
  unfold renewOverlay
  rw [Debouncer.poll_of_due hdue]
  simp only [↓reduceIte]
  rw [hlay', Checked.ok_bind]
  rfl

/-- What a tick comes to. Each renewal is run just if it is due, and is not to come any more then:
the overlay is laid, or the text is written to the store, whatever becomes of that. All else is as
it was. -/
structure Renewed [Storage σ] (s : Session τ σ) (now : Nat) (renewal : Renewal)
    (s' : Session τ σ) : Prop where
  overlay :
    s.pump.highlight.Due now ∧ s'.pump.highlight = s.pump.highlight.cancel ∧
      (∃ count, s.pump.overlay s.editor none = .ok (count, s'.editor) ∧
        renewal.highlighted = some count) ∨
    ¬s.pump.highlight.Due now ∧ s'.pump.highlight = s.pump.highlight ∧
      s'.editor = s.editor ∧ renewal.highlighted = none
  copy :
    s.pump.persist.Due now ∧ s'.pump.persist = s.pump.persist.cancel ∧
      (∃ failure, Storage.set s.store sourceKey s'.editor.text = (s'.store, failure) ∧
        renewal.persisted = failure.isNone) ∨
    ¬s.pump.persist.Due now ∧ s'.pump.persist = s.pump.persist ∧
      s'.store = s.store ∧ renewal.persisted = false
  text : s'.editor.text = s.editor.text
  rest : s'.pump = { s.pump with highlight := s'.pump.highlight, persist := s'.pump.persist }

variable [Storage σ] {s s' : Session τ σ} {now n : Nat} {renewal : Renewal}

theorem tick_renewed (h : s.tick now = .ok (renewal, s')) : s.Renewed now renewal s' := by
  obtain ⟨s₁, hoverlay, hcopy⟩ := tick_eq h
  have hcopied := renewCopy_cases s₁ now
  rcases renewOverlay_cases hoverlay with ⟨hdue, hnone, rfl⟩ | ⟨hdue, count, e, hlay, hsome, rfl⟩
  · rcases hcopied with ⟨hdue', hcopy'⟩ | ⟨hdue', hcopy'⟩
    all_goals
      rw [hcopy'] at hcopy
      obtain ⟨hpersisted, rfl⟩ := Prod.mk.inj hcopy
      refine ⟨.inr ⟨hdue, rfl, rfl, hnone⟩, ?_, rfl, rfl⟩
    · exact .inr ⟨hdue', rfl, rfl, hpersisted.symm⟩
    · exact .inl ⟨hdue', rfl, _, rfl, hpersisted.symm⟩
  · -- the text that is copied then is the one that the overlay was laid for
    have htext : e.text = s.editor.text := (Highlight.overlay_keeps hlay).1
    rcases hcopied with ⟨hdue', hcopy'⟩ | ⟨hdue', hcopy'⟩
    all_goals
      rw [hcopy'] at hcopy
      obtain ⟨hpersisted, rfl⟩ := Prod.mk.inj hcopy
      refine ⟨.inl ⟨hdue, rfl, count, hlay, hsome⟩, ?_, htext, rfl⟩
    · exact .inr ⟨hdue', rfl, rfl, hpersisted.symm⟩
    · exact .inl ⟨hdue', rfl, _, rfl, hpersisted.symm⟩

/-- A tick has a result unless the overlay is due and there is a tree to lay it from, but the rows
to lay it for do not fit. -/
theorem exists_tick_iff :
    (∃ renewal s', s.tick now = .ok (renewal, s')) ↔
      (s.pump.highlight.Due now → s.pump.live.tree.isSome = true → s.editor.RowsFit) := by
  have hcaptures : s.pump.captures?.isSome = s.pump.live.tree.isSome := by
    unfold Pump.captures?
    rw [Option.isSome_map]
  have hlay : (∃ count e, s.pump.overlay s.editor none = .ok (count, e)) ↔
      (s.pump.live.tree.isSome = true → s.editor.RowsFit) := by
    rw [← hcaptures]
    exact Highlight.exists_overlay_iff
  constructor
  · rintro ⟨renewal, s', htick⟩ hdue
    rcases (tick_renewed htick).overlay with ⟨-, -, count, hlaid, -⟩ | ⟨hnot, -⟩
    · exact hlay.mp ⟨count, s'.editor, hlaid⟩
    · exact absurd hdue hnot
  · intro hfit
    obtain ⟨highlighted, s₁, hoverlay⟩ :
        ∃ highlighted s₁, s.renewOverlay now = .ok (highlighted, s₁) := by
      by_cases hdue : s.pump.highlight.Due now
      · obtain ⟨count, e, hlaid⟩ := hlay.mpr (hfit hdue)
        exact ⟨_, _, renewOverlay_of_due hdue hlaid⟩
      · exact ⟨_, _, renewOverlay_of_not_due hdue⟩
    unfold tick
    rw [hoverlay, Checked.ok_bind]
    exact ⟨_, _, rfl⟩

/-- Before the next deadline a tick does nothing. -/
theorem tick_of_lt_nextDeadline
    (h : ∀ deadline, s.pump.nextDeadline = some deadline → now < deadline) :
    s.tick now = .ok ({}, s) := by
  have hnone : ¬(s.pump.highlight.Due now ∨ s.pump.persist.Due now) := by
    rw [← Pump.nextDeadline_le_iff]
    rintro ⟨deadline, hnext, hle⟩
    exact absurd (h deadline hnext) (Nat.not_lt_of_le hle)
  obtain ⟨hhighlight, hpersist⟩ := not_or.mp hnone
  have hcopy : s.renewCopy now = (false, s) := by
    unfold renewCopy
    rw [Debouncer.poll_of_not_due hpersist]
    rfl
  unfold tick
  rw [renewOverlay_of_not_due hhighlight, Checked.ok_bind]
  simp only [hcopy]
  rfl

/-- Of what a tick changes when it comes to the copy, only the store depends on the store. -/
theorem exists_renewCopy (s : Session τ σ) (now : Nat) : ∃ persisted store,
    s.renewCopy now = (persisted, { s with
      pump := { s.pump with persist := (s.pump.persist.poll now).2 }
      store }) := by
  unfold renewCopy
  simp only
  split
  · exact ⟨_, _, rfl⟩
  · exact ⟨_, _, rfl⟩

/-- What becomes of the store makes no difference to anything else. -/
theorem tick_congr_store (h : s.tick now = .ok (renewal, s')) (store : σ) :
    ∃ persisted store', tick { s with store } now =
      .ok (⟨renewal.highlighted, persisted⟩, { s' with store := store' }) := by
  obtain ⟨s₁, hoverlay, hcopy⟩ := tick_eq h
  obtain ⟨_, _, hcopied⟩ := exists_renewCopy s₁ now
  obtain ⟨-, rfl⟩ := Prod.mk.inj (hcopy.symm.trans hcopied)
  obtain ⟨persisted, store', hcopy'⟩ := exists_renewCopy { s₁ with store } now
  have hoverlay' : renewOverlay { s with store } now =
      .ok (renewal.highlighted, { s₁ with store }) := by
    rcases renewOverlay_cases hoverlay with ⟨hdue, hnone, rfl⟩ | ⟨hdue, count, e, hlay, hsome, rfl⟩
    · rw [hnone]
      exact renewOverlay_of_not_due hdue
    · rw [hsome]
      exact renewOverlay_of_due hdue hlay
  refine ⟨persisted, store', ?_⟩
  unfold tick
  rw [hoverlay', Checked.ok_bind]
  simp only [hcopy']
  rfl

/-! ## The loop -/

/-- That ticks at each deadline, until there is none, bring a session to an end after a number of
them. -/
inductive Drains : Session τ σ → Nat → Session τ σ → Prop
  | done {s : Session τ σ} : s.pump.nextDeadline = none → Drains s 0 s
  | tick {s s₁ s' : Session τ σ} {deadline n : Nat} {renewal : Renewal} :
      s.pump.nextDeadline = some deadline → s.tick deadline = .ok (renewal, s₁) →
      Drains s₁ n s' → Drains s (n + 1) s'

/-- That the rows fit if the overlay is to be laid for a tree. -/
def Drainable (s : Session τ σ) : Prop :=
  s.pump.highlight.pending = true → s.pump.live.tree.isSome = true → s.editor.RowsFit

theorem Renewed.waiting_lt (h : s.Renewed now renewal s') (hnext : s.pump.nextDeadline = some now) :
    s'.pump.waiting < s.pump.waiting := by
  have hhighlight : s'.pump.highlight = (s.pump.highlight.poll now).2 := by
    rcases h.overlay with ⟨hdue, htimer, -⟩ | ⟨hdue, htimer, -⟩
    · rw [htimer, Debouncer.poll_of_due hdue]
    · rw [htimer, Debouncer.poll_of_not_due hdue]
  have hpersist : s'.pump.persist = (s.pump.persist.poll now).2 := by
    rcases h.copy with ⟨hdue, htimer, -⟩ | ⟨hdue, htimer, -⟩
    · rw [htimer, Debouncer.poll_of_due hdue]
    · rw [htimer, Debouncer.poll_of_not_due hdue]
  have hlt := Pump.waiting_poll_lt hnext
  rw [← hhighlight, ← hpersist] at hlt
  exact hlt

/-- If the overlay is still to come after a tick, nothing that it depends on has changed. -/
theorem Renewed.drainable_iff (h : s.Renewed now renewal s')
    (hdue : ¬s.pump.highlight.Due now) : s'.Drainable ↔ s.Drainable := by
  have hlive : s'.pump.live = s.pump.live := by rw [h.rest]
  rcases h.overlay with ⟨hdue', -⟩ | ⟨-, htimer, heditor, -⟩
  · exact absurd hdue' hdue
  · unfold Drainable
    rw [htimer, hlive, heditor]

/-- Each tick of the loop runs a renewal that is to come, and there are no more of them. -/
theorem Drains.le_waiting (h : s.Drains n s') : n ≤ s.pump.waiting := by
  induction h with
  | done => exact Nat.zero_le _
  | tick hnext htick _ ih => exact Nat.lt_of_le_of_lt ih ((tick_renewed htick).waiting_lt hnext)

theorem Drains.nextDeadline_eq (h : s.Drains n s') : s'.pump.nextDeadline = none := by
  induction h with
  | done hnone => exact hnone
  | tick _ _ _ ih => exact ih

theorem settle_of_nextDeadline_eq_none (h : s.pump.nextDeadline = none) (n : Nat) :
    s.settle n = (s, none) := by
  cases n with
  | zero => rfl
  | succ n =>
      rw [settle]
      simp only [h]

/-- Two numbers of ticks that are enough for all that is to come settle a session in the same
way. -/
theorem settle_congr (s : Session τ σ) {n k : Nat} (hn : s.pump.waiting ≤ n)
    (hk : s.pump.waiting ≤ k) : s.settle n = s.settle k := by
  induction n generalizing s k with
  | zero =>
      cases hnext : s.pump.nextDeadline with
      | none => rw [settle_of_nextDeadline_eq_none hnext, settle_of_nextDeadline_eq_none hnext]
      | some now => exact absurd (Pump.waiting_poll_lt hnext) (by omega)
  | succ n ih =>
      cases hnext : s.pump.nextDeadline with
      | none => rw [settle_of_nextDeadline_eq_none hnext, settle_of_nextDeadline_eq_none hnext]
      | some now =>
          have hsome := Pump.waiting_poll_lt hnext
          cases k with
          | zero => omega
          | succ k =>
              rw [settle, settle]
              simp only [hnext]
              cases htick : s.tick now with
              | error fault => rfl
              | ok result =>
                  have hlt := (tick_renewed htick).waiting_lt hnext
                  exact ih result.2 (by omega) (by omega)

/-- The loop is the one that settles a session, which has enough ticks to come to its end. -/
theorem Drains.settle_eq (h : s.Drains n s') (k : Nat) : s.settle (n + k) = (s', none) := by
  induction h with
  | done hnone => exact settle_of_nextDeadline_eq_none hnone _
  | @tick s s₁ s' deadline n renewal hnext htick _ ih =>
      rw [Nat.add_right_comm, settle]
      simp only [hnext, htick]
      exact ih

theorem Drains.drainable (h : s.Drains n s') : s.Drainable := by
  induction h with
  | @done s hnone =>
      intro hpending
      rw [(Pump.nextDeadline_eq_none hnone).1] at hpending
      cases hpending
  | @tick s s₁ s' deadline n renewal hnext htick _ ih =>
      by_cases hdue : s.pump.highlight.Due deadline
      · exact fun _ => exists_tick_iff.mp ⟨renewal, s₁, htick⟩ hdue
      · exact ((tick_renewed htick).drainable_iff hdue).mp ih

/-- The loop comes to its end, by induction on the number of renewals that are to come. -/
theorem Drainable.exists_drains (h : s.Drainable) : ∃ n s', s.Drains n s' := by
  induction hw : s.pump.waiting using Nat.strongRecOn generalizing s with
  | _ w ih =>
      cases hnext : s.pump.nextDeadline with
      | none => exact ⟨0, s, .done hnext⟩
      | some deadline =>
          obtain ⟨renewal, s₁, htick⟩ : ∃ renewal s₁, s.tick deadline = .ok (renewal, s₁) := by
            rw [exists_tick_iff]
            rintro ⟨deadline', hhighlight, -⟩
            exact h (by rw [Debouncer.pending, hhighlight]; rfl)
          have hrenewed := tick_renewed htick
          have hlt := hrenewed.waiting_lt hnext
          -- an overlay that has been laid asks no more of the rows, and one that has not, the same
          have h₁ : s₁.Drainable := by
            by_cases hdue : s.pump.highlight.Due deadline
            · rcases hrenewed.overlay with ⟨-, htimer, -⟩ | ⟨hnot, -⟩
              · intro hpending
                rw [htimer] at hpending
                cases hpending
              · exact absurd hdue hnot
            · exact (hrenewed.drainable_iff hdue).mpr h
          obtain ⟨n, s', hdrains⟩ := ih _ (hw ▸ hlt) h₁ rfl
          exact ⟨n + 1, s', .tick hnext htick hdrains⟩

/-- Before the next deadline a tick does nothing, and from then on something is due. A tick runs the
renewals that are due, each just once, and puts no other off; whether the store takes the copy makes
no difference to anything but the store and what is said of it. There is no tick, though, if an
overlay is due for rows that do not fit. Unless that is to come, the loop that ticks at each
deadline ends, after two ticks at most and with nothing to come. It is the same as settling the
session by as many ticks as renewals are to come, which more ticks make no difference to. -/
theorem tick_meets_deadlines (s : Session τ σ) :
    (∀ now, (∀ deadline, s.pump.nextDeadline = some deadline → now < deadline) →
      s.tick now = .ok ({}, s)) ∧
    (∀ now, (∃ deadline, s.pump.nextDeadline = some deadline ∧ deadline ≤ now) ↔
      s.pump.highlight.Due now ∨ s.pump.persist.Due now) ∧
    (∀ now, (∃ renewal s', s.tick now = .ok (renewal, s')) ↔
      (s.pump.highlight.Due now → s.pump.live.tree.isSome = true → s.editor.RowsFit)) ∧
    (∀ now renewal s', s.tick now = .ok (renewal, s') → s.Renewed now renewal s' ∧
      ∀ store, ∃ persisted store', tick ({ s with store } : Session τ σ) now =
        .ok (⟨renewal.highlighted, persisted⟩, { s' with store := store' })) ∧
    ((∃ n s', s.Drains n s') ↔ s.Drainable) ∧
    (∀ n s', s.Drains n s' → n ≤ 2 ∧ s'.pump.nextDeadline = none ∧ s'.pump.pending = false ∧
      s.settle s.pump.waiting = (s', none) ∧ ∀ k, s.settle (k + 2) = (s', none)) ∧
    ∀ n, s.pump.waiting ≤ n → s.settle n = s.settle s.pump.waiting := by
  refine ⟨?_, ?_, ?_, ?_, ?_, ?_, ?_⟩
  · intro now hlt
    exact tick_of_lt_nextDeadline hlt
  · intro now
    exact Pump.nextDeadline_le_iff
  · intro now
    exact exists_tick_iff
  · intro now renewal s' htick
    exact ⟨tick_renewed htick, tick_congr_store htick⟩
  · constructor
    · rintro ⟨n, s', hdrains⟩
      exact hdrains.drainable
    · exact Drainable.exists_drains
  · intro n s' hdrains
    have hn : n ≤ 2 := Nat.le_trans hdrains.le_waiting s.pump.waiting_le
    have hnone := hdrains.nextDeadline_eq
    obtain ⟨hhighlight, hpersist⟩ := Pump.nextDeadline_eq_none hnone
    -- the loop takes at most as many ticks as renewals wait, so as many settle the session
    have hsettle := hdrains.settle_eq (s.pump.waiting - n)
    rw [Nat.add_sub_cancel' hdrains.le_waiting] at hsettle
    refine ⟨hn, hnone, ?_, hsettle, ?_⟩
    · unfold Pump.pending
      rw [hhighlight, hpersist]
      rfl
    · intro k
      have henough : s.pump.waiting ≤ k + 2 := Nat.le_add_left_of_le s.pump.waiting_le
      rw [settle_congr s henough (Nat.le_refl _), hsettle]
  · intro n hn
    exact settle_congr s hn (Nat.le_refl _)

/-- Both renewals are due at once, and the file is a folder, so that the copy cannot be written. -/
theorem tick_meets_deadlines_of_folder :
    let store : FileStore := .openAt (.folder [(['s'], .folder [])]) ['/', 's']
    let s : Session CommentTree FileStore :=
      ⟨.create .comments .default 5 5, .ofText ['a', '\n', 'b'] 2, store⟩
    ∃ answer s₁ s', s.run (.start 0) = .ok (answer, s₁) ∧ s₁.pump.nextDeadline = some 5 ∧
      s₁.tick 4 = .ok ({}, s₁) ∧ s₁.tick 5 = .ok (⟨some 2, false⟩, s') ∧
      s₁.Renewed 5 ⟨some 2, false⟩ s' ∧ ∃ n s'', s₁.Drains n s'' ∧ n ≤ 2 ∧
        s''.pump.pending = false ∧ s₁.settle s₁.pump.waiting = (s'', none) := by
  intro store s
  obtain ⟨⟨answer, s₁⟩, hrun, htest⟩ := Checked.exists_ok (s.run (.start 0))
    (fun (_, s₁) => s₁.pump.nextDeadline = some 5 ∧ s₁.editor.RowsFit ∧
      ((s₁.tick 5).map fun (renewal, _) => decide (renewal = ⟨some 2, false⟩)).toOption = some true)
    (by decide +kernel)
  obtain ⟨hnext, hfit, htick⟩ := of_decide_eq_true htest
  obtain ⟨⟨renewal, s'⟩, htick, hrenewal⟩ := Checked.exists_ok _ _ htick
  obtain rfl := of_decide_eq_true hrenewal
  obtain ⟨hidle, -, -, hrenewed, hdrains, hends, -⟩ := tick_meets_deadlines s₁
  have hlt : ∀ deadline, s₁.pump.nextDeadline = some deadline → 4 < deadline := by
    intro deadline hdeadline
    obtain rfl := Option.some.inj (hnext.symm.trans hdeadline)
    decide
  -- although no write succeeds, the loop ends
  obtain ⟨n, s'', hend⟩ := hdrains.mpr fun _ _ => hfit
  obtain ⟨hn, -, hpending, hsettle, -⟩ := hends n s'' hend
  exact ⟨answer, s₁, s', hrun, hnext, hidle 4 hlt, htick, (hrenewed 5 _ s' htick).1, n, s'', hend,
    hn, hpending, hsettle⟩

/-- The largest number of rows can be seen from the top of a text, where a row below has been the
first one. When the text has that row again, the rows cannot be told any more. -/
theorem tick_faults_past_sizes :
    let s : Session CommentTree MemoryStore :=
      ⟨.create .comments .default 50 2000, .ofText ['a', '\n', 'b'] 2, {}⟩
    let cs : List Command :=
      [.edit (.scrollTo 1), .edit (.setText ['a']), .edit (.resize Size.largest),
        .edit (.setText ['a', '\n', 'b']), .start 0]
    ∃ answers s', s.runAll cs = .ok (answers, s') ∧ s'.pump.nextDeadline = some 50 ∧
      s'.tick 50 = .error .overflow ∧ ∀ n s'', ¬s'.Drains n s'' := by
  intro s cs
  obtain ⟨⟨answers, s'⟩, hrun, htest⟩ := Checked.exists_ok (s.runAll cs)
    (fun (_, s') => s'.pump.nextDeadline = some 50 ∧
      (match s'.tick 50 with
        | .error fault => some fault
        | .ok _ => none) = some .overflow)
    (by decide +kernel)
  obtain ⟨hnext, hmet⟩ := of_decide_eq_true htest
  have hfault : s'.tick 50 = .error .overflow := by
    cases htick : s'.tick 50 with
    | error fault =>
        simp only [htick] at hmet
        exact congrArg Except.error (Option.some.inj hmet)
    | ok renewed =>
        simp only [htick] at hmet
        cases hmet
  refine ⟨answers, s', hrun, hnext, hfault, ?_⟩
  intro n s'' hdrains
  -- the loop would have to begin with the tick that has no result
  cases hdrains with
  | done hnone =>
      rw [hnext] at hnone
      cases hnone
  | tick hnext' htick =>
      obtain rfl := Option.some.inj (hnext.symm.trans hnext')
      rw [hfault] at htick
      cases htick

end Session

end Lumen
