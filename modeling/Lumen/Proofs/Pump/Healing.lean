import Lumen.Proofs.Pump.Events

/-!
# Pumps heal

A pump can lose its way: it may never have been started, its events may have been taken by someone
else, or it may have been given changes of another text. The main statement is `pumpEvents_heals`:
however that came about, pumping that sees a change and does not fail leaves the pump with the text
of the editor.
-/

namespace Lumen

variable {τ : Type}

namespace Pump

/-- Pumping without a failure, with a batch among the events, brings any pump to the text of the
editor. Both renewals are put off from then on. One text is parsed for each batch, and one more just
if the changes replayed on the text of the pump lead to another text than the editor's. -/
theorem pumpEvents_heals {p p' : Pump τ} {e e' : Editor} {now : Nat}
    (h : p.pumpEvents e now = .ok (p', e', none)) (hchanged : Event.batches e.events ≠ []) :
    e' = { e with events := [] } ∧ p'.source = e'.text ∧ p'.parsed = e'.text ++ ['\n'] ∧
      p'.Described ∧
      p'.highlight = { p.highlight with deadline := some (now + p.highlight.delay) } ∧
      p'.persist = { p.persist with deadline := some (now + p.persist.delay) } ∧
      ∃ edits replayed,
        Change.editAll (Event.batches e.events).flatten p.source = .ok (edits, replayed) ∧
        p'.parses = p.parses + (Event.batches e.events).length +
          if replayed = e.text then 0 else 1 := by
  obtain ⟨hsome, htells⟩ := tellsChanges_of_batches hchanged
  obtain ⟨rfl, hpumped⟩ := pumpEvents_cases h
  cases hpumped with
  | replayed hevents hsame =>
      have hreached := (handleEvents_reached hevents).2
      have hdescribed := hreached.described (.inr hchanged)
      have htext := hsame hchanged
      obtain ⟨edits, hedits⟩ := hreached.source
      refine ⟨rfl, htext, ?_, hdescribed, ?_, ?_, edits, p'.source, hedits, ?_⟩
      · rw [hdescribed.parsed, htext]
      · rw [hreached.putOff.highlight, if_neg hsome]
        rfl
      · rw [hreached.putOff.persist, if_pos htells]
        rfl
      · rw [hreached.parses, if_pos htext]
        rfl
  | @restarted p₁ _ hevents _ hdiverged hstart =>
      have hreached := (handleEvents_reached hevents).2
      obtain ⟨edits, hedits⟩ := hreached.source
      obtain ⟨-, tree, htree, rfl⟩ := start_eq_ok hstart
      refine ⟨rfl, rfl, rfl, (described_advance htree).scheduled now, ?_, ?_, edits, p₁.source,
        hedits, ?_⟩
      -- a start at the same time makes no difference to the renewals
      · simp [scheduled, advance, hreached.putOff.highlight, hsome, Debouncer.trigger]
      · simp [scheduled, advance, hreached.putOff.persist, htells, Debouncer.trigger]
      · rw [if_neg hdiverged, ← hreached.parses]
        rfl

/-- A pump that was never started is given changes of another text. Of two edits of an editor the
events of the first are taken by someone else, and those of the second are pumped. -/
theorem pumpEvents_heals_of_comments :
    let p : Pump CommentTree := .create .comments .default 150 400
    let foreign := Change.ofTexts ⟨3, 9⟩ ⟨0, 0⟩ "// no\n".toList "gone".toList
    let e := ((Editor.ofText "// é".toList 2).append ['x']).drain.2.insert ⟨0, 0⟩ "// y\n".toList
    Event.batches e.events ≠ [] ∧
      ∃ p₁ p₂ e', p.handleChanges e [foreign] 5 = .ok (p₁, e, none) ∧
        p₁.pumpEvents e 20 = .ok (p₂, e', none) ∧ p₂.parses = 3 ∧
        e' = { e with events := [] } ∧ p₂.source = e'.text ∧ p₂.parsed = e'.text ++ ['\n'] ∧
        p₂.Described ∧ p₂.highlight = { p₁.highlight with deadline := some 170 } ∧
        p₂.persist = { p₁.persist with deadline := some 420 } ∧
        ∃ edits replayed,
          Change.editAll (Event.batches e.events).flatten p₁.source = .ok (edits, replayed) ∧
          p₂.parses = p₁.parses + (Event.batches e.events).length +
            if replayed = e.text then 0 else 1 := by
  intro p foreign e
  have hchanged : Event.batches e.events ≠ [] := by decide +kernel
  -- the foreign change has been handled and the first event is lost, so the texts differ
  obtain ⟨⟨p₁, e₁, failure₁⟩, hhandle, htest⟩ := Checked.exists_ok (p.handleChanges e [foreign] 5)
    (fun (p₁, _, failure₁) =>
      decide (failure₁ = none) && ((p₁.pumpEvents e 20).map fun (p₂, _, failure) =>
        decide (p₁.highlight.delay = 150 ∧ p₁.persist.delay = 400 ∧ p₂.parses = 3 ∧
          failure = none)).toOption = some true)
    (by decide +kernel)
  simp only [Bool.and_eq_true, decide_eq_true_eq] at htest
  obtain ⟨rfl, htest⟩ := htest
  obtain ⟨rfl, -⟩ := handleChanges_eq_ok hhandle
  obtain ⟨⟨p₂, e', failure⟩, hpump, htest₂⟩ := Checked.exists_ok (p₁.pumpEvents e 20) _ htest
  obtain ⟨hhighlight, hpersist, hparses, rfl⟩ := of_decide_eq_true htest₂
  have hheals := pumpEvents_heals hpump hchanged
  rw [hhighlight, hpersist] at hheals
  exact ⟨hchanged, p₁, p₂, e', hhandle, hpump, hparses, hheals⟩

end Pump

end Lumen
