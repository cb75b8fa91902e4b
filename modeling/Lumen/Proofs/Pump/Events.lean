import Lumen.Proofs.Editor.Replay
import Lumen.Proofs.Pump.Session

/-!
# Events and pumps in any state

What a pump makes of events is told here for pumps of which nothing is known: their text can be
another than the one that the changes refer to, and any text can be one without a tree.

* `start_eq_failed`, `handleChanges_eq_failed` — where a text has no tree, the pump and the editor
  that are left are those that there were;
* `Reached` — what it comes to when all of some events have been handled: their changes have been
  replayed in their order, and each batch has been parsed once;
* `handleEvents_failed` — otherwise there is a first event that could not be handled, and what is
  left is what those before it have made;
* `pumpEvents_total` — where every text has a tree, pumping does not fail.
-/

namespace Lumen

variable {τ : Type}

namespace Pump

variable {p p' : Pump τ}

/-- Events tell of changes just if there is a batch among them. -/
theorem any_tellsChanges (events : List Event) :
    events.any tellsChanges = true ↔ (Event.batches events).length ≠ 0 := by
  induction events with
  | nil => simp [Event.batches]
  | cons event events ih =>
      cases event with
      | changes batch => simp [Event.batches, Event.batch?, tellsChanges]
      | viewport rows =>
          rw [List.any_cons, tellsChanges, Bool.false_or, ih]
          rfl

theorem tellsChanges_of_batches {events : List Event} (h : Event.batches events ≠ []) :
    events ≠ [] ∧ events.any tellsChanges = true :=
  ⟨fun hnone => h (congrArg Event.batches hnone),
    (any_tellsChanges events).mpr fun hnone => h (List.length_eq_zero_iff.mp hnone)⟩

/-- Both renewals are to come when changes have been handled. -/
theorem PutOff.pending {now : Nat} {events : List Event} (h : p.PutOff now events p')
    (hchanged : Event.batches events ≠ []) :
    p'.highlight.pending = true ∧ p'.persist.pending = true := by
  obtain ⟨hsome, htells⟩ := tellsChanges_of_batches hchanged
  rw [h.highlight, if_neg hsome, h.persist, if_pos htells]
  exact ⟨rfl, rfl⟩

/-! ## One text -/

/-- The live tree is one that the parsed text has, and this is the replayed text with a line feed
after it. -/
structure Described (p : Pump τ) : Prop where
  parsed : p.parsed = p.source ++ ['\n']
  tree : ∃ tree base, p.live.tree = some tree ∧ p.reader.parse? p.parsed base = some tree

theorem Described.scheduled (h : p.Described) (now : Nat) : (p.scheduled now).Described :=
  ⟨h.parsed, h.tree⟩

theorem Described.handleViewport (h : p.Described) (now : Nat) :
    (p.handleViewport now).Described :=
  ⟨h.parsed, h.tree⟩

theorem described_advance {source : Text} {tree : τ} {base : Option τ}
    (h : p.reader.parse? (source ++ ['\n']) base = some tree) : (p.advance source tree).Described :=
  ⟨rfl, tree, base, rfl, h⟩

variable {e e' : Editor} {changes : List Change} {now : Nat} {failure : NoTree}

theorem start_eq_ok (h : p.start e now = .ok (p', e', none)) :
    e' = e ∧ ∃ tree, p.reader.parse? (e.text ++ ['\n']) none = some tree ∧
      p' = (p.advance e.text tree).scheduled now := by
  obtain ⟨rfl, edits, source', hedits, hcases⟩ := refresh_cases h
  obtain ⟨-, rfl⟩ := Prod.mk.inj (Checked.pure_eq_ok.mp hedits)
  rcases hcases with ⟨f, hnone, -⟩ | ⟨-, tree, hadvanced, htree⟩
  · cases hnone
  · exact ⟨rfl, tree, htree, hadvanced⟩

theorem start_eq_failed (h : p.start e now = .ok (p', e', some failure)) :
    p' = p ∧ e' = e ∧ Refused p.reader (e.text ++ ['\n']) none failure := by
  obtain ⟨rfl, edits, source', hedits, hcases⟩ := refresh_cases h
  obtain ⟨-, rfl⟩ := Prod.mk.inj (Checked.pure_eq_ok.mp hedits)
  rcases hcases with ⟨f, hsome, rfl, hrefused⟩ | ⟨hnone, -⟩
  · exact ⟨rfl, rfl, Option.some.inj hsome ▸ hrefused⟩
  · cases hnone

theorem handleChanges_eq_ok (h : p.handleChanges e changes now = .ok (p', e', none)) :
    e' = e ∧ ∃ edits source' tree, Change.editAll changes p.source = .ok (edits, source') ∧
      p.reader.parse? (source' ++ ['\n']) (p.live.moved p.reader edits) = some tree ∧
      p' = (p.advance source' tree).scheduled now := by
  obtain ⟨rfl, edits, source', hedits, hcases⟩ := refresh_cases h
  rcases hcases with ⟨f, hnone, -⟩ | ⟨-, tree, hadvanced, htree⟩
  · cases hnone
  · exact ⟨rfl, edits, source', tree, hedits, htree, hadvanced⟩

theorem handleChanges_eq_failed (h : p.handleChanges e changes now = .ok (p', e', some failure)) :
    p' = p ∧ e' = e ∧ ∃ edits source', Change.editAll changes p.source = .ok (edits, source') ∧
      Refused p.reader (source' ++ ['\n']) (p.live.moved p.reader edits) failure := by
  obtain ⟨rfl, edits, source', hedits, hcases⟩ := refresh_cases h
  rcases hcases with ⟨f, hsome, rfl, hrefused⟩ | ⟨hnone, -⟩
  · exact ⟨rfl, rfl, edits, source', hedits, Option.some.inj hsome ▸ hrefused⟩
  · cases hnone

/-! ## All events -/

/-- What it comes to when all of some events have been handled. -/
structure Reached (p : Pump τ) (now : Nat) (events : List Event) (p' : Pump τ) : Prop where
  putOff : p.PutOff now events p'
  /-- The changes of all batches have been replayed one after the other. -/
  source : ∃ edits, Change.editAll (Event.batches events).flatten p.source = .ok (edits, p'.source)
  /-- Each batch has been parsed once. -/
  parses : p'.parses = p.parses + (Event.batches events).length
  described : p.Described ∨ Event.batches events ≠ [] → p'.Described

end Pump

/-- Changes that follow on others are replayed after them. -/
theorem Change.editAll_append {cs ds : List Change} {t u v : Text} {es fs : List Edit}
    (hcs : editAll cs t = .ok (es, u)) (hds : editAll ds u = .ok (fs, v)) :
    editAll (cs ++ ds) t = .ok (es ++ fs, v) := by
  induction cs generalizing t es with
  | nil =>
      obtain ⟨rfl, rfl⟩ := Prod.mk.inj (Checked.pure_eq_ok.mp hcs)
      exact hds
  | cons c cs ih =>
      obtain ⟨e, hedit, hothers⟩ := Checked.bind_eq_ok.mp hcs
      obtain ⟨⟨es', u'⟩, hall, hpair⟩ := Checked.bind_eq_ok.mp hothers
      obtain ⟨rfl, rfl⟩ := Prod.mk.inj (Checked.pure_eq_ok.mp hpair)
      rw [List.cons_append, editAll, hedit, Checked.ok_bind, ih hall]
      rfl

namespace Pump

variable {p p' : Pump τ} {now : Nat}

theorem Reached.refl (p : Pump τ) (now : Nat) : p.Reached now [] p where
  putOff := ⟨rfl, rfl, rfl, rfl⟩
  source := ⟨[], rfl⟩
  parses := rfl
  described h := h.elim id fun hnone => absurd rfl hnone

/-- A batch that has been handled comes before those of the other events. -/
theorem Reached.changes {p₁ : Pump τ} {batch : List Change} {events : List Event}
    {e e' : Editor} (hfirst : p.handleChanges e batch now = .ok (p₁, e', none))
    (h : p₁.Reached now events p') : p.Reached now (.changes batch :: events) p' := by
  obtain ⟨-, edits, source, tree, hedits, htree, rfl⟩ := handleChanges_eq_ok hfirst
  obtain ⟨edits', hedits'⟩ := h.source
  refine ⟨⟨h.putOff.reader, h.putOff.palette, ?_, ?_⟩, ⟨edits ++ edits', ?_⟩, ?_, ?_⟩
  -- what is put off twice at one time is put off to the same deadline
  · rw [h.putOff.highlight]
    simp [scheduled, advance, Debouncer.trigger]
  · rw [h.putOff.persist]
    simp [scheduled, advance, Debouncer.trigger, tellsChanges]
  · exact Change.editAll_append hedits hedits'
  · have hcount : (Event.batches (.changes batch :: events)).length =
        (Event.batches events).length + 1 := rfl
    rw [h.parses, hcount]
    simp only [scheduled, advance]
    omega
  · exact fun _ => h.described (.inl ((described_advance htree).scheduled now))

/-- A move of the rows that can be seen puts off the overlay and does nothing else. -/
theorem Reached.viewport {rows : RowRange} {events : List Event}
    (h : (p.handleViewport now).Reached now events p') :
    p.Reached now (.viewport rows :: events) p' := by
  refine ⟨⟨h.putOff.reader, h.putOff.palette, ?_, ?_⟩, h.source, h.parses, ?_⟩
  · rw [h.putOff.highlight]
    simp [handleViewport, Debouncer.trigger]
  · rw [h.putOff.persist]
    simp [handleViewport, tellsChanges]
  · rintro (hdescribed | hbatches)
    · exact h.described (.inl (hdescribed.handleViewport now))
    · exact h.described (.inr hbatches)

/-- Handling events leaves the editor alone. -/
theorem handleEvents_reached {e e' : Editor} {events : List Event}
    (h : p.handleEvents e now events = .ok (p', e', none)) :
    e' = e ∧ p.Reached now events p' := by
  induction events generalizing p e with
  | nil =>
      cases Checked.pure_eq_ok.mp h
      exact ⟨rfl, .refl _ now⟩
  | cons event events ih =>
      obtain ⟨⟨p₁, e₁, failure⟩, hfirst, hrest⟩ := Checked.bind_eq_ok.mp h
      cases failure with
      | some failure => cases Checked.pure_eq_ok.mp hrest
      | none =>
          obtain ⟨rfl, hreached⟩ := ih hrest
          cases event with
          | changes batch =>
              obtain ⟨rfl, -⟩ := handleChanges_eq_ok hfirst
              exact ⟨rfl, .changes hfirst hreached⟩
          | viewport rows =>
              cases Checked.pure_eq_ok.mp hfirst
              exact ⟨rfl, .viewport hreached⟩

/-- If not all events are handled, there is a first whose text has no tree. Those before it have
been handled, and what they have led to is what is left. -/
theorem handleEvents_failed {e e' : Editor} {events : List Event} {failure : NoTree}
    (h : p.handleEvents e now events = .ok (p', e', some failure)) :
    e' = e ∧ ∃ before batch after, events = before ++ .changes batch :: after ∧
      p.handleEvents e now before = .ok (p', e, none) ∧
      p'.handleChanges e batch now = .ok (p', e, some failure) := by
  induction events generalizing p with
  | nil => cases Checked.pure_eq_ok.mp h
  | cons event events ih =>
      obtain ⟨⟨p₁, e₁, failure₁⟩, hfirst, hrest⟩ := Checked.bind_eq_ok.mp h
      cases failure₁ with
      | none =>
          -- this event has been handled, so it comes before the first that could not be
          have hone : p.handleEvents e now [event] = .ok (p₁, e₁, none) := by
            rw [handleEvents, hfirst]
            rfl
          obtain ⟨rfl, -⟩ := handleEvents_reached hone
          obtain ⟨rfl, before, batch, after, rfl, hbefore, hbatch⟩ := ih hrest
          refine ⟨rfl, event :: before, batch, after, rfl, ?_, hbatch⟩
          rw [handleEvents, hfirst]
          exact hbefore
      | some failure₁ =>
          cases Checked.pure_eq_ok.mp hrest
          cases event with
          | changes batch =>
              obtain ⟨rfl, rfl, -⟩ := handleChanges_eq_failed hfirst
              exact ⟨rfl, [], batch, events, rfl, rfl, hfirst⟩
          | viewport rows => cases Checked.pure_eq_ok.mp hfirst

/-- Where every text has a tree, events are handled to the last. -/
theorem handleEvents_total (htotal : p.reader.Total) {e e' : Editor} {events : List Event}
    {failure : Option NoTree} (h : p.handleEvents e now events = .ok (p', e', failure)) :
    failure = none ∧ e' = e ∧ p.Reached now events p' := by
  cases failure with
  | none => exact ⟨rfl, handleEvents_reached h⟩
  | some failure =>
      obtain ⟨-, before, batch, after, -, hbefore, hbatch⟩ := handleEvents_failed h
      obtain ⟨-, -, edits, source, -, hnone, -⟩ := handleChanges_eq_failed hbatch
      rw [(handleEvents_reached hbefore).2.putOff.reader] at hnone
      obtain ⟨tree, htree⟩ := htotal (source ++ ['\n']) (p'.live.moved p.reader edits)
      rw [hnone] at htree
      cases htree

/-! ## All events of an editor -/

/-- What can come of pumping an editor whose events have been taken. -/
inductive Pumped (p : Pump τ) (e : Editor) (now : Nat) (events : List Event) :
    Pump τ → Option NoTree → Prop
  /-- An event could not be handled. -/
  | stopped {p' : Pump τ} {failure : NoTree} :
      p.handleEvents e now events = .ok (p', e, some failure) →
      Pumped p e now events p' (some failure)
  /-- All events have been handled, and the replayed text is the editor's if it has changed. -/
  | replayed {p' : Pump τ} :
      p.handleEvents e now events = .ok (p', e, none) →
      (Event.batches events ≠ [] → p'.source = e.text) → Pumped p e now events p' none
  /-- All events have been handled, and as the replayed text is another, the editor's has been
  parsed as a new one. -/
  | restarted {p₁ p' : Pump τ} :
      p.handleEvents e now events = .ok (p₁, e, none) → Event.batches events ≠ [] →
      p₁.source ≠ e.text → p₁.start e now = .ok (p', e, none) → Pumped p e now events p' none
  /-- All events have been handled, and the editor's text, which is another than the replayed one,
  has no tree. -/
  | lost {p' : Pump τ} {failure : NoTree} :
      p.handleEvents e now events = .ok (p', e, none) → Event.batches events ≠ [] →
      p'.source ≠ e.text → p'.start e now = .ok (p', e, some failure) →
      Pumped p e now events p' (some failure)

theorem pumpEvents_cases {e e' : Editor} {failure : Option NoTree}
    (h : p.pumpEvents e now = .ok (p', e', failure)) :
    e' = { e with events := [] } ∧ p.Pumped { e with events := [] } now e.events p' failure := by
  obtain ⟨⟨p₁, e₁, failure₁⟩, hevents, hrest⟩ := Checked.bind_eq_ok.mp h
  have hevents : p.handleEvents { e with events := [] } now e.events = .ok (p₁, e₁, failure₁) :=
    hevents
  have hbatches : e.events.any tellsChanges = true ↔ Event.batches e.events ≠ [] := by
    rw [any_tellsChanges, ne_eq, List.length_eq_zero_iff]
  cases failure₁ with
  | some failure₁ =>
      cases Checked.pure_eq_ok.mp hrest
      obtain ⟨rfl, -⟩ := handleEvents_failed hevents
      exact ⟨rfl, .stopped hevents⟩
  | none =>
      obtain ⟨rfl, -⟩ := handleEvents_reached hevents
      simp only at hrest
      -- all are handled, so what is left to ask is whether the replayed text is the editor's
      split at hrest
      · next hdiverged =>
          have hsome := hbatches.mp hdiverged.1
          cases failure with
          | none =>
              obtain ⟨rfl, -⟩ := start_eq_ok hrest
              exact ⟨rfl, .restarted hevents hsome hdiverged.2 hrest⟩
          | some failure =>
              obtain ⟨rfl, rfl, -⟩ := start_eq_failed hrest
              exact ⟨rfl, .lost hevents hsome hdiverged.2 hrest⟩
      · next hsame =>
          cases Checked.pure_eq_ok.mp hrest
          refine ⟨rfl, .replayed hevents ?_⟩
          intro hsome
          exact Decidable.byContradiction fun hne => hsame ⟨hbatches.mpr hsome, hne⟩

/-- Where every text has a tree, pumping takes all events and handles them; a new start at the same
time makes no difference to the renewals. -/
theorem pumpEvents_total (htotal : p.reader.Total) {e e' : Editor} {failure : Option NoTree}
    (h : p.pumpEvents e now = .ok (p', e', failure)) :
    failure = none ∧ e' = { e with events := [] } ∧ p.PutOff now e.events p' := by
  obtain ⟨rfl, hpumped⟩ := pumpEvents_cases h
  cases hpumped with
  | stopped hstopped => cases (handleEvents_total htotal hstopped).1
  | replayed hevents _ => exact ⟨rfl, rfl, (handleEvents_reached hevents).2.putOff⟩
  | restarted hevents hchanged _ hstart =>
      have hput := (handleEvents_reached hevents).2.putOff
      obtain ⟨-, tree, -, rfl⟩ := start_eq_ok hstart
      obtain ⟨hsome, htells⟩ := tellsChanges_of_batches hchanged
      refine ⟨rfl, rfl, hput.reader, hput.palette, ?_, ?_⟩
      · simp [scheduled, advance, hput.highlight, hsome, Debouncer.trigger]
      · simp [scheduled, advance, hput.persist, htells, Debouncer.trigger]
  | lost hevents _ _ hstart =>
      have hput := (handleEvents_reached hevents).2.putOff
      obtain ⟨hnone, -⟩ := start_total (hput.reader.symm ▸ htotal) hstart
      cases hnone

end Pump

end Lumen
