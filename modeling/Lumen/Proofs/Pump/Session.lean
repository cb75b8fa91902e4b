import Lumen.Proofs.Highlight.Overlay
import Lumen.Proofs.Pump.Reader
import Lumen.Pump.Session

/-!
# What commands make of a session

Each thing that can happen in a session is told here once by all that it changes:

* `reparse_cases`, `refresh_cases` — a text that has a tree is parsed, and its tree is installed, or
  else the pump that is left is the one that there was;
* `exists_refresh`, `exists_start` — a text has a tree if its reader has one for every text;
* `PutOff` — what handling events comes to for the renewals;
* `renewOverlay_cases`, `renewCopy_cases` — what is not due stays as it is, and what is due is
  renewed and not due any more;
* `run_edit_eq`, `run_start_eq`, `run_pump_eq`, `run_handleChanges_eq`, `run_tick_eq`,
  `run_overlay_eq` — a step of a session is one of its parts;
* `run_quiet` — what is neither an edit nor a text or changes for the pump touches nothing but the
  timers, the marks and the store.
-/

namespace Lumen

variable {τ σ : Type}

/-! ## Debouncers -/

namespace Debouncer

/-- Whether a burst is over by a time. -/
def Due {edge : Edge} (d : Debouncer edge) (now : Nat) : Prop :=
  ∃ deadline, d.deadline = some deadline ∧ deadline ≤ now

theorem poll_of_due {d : Debouncer .trailing} {now : Nat} (h : d.Due now) :
    d.poll now = (true, d.cancel) := by
  obtain ⟨deadline, hdeadline, hle⟩ := h
  simp [poll, hdeadline, hle]

theorem poll_of_not_due {d : Debouncer .trailing} {now : Nat} (h : ¬ d.Due now) :
    d.poll now = (false, d) := by
  rw [poll]
  cases hdeadline : d.deadline with
  | none => rfl
  | some deadline =>
      have hlt : ¬ deadline ≤ now := fun hle => h ⟨deadline, hdeadline, hle⟩
      simp [hlt]

end Debouncer

/-! ## Pumps -/

namespace Pump

/-- The pump when a text has been replayed and parsed. -/
def advance (p : Pump τ) (source : Text) (tree : τ) : Pump τ :=
  { p with
    live := p.live.install tree
    source
    parsed := source ++ ['\n']
    parses := p.parses + 1 }

/-- The pump when both renewals have been triggered. -/
def scheduled (p : Pump τ) (now : Nat) : Pump τ :=
  { p with highlight := (p.highlight.trigger now).2, persist := (p.persist.trigger now).2 }

/-- What runs at the end of a burst does not run at a trigger, so the editor is left alone. -/
theorem schedule_eq (p : Pump τ) (e : Editor) (now : Nat) :
    p.schedule e now = .ok (p.scheduled now, e) := rfl

/-- That a text has no tree, if it is parsed from the given one. -/
def Refused (r : Reader τ) (text : Text) (base : Option τ) (failure : NoTree) : Prop :=
  r.parse? text base = none ∧ failure = ⟨text.byteLength⟩

section

variable {p p' : Pump τ} {e e' : Editor} {source : Text} {changes : List Change} {fromLive : Bool}
  {failure : Option NoTree} {now : Nat}

/-- Parsing installs the tree of the replayed text, or else it has none and the pump stays. -/
theorem reparse_cases (h : p.reparse source changes fromLive = .ok (p', failure)) :
    ∃ edits source', Change.editAll changes source = .ok (edits, source') ∧
      ((∃ f, failure = some f ∧ p' = p ∧ Refused p.reader (source' ++ ['\n'])
          (if fromLive then p.live.moved p.reader edits else none) f) ∨
      failure = none ∧ ∃ tree, p' = p.advance source' tree ∧ p.reader.parse? (source' ++ ['\n'])
          (if fromLive then p.live.moved p.reader edits else none) = some tree) := by
  obtain ⟨⟨edits, source'⟩, hedits, hparse⟩ := Checked.bind_eq_ok.mp h
  refine ⟨edits, source', hedits, ?_⟩
  simp only at hparse
  split at hparse
  · next hnone =>
      obtain ⟨rfl, rfl⟩ := Prod.mk.inj (Checked.pure_eq_ok.mp hparse)
      exact .inl ⟨_, rfl, rfl, hnone, rfl⟩
  · next tree htree =>
      obtain ⟨rfl, rfl⟩ := Prod.mk.inj (Checked.pure_eq_ok.mp hparse)
      exact .inr ⟨rfl, tree, rfl, htree⟩

/-- Where there is a tree, renewals are triggered as well; where there is none, nothing is done. -/
theorem refresh_cases (h : p.refresh e source changes fromLive now = .ok (p', e', failure)) :
    e' = e ∧ ∃ edits source', Change.editAll changes source = .ok (edits, source') ∧
      ((∃ f, failure = some f ∧ p' = p ∧ Refused p.reader (source' ++ ['\n'])
          (if fromLive then p.live.moved p.reader edits else none) f) ∨
      failure = none ∧ ∃ tree, p' = (p.advance source' tree).scheduled now ∧
        p.reader.parse? (source' ++ ['\n'])
          (if fromLive then p.live.moved p.reader edits else none) = some tree) := by
  obtain ⟨⟨p₁, failure₁⟩, hparse, hrest⟩ := Checked.bind_eq_ok.mp h
  obtain ⟨edits, source', hedits, hcases⟩ := reparse_cases hparse
  rcases hcases with ⟨f, rfl, rfl, hrefused⟩ | ⟨rfl, tree, rfl, htree⟩
  · cases Checked.pure_eq_ok.mp hrest
    exact ⟨rfl, edits, source', hedits, .inl ⟨f, rfl, rfl, hrefused⟩⟩
  · simp only [schedule_eq, Checked.ok_bind] at hrest
    cases Checked.pure_eq_ok.mp hrest
    exact ⟨rfl, edits, source', hedits, .inr ⟨rfl, tree, rfl, htree⟩⟩

theorem exists_refresh (htotal : p.reader.Total) {source' : Text} {edits : List Edit}
    (h : Change.editAll changes source = .ok (edits, source')) (e : Editor) (fromLive : Bool)
    (now : Nat) :
    ∃ tree, p.refresh e source changes fromLive now =
      .ok ((p.advance source' tree).scheduled now, e, none) := by
  obtain ⟨tree, htree⟩ := htotal (source' ++ ['\n'])
    (if fromLive then p.live.moved p.reader edits else none)
  refine ⟨tree, ?_⟩
  rw [refresh, reparse, h, Checked.ok_bind]
  simp only [htree]
  rfl

/-- A start meets no fault. -/
theorem exists_start (htotal : p.reader.Total) (e : Editor) (now : Nat) :
    ∃ tree, p.start e now = .ok ((p.advance e.text tree).scheduled now, e, none) :=
  exists_refresh htotal rfl e false now

end

/-- The parts of a pump that parsing leaves alone. -/
structure SameTimers (p p' : Pump τ) : Prop where
  reader : p'.reader = p.reader
  palette : p'.palette = p.palette
  highlight : p'.highlight = p.highlight
  persist : p'.persist = p.persist

/-- Starting puts off both renewals. -/
theorem start_total {p p' : Pump τ} (htotal : p.reader.Total) {e e' : Editor} {now : Nat}
    {failure : Option NoTree} (h : p.start e now = .ok (p', e', failure)) :
    failure = none ∧ e' = e ∧ ∃ p₁, p' = p₁.scheduled now ∧ p.SameTimers p₁ := by
  obtain ⟨tree, hstart⟩ := exists_start htotal e now
  cases h.symm.trans hstart
  exact ⟨rfl, rfl, _, rfl, rfl, rfl, rfl, rfl⟩

/-- What handling events comes to for the renewals: any event puts off the overlay, and changes put
off the stored copy as well. -/
structure PutOff (p : Pump τ) (now : Nat) (events : List Event) (p' : Pump τ) : Prop where
  reader : p'.reader = p.reader
  palette : p'.palette = p.palette
  highlight : p'.highlight =
    if events = [] then p.highlight else (p.highlight.trigger now).2
  persist : p'.persist =
    if events.any tellsChanges then (p.persist.trigger now).2 else p.persist

end Pump

/-! ## Ticks -/

namespace Session

/-- A tick lays the overlay anew just if it is due. -/
theorem renewOverlay_cases {s s' : Session τ σ} {now : Nat} {highlighted : Option Nat}
    (h : s.renewOverlay now = .ok (highlighted, s')) :
    ¬ s.pump.highlight.Due now ∧ highlighted = none ∧ s' = s ∨
    s.pump.highlight.Due now ∧ ∃ count editor,
      s.pump.overlay s.editor none = .ok (count, editor) ∧ highlighted = some count ∧
      s' = { s with pump := { s.pump with highlight := s.pump.highlight.cancel }, editor } := by
  unfold renewOverlay at h
  by_cases hdue : s.pump.highlight.Due now
  · rw [Debouncer.poll_of_due hdue] at h
    simp only [↓reduceIte] at h
    obtain ⟨⟨count, editor⟩, hoverlay, hpair⟩ := Checked.bind_eq_ok.mp h
    obtain ⟨rfl, rfl⟩ := Prod.mk.inj (Checked.pure_eq_ok.mp hpair)
    exact .inr ⟨hdue, count, editor, hoverlay, rfl, rfl⟩
  · rw [Debouncer.poll_of_not_due hdue] at h
    obtain ⟨rfl, rfl⟩ := Prod.mk.inj (Checked.pure_eq_ok.mp h)
    exact .inl ⟨hdue, rfl, rfl⟩

variable [Storage σ]

/-- A tick writes the copy just if it is due. -/
theorem renewCopy_cases (s : Session τ σ) (now : Nat) :
    ¬ s.pump.persist.Due now ∧ s.renewCopy now = (false, s) ∨
    s.pump.persist.Due now ∧ s.renewCopy now =
      ((Storage.set s.store sourceKey s.editor.text).2.isNone,
        { s with
          pump := { s.pump with persist := s.pump.persist.cancel }
          store := (Storage.set s.store sourceKey s.editor.text).1 }) := by
  unfold renewCopy
  by_cases hdue : s.pump.persist.Due now
  · rw [Debouncer.poll_of_due hdue]
    exact .inr ⟨hdue, rfl⟩
  · rw [Debouncer.poll_of_not_due hdue]
    exact .inl ⟨hdue, rfl⟩

theorem tick_eq {s s' : Session τ σ} {now : Nat} {renewal : Renewal}
    (h : s.tick now = .ok (renewal, s')) :
    ∃ s₁, s.renewOverlay now = .ok (renewal.highlighted, s₁) ∧
      s₁.renewCopy now = (renewal.persisted, s') := by
  obtain ⟨⟨highlighted, s₁⟩, hoverlay, hpair⟩ := Checked.bind_eq_ok.mp h
  obtain ⟨rfl, rfl⟩ := Prod.mk.inj (Checked.pure_eq_ok.mp hpair)
  exact ⟨s₁, hoverlay, rfl⟩

/-! ## Steps -/

section

variable {s s' : Session τ σ} {answer : Answer}

theorem run_edit_eq {c : Editor.Command} (h : s.run (.edit c) = .ok (answer, s')) :
    ∃ said e, s.editor.run c = .ok (said, e) ∧ answer = .edited said ∧
      s' = { s with editor := e } := by
  obtain ⟨⟨said, e⟩, hedit, hpair⟩ := Checked.bind_eq_ok.mp h
  obtain ⟨rfl, rfl⟩ := Prod.mk.inj (Checked.pure_eq_ok.mp hpair)
  exact ⟨said, e, hedit, rfl, rfl⟩

theorem run_start_eq {start : Nat} (h : s.run (.start start) = .ok (answer, s')) :
    ∃ p e failure, s.pump.start s.editor start = .ok (p, e, failure) ∧
      answer = .ofFailure failure ∧ s' = { s with pump := p, editor := e } := by
  obtain ⟨⟨p, e, failure⟩, hstart, hpair⟩ := Checked.bind_eq_ok.mp h
  obtain ⟨rfl, rfl⟩ := Prod.mk.inj (Checked.pure_eq_ok.mp hpair)
  exact ⟨p, e, failure, hstart, rfl, rfl⟩

theorem run_pump_eq {now : Nat} (h : s.run (.pump now) = .ok (answer, s')) :
    ∃ p e failure, s.pump.pumpEvents s.editor now = .ok (p, e, failure) ∧
      answer = .ofFailure failure ∧ s' = { s with pump := p, editor := e } := by
  obtain ⟨⟨p, e, failure⟩, hpump, hpair⟩ := Checked.bind_eq_ok.mp h
  obtain ⟨rfl, rfl⟩ := Prod.mk.inj (Checked.pure_eq_ok.mp hpair)
  exact ⟨p, e, failure, hpump, rfl, rfl⟩

theorem run_handleChanges_eq {changes : List Change} {now : Nat}
    (h : s.run (.handleChanges changes now) = .ok (answer, s')) :
    ∃ p e failure, s.pump.handleChanges s.editor changes now = .ok (p, e, failure) ∧
      answer = .ofFailure failure ∧ s' = { s with pump := p, editor := e } := by
  obtain ⟨⟨p, e, failure⟩, hhandle, hpair⟩ := Checked.bind_eq_ok.mp h
  obtain ⟨rfl, rfl⟩ := Prod.mk.inj (Checked.pure_eq_ok.mp hpair)
  exact ⟨p, e, failure, hhandle, rfl, rfl⟩

theorem run_tick_eq {now : Nat} (h : s.run (.tick now) = .ok (answer, s')) :
    ∃ renewal, s.tick now = .ok (renewal, s') ∧ answer = .renewed renewal := by
  obtain ⟨⟨renewal, s₁⟩, htick, hpair⟩ := Checked.bind_eq_ok.mp h
  obtain ⟨rfl, rfl⟩ := Prod.mk.inj (Checked.pure_eq_ok.mp hpair)
  exact ⟨renewal, htick, rfl⟩

theorem run_overlay_eq {rows : Option RowRange} (h : s.run (.overlay rows) = .ok (answer, s')) :
    ∃ count e, s.pump.overlay s.editor rows = .ok (count, e) ∧ answer = .marked count ∧
      s' = { s with editor := e } := by
  obtain ⟨⟨count, e⟩, hlay, hpair⟩ := Checked.bind_eq_ok.mp h
  obtain ⟨rfl, rfl⟩ := Prod.mk.inj (Checked.pure_eq_ok.mp hpair)
  exact ⟨count, e, hlay, rfl, rfl⟩

theorem runAll_cons_eq {c : Command} {cs : List Command} {answers : List Answer}
    (h : s.runAll (c :: cs) = .ok (answers, s')) :
    ∃ answer answers₁ s₁, s.run c = .ok (answer, s₁) ∧ s₁.runAll cs = .ok (answers₁, s') ∧
      answers = answer :: answers₁ := by
  obtain ⟨⟨answer, s₁⟩, hrun, hothers⟩ := Checked.bind_eq_ok.mp h
  obtain ⟨⟨answers₁, s₂⟩, hall, hpair⟩ := Checked.bind_eq_ok.mp hothers
  obtain ⟨rfl, rfl⟩ := Prod.mk.inj (Checked.pure_eq_ok.mp hpair)
  exact ⟨answer, answers₁, s₁, hrun, hall, rfl⟩

end

/-! ## Steps that touch no text -/

/-- What a step comes to that touches no text, neither the editor's nor the pump's. -/
structure Quiet (s s' : Session τ σ) : Prop where
  pump : ∃ highlight persist, s'.pump = { s.pump with highlight, persist }
  editor : ∃ marks nextMark operations, s'.editor = { s.editor with marks, nextMark, operations }

/-- Whether a command touches no text. -/
def Command.quiet : Command → Bool
  | .handleViewport _ | .cancel | .tick _ | .overlay _ | .persist => true
  | _ => false

theorem overlay_quiet {p : Pump τ} {e e' : Editor} {rows? : Option RowRange} {n : Nat}
    (hrest : e.AtRest) (h : p.overlay e rows? = .ok (n, e')) :
    ∃ marks nextMark operations, e' = { e with marks, nextMark, operations } := by
  obtain ⟨kept, -, -, rfl⟩ := Highlight.overlay_eq hrest h
  exact ⟨_, _, _, rfl⟩

theorem tick_quiet {s s' : Session τ σ} {now : Nat} {renewal : Renewal}
    (hrest : s.editor.AtRest) (h : s.tick now = .ok (renewal, s')) : s.Quiet s' := by
  obtain ⟨s₁, hoverlay, hcopy⟩ := tick_eq h
  have hfirst : s.Quiet s₁ := by
    rcases renewOverlay_cases hoverlay with ⟨-, -, rfl⟩ | ⟨-, count, editor, hlay, -, rfl⟩
    · exact ⟨⟨_, _, rfl⟩, ⟨_, _, _, rfl⟩⟩
    · exact ⟨⟨_, _, rfl⟩, overlay_quiet hrest hlay⟩
  obtain ⟨⟨highlight, persist, hpump⟩, heditor⟩ := hfirst
  rcases renewCopy_cases s₁ now with ⟨-, hcopy'⟩ | ⟨-, hcopy'⟩
  all_goals
    rw [hcopy'] at hcopy
    obtain ⟨-, rfl⟩ := Prod.mk.inj hcopy
    refine ⟨?_, heditor⟩
    rw [hpump]
    exact ⟨_, _, rfl⟩

theorem run_quiet {c : Command} (hc : c.quiet = true) {s s' : Session τ σ}
    (hrest : s.editor.AtRest) {answer : Answer} (h : s.run c = .ok (answer, s')) :
    s.Quiet s' := by
  cases c with
  | tick now =>
      obtain ⟨renewal, htick, -⟩ := run_tick_eq h
      exact tick_quiet hrest htick
  | overlay rows =>
      obtain ⟨count, e, hlay, -, rfl⟩ := run_overlay_eq h
      exact ⟨⟨_, _, rfl⟩, overlay_quiet hrest hlay⟩
  | handleViewport | cancel | persist =>
      obtain ⟨-, rfl⟩ := Prod.mk.inj (Checked.pure_eq_ok.mp h)
      exact ⟨⟨_, _, rfl⟩, ⟨_, _, _, rfl⟩⟩
  | _ => exact absurd hc (by simp [Command.quiet])

end Session

end Lumen
