import Lumen.Proofs.Pump.Events

/-!
# Failed parses

A reader can refuse any text: it sees the text and the tree that it is to start from, and that tree
can hold whatever is known of the parses before. The main statement is
`failed_parse_commits_nothing`: a start or a batch that fails leaves the session as it was, and
pumping that fails leaves the pump as the events before the failure have made it, so that its tree
is still one of its text.
-/

namespace Lumen

variable {τ σ : Type}

namespace Reader

/-- A reader of comments to which texts of more than some bytes have no tree. -/
def briefComments (limit : Nat) : Reader CommentTree :=
  { comments with
    parse? := fun text base => if text.byteLength ≤ limit then comments.parse? text base else none }

end Reader

namespace Pump

/-- Pumping keeps a pump that is described by its tree so, whether or not it fails. -/
theorem Pumped.described {p p' : Pump τ} {e : Editor} {now : Nat} {events : List Event}
    {failure : Option NoTree} (h : p.Pumped e now events p' failure) (hdescribed : p.Described) :
    p'.Described := by
  cases h with
  | stopped hstopped =>
      obtain ⟨-, before, batch, after, -, hbefore, -⟩ := handleEvents_failed hstopped
      exact (handleEvents_reached hbefore).2.described (.inl hdescribed)
  | replayed hevents _ => exact (handleEvents_reached hevents).2.described (.inl hdescribed)
  | restarted _ _ _ hstart =>
      obtain ⟨-, tree, htree, rfl⟩ := start_eq_ok hstart
      exact (described_advance htree).scheduled now
  | lost hevents _ _ _ => exact (handleEvents_reached hevents).2.described (.inl hdescribed)

end Pump

namespace Session

/-- What is left of a session when a command fails because a text has no tree: after a start or a
batch the session that there was, after pumping the pump that the events before the failure have
led to. What has failed is either a batch or the start with the editor's text that follows when all
events have been handled and have led to another text, and it has left everything as it was. -/
def Spared (s s' : Session τ σ) (failure : NoTree) : Command → Prop
  | .start _ => s' = s ∧ Pump.Refused s.pump.reader (s.editor.text ++ ['\n']) none failure
  | .handleChanges changes _ => s' = s ∧
    ∃ edits source, Change.editAll changes s.pump.source = .ok (edits, source) ∧
      Pump.Refused s.pump.reader (source ++ ['\n']) (s.pump.live.moved s.pump.reader edits) failure
  | .pump now =>
    s'.editor = { s.editor with events := [] } ∧ s'.store = s.store ∧
    (s.pump.Described → s'.pump.Described) ∧
    ((∃ before batch after, s.editor.events = before ++ .changes batch :: after ∧
        s.pump.handleEvents s'.editor now before = .ok (s'.pump, s'.editor, none) ∧
        s'.pump.handleChanges s'.editor batch now = .ok (s'.pump, s'.editor, some failure)) ∨
      (s.pump.handleEvents s'.editor now s.editor.events = .ok (s'.pump, s'.editor, none) ∧
        Event.batches s.editor.events ≠ [] ∧ s'.pump.source ≠ s.editor.text ∧
        s'.pump.start s'.editor now = .ok (s'.pump, s'.editor, some failure)))
  | _ => False

theorem Answer.ofFailure_eq_failed {failure? : Option NoTree} {failure : NoTree}
    (h : .failed failure = ofFailure failure?) : failure? = some failure := by
  cases failure? with
  | none => cases h
  | some failure' => exact congrArg some (failed.inj h).symm

variable [Storage σ]

/-- A parse that fails commits nothing: neither the text nor the tree of the pump, its counts, its
renewals that are to come, the editor with its marks, or the store are touched by a start or a batch
whose text has no tree, and pumping does what the events before the failure do and no more. -/
theorem failed_parse_commits_nothing {s s' : Session τ σ} {c : Command} {failure : NoTree}
    (h : s.run c = .ok (.failed failure, s')) : s.Spared s' failure c := by
  cases c with
  | start now =>
      obtain ⟨p, e, failure', hstart, hanswer, rfl⟩ := run_start_eq h
      obtain rfl := Answer.ofFailure_eq_failed hanswer
      obtain ⟨rfl, rfl, hrefused⟩ := Pump.start_eq_failed hstart
      exact ⟨rfl, hrefused⟩
  | handleChanges changes now =>
      obtain ⟨p, e, failure', hhandle, hanswer, rfl⟩ := run_handleChanges_eq h
      obtain rfl := Answer.ofFailure_eq_failed hanswer
      obtain ⟨rfl, rfl, hrefused⟩ := Pump.handleChanges_eq_failed hhandle
      exact ⟨rfl, hrefused⟩
  | pump now =>
      obtain ⟨p, e, failure', hpump, hanswer, rfl⟩ := run_pump_eq h
      obtain rfl := Answer.ofFailure_eq_failed hanswer
      obtain ⟨rfl, hpumped⟩ := Pump.pumpEvents_cases hpump
      refine ⟨rfl, rfl, hpumped.described, ?_⟩
      -- the failure is that of a batch, or that of the new start after all of them
      cases hpumped with
      | stopped hstopped => exact .inl (Pump.handleEvents_failed hstopped).2
      | lost hevents hchanged hdiverged hstart => exact .inr ⟨hevents, hchanged, hdiverged, hstart⟩
  | edit c =>
      obtain ⟨said, e, -, hanswer, -⟩ := run_edit_eq h
      cases hanswer
  | tick now =>
      obtain ⟨renewal, -, hanswer⟩ := run_tick_eq h
      cases hanswer
  | overlay rows =>
      obtain ⟨count, e, -, hanswer, -⟩ := run_overlay_eq h
      cases hanswer
  | handleViewport | cancel | persist => cases Checked.pure_eq_ok.mp h

/-- Whether a command fails and leaves a session that passes a test. -/
def failsTo (s : Session τ σ) (c : Command) (test : Session τ σ → Bool) : Bool :=
  match s.run c with
  | .ok (.failed _, s') => test s'
  | _ => false

theorem exists_failed {s : Session τ σ} {c : Command} {test : Session τ σ → Bool}
    (h : s.failsTo c test = true) :
    ∃ failure s', s.run c = .ok (.failed failure, s') ∧ test s' = true := by
  rw [failsTo] at h
  split at h
  · next failure s' hrun => exact ⟨failure, s', hrun, h⟩
  · cases h

/-- Of three batches the second leads to a text without a tree. The third is lost with it, so that
after one more edit the changes do not lead to the editor's text, which has no tree either. A start
and a batch fail in between. -/
theorem failed_parse_commits_nothing_of_comments :
    let s₀ : Session CommentTree MemoryStore :=
      ⟨.create (.briefComments 12) .default 150 400, .ofText "// é".toList 2, {}⟩
    let cs : List Command :=
      [.start 0, .edit (.append ['x', '\n']), .edit (.scrollTo 1), .edit (.append "// long".toList),
        .edit (.append ['y'])]
    let foreign := Change.ofTexts ⟨0, 0⟩ ⟨0, 0⟩ "// foreign\n".toList []
    ∃ answers s failure s₁, s₀.runAll cs = .ok (answers, s) ∧
      s.run (.pump 10) = .ok (.failed failure, s₁) ∧ s.Spared s₁ failure (.pump 10) ∧
      s₁.pump.parses = 2 ∧
      (∃ failure s', s₁.run (.start 20) = .ok (.failed failure, s') ∧
        s₁.Spared s' failure (.start 20)) ∧
      (∃ failure s', s₁.run (.handleChanges [foreign] 30) = .ok (.failed failure, s') ∧
        s₁.Spared s' failure (.handleChanges [foreign] 30)) ∧
      ∃ answer s₂ failure s₃, s₁.run (.edit (.insert ⟨0, 0⟩ ['/'])) = .ok (answer, s₂) ∧
        s₂.run (.pump 40) = .ok (.failed failure, s₃) ∧ s₂.Spared s₃ failure (.pump 40) ∧
        s₃.pump.parses = 3 := by
  intro s₀ cs foreign
  obtain ⟨⟨answers, s⟩, hrun, hstopped⟩ := Checked.exists_ok (s₀.runAll cs)
    (fun (_, s) => s.failsTo (.pump 10) fun s₁ =>
      decide (s₁.pump.parses = 2) && s₁.failsTo (.start 20) (fun _ => true) &&
        s₁.failsTo (.handleChanges [foreign] 30) (fun _ => true) &&
        ((s₁.run (.edit (.insert ⟨0, 0⟩ ['/']))).map fun (_, s₂) =>
          s₂.failsTo (.pump 40) fun s₃ => s₃.pump.parses = 3).toOption = some true)
    (by decide +kernel)
  -- the two texts before the long comment are parsed, and all that is tried from there fails
  obtain ⟨failure, s₁, hpump, htest⟩ := exists_failed hstopped
  simp only [Bool.and_eq_true, decide_eq_true_eq] at htest
  obtain ⟨⟨⟨hparses, hstarts⟩, hhandles⟩, hedits⟩ := htest
  obtain ⟨failure₁, s₁', hstart, -⟩ := exists_failed hstarts
  obtain ⟨failure₂, s₁'', hhandle, -⟩ := exists_failed hhandles
  obtain ⟨⟨answer, s₂⟩, hedit, hlost⟩ := Checked.exists_ok _ _ hedits
  obtain ⟨failure₃, s₃, hpump₃, hparses₃⟩ := exists_failed hlost
  exact ⟨answers, s, failure, s₁, hrun, hpump, failed_parse_commits_nothing hpump, hparses,
    ⟨failure₁, s₁', hstart, failed_parse_commits_nothing hstart⟩,
    ⟨failure₂, s₁'', hhandle, failed_parse_commits_nothing hhandle⟩, answer, s₂, failure₃, s₃,
    hedit, hpump₃, failed_parse_commits_nothing hpump₃, of_decide_eq_true hparses₃⟩

end Session

end Lumen
