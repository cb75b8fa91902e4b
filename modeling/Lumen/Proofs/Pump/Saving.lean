import Lumen.Proofs.Pump.Follow
import Lumen.Proofs.Pump.Pace
import Lumen.Proofs.Store.Laws

/-!
# Saving the text

The stored copy of an editor's text is written by ticks. All that matters to it is the text, how
many batches of changes wait, the timer of the copy and the store: a session does with these what a
`Saver` does, which knows of nothing else (`Ready.step`). The log of what a saver does is paced, and
its timer is what the last deed makes of it (`Saver.Kept`). The main statement is
`copy_saved_by_ticks`: no change of the text is lost to the copy, the writes of a run keep their
pace, and moves of the rows that can be seen and renewals of the overlay make no difference to
them.
-/

namespace Lumen

variable {τ σ : Type}

/-! ## Savers -/

namespace Deed

/-- The store after a deed. -/
def keep [Storage σ] (store : σ) : Deed → σ
  | .handled _ => store
  | .wrote _ text => (Storage.set store sourceKey text).1

/-- When the copy is to be written after some deeds, if it is. -/
def deadline (delay : Nat) (log : List Deed) : Option Nat :=
  (log.getLast?.bind handled?).map (· + delay)

theorem deadline_eq_some {delay deadline' : Nat} {log : List Deed} :
    deadline delay log = some deadline' ↔
      ∃ h, log.getLast? = some (.handled h) ∧ h + delay = deadline' := by
  rw [deadline]
  cases hlast : log.getLast? with
  | none => simp
  | some d =>
      cases d with
      | handled h => simp [handled?]
      | wrote now text => simp [handled?]

/-- Nothing that is handled touches the store. -/
theorem foldl_keep_replicate [Storage σ] (store : σ) (n now : Nat) :
    (List.replicate n (.handled now)).foldl keep store = store := by
  induction n with
  | zero => rfl
  | succ n ih => exact ih

end Deed

namespace Session.Command

/-- The time of a command. -/
def time? : Command → Option Nat
  | .start now | .pump now | .handleChanges _ now | .handleViewport now | .tick now => some now
  | .edit _ | .cancel | .overlay _ | .persist => none

/-- Whether a command can come after a start if nothing but ticks is to write the copy, and no
renewal is to be given up. -/
def savesByTicks : Command → Bool
  | .edit c => c.every Editor.Command.leavesEvents
  | .pump _ | .handleViewport _ | .tick _ | .overlay _ => true
  | _ => false

end Session.Command

/-- What there is in a session that matters to the stored copy. -/
structure Saver (σ : Type) where
  text : Text
  /-- The number of batches that wait to be handled. -/
  waiting : Nat
  timer : Debouncer .trailing
  store : σ

namespace Saver

variable [Storage σ]

/-- What a command does that matters to the stored copy. -/
def run (v : Saver σ) : Session.Command → List Deed × Saver σ
  | .edit c =>
    ([], { v with
      text := Splice.outcome v.text (c.splices v.text)
      waiting := if c.splices v.text = [] then v.waiting else v.waiting + 1 })
  | .start now => ([.handled now], { v with timer := (v.timer.trigger now).2 })
  | .pump now =>
    (List.replicate v.waiting (.handled now),
      { v with waiting := 0, timer := if v.waiting = 0 then v.timer else (v.timer.trigger now).2 })
  | .tick now =>
    if (v.timer.poll now).1 then
      ([.wrote now v.text],
        { v with timer := v.timer.cancel, store := (Storage.set v.store sourceKey v.text).1 })
    else ([], v)
  | _ => ([], v)

/-- What commands that follow one another do that matters to the stored copy. -/
def runAll (v : Saver σ) : List Session.Command → List Deed × Saver σ
  | [] => ([], v)
  | c :: cs => ((v.run c).1 ++ ((v.run c).2.runAll cs).1, ((v.run c).2.runAll cs).2)

theorem runAll_append (v : Saver σ) (cs ds : List Session.Command) :
    v.runAll (cs ++ ds) =
      ((v.runAll cs).1 ++ ((v.runAll cs).2.runAll ds).1, ((v.runAll cs).2.runAll ds).2) := by
  induction cs generalizing v with
  | nil => rfl
  | cons c cs ih =>
      rw [List.cons_append, runAll, runAll, ih]
      simp only
      rw [List.append_assoc]

/-- What is done in a command is done at its time. -/
theorem time_of_mem {v : Saver σ} {c : Session.Command} {d : Deed} (h : d ∈ (v.run c).1) :
    c.time? = some d.time := by
  cases c with
  | start now =>
      obtain rfl := List.mem_singleton.mp h
      rfl
  | pump now =>
      obtain rfl := List.eq_of_mem_replicate h
      rfl
  | tick now =>
      rw [run] at h
      split at h
      · obtain rfl := List.mem_singleton.mp h
        rfl
      · cases h
  | _ => cases h

theorem run_tick_of_due {v : Saver σ} {now : Nat} (h : v.timer.Due now) :
    v.run (.tick now) = ([.wrote now v.text],
      { v with
        timer := v.timer.cancel
        store := (Storage.set v.store sourceKey v.text).1 }) := by
  rw [run, Debouncer.poll_of_due h]
  rfl

theorem run_tick_of_not_due {v : Saver σ} {now : Nat} (h : ¬ v.timer.Due now) :
    v.run (.tick now) = ([], v) := by
  rw [run, Debouncer.poll_of_not_due h]
  rfl

/-- A saver that has done what a log tells: the log is paced, its last deed has set the timer, and
where nothing is going to be saved, all is. -/
structure Kept (v : Saver σ) (delay : Nat) (store : σ) (log : List Deed) : Prop where
  delay_eq : v.timer.delay = delay
  paced : Paced delay log
  timer_eq : v.timer.deadline = Deed.deadline delay log
  copy : v.timer.deadline = none → v.waiting = 0 → Storage.get? v.store sourceKey = some v.text
  store_eq : v.store = log.foldl Deed.keep store

namespace Kept

variable {v : Saver σ} {delay : Nat} {store : σ} {log : List Deed}

/-- The copy is due once the delay has passed after what was handled last. -/
theorem due (h : v.Kept delay store log) {last now : Nat}
    (hlast : log.getLast? = some (.handled last)) (hle : last + delay ≤ now) :
    v.timer.Due now := by
  have hdeadline : Deed.deadline delay log = some (last + delay) :=
    Deed.deadline_eq_some.mpr ⟨last, hlast, rfl⟩
  exact ⟨_, h.timer_eq.trans hdeadline, hle⟩

theorem edit (h : v.Kept delay store log) (c : Editor.Command) :
    (v.run (.edit c)).2.Kept delay store (log ++ (v.run (.edit c)).1) := by
  have hlog : log ++ (v.run (.edit c)).1 = log := List.append_nil log
  rw [hlog]
  refine ⟨h.delay_eq, h.paced, h.timer_eq, ?_, h.store_eq⟩
  intro hidle hnone
  simp only [run] at hidle hnone ⊢
  -- an edit that makes splices has its batch wait
  split at hnone
  · next hsplices =>
      rw [hsplices]
      exact h.copy hidle hnone
  · cases hnone

/-- What is handled sets the timer to the delay after it. -/
theorem pump (h : v.Kept delay store log) {now : Nat} (hlater : ∀ d ∈ log, d.time ≤ now) :
    (v.run (.pump now)).2.Kept delay store (log ++ (v.run (.pump now)).1) := by
  by_cases hnone : v.waiting = 0
  · have hrun : v.run (.pump now) = ([], v) := by
      obtain ⟨text, waiting, timer, store⟩ := v
      simp only at hnone
      simp [run, hnone]
    rw [hrun, List.append_nil]
    exact h
  · have hrun : v.run (.pump now) = (List.replicate v.waiting (.handled now),
        { v with waiting := 0, timer := (v.timer.trigger now).2 }) := by
      rw [run, if_neg hnone]
    rw [hrun]
    refine ⟨h.delay_eq, ?_, ?_, ?_, ?_⟩
    -- batches that are handled at one time follow one another in the log
    · refine h.paced.append ?_ ?_ ?_ ?_
      · exact List.pairwise_replicate.mpr (.inr (Nat.le_refl _))
      · intro d hd d' hd'
        obtain rfl := List.eq_of_mem_replicate hd'
        exact hlater d hd
      · exact List.isChain_replicate_of_rel _ (.inl rfl)
      · intro d _ d' hd'
        obtain rfl := List.eq_of_mem_replicate (List.mem_of_mem_head? hd')
        exact .inl rfl
    · have hlast : (log ++ List.replicate v.waiting (Deed.handled now)).getLast? =
          some (.handled now) := by
        rw [List.getLast?_append, List.getLast?_replicate, if_neg hnone]
        rfl
      show some (now + v.timer.delay) = _
      rw [Deed.deadline, hlast, h.delay_eq]
      rfl
    · intro hidle
      cases hidle
    · rw [List.foldl_append, Deed.foldl_keep_replicate]
      exact h.store_eq

/-- What is due is written, the delay after what was handled last. -/
theorem tick [LawfulStorage σ] (h : v.Kept delay store log) {now : Nat}
    (hlater : ∀ d ∈ log, d.time ≤ now) :
    (v.run (.tick now)).2.Kept delay store (log ++ (v.run (.tick now)).1) := by
  by_cases hdue : v.timer.Due now
  · rw [run_tick_of_due hdue]
    obtain ⟨deadline, hdeadline, hle⟩ := hdue
    obtain ⟨last, hlast, hsum⟩ := Deed.deadline_eq_some.mp (h.timer_eq.symm.trans hdeadline)
    refine ⟨h.delay_eq, ?_, ?_, ?_, ?_⟩
    -- the write is due, so the last thing handled was the delay ago
    · refine h.paced.append (List.pairwise_singleton _ _) ?_ (.singleton _) ?_
      · intro d hd d' hd'
        obtain rfl := List.mem_singleton.mp hd'
        exact hlater d hd
      · intro d hd d' hd'
        obtain rfl := Option.some.inj hd'
        obtain rfl := Option.some.inj (hlast.symm.trans hd)
        exact .inr ⟨last, rfl, hsum ▸ hle⟩
    · rw [Deed.deadline, List.getLast?_concat]
      rfl
    · intro _ _
      exact LawfulStorage.get?_set v.store sourceKey v.text
    · rw [List.foldl_append, ← h.store_eq]
      rfl
  · rw [run_tick_of_not_due hdue, List.append_nil]
    exact h

theorem step [LawfulStorage σ] (h : v.Kept delay store log) {c : Session.Command}
    (hc : c.savesByTicks = true) (hlater : ∀ d ∈ log, ∀ now ∈ c.time?, d.time ≤ now) :
    (v.run c).2.Kept delay store (log ++ (v.run c).1) := by
  cases c with
  | edit c => exact h.edit c
  | pump now => exact h.pump fun d hd => hlater d hd now rfl
  | tick now => exact h.tick fun d hd => hlater d hd now rfl
  | handleViewport | overlay =>
      show v.Kept delay store (log ++ [])
      rw [List.append_nil]
      exact h
  | _ => exact absurd hc (by simp [Session.Command.savesByTicks])

/-- In a run at times that never go back, a saver keeps doing what its log tells. -/
theorem run [LawfulStorage σ] (h : v.Kept delay store log) {cs : List Session.Command}
    (hcs : ∀ c ∈ cs, c.savesByTicks = true)
    (htimes : (cs.filterMap Session.Command.time?).Pairwise (· ≤ ·))
    (hlater : ∀ d ∈ log, ∀ now ∈ cs.filterMap Session.Command.time?, d.time ≤ now) :
    (v.runAll cs).2.Kept delay store (log ++ (v.runAll cs).1) := by
  induction cs generalizing v log with
  | nil =>
      rw [runAll, List.append_nil]
      exact h
  | cons c cs ih =>
      have hsplit : (c :: cs).filterMap Session.Command.time? =
          c.time?.toList ++ cs.filterMap Session.Command.time? := by
        rw [List.filterMap_cons]
        cases c.time? with
        | none => rfl
        | some now => rfl
      rw [hsplit] at htimes hlater
      -- the log grows by what the first command does, and its times go on being the latest
      obtain ⟨-, htimes₁, hbetween⟩ := List.pairwise_append.mp htimes
      have hfirst : (v.run c).2.Kept delay store (log ++ (v.run c).1) := by
        refine h.step (hcs c List.mem_cons_self) ?_
        intro d hd now hnow
        exact hlater d hd now (List.mem_append_left _ (Option.mem_toList.mpr hnow))
      have hothers := ih hfirst (fun c' hc' => hcs c' (List.mem_cons_of_mem c hc')) htimes₁ ?_
      · rw [runAll, ← List.append_assoc]
        exact hothers
      · intro d hd now hnow
        rcases List.mem_append.mp hd with hd | hd
        · exact hlater d hd now (List.mem_append_right _ hnow)
        · -- what the first command did was done at its time
          have htime := time_of_mem hd
          exact hbetween d.time (Option.mem_toList.mpr htime) now hnow

end Kept

end Saver

/-! ## Views -/

namespace Editor.Command

mutual
/-- What is left of a command when nothing moves the rows that can be seen. -/
def withoutRows : Command → List Command
  | .scrollTo _ | .resize _ => []
  | .operation commands => [.operation (withoutRowsIn commands)]
  | c => [c]
/-- What is left of commands when nothing moves the rows that can be seen. -/
def withoutRowsIn : List Command → List Command
  | [] => []
  | c :: cs => withoutRows c ++ withoutRowsIn cs
end

mutual
theorem splicesIn_withoutRows (t : Text) (c : Command) :
    splicesIn t (withoutRows c) = splices t c := by
  cases c with
  | operation commands =>
      rw [withoutRows, splices, ← splicesIn_withoutRowsIn t commands]
      exact List.append_nil _
  | scrollTo | resize => rfl
  | _ => exact List.append_nil _
theorem splicesIn_withoutRowsIn (t : Text) (cs : List Command) :
    splicesIn t (withoutRowsIn cs) = splicesIn t cs := by
  cases cs with
  | nil => rfl
  | cons c cs =>
      rw [withoutRowsIn, splicesIn_append, splicesIn_withoutRows, splicesIn,
        splicesIn_withoutRowsIn _ cs]
end

/-- There is nothing left of a command, or one command that makes the same splices. -/
theorem withoutRows_cases (c : Command) :
    (withoutRows c = [] ∧ ∀ t, splices t c = []) ∨
      ∃ c', withoutRows c = [c'] ∧ ∀ t, splices t c' = splices t c := by
  cases c with
  | operation commands =>
      refine .inr ⟨_, rfl, ?_⟩
      intro t
      rw [splices, splices, splicesIn_withoutRowsIn]
  | scrollTo | resize => exact .inl ⟨rfl, fun _ => rfl⟩
  | _ => exact .inr ⟨_, rfl, fun _ => rfl⟩

end Editor.Command

namespace Session.Command

/-- What is left of a command when the rows that can be seen and the overlay are left alone. -/
def withoutView : Command → List Command
  | .edit c => c.withoutRows.map .edit
  | .handleViewport _ | .overlay _ => []
  | c => [c]

end Session.Command

namespace Saver

variable [Storage σ]

/-- What is left out for the view makes no difference to a saver. -/
theorem runAll_withoutView (v : Saver σ) (c : Session.Command) :
    v.runAll c.withoutView = v.run c := by
  have hone : ∀ c : Session.Command, v.runAll [c] = v.run c := by
    intro c
    rw [runAll, runAll, List.append_nil]
  cases c with
  | edit c =>
      rw [Session.Command.withoutView]
      rcases c.withoutRows_cases with ⟨hnone, hsplices⟩ | ⟨c', hc', hsplices⟩
      · rw [hnone, run, hsplices]
        rfl
      · rw [hc', List.map_singleton, hone, run, run, hsplices]
  | handleViewport | overlay => rfl
  | _ => exact hone _

theorem runAll_withoutViews (v : Saver σ) (cs : List Session.Command) :
    v.runAll (cs.flatMap Session.Command.withoutView) = v.runAll cs := by
  induction cs generalizing v with
  | nil => rfl
  | cons c cs ih => rw [List.flatMap_cons, runAll_append, runAll_withoutView, ih, runAll]

end Saver

/-! ## Sessions -/

namespace Session

/-- Whether an answer is that of a tick that has written the copy. -/
def Answer.persisted : Answer → Bool
  | .renewed renewal => renewal.persisted
  | _ => false

/-- What is done in a command that matters to the stored copy, by the answer to it. -/
def deedsBy (s : Session τ σ) (answer : Answer) : Command → List Deed
  | .start now => [.handled now]
  | .pump now => (Event.batches s.editor.events).map fun _ => .handled now
  | .tick now => if answer.persisted then [.wrote now s.editor.text] else []
  | _ => []

/-- What there is in a session that matters to the stored copy. -/
def saver (s : Session τ σ) : Saver σ where
  text := s.editor.text
  waiting := (Event.batches s.editor.events).length
  timer := s.pump.persist
  store := s.store

variable [Storage σ]

/-- What is done in commands that follow one another and matters to the stored copy. -/
def deeds (s : Session τ σ) : List Command → List Deed
  | [] => []
  | c :: cs =>
    match s.run c with
    | .error _ => []
    | .ok (answer, s') => s.deedsBy answer c ++ s'.deeds cs

/-- A session outside of operations in which every text has a tree and can be written. -/
structure Ready (s : Session τ σ) : Prop where
  atRest : s.editor.AtRest
  total : s.pump.reader.Total
  writable : Storage.Writable s.store

namespace Ready

variable {s s' : Session τ σ}

theorem edit (h : s.Ready) {c : Editor.Command}
    (hc : c.every Editor.Command.leavesEvents = true) {answer : Answer}
    (hrun : s.run (.edit c) = .ok (answer, s')) :
    s.saver.run (.edit c) = (s.deedsBy answer (.edit c), s'.saver) ∧ s'.Ready := by
  obtain ⟨said, e, hedit, -, rfl⟩ := run_edit_eq hrun
  obtain ⟨htext, hrest, hbatches, -⟩ := Editor.run_batches hc h.atRest hedit
  refine ⟨?_, hrest, h.total, h.writable⟩
  have hwaiting : (Event.batches e.events).length =
      if c.splices s.editor.text = [] then (Event.batches s.editor.events).length
      else (Event.batches s.editor.events).length + 1 := by
    rw [hbatches, List.length_append, List.length_map, Editor.Command.batches]
    split
    · rfl
    · rfl
  rw [saver, Saver.run, saver, htext, hwaiting]
  rfl

theorem pump (h : s.Ready) {now : Nat} {answer : Answer}
    (hrun : s.run (.pump now) = .ok (answer, s')) :
    s.saver.run (.pump now) = (s.deedsBy answer (.pump now), s'.saver) ∧ s'.Ready := by
  obtain ⟨p, e, failure, hpump, -, rfl⟩ := run_pump_eq hrun
  obtain ⟨-, rfl, hput⟩ := Pump.pumpEvents_total h.total hpump
  refine ⟨?_, ⟨h.atRest.depth, h.atRest.pending⟩, hput.reader ▸ h.total, h.writable⟩
  have htimer : p.persist = if (Event.batches s.editor.events).length = 0 then s.pump.persist
      else (s.pump.persist.trigger now).2 := by
    rw [hput.persist]
    by_cases hnone : (Event.batches s.editor.events).length = 0
    · rw [if_pos hnone, if_neg]
      exact fun htells => (Pump.any_tellsChanges _).mp htells hnone
    · rw [if_neg hnone, if_pos ((Pump.any_tellsChanges _).mpr hnone)]
  rw [saver, Saver.run, saver, deedsBy, List.map_const', htimer]
  rfl

theorem tick (h : s.Ready) {now : Nat} {answer : Answer}
    (hrun : s.run (.tick now) = .ok (answer, s')) :
    s.saver.run (.tick now) = (s.deedsBy answer (.tick now), s'.saver) ∧ s'.Ready := by
  obtain ⟨renewal, htick, rfl⟩ := run_tick_eq hrun
  obtain ⟨s₁, hoverlay, hcopy⟩ := tick_eq htick
  -- the overlay comes first and is nothing to the saver
  have hfirst : s₁.saver = s.saver ∧ s₁.Ready := by
    rcases renewOverlay_cases hoverlay with ⟨-, -, rfl⟩ | ⟨-, count, e, hlay, -, rfl⟩
    · exact ⟨rfl, h⟩
    · obtain ⟨kept, -, -, rfl⟩ := Highlight.overlay_eq h.atRest hlay
      exact ⟨rfl, ⟨h.atRest.depth, h.atRest.pending⟩, h.total, h.writable⟩
  obtain ⟨hsame, hready⟩ := hfirst
  have htext : s.editor.text = s₁.editor.text := congrArg Saver.text hsame.symm
  rw [← hsame, deedsBy, Answer.persisted, htext]
  rcases renewCopy_cases s₁ now with ⟨hidle, hcopy'⟩ | ⟨hdue, hcopy'⟩
  · rw [hcopy'] at hcopy
    obtain ⟨hpersisted, rfl⟩ := Prod.mk.inj hcopy
    refine ⟨?_, hready⟩
    rw [← hpersisted, Saver.run_tick_of_not_due hidle]
    rfl
  · rw [hcopy', hready.writable.set_eq_none] at hcopy
    obtain ⟨hpersisted, rfl⟩ := Prod.mk.inj hcopy
    refine ⟨?_, hready.atRest, hready.total, hready.writable.set _⟩
    rw [← hpersisted, Saver.run_tick_of_due hdue]
    rfl

/-- A session does what its saver does. -/
theorem step (h : s.Ready) {c : Command} (hc : c.savesByTicks = true) {answer : Answer}
    (hrun : s.run c = .ok (answer, s')) :
    s.saver.run c = (s.deedsBy answer c, s'.saver) ∧ s'.Ready := by
  cases c with
  | edit c => exact h.edit hc hrun
  | pump now => exact h.pump hrun
  | tick now => exact h.tick hrun
  | handleViewport now =>
      obtain ⟨-, rfl⟩ := Prod.mk.inj (Checked.pure_eq_ok.mp hrun)
      exact ⟨rfl, h.atRest, h.total, h.writable⟩
  | overlay rows =>
      obtain ⟨count, e, hlay, -, rfl⟩ := run_overlay_eq hrun
      obtain ⟨kept, -, -, rfl⟩ := Highlight.overlay_eq h.atRest hlay
      exact ⟨rfl, ⟨h.atRest.depth, h.atRest.pending⟩, h.total, h.writable⟩
  | _ => exact absurd hc (by simp [Command.savesByTicks])

theorem run (h : s.Ready) {cs : List Command} (hcs : ∀ c ∈ cs, c.savesByTicks = true)
    {answers : List Answer} (hrun : s.runAll cs = .ok (answers, s')) :
    s.saver.runAll cs = (s.deeds cs, s'.saver) ∧ s'.Ready := by
  induction cs generalizing s answers with
  | nil =>
      obtain ⟨-, rfl⟩ := Prod.mk.inj (Checked.pure_eq_ok.mp hrun)
      exact ⟨rfl, h⟩
  | cons c cs ih =>
      obtain ⟨answer, answers₁, s₁, hfirst, hall, -⟩ := runAll_cons_eq hrun
      obtain ⟨hstep, hready⟩ := h.step (hcs c List.mem_cons_self) hfirst
      obtain ⟨hrest, hready'⟩ := ih hready (fun d hd => hcs d (List.mem_cons_of_mem c hd)) hall
      rw [Saver.runAll, hstep, deeds, hfirst]
      simp only
      rw [hrest]
      exact ⟨rfl, hready'⟩

end Ready

/-! ## Runs from a start -/

variable {s₀ s : Session τ σ} {r : Reader τ}

/-- A start sets the timer of the copy. -/
theorem Unstarted.saver_start (h : s₀.Unstarted r) (htotal : r.Total)
    (hwritable : Storage.Writable s₀.store) {start : Nat} {answer : Answer}
    (hrun : s₀.run (.start start) = .ok (answer, s)) :
    s₀.saver.run (.start start) = (s₀.deedsBy answer (.start start), s.saver) ∧ s.Ready := by
  obtain ⟨palette, highlightDelay, persistDelay, hpump⟩ := h.pump
  have hreader : s₀.pump.reader = r := by
    rw [hpump]
    rfl
  obtain ⟨p, e, failure, hstart, rfl, rfl⟩ := run_start_eq hrun
  obtain ⟨rfl, rfl, p, rfl, hsame⟩ := Pump.start_total (hreader ▸ htotal) hstart
  refine ⟨?_, h.atRest, ?_, hwritable⟩
  · rw [saver, Saver.run, saver, deedsBy]
    simp only [Pump.scheduled, hsame.persist]
  · show p.reader.Total
    rw [hsame.reader, hreader]
    exact htotal

/-- What a run from a start comes to for its saver: the session does what the saver does, and the
saver has done what the log tells. -/
theorem Unstarted.saver_run [LawfulStorage σ] (h : s₀.Unstarted r) (htotal : r.Total)
    (hwritable : Storage.Writable s₀.store) {start : Nat} {cs : List Command}
    (hcs : ∀ c ∈ cs, c.savesByTicks = true) {answers : List Answer}
    (hrun : s₀.runAll (.start start :: cs) = .ok (answers, s)) :
    s₀.saver.runAll (.start start :: cs) = (s₀.deeds (.start start :: cs), s.saver) ∧ s.Ready ∧
      (((.start start :: cs).filterMap Command.time?).Pairwise (· ≤ ·) →
        s.saver.Kept s₀.pump.persist.delay s₀.store (s₀.deeds (.start start :: cs))) := by
  obtain ⟨answer, answers₁, s₁, hfirst, hall, -⟩ := runAll_cons_eq hrun
  obtain ⟨hstart, hready⟩ := h.saver_start htotal hwritable hfirst
  obtain ⟨hrest, hready'⟩ := hready.run hcs hall
  -- the log begins with the start, from which on the saver keeps the pace
  have hdeeds : s₀.deeds (.start start :: cs) = .handled start :: s₁.deeds cs := by
    rw [deeds, hfirst]
    rfl
  have hrun' : s₀.saver.runAll (.start start :: cs) =
      (s₀.deeds (.start start :: cs), s.saver) := by
    rw [Saver.runAll, hstart, hrest, hdeeds]
    rfl
  refine ⟨hrun', hready', ?_⟩
  intro htimes
  obtain ⟨hlater, htimes₁⟩ := List.pairwise_cons.mp htimes
  -- after the start a write is to come, so nothing is said of the copy yet
  have hkept : s₁.saver.Kept s₀.pump.persist.delay s₀.store [.handled start] := by
    have hsaver : s₁.saver = { s₀.saver with timer := (s₀.saver.timer.trigger start).2 } :=
      (congrArg Prod.snd hstart).symm
    rw [hsaver]
    refine ⟨rfl, .singleton _ _, rfl, ?_, rfl⟩
    intro hidle
    cases hidle
  have hall' := hkept.run hcs htimes₁ (by
    intro d hd now hnow
    obtain rfl := List.mem_singleton.mp hd
    exact hlater now hnow)
  rw [hrest] at hall'
  rw [hdeeds]
  exact hall'

/-- How the copy is kept in a run that has led from one session to another and has done what a log
tells. -/
structure Saves (s₀ s : Session τ σ) (log : List Deed) : Prop where
  /-- Where no batch waits and no write is to come, the copy is the text. -/
  copy : Event.batches s.editor.events = [] → s.pump.persist.pending = false →
    Storage.get? s.store sourceKey = some s.editor.text
  /-- The store has been changed by the writes that the log tells of and by nothing else. -/
  store : s.store = log.foldl Deed.keep s₀.store
  /-- A write comes after everything handled before it by the delay at least. -/
  late : ∀ before now text after handled, log = before ++ .wrote now text :: after →
    .handled handled ∈ before → handled + s₀.pump.persist.delay ≤ now
  /-- Between two writes something is handled. -/
  needed : ∀ before now text between now' text' after,
    log = before ++ .wrote now text :: (between ++ .wrote now' text' :: after) →
    ∃ handled, .handled handled ∈ between
  /-- In a burst, in which each thing that is handled comes less than the delay after the one before
  it, nothing is written, and the first tick that comes after it by the delay at least writes the
  text it finds. -/
  burst : ∀ before burst first last, log = before ++ burst →
    burst.head? = some (.handled first) → burst.getLast? = some (.handled last) →
    ((burst.filterMap Deed.handled?).IsChain fun now now' =>
      now' < now + s₀.pump.persist.delay) →
    burst.filterMap Deed.wrote? = [] ∧
      ∀ now answer s', last + s₀.pump.persist.delay ≤ now →
        s.run (.tick now) = .ok (answer, s') →
        s.deedsBy answer (.tick now) = [.wrote now s.editor.text] ∧
          Storage.get? s'.store sourceKey = some s.editor.text

/-- In a run from a start at times that never go back, with a store that can be written, no change
of the text is lost to the copy, and the writes keep their pace. Another run with the same edits,
pumps and ticks does the same at the same times, whatever else has become of the rows that can be
seen and of the overlay. -/
theorem copy_saved_by_ticks [LawfulStorage σ] (h : s₀.Unstarted r) (htotal : r.Total)
    (hwritable : Storage.Writable s₀.store) {start : Nat} {cs : List Command}
    (hcs : ∀ c ∈ cs, c.savesByTicks = true)
    (htimes : ((.start start :: cs).filterMap Command.time?).Pairwise (· ≤ ·))
    {answers : List Answer} (hrun : s₀.runAll (.start start :: cs) = .ok (answers, s)) :
    s₀.Saves s (s₀.deeds (.start start :: cs)) ∧
      ∀ (s₀' s' : Session τ σ) (cs' : List Command) (answers' : List Answer),
        s₀'.Unstarted r → s₀'.saver = s₀.saver → (∀ c ∈ cs', c.savesByTicks = true) →
        cs'.flatMap Command.withoutView = cs.flatMap Command.withoutView →
        s₀'.runAll (.start start :: cs') = .ok (answers', s') →
        s₀'.deeds (.start start :: cs') = s₀.deeds (.start start :: cs) ∧ s'.saver = s.saver := by
  obtain ⟨hsaver, hready, hpaced⟩ := h.saver_run htotal hwritable hcs hrun
  have hkept := hpaced htimes
  refine ⟨⟨?_, hkept.store_eq, ?_, ?_, ?_⟩, ?_⟩
  · intro hnone hidle
    refine hkept.copy ?_ (congrArg List.length hnone)
    -- with no write to come there is no deadline, and then the saver has the text
    cases hdeadline : s.pump.persist.deadline with
    | none => exact hdeadline
    | some deadline =>
        rw [Debouncer.pending, hdeadline] at hidle
        cases hidle
  · intro before now text after handled hlog hmem
    exact (hlog ▸ hkept.paced).late hmem
  · intro before now text between now' text' after hlog
    exact (hlog ▸ hkept.paced).needed
  · intro before burst first last hlog hfirst hlast hgaps
    have hpaced' : Paced s₀.pump.persist.delay (before ++ burst ++ []) := by
      rw [List.append_nil, ← hlog]
      exact hkept.paced
    refine ⟨hpaced'.burst hfirst hlast hgaps, ?_⟩
    intro now answer s' hlate htick
    -- the burst is the end of the log, so its last time is that of the deadline
    have hlast' : (s₀.deeds (.start start :: cs)).getLast? = some (.handled last) := by
      rw [hlog, List.getLast?_append, hlast]
      rfl
    obtain ⟨hdone, -⟩ := hready.tick htick
    rw [Saver.run_tick_of_due (hkept.due hlast' hlate)] at hdone
    obtain ⟨hdeeds, hsaver'⟩ := Prod.mk.inj hdone
    refine ⟨hdeeds.symm, ?_⟩
    have hstore : s'.store = (Storage.set s.store sourceKey s.editor.text).1 :=
      (congrArg Saver.store hsaver').symm
    rw [hstore]
    exact LawfulStorage.get?_set s.store sourceKey s.editor.text
  · intro s₀' s' cs' answers' h' hsame hcs' hviews hrun'
    have hstore : s₀'.store = s₀.store := congrArg Saver.store hsame
    obtain ⟨hsaver', -, -⟩ := h'.saver_run htotal (hstore ▸ hwritable) hcs' hrun'
    have hviews' : (.start start :: cs').flatMap Command.withoutView =
        (.start start :: cs).flatMap Command.withoutView := by
      rw [List.flatMap_cons, List.flatMap_cons, hviews]
    -- without what is for the view, one saver does the same twice
    rw [← Saver.runAll_withoutViews, hviews', Saver.runAll_withoutViews, hsame, hsaver] at hsaver'
    obtain ⟨hdeeds, hsaver''⟩ := Prod.mk.inj hsaver'
    exact ⟨hdeeds.symm, hsaver''.symm⟩

/-- A burst of two batches gives one write, which holds an edit that waits as well; so that edit's
batch gives one more write of the same text. Beside it a run with another view of the text. -/
theorem copy_saved_of_comments :
    let s₀ : Session CommentTree MemoryStore :=
      ⟨.create .comments .default 150 400, .ofText "// é".toList 2, {}⟩
    let s₀' : Session CommentTree MemoryStore :=
      ⟨.create .comments .default 5 400, .ofText "// é".toList 7, {}⟩
    let cs : List Command :=
      [.edit (.append ['x']), .pump 100,
        .edit (.operation [.append ['\n'], .resize 1, .scrollTo 1]), .pump 300, .overlay none,
        .handleViewport 310, .tick 650, .edit (.insert ⟨0, 3⟩ ['y']), .tick 700, .pump 700,
        .tick 1100]
    let cs' : List Command :=
      [.edit (.append ['x']), .pump 100, .edit (.operation [.append ['\n']]), .pump 300, .tick 650,
        .edit (.insert ⟨0, 3⟩ ['y']), .tick 700, .pump 700, .edit (.scrollTo 1), .tick 1100]
    s₀.Unstarted .comments ∧ Reader.comments.Total ∧ Storage.Writable s₀.store ∧
      (∀ c ∈ cs, c.savesByTicks = true) ∧
      ((.start 0 :: cs).filterMap Command.time?).Pairwise (· ≤ ·) ∧
      s₀.deeds (.start 0 :: cs) =
        [.handled 0, .handled 100, .handled 300, .wrote 700 "// yéx\n".toList, .handled 700,
          .wrote 1100 "// yéx\n".toList] ∧
      ∃ answers s answers' s', s₀.runAll (.start 0 :: cs) = .ok (answers, s) ∧
        s₀'.runAll (.start 0 :: cs') = .ok (answers', s') ∧
        s₀.Saves s (s₀.deeds (.start 0 :: cs)) ∧
        Storage.get? s.store sourceKey = some s.editor.text ∧
        s₀'.deeds (.start 0 :: cs') = s₀.deeds (.start 0 :: cs) ∧ s'.saver = s.saver := by
  intro s₀ s₀' cs cs'
  have hunstarted : s₀.Unstarted .comments := ⟨⟨_, _, _, rfl⟩, ⟨rfl, rfl⟩, rfl⟩
  have hunstarted' : s₀'.Unstarted .comments := ⟨⟨_, _, _, rfl⟩, ⟨rfl, rfl⟩, rfl⟩
  have hwritable := Storage.writable_memoryStore s₀.store
  have hcs : ∀ c ∈ cs, c.savesByTicks = true := by decide
  have hcs' : ∀ c ∈ cs', c.savesByTicks = true := by decide
  have htimes : ((.start 0 :: cs).filterMap Command.time?).Pairwise (· ≤ ·) := by decide
  have hdeeds : s₀.deeds (.start 0 :: cs) =
      [.handled 0, .handled 100, .handled 300, .wrote 700 "// yéx\n".toList, .handled 700,
        .wrote 1100 "// yéx\n".toList] := by decide +kernel
  obtain ⟨⟨answers, s⟩, hrun, htest⟩ := Checked.exists_ok (s₀.runAll (.start 0 :: cs))
    (fun (_, s) => Event.batches s.editor.events = [] ∧ s.pump.persist.pending = false)
    (by decide +kernel)
  obtain ⟨hdrained, hidle⟩ := of_decide_eq_true htest
  obtain ⟨⟨answers', s'⟩, hrun', -⟩ :=
    Checked.exists_ok (s₀'.runAll (.start 0 :: cs')) (fun _ => true) (by decide +kernel)
  -- the theorem is applied to both runs, of which the second has another view
  obtain ⟨hsaves, hviews⟩ :=
    copy_saved_by_ticks hunstarted Reader.total_comments hwritable hcs htimes hrun
  obtain ⟨hdeeds', hsaver⟩ := hviews s₀' s' cs' answers' hunstarted' rfl hcs' rfl hrun'
  exact ⟨hunstarted, Reader.total_comments, hwritable, hcs, htimes, hdeeds, answers, s, answers',
    s', hrun, hrun', hsaves, hsaves.copy hdrained hidle, hdeeds', hsaver⟩

end Session

end Lumen
