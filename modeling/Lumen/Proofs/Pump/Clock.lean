import Lumen.Proofs.Config.Bounds
import Lumen.Proofs.Pump.Events
import Lumen.Proofs.Pump.Saving

/-!
# Deadlines are times

A deadline is a sum of a time and a delay, and no clock comes to all sums: it counts seconds by 63
bits. If delays are sizes and no time is within the largest delay of the end of the clock, every
deadline is a time of it (`Debouncer.Timely`). This is so for pumps made by any configuration that
is loaded, and each step of a session keeps it (`deadline_le_latest`).
-/

namespace Lumen

variable {τ σ : Type}

namespace Clock

/-- The latest time of a clock, in milliseconds. -/
def latest : Nat := Nat.pow 2 63 * 1000 - 1

/-- The latest time to which any delay can be added. -/
def last : Nat := latest - Size.largest

/-- A trigger that is not too late has a deadline which the clock comes to. -/
theorem add_le_latest {now delay : Nat} (hnow : now ≤ last) (hdelay : delay ≤ Size.largest) :
    now + delay ≤ latest := by
  have hlast : last + Size.largest = latest := by decide
  omega

end Clock

/-! ## Timers -/

namespace Debouncer

variable {edge : Edge} {d : Debouncer edge} {now : Nat}

/-- That the delay is a size, and that a clock comes to the deadline if there is one. -/
structure Timely (d : Debouncer edge) : Prop where
  delay : d.delay ≤ Size.largest
  deadline : ∀ deadline, d.deadline = some deadline → deadline ≤ Clock.latest

namespace Timely

theorem trigger (h : d.Timely) (hnow : now ≤ Clock.last) : (d.trigger now).2.Timely where
  delay := h.delay
  deadline _ hdeadline :=
    Option.some.inj hdeadline ▸ Clock.add_le_latest hnow h.delay

theorem cancel (h : d.Timely) : d.cancel.Timely := ⟨h.delay, fun _ hnone => nomatch hnone⟩

end Timely

end Debouncer

/-! ## Pumps -/

namespace Pump

/-- That a clock comes to the deadlines of both renewals. -/
structure Timely (p : Pump τ) : Prop where
  highlight : p.highlight.Timely
  persist : p.persist.Timely

namespace Timely

variable {p p' : Pump τ} {e e' : Editor} {failure : Option NoTree} {now : Nat}

theorem scheduled (h : p.Timely) (hnow : now ≤ Clock.last) : (p.scheduled now).Timely :=
  ⟨h.highlight.trigger hnow, h.persist.trigger hnow⟩

theorem refresh (h : p.Timely) {source : Text} {changes : List Change} {fromLive : Bool}
    (hnow : now ≤ Clock.last)
    (hrefresh : p.refresh e source changes fromLive now = .ok (p', e', failure)) : p'.Timely := by
  obtain ⟨-, edits, source', -, hcases⟩ := refresh_cases hrefresh
  rcases hcases with ⟨-, -, rfl, -⟩ | ⟨-, tree, rfl, -⟩
  · exact h
  · -- a pump that has parsed has the timers from before
    have hadvanced : (p.advance source' tree).Timely := ⟨h.highlight, h.persist⟩
    exact hadvanced.scheduled hnow

theorem putOff (h : p.Timely) {events : List Event} (hnow : now ≤ Clock.last)
    (hput : p.PutOff now events p') : p'.Timely := by
  constructor
  · rw [hput.highlight]
    split
    · exact h.highlight
    · exact h.highlight.trigger hnow
  · rw [hput.persist]
    split
    · exact h.persist.trigger hnow
    · exact h.persist

theorem handleEvents (h : p.Timely) {events : List Event} (hnow : now ≤ Clock.last)
    (hevents : p.handleEvents e now events = .ok (p', e', failure)) : p'.Timely := by
  cases failure with
  | none => exact h.putOff hnow (handleEvents_reached hevents).2.putOff
  | some failure =>
      obtain ⟨-, before, -, -, -, hbefore, -⟩ := handleEvents_failed hevents
      exact h.putOff hnow (handleEvents_reached hbefore).2.putOff

theorem pumpEvents (h : p.Timely) (hnow : now ≤ Clock.last)
    (hpump : p.pumpEvents e now = .ok (p', e', failure)) : p'.Timely := by
  obtain ⟨-, hpumped⟩ := pumpEvents_cases hpump
  cases hpumped with
  | stopped hevents | replayed hevents _ | lost hevents _ _ _ => exact h.handleEvents hnow hevents
  | restarted hevents _ _ hstart => exact (h.handleEvents hnow hevents).refresh hnow hstart

end Timely

end Pump

/-- Whatever a configuration is loaded from, its pump has no deadline yet, and its delays are
sizes. -/
theorem Config.timely_pumpOf {disk : Disk} {path : Path} {readers : Highlight.Readers τ}
    {p : Pump τ} (h : (load disk path).pumpOf disk readers = .ok p) : p.Timely := by
  have hbounded := bounded_load disk path
  have hsize : Size.largest = bound - 1 := rfl
  generalize load disk path = c at h hbounded
  have hhighlight : c.highlightDelay ≤ Size.largest := by
    have := hbounded.highlightDelay
    omega
  have hpersist : c.persistDelay ≤ Size.largest := by
    have := hbounded.persistDelay
    omega
  obtain ⟨r, -, hpump⟩ := Checked.bind_eq_ok.mp h
  obtain rfl := Except.ok.inj hpump
  exact ⟨⟨hhighlight, fun _ hnone => nomatch hnone⟩, ⟨hpersist, fun _ hnone => nomatch hnone⟩⟩

/-! ## Sessions -/

namespace Session

variable [Storage σ] {s s' : Session τ σ}

theorem timely_tick (h : s.pump.Timely) {now : Nat} {renewal : Renewal}
    (htick : s.tick now = .ok (renewal, s')) : s'.pump.Timely := by
  obtain ⟨s₁, hoverlay, hcopy⟩ := tick_eq htick
  have hfirst : s₁.pump.Timely := by
    rcases renewOverlay_cases hoverlay with ⟨-, -, rfl⟩ | ⟨-, -, -, -, -, rfl⟩
    · exact h
    · exact ⟨h.highlight.cancel, h.persist⟩
  rcases renewCopy_cases s₁ now with ⟨-, hcopied⟩ | ⟨-, hcopied⟩
  · obtain ⟨-, rfl⟩ := Prod.mk.inj (hcopied.symm.trans hcopy)
    exact hfirst
  · obtain ⟨-, rfl⟩ := Prod.mk.inj (hcopied.symm.trans hcopy)
    exact ⟨hfirst.highlight, hfirst.persist.cancel⟩

theorem timely_run (h : s.pump.Timely) {c : Command} {answer : Answer}
    (htime : ∀ now, c.time? = some now → now ≤ Clock.last)
    (hrun : s.run c = .ok (answer, s')) : s'.pump.Timely := by
  cases c with
  | edit c =>
      obtain ⟨-, e, -, -, rfl⟩ := run_edit_eq hrun
      exact h
  | start now =>
      obtain ⟨p, e, failure, hstart, -, rfl⟩ := run_start_eq hrun
      exact h.refresh (htime now rfl) hstart
  | pump now =>
      obtain ⟨p, e, failure, hpump, -, rfl⟩ := run_pump_eq hrun
      exact h.pumpEvents (htime now rfl) hpump
  | handleChanges changes now =>
      obtain ⟨p, e, failure, hhandle, -, rfl⟩ := run_handleChanges_eq hrun
      exact h.refresh (htime now rfl) hhandle
  | handleViewport now =>
      obtain ⟨-, rfl⟩ := Prod.mk.inj (Checked.pure_eq_ok.mp hrun)
      exact ⟨h.highlight.trigger (htime now rfl), h.persist⟩
  | cancel =>
      obtain ⟨-, rfl⟩ := Prod.mk.inj (Checked.pure_eq_ok.mp hrun)
      exact ⟨h.highlight.cancel, h.persist.cancel⟩
  | tick now =>
      obtain ⟨renewal, htick, -⟩ := run_tick_eq hrun
      exact timely_tick h htick
  | overlay rows =>
      obtain ⟨-, e, -, -, rfl⟩ := run_overlay_eq hrun
      exact h
  | persist =>
      obtain ⟨-, rfl⟩ := Prod.mk.inj (Checked.pure_eq_ok.mp hrun)
      exact h

theorem timely_runAll (h : s.pump.Timely) {cs : List Command} {answers : List Answer}
    (htimes : ∀ c ∈ cs, ∀ now, c.time? = some now → now ≤ Clock.last)
    (hrun : s.runAll cs = .ok (answers, s')) : s'.pump.Timely := by
  induction cs generalizing s answers with
  | nil =>
      obtain ⟨-, rfl⟩ := Prod.mk.inj (Checked.pure_eq_ok.mp hrun)
      exact h
  | cons c cs ih =>
      obtain ⟨answer, answers₁, s₁, hfirst, hothers, -⟩ := runAll_cons_eq hrun
      rw [List.forall_mem_cons] at htimes
      exact ih (timely_run h htimes.1 hfirst) htimes.2 hothers

/-- In a session with the pump of a configuration that has been loaded, whatever happens by the last
time to which any delay can be added, the clock comes to the deadline of every renewal. -/
theorem deadline_le_latest {disk : Disk} {path : Path} {readers : Highlight.Readers τ}
    (hpump : (Config.load disk path).pumpOf disk readers = .ok s.pump) {cs : List Command}
    {answers : List Answer} (htimes : ∀ c ∈ cs, ∀ now, c.time? = some now → now ≤ Clock.last)
    (hrun : s.runAll cs = .ok (answers, s')) {deadline : Nat}
    (hdeadline : s'.pump.highlight.deadline = some deadline ∨
      s'.pump.persist.deadline = some deadline) : deadline ≤ Clock.latest := by
  have htimely := timely_runAll (Config.timely_pumpOf hpump) htimes hrun
  rcases hdeadline with hdeadline | hdeadline
  · exact htimely.highlight.deadline deadline hdeadline
  · exact htimely.persist.deadline deadline hdeadline

end Session

end Lumen
