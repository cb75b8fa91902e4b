import Lumen.Pump.Debouncer
import Mathlib.Data.List.Induction

/-!
# The leading edge of bursts

A debouncer that acts on the leading edge runs at the first trigger of a burst. It keeps nothing but
the time at which the burst is over, and only a poll at that time or later makes it forget the
burst:

* `after_deadline` — while there is a deadline, it is that of the last trigger, which no poll has
  met;
* `after_no_deadline` — while there is none, every trigger since the last cancel has been met by a
  poll;
* `leads_burst_once_polled` — so a trigger runs at once just if the burst before it is over and a
  poll has found it so, and no poll runs anything.

A burst that is over and has not been polled goes on (`leads_no_burst_unpolled`).
-/

namespace Lumen

namespace Debouncer

/-- What can be asked of a debouncer. -/
inductive Call where
  | trigger (now : Nat)
  | poll (now : Nat)
  | cancel
deriving DecidableEq

namespace Call

/-- The time at which a call is made; to cancel, no time is told. -/
def time? : Call → Option Nat
  | .trigger now | .poll now => some now
  | .cancel => none

/-- That the times of calls do not go back. -/
def InOrder (calls : List Call) : Prop := (calls.filterMap time?).Pairwise (· ≤ ·)

instance (calls : List Call) : Decidable (InOrder calls) :=
  inferInstanceAs (Decidable (List.Pairwise _ _))

/-- That there was a trigger at a time, with some calls after it and no cancel among them. -/
def Triggered (calls : List Call) (time : Nat) (later : List Call) : Prop :=
  ∃ earlier, calls = earlier ++ trigger time :: later ∧ cancel ∉ later

/-- That no trigger since the last cancel is so late that it keeps a burst going at some time. -/
def Quiet (calls : List Call) (delay now : Nat) : Prop :=
  ∀ time later, Triggered calls time later → time + delay ≤ now

/-- That after each trigger since the last cancel there was a poll when it kept no burst going any
more. -/
def Polled (calls : List Call) (delay : Nat) : Prop :=
  ∀ time later, Triggered calls time later → ∃ now, poll now ∈ later ∧ time + delay ≤ now

variable {calls later : List Call} {c : Call} {delay time now : Nat}

/-- With one call more, the triggers are those from before, unless that call is a cancel, and
perhaps that call. -/
theorem triggered_append_iff :
    Triggered (calls ++ [c]) time later ↔
      (c = trigger time ∧ later = []) ∨
      (c ≠ cancel ∧ ∃ later', later = later' ++ [c] ∧ Triggered calls time later') := by
  constructor
  · rintro ⟨earlier, hsplit, hcancel⟩
    -- if nothing comes after the trigger, it is the last call, and else that call comes after it
    rcases List.eq_nil_or_concat later with rfl | ⟨later', c', rfl⟩
    · obtain ⟨-, hlast⟩ := List.append_inj' hsplit rfl
      exact .inl ⟨List.singleton_inj.mp hlast, rfl⟩
    · right
      rw [List.concat_eq_append, ← List.cons_append, ← List.append_assoc] at hsplit
      obtain ⟨hcalls, hlast⟩ := List.append_inj' hsplit rfl
      obtain rfl := List.singleton_inj.mp hlast
      rw [List.concat_eq_append, List.mem_append, not_or, List.mem_singleton] at hcancel
      refine ⟨Ne.symm hcancel.2, later', List.concat_eq_append, earlier, hcalls, hcancel.1⟩
  · rintro (⟨rfl, rfl⟩ | ⟨hc, later', rfl, earlier, rfl, hcancel⟩)
    · exact ⟨calls, rfl, List.not_mem_nil⟩
    · refine ⟨earlier, by simp, ?_⟩
      rw [List.mem_append, List.mem_singleton]
      rintro (hmem | rfl)
      · exact hcancel hmem
      · exact hc rfl

theorem not_triggered_nil : ¬ Triggered [] time later := by
  rintro ⟨earlier, hsplit, -⟩
  exact absurd hsplit (by simp)

theorem InOrder.init (h : InOrder (calls ++ [c])) : InOrder calls := by
  unfold InOrder at h
  rw [List.filterMap_append, List.pairwise_append] at h
  exact h.1

/-- No call was made later than the last one. -/
theorem InOrder.le_last (h : InOrder (calls ++ [c])) {earlier : Call} (hmem : earlier ∈ calls)
    (hearlier : earlier.time? = some time) (hlast : c.time? = some now) : time ≤ now := by
  unfold InOrder at h
  rw [List.filterMap_append, List.pairwise_append] at h
  refine h.2.2 time ?_ now ?_
  · exact List.mem_filterMap.mpr ⟨earlier, hmem, hearlier⟩
  · exact List.mem_filterMap.mpr ⟨c, List.mem_singleton_self c, hlast⟩

theorem Triggered.mem (h : Triggered calls time later) : trigger time ∈ calls := by
  obtain ⟨earlier, rfl, -⟩ := h
  simp

theorem Triggered.mem_of_later (h : Triggered calls time later) {c : Call} (hc : c ∈ later) :
    c ∈ calls := by
  obtain ⟨earlier, rfl, -⟩ := h
  simp [hc]

end Call

/-! ## Histories -/

variable {edge : Edge}

/-- A debouncer after one call. -/
def ask (d : Debouncer edge) : Call → Debouncer edge
  | .trigger now => (d.trigger now).2
  | .poll now => (d.poll now).2
  | .cancel => d.cancel

/-- A debouncer of some delay after calls that follow one another. -/
def after (edge : Edge) (delay : Nat) (calls : List Call) : Debouncer edge :=
  calls.foldl ask ⟨delay, none⟩

theorem after_append (delay : Nat) (calls : List Call) (c : Call) :
    after edge delay (calls ++ [c]) = (after edge delay calls).ask c := by
  unfold after
  rw [List.foldl_append, List.foldl_cons, List.foldl_nil]

/-- What a poll leaves: nothing, if it comes when the burst is over, and else all. -/
theorem poll_cases (d : Debouncer edge) (now : Nat) :
    (∃ deadline, d.deadline = some deadline ∧ deadline ≤ now ∧ (d.poll now).2 = d.cancel) ∨
      (∀ deadline, d.deadline = some deadline → now < deadline) ∧ (d.poll now).2 = d := by
  unfold poll
  cases hdeadline : d.deadline with
  | none => exact .inr ⟨(fun _ h => nomatch h), rfl⟩
  | some deadline =>
      by_cases hle : deadline ≤ now
      · exact .inl ⟨deadline, rfl, hle, by simp [hle]⟩
      · refine .inr ⟨?_, by simp [hle]⟩
        intro deadline' h
        obtain rfl := Option.some.inj h
        exact Nat.lt_of_not_le hle

theorem after_delay (delay : Nat) (calls : List Call) :
    (after edge delay calls).delay = delay := by
  induction calls using List.reverseRecOn with
  | nil => rfl
  | append_singleton calls c ih =>
      rw [after_append]
      cases c with
      | trigger now => exact ih
      | cancel => exact ih
      | poll now =>
          show ((after edge delay calls).poll now).2.delay = delay
          rcases poll_cases (after edge delay calls) now with ⟨_, -, -, hpoll⟩ | ⟨-, hpoll⟩
          · rw [hpoll]
            exact ih
          · rw [hpoll]
            exact ih

/-- A deadline is that of a trigger since the last cancel. No trigger there has a later one, and no
poll after it came when it had passed. -/
theorem after_deadline {delay : Nat} {calls : List Call} (h : Call.InOrder calls) {deadline : Nat}
    (hdeadline : (after edge delay calls).deadline = some deadline) :
    Call.Quiet calls delay deadline ∧
      ∃ time later, Call.Triggered calls time later ∧ deadline = time + delay ∧
        ∀ now, .poll now ∈ later → now < deadline := by
  induction calls using List.reverseRecOn with
  | nil => cases hdeadline
  | append_singleton calls c ih =>
      rw [after_append] at hdeadline
      -- by the last call: a trigger sets the deadline anew, and a poll that leaves it has come
      -- before it
      cases c with
      | trigger now =>
          have hnow : now + (after edge delay calls).delay = deadline := Option.some.inj hdeadline
          rw [after_delay] at hnow
          subst hnow
          refine ⟨?_, now, [], Call.triggered_append_iff.mpr (.inl ⟨rfl, rfl⟩), rfl, ?_⟩
          · intro time later htriggered
            rcases Call.triggered_append_iff.mp htriggered with ⟨hsame, -⟩ | ⟨-, _, -, hbefore⟩
            · obtain rfl := Call.trigger.inj hsame
              exact Nat.le_refl _
            · have hle := h.le_last hbefore.mem rfl rfl
              omega
          · intro polled hpolled
            cases hpolled
      | cancel => cases hdeadline
      | poll now =>
          have hleft : ((after edge delay calls).poll now).2.deadline = some deadline := hdeadline
          rcases poll_cases (after edge delay calls) now with ⟨_, -, -, hpoll⟩ | ⟨hlt, hpoll⟩
          · rw [hpoll] at hleft
            cases hleft
          · rw [hpoll] at hleft
            -- the deadline is from before, and this poll is one more that has not met it
            obtain ⟨hquiet, time, later, htriggered, hend, hpolls⟩ := ih h.init hleft
            refine ⟨?_, time, later ++ [.poll now], ?_, hend, ?_⟩
            · intro time' later' htriggered'
              rcases Call.triggered_append_iff.mp htriggered' with ⟨hsame, -⟩ | ⟨-, _, -, hbefore⟩
              · cases hsame
              · exact hquiet time' _ hbefore
            · exact Call.triggered_append_iff.mpr (.inr ⟨by simp, later, rfl, htriggered⟩)
            · intro polled hpolled
              rcases List.mem_append.mp hpolled with hpolled | hpolled
              · exact hpolls polled hpolled
              · obtain rfl := Call.poll.inj (List.mem_singleton.mp hpolled)
                exact hlt deadline hleft

/-- Without a deadline, a poll has met the end of each trigger since the last cancel. -/
theorem after_no_deadline {delay : Nat} {calls : List Call} (h : Call.InOrder calls)
    (hdeadline : (after edge delay calls).deadline = none) : Call.Polled calls delay := by
  induction calls using List.reverseRecOn with
  | nil =>
      intro time later htriggered
      exact absurd htriggered Call.not_triggered_nil
  | append_singleton calls c ih =>
      intro time later htriggered
      rw [after_append] at hdeadline
      rcases Call.triggered_append_iff.mp htriggered with ⟨rfl, -⟩ | ⟨hc, later', rfl, hbefore⟩
      · cases hdeadline
      · cases c with
        | trigger now => cases hdeadline
        | cancel => exact absurd rfl hc
        | poll now =>
            have hleft : ((after edge delay calls).poll now).2.deadline = none := hdeadline
            rcases poll_cases (after edge delay calls) now with
              ⟨deadline, hbegun, hle, -⟩ | ⟨-, hpoll⟩
            · -- this poll has ended the burst, and with it all triggers
              obtain ⟨hquiet, -⟩ := after_deadline h.init hbegun
              have := hquiet time later' hbefore
              exact ⟨now, by simp, by omega⟩
            · rw [hpoll] at hleft
              obtain ⟨polled, hpolled, hle⟩ := ih h.init hleft time later' hbefore
              exact ⟨polled, List.mem_append_left _ hpolled, hle⟩

theorem after_deadline_eq_none_iff {delay : Nat} {calls : List Call} (h : Call.InOrder calls) :
    (after edge delay calls).deadline = none ↔ Call.Polled calls delay := by
  constructor
  · exact after_no_deadline h
  · intro hpolled
    cases hdeadline : (after edge delay calls).deadline with
    | none => rfl
    | some deadline =>
        obtain ⟨-, time, later, htriggered, rfl, hpolls⟩ := after_deadline h hdeadline
        obtain ⟨now, hnow, hle⟩ := hpolled time later htriggered
        exact absurd (hpolls now hnow) (Nat.not_lt.mpr hle)

/-! ## The leading edge -/

/-- On the leading edge, a trigger runs at once just if there is no burst. -/
theorem trigger_leading (d : Debouncer .leading) (now : Nat) :
    (d.trigger now).1 = true ↔ d.deadline = none := by
  simp [trigger]

theorem poll_leading (d : Debouncer .leading) (now : Nat) : (d.poll now).1 = false := by
  unfold poll
  split
  · split
    · rfl
    · rfl
  · rfl

/-- What has been polled by a time is quiet at that time. -/
theorem Call.Polled.quiet {delay now : Nat} {calls : List Call} {c : Call}
    (h : Polled calls delay) (horder : InOrder (calls ++ [c])) (hc : c.time? = some now) :
    Quiet calls delay now := by
  intro time later htriggered
  obtain ⟨polled, hmem, hle⟩ := h time later htriggered
  have hlast := horder.le_last (htriggered.mem_of_later hmem) rfl hc
  omega

/-- A poll at a time when all is quiet leaves all polled. -/
theorem Call.Quiet.polled {delay now : Nat} {calls : List Call} (h : Quiet calls delay now) :
    Polled (calls ++ [poll now]) delay := by
  intro time later htriggered
  rcases triggered_append_iff.mp htriggered with ⟨hsame, -⟩ | ⟨-, later', rfl, hbefore⟩
  · cases hsame
  · exact ⟨now, by simp, h time later' hbefore⟩

/-- Whatever has been asked of a debouncer that acts on the leading edge, at times that do not go
back, a trigger runs at once just if for each trigger since the last cancel a poll has come at least
the delay after it. So it never runs while one of these triggers is not yet the delay ago. If they
all are, it runs after a poll at its own time, and without one it misses its run just if some burst
that is over has not been polled since. A poll itself never runs anything. -/
theorem leads_burst_once_polled {delay now : Nat} {calls : List Call}
    (h : Call.InOrder (calls ++ [.trigger now])) :
    let d := after .leading delay calls
    ((d.trigger now).1 = true ↔ Call.Polled calls delay) ∧
    ((d.trigger now).1 = true → Call.Quiet calls delay now) ∧
    (((d.poll now).2.trigger now).1 = true ↔ Call.Quiet calls delay now) ∧
    (¬ ((d.trigger now).1 = true ↔ Call.Quiet calls delay now) ↔
      Call.Quiet calls delay now ∧ ¬ Call.Polled calls delay) ∧
    ∀ polled, (d.poll polled).1 = false := by
  intro d
  have hruns : (d.trigger now).1 = true ↔ Call.Polled calls delay := by
    rw [trigger_leading]
    exact after_deadline_eq_none_iff h.init
  have hquiet : Call.Polled calls delay → Call.Quiet calls delay now :=
    fun hpolled => hpolled.quiet h rfl
  refine ⟨hruns, ?_, ?_, ?_, d.poll_leading⟩
  · intro hrun
    exact hquiet (hruns.mp hrun)
  · rw [trigger_leading]
    -- what a poll at the same time leaves tells whether the burst is over by then
    constructor
    · intro hnone
      rcases poll_cases d now with ⟨deadline, hdeadline, hle, -⟩ | ⟨-, hpoll⟩
      · obtain ⟨hends, -⟩ := after_deadline h.init hdeadline
        intro time later htriggered
        exact Nat.le_trans (hends time later htriggered) hle
      · rw [hpoll] at hnone
        exact hquiet (after_no_deadline h.init hnone)
    · intro hq
      rcases poll_cases d now with ⟨-, -, -, hpoll⟩ | ⟨hlt, hpoll⟩
      · rw [hpoll]
        rfl
      · rw [hpoll]
        cases hdeadline : d.deadline with
        | none => rfl
        | some deadline =>
            obtain ⟨-, time, later, htriggered, rfl, -⟩ := after_deadline h.init hdeadline
            have := hq time later htriggered
            have := hlt _ hdeadline
            omega
  · rw [hruns]
    constructor
    -- to be polled implies to be quiet, so the two differ only where all is quiet but not polled
    · intro hdiffer
      by_cases hpolled : Call.Polled calls delay
      · exact absurd ⟨hquiet, fun _ => hpolled⟩ hdiffer
      · by_cases hq : Call.Quiet calls delay now
        · exact ⟨hq, hpolled⟩
        · exact absurd ⟨hquiet, fun h => absurd h hq⟩ hdiffer
    · rintro ⟨hq, hpolled⟩ hsame
      exact hpolled (hsame.mpr hq)

/-- A burst of two triggers is over when it is polled, a cancel comes in the midst of the next one,
and the trigger after the cancel begins a burst that is polled too early. -/
theorem leads_burst_once_polled_of_bursts :
    let begun : List Call := [.trigger 0, .trigger 10]
    let calls : List Call := begun ++ [.poll 60, .trigger 100, .cancel, .trigger 110, .poll 150]
    Call.InOrder (begun ++ [.poll 60] ++ [.trigger 100]) ∧
    ((after .leading 50 (begun ++ [.poll 60])).trigger 100).1 = true ∧
    Call.Polled (begun ++ [.poll 60]) 50 ∧ Call.Quiet (begun ++ [.poll 60]) 50 100 ∧
    Call.InOrder (calls ++ [.trigger 155]) ∧ ¬ Call.Quiet calls 50 155 ∧
    (((after .leading 50 calls).poll 155).2.trigger 155).1 = false := by
  intro begun calls
  have hfirst : Call.InOrder (begun ++ [.poll 60] ++ [.trigger 100]) := by decide
  have hsecond : Call.InOrder (calls ++ [.trigger 155]) := by decide
  obtain ⟨hruns, hquiet, -, -, -⟩ := @leads_burst_once_polled 50 100 _ hfirst
  obtain ⟨-, -, hpolled, -, -⟩ := @leads_burst_once_polled 50 155 _ hsecond
  have hlead : ((after .leading 50 (begun ++ [.poll 60])).trigger 100).1 = true := by decide
  have hlate : (((after .leading 50 calls).poll 155).2.trigger 155).1 = false := by decide
  refine ⟨hfirst, hlead, hruns.mp hlead, hquiet hlead, hsecond, ?_, hlate⟩
  intro hq
  rw [hpolled.mpr hq] at hlate
  cases hlate

/-- Long after the delay of the only trigger, the next one runs nothing, since nobody has polled. -/
theorem leads_no_burst_unpolled :
    Call.InOrder [.trigger 0, .trigger 100] ∧ Call.Quiet [.trigger 0] 50 100 ∧
      ((after .leading 50 [.trigger 0]).trigger 100).1 = false := by
  refine ⟨by decide, ?_, by decide⟩
  intro time later htriggered
  obtain rfl := Call.trigger.inj (List.mem_singleton.mp htriggered.mem)
  omega

end Debouncer

end Lumen
