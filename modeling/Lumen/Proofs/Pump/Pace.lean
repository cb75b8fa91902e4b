import Lumen.Text.Basic
import Mathlib.Data.List.Chain

/-!
# The pace of writes

What a pump has to do with a stored copy comes down to a log of deeds: texts and changes are
handled, and the copy is written. In a paced log nothing is written but a while after the last thing
that was handled, and not again until more has been handled (`Paced`). So

* `Paced.late` — a write comes after everything handled before it by the delay at least;
* `Paced.needed` — between two writes something is handled;
* `Paced.burst` — nothing is written inside a burst, in which each thing that is handled comes less
  than the delay after the one before it.
-/

namespace Lumen

/-- What is done that matters to a stored copy. -/
inductive Deed where
  /-- The text of a start or the changes of an operation are handled. -/
  | handled (now : Nat)
  /-- A text is written. -/
  | wrote (now : Nat) (text : Text)
deriving Repr, DecidableEq

namespace Deed

def time : Deed → Nat
  | .handled now => now
  | .wrote now _ => now

/-- The time at which something is handled. -/
def handled? : Deed → Option Nat
  | .handled now => some now
  | .wrote .. => none

/-- The text that is written. -/
def wrote? : Deed → Option Text
  | .handled _ => none
  | .wrote _ text => some text

theorem mem_filterMap_handled? {deeds : List Deed} {now : Nat} :
    now ∈ deeds.filterMap handled? ↔ .handled now ∈ deeds := by
  rw [List.mem_filterMap]
  constructor
  · rintro ⟨d, hd, htime⟩
    cases d with
    | handled time =>
        obtain rfl := Option.some.inj htime
        exact hd
    | wrote time text => cases htime
  · intro hmem
    exact ⟨_, hmem, rfl⟩

/-- Whether a deed can follow right on another: a write follows on something that was handled, after
the delay at least. -/
def Follows (delay : Nat) (d d' : Deed) : Prop :=
  d'.wrote? = none ∨ ∃ h, d = .handled h ∧ h + delay ≤ d'.time

end Deed

/-- A log in which writes keep their distance from what is handled before them. -/
structure Paced (delay : Nat) (log : List Deed) : Prop where
  begins : ∃ start rest, log = .handled start :: rest
  sorted : log.Pairwise fun d d' => d.time ≤ d'.time
  follows : log.IsChain (Deed.Follows delay)

namespace Paced

variable {delay : Nat} {log before between after : List Deed} {now now' : Nat} {text text' : Text}

theorem singleton (delay start : Nat) : Paced delay [.handled start] :=
  ⟨⟨start, [], rfl⟩, List.pairwise_singleton _ _, .singleton _⟩

/-- A paced log goes on in any way that keeps its pace. -/
theorem append (h : Paced delay log) {deeds : List Deed}
    (hsorted : deeds.Pairwise fun d d' => d.time ≤ d'.time)
    (hlater : ∀ d ∈ log, ∀ d' ∈ deeds, d.time ≤ d'.time)
    (hfollows : deeds.IsChain (Deed.Follows delay))
    (hnext : ∀ d ∈ log.getLast?, ∀ d' ∈ deeds.head?, Deed.Follows delay d d') :
    Paced delay (log ++ deeds) := by
  obtain ⟨start, rest, hlog⟩ := h.begins
  refine ⟨⟨start, rest ++ deeds, ?_⟩, ?_, ?_⟩
  · rw [hlog, List.cons_append]
  · exact List.pairwise_append.mpr ⟨h.sorted, hsorted, hlater⟩
  · exact List.isChain_append.mpr ⟨h.follows, hfollows, hnext⟩

/-- Right before a write something was handled, earlier than the write by the delay at least. -/
theorem before_wrote (h : Paced delay (before ++ .wrote now text :: after)) :
    ∃ earlier last, before = earlier ++ [.handled last] ∧ last + delay ≤ now := by
  rcases List.eq_nil_or_concat before with rfl | ⟨earlier, d, rfl⟩
  · obtain ⟨start, rest, hbegins⟩ := h.begins
    cases hbegins
  · obtain ⟨-, -, hnext⟩ := List.isChain_append.mp h.follows
    have hd := hnext d (by simp) (.wrote now text) (by simp)
    rcases hd with hnone | ⟨last, rfl, hlate⟩
    · cases hnone
    · exact ⟨earlier, last, by simp, hlate⟩

/-- A write comes after everything handled before it by the delay at least. -/
theorem late (h : Paced delay (before ++ .wrote now text :: after)) {handled : Nat}
    (hmem : .handled handled ∈ before) : handled + delay ≤ now := by
  obtain ⟨earlier, last, rfl, hlast⟩ := h.before_wrote
  have hsorted := (List.pairwise_append.mp (List.pairwise_append.mp h.sorted).1).2.2
  rcases List.mem_append.mp hmem with hmem | hmem
  · have hle : handled ≤ last := hsorted _ hmem (.handled last) (List.mem_singleton_self _)
    omega
  · obtain rfl := Deed.handled.inj (List.mem_singleton.mp hmem)
    exact hlast

/-- Between two writes something is handled. -/
theorem needed
    (h : Paced delay (before ++ .wrote now text :: (between ++ .wrote now' text' :: after))) :
    ∃ handled, .handled handled ∈ between := by
  have hsplit : before ++ .wrote now text :: (between ++ .wrote now' text' :: after) =
      (before ++ .wrote now text :: between) ++ .wrote now' text' :: after := by simp
  rw [hsplit] at h
  obtain ⟨earlier, last, hlast, -⟩ := h.before_wrote
  rcases List.eq_nil_or_concat between with rfl | ⟨init, d, rfl⟩
  · have hd := (List.append_inj' hlast rfl).2
    cases hd
  · refine ⟨last, ?_⟩
    rw [List.concat_eq_append, ← List.cons_append, ← List.append_assoc] at hlast
    obtain rfl := List.singleton_inj.mp (List.append_inj' hlast rfl).2
    simp

/-- Nothing is written in a burst, in which each thing that is handled comes less than the delay
after the one before it. -/
theorem burst {burst : List Deed} (h : Paced delay (before ++ burst ++ after)) {first last : Nat}
    (hfirst : burst.head? = some (.handled first)) (hlast : burst.getLast? = some (.handled last))
    (hgaps : (burst.filterMap Deed.handled?).IsChain fun now now' => now' < now + delay) :
    burst.filterMap Deed.wrote? = [] := by
  rw [List.filterMap_eq_nil_iff]
  intro d hd
  cases d with
  | handled now => rfl
  | wrote now text =>
      exfalso
      obtain ⟨init, rest, rfl⟩ := List.append_of_mem hd
      have hsplit : before ++ (init ++ .wrote now text :: rest) ++ after =
          (before ++ init) ++ .wrote now text :: (rest ++ after) := by simp
      rw [hsplit] at h
      obtain ⟨earlier, previous, hprevious, hlate⟩ := h.before_wrote
      -- the burst begins and ends with things that are handled, so it has one before the write
      obtain ⟨init', rfl⟩ : ∃ init', init = init' ++ [.handled previous] := by
        rcases List.eq_nil_or_concat init with rfl | ⟨init', d, rfl⟩
        · cases hfirst
        · rw [List.concat_eq_append, ← List.append_assoc] at hprevious
          obtain rfl := List.singleton_inj.mp (List.append_inj' hprevious rfl).2
          exact ⟨init', List.concat_eq_append ..⟩
      -- and one after it
      have hmem : .handled last ∈ rest := by
        rcases List.eq_nil_or_concat rest with rfl | ⟨rest', d, rfl⟩
        · rw [List.getLast?_concat] at hlast
          cases hlast
        · rw [List.concat_eq_append, ← List.cons_append, ← List.append_assoc,
            List.getLast?_concat] at hlast
          obtain rfl := Option.some.inj hlast
          simp
      obtain ⟨next, more, hnext⟩ : ∃ next more, rest.filterMap Deed.handled? = next :: more :=
        List.exists_cons_of_ne_nil (List.ne_nil_of_mem (Deed.mem_filterMap_handled?.mpr hmem))
      have hgap : next < previous + delay := by
        have htimes : (init' ++ [Deed.handled previous] ++ Deed.wrote now text :: rest).filterMap
            Deed.handled? = init'.filterMap Deed.handled? ++ previous :: next :: more := by
          rw [List.filterMap_append, List.filterMap_append, List.append_assoc, ← hnext]
          rfl
        rw [htimes] at hgaps
        exact (List.isChain_append_cons_cons.mp hgaps).2.1
      have hmem' : .handled next ∈ rest := Deed.mem_filterMap_handled?.mp (by simp [hnext])
      have hsorted := (List.pairwise_append.mp h.sorted).2.1
      have hle : now ≤ next := List.rel_of_pairwise_cons hsorted (List.mem_append_left _ hmem')
      omega

end Paced

end Lumen
