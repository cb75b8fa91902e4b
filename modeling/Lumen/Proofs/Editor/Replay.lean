import Lumen.Proofs.Editor.Run

/-!
# Replaying what an editor tells

Who has the text that an editor began with can replay the batches of changes that it tells, one
after the other. The main statement is `replay_follows_edits`: whatever edits are made, in however
nested operations, each batch is replayed to the text that the editor held when it told the batch,
and each of the edits found on the way is coherent with the texts before and after its change.
-/

namespace Lumen

/-! ## Batches -/

namespace Event

/-- The changes that an event tells of. -/
def batch? : Event → Option (List Change)
  | .changes batch => some batch
  | .viewport _ => none

/-- The batches of changes that events tell of. -/
def batches (events : List Event) : List (List Change) := events.filterMap batch?

theorem batches_append (es fs : List Event) : batches (es ++ fs) = batches es ++ batches fs :=
  List.filterMap_append

@[simp] theorem batches_moves (moves : List RowRange) : batches (moves.map viewport) = [] := by
  induction moves with
  | nil => rfl
  | cons r rs ih => exact ih

end Event

namespace Change

/-- Replays batches that follow one another: the edits of each and the text after it. -/
def replayBatches : Text → List (List Change) → Checked (List (List Edit × Text))
  | _, [] => return []
  | t, batch :: batches => do
    let (edits, t) ← editAll batch t
    let replayed ← replayBatches t batches
    return (edits, t) :: replayed

/-- Changes that are replayed one after the other, each of them to an edit that is coherent with the
text it is found in and the text that the change leaves. -/
inductive Replayed : Text → List Change → List Edit → Text → Prop
  | nil (t : Text) : Replayed t [] [] t
  | cons {t t' : Text} {c : Change} {e : Edit} {cs : List Change} {es : List Edit} :
      c.edit t = .ok e → e.Coherent t (c.replay e t) → Replayed (c.replay e t) cs es t' →
      Replayed t (c :: cs) (e :: es) t'

end Change

namespace Splice

/-- The texts that batches of splices lead to, one after the other. -/
def stops : Text → List (List Splice) → List Text
  | _, [] => []
  | t, ss :: batches => outcome t ss :: stops (outcome t ss) batches

theorem length_stops (t : Text) (batches : List (List Splice)) :
    (stops t batches).length = batches.length := by
  induction batches generalizing t with
  | nil => rfl
  | cons ss batches ih => rw [stops, List.length_cons, List.length_cons, ih]

/-- The text of the last stop is the one that all splices lead to. -/
theorem getLastD_stops (t : Text) (batches : List (List Splice)) :
    (stops t batches).getLastD t = outcome t batches.flatten := by
  induction batches generalizing t with
  | nil => rfl
  | cons ss batches ih => rw [stops, List.getLastD_cons, ih, List.flatten_cons, outcome_append]

theorem stops_append (t : Text) (bs cs : List (List Splice)) :
    stops t (bs ++ cs) = stops t bs ++ stops (outcome t bs.flatten) cs := by
  induction bs generalizing t with
  | nil => rfl
  | cons ss bs ih =>
      rw [List.cons_append, stops, stops, ih, List.flatten_cons, outcome_append, List.cons_append]

theorem replayed_changes {t : Text} {ss : List Splice} (hchain : Chain t ss)
    (hfits : ∀ s ∈ ss, s.after.Fits) :
    Change.Replayed t (ss.map change) (ss.map edit) (outcome t ss) := by
  induction ss generalizing t with
  | nil => exact .nil t
  | cons s ss ih =>
      obtain ⟨rfl, hrest⟩ := hchain
      have hcoherent := s.coherent
      have hss := ih hrest fun u hu => hfits u (List.mem_cons_of_mem s hu)
      rw [outcome]
      rw [← replay_change] at hcoherent hss ⊢
      exact .cons (s.edit_change (hfits s List.mem_cons_self)) hcoherent hss

/-- Batches of changes are replayed to the edits of their splices and the texts that these lead
to. -/
theorem replayBatches_changes {t : Text} {batches : List (List Splice)}
    (hchain : Chain t batches.flatten) (hfits : ∀ s ∈ batches.flatten, s.after.Fits) :
    Change.replayBatches t (batches.map (·.map change)) =
      .ok ((batches.map (·.map edit)).zip (stops t batches)) := by
  induction batches generalizing t with
  | nil => rfl
  | cons ss batches ih =>
      rw [List.flatten_cons] at hchain hfits
      obtain ⟨hss, hrest⟩ := chain_of_append hchain
      have hreplay := editAll_changes hss fun s hs => hfits s (List.mem_append_left _ hs)
      have hothers := ih hrest fun s hs => hfits s (List.mem_append_right _ hs)
      rw [List.map_cons, Change.replayBatches, hreplay, Checked.ok_bind]
      simp only
      rw [hothers]
      rfl

end Splice

namespace Editor

/-! ## What an editor tells -/

/-- The texts that an editor holds when it tells of changes, while it runs commands that follow one
another. -/
def textsTold (e : Editor) : List Command → List Text
  | [] => []
  | c :: cs =>
    match e.run c with
    | .error _ => []
    | .ok (_, e') =>
      if Event.batches e'.events = Event.batches e.events then e'.textsTold cs
      else e'.text :: e'.textsTold cs

namespace Command

/-- The splices of commands that follow one another, one batch for each command that makes any. -/
def batches (t : Text) : List Command → List (List Splice)
  | [] => []
  | c :: cs =>
    let rest := batches (Splice.outcome t (c.splices t)) cs
    if c.splices t = [] then rest else c.splices t :: rest

theorem flatten_batches (t : Text) (cs : List Command) :
    (batches t cs).flatten = splicesIn t cs := by
  induction cs generalizing t with
  | nil => rfl
  | cons c cs ih =>
      rw [batches, splicesIn, ← ih]
      split
      · next h => rw [h, List.nil_append]
      · rw [List.flatten_cons]

theorem splicesIn_append (t : Text) (cs ds : List Command) :
    splicesIn t (cs ++ ds) =
      splicesIn t cs ++ splicesIn (Splice.outcome t (splicesIn t cs)) ds := by
  induction cs generalizing t with
  | nil => rfl
  | cons c cs ih =>
      rw [List.cons_append, splicesIn, splicesIn, ih, Splice.outcome_append, List.append_assoc]

theorem batches_append (t : Text) (cs ds : List Command) :
    batches t (cs ++ ds) = batches t cs ++ batches (Splice.outcome t (splicesIn t cs)) ds := by
  induction cs generalizing t with
  | nil => rfl
  | cons c cs ih =>
      rw [List.cons_append, batches, batches, ih, splicesIn, Splice.outcome_append]
      split
      · rfl
      · rw [List.cons_append]

end Command

theorem batches_told (ss : List Splice) :
    Event.batches (told ss) = if ss = [] then [] else [ss.map Splice.change] := by
  rw [told]
  split <;> rfl

/-- Commands outside of operations tell of their splices batch by batch. -/
theorem runAll_batches {cs : List Command} {e e' : Editor}
    (hcs : Command.everyIn Command.leavesEvents cs = true) (hrest : e.AtRest)
    {answers : List Answer} (h : e.runAll cs = .ok (answers, e')) :
    e'.text = Splice.outcome e.text (Command.splicesIn e.text cs) ∧ e'.AtRest ∧
      Event.batches e'.events =
        Event.batches e.events ++ (Command.batches e.text cs).map (·.map Splice.change) ∧
      e.textsTold cs = Splice.stops e.text (Command.batches e.text cs) := by
  induction cs generalizing e answers with
  | nil =>
      obtain ⟨-, rfl⟩ := Prod.mk.inj (Checked.pure_eq_ok.mp h)
      exact ⟨rfl, hrest, (List.append_nil _).symm, rfl⟩
  | cons c cs ih =>
      rw [Command.everyIn, Bool.and_eq_true] at hcs
      obtain ⟨answer, answers₁, e₁, hrun, hall⟩ := runAll_cons_eq h
      have hout := run_outside hcs.1 hrest hrun
      obtain ⟨moves, hmoves⟩ := hout.events
      have htold : Event.batches e₁.events = Event.batches e.events ++
          Event.batches (told (c.splices e.text)) := by
        rw [hmoves, Event.batches_append, Event.batches_append, Event.batches_moves,
          List.nil_append]
      rw [batches_told] at htold
      -- a command that makes splices tells of one batch more, and any other of none
      obtain ⟨htext, hrest₂, hbatches, htexts⟩ := ih hcs.2 hout.atRest hall
      rw [hout.text] at htext hbatches htexts
      rw [Command.splicesIn, Splice.outcome_append, Command.batches, textsTold, hrun]
      simp only
      refine ⟨htext, hrest₂, ?_, ?_⟩
      · rw [hbatches, htold]
        by_cases hnone : c.splices e.text = []
        · rw [if_pos hnone, if_pos hnone, List.append_nil]
        · rw [if_neg hnone, if_neg hnone, List.map_cons, List.append_assoc, List.singleton_append]
      · rw [htexts, htold]
        by_cases hnone : c.splices e.text = []
        · rw [if_pos hnone, if_pos hnone, List.append_nil, if_pos rfl, hnone]
          rfl
        · rw [if_neg hnone, if_neg hnone, if_neg (by simp), Splice.stops, hout.text]

/-- A command outside of operations tells of its splices in one batch, if it makes any. -/
theorem run_batches {c : Command} {e e' : Editor} (hc : c.every Command.leavesEvents = true)
    (hrest : e.AtRest) {answer : Answer} (h : e.run c = .ok (answer, e')) :
    e'.text = Splice.outcome e.text (c.splices e.text) ∧ e'.AtRest ∧
      Event.batches e'.events =
        Event.batches e.events ++ (Command.batches e.text [c]).map (·.map Splice.change) ∧
      e.textsTold [c] = Splice.stops e.text (Command.batches e.text [c]) := by
  have hall : e.runAll [c] = .ok ([answer], e') := by
    rw [runAll, h]
    rfl
  have hevery : Command.everyIn Command.leavesEvents [c] = true := by
    rw [Command.everyIn, hc]
    rfl
  have hsplices : Command.splicesIn e.text [c] = c.splices e.text := List.append_nil _
  rw [← hsplices]
  exact runAll_batches hevery hrest hall

/-- What an editor tells of any edits can be replayed from the text it began with: each batch leads
to the text that the editor held when it told the batch, the last one to the text it holds, and
each edit found on the way is coherent with the texts before and after its change. -/
theorem replay_follows_edits (t : Text) (rows : Nat) (cs : List Command)
    (hcs : Command.everyIn Command.isEdit cs = true)
    (hfits : ∀ s ∈ Command.splicesIn t cs, s.after.Fits) :
    ∃ answers e replayed,
      (ofText t rows).runAll cs = .ok (answers, e) ∧
      Change.replayBatches t (Event.batches e.events) = .ok replayed ∧
      replayed.map (·.2) = (ofText t rows).textsTold cs ∧
      (replayed.map (·.2)).getLastD t = e.text ∧
      Change.Replayed t (Event.batches e.events).flatten (replayed.flatMap (·.1)) e.text := by
  obtain ⟨answers, e, hrun⟩ := runAll_edits_ok cs (ofText t rows) hcs
  have hleaves := Command.everyIn_mono Command.leavesEvents_of_isEdit cs hcs
  obtain ⟨htext, -, hbatches, htexts⟩ := runAll_batches hleaves (atRest_ofText t rows) hrun
  have hnone : Event.batches (ofText t rows).events = [] := rfl
  have hstart : (ofText t rows).text = t := rfl
  rw [hnone, List.nil_append] at hbatches
  rw [hstart] at htext hbatches htexts
  have hchain := Command.chain_splicesIn t cs
  have hreplayed := Splice.replayed_changes hchain hfits
  -- from here on splices are counted by batches, as they are told
  rw [← Command.flatten_batches] at hchain hfits hreplayed htext
  have hlength : (Splice.stops t (Command.batches t cs)).length =
      ((Command.batches t cs).map (·.map Splice.edit)).length := by
    rw [Splice.length_stops, List.length_map]
  refine ⟨answers, e, _, hrun, hbatches ▸ Splice.replayBatches_changes hchain hfits, ?_, ?_, ?_⟩
  · rw [List.map_snd_zip (Nat.le_of_eq hlength), htexts]
  · rw [List.map_snd_zip (Nat.le_of_eq hlength), Splice.getLastD_stops, htext]
  · rw [hbatches, htext, List.flatMap_def, List.map_fst_zip (Nat.le_of_eq hlength.symm),
      ← List.map_flatten, ← List.map_flatten]
    exact hreplayed

/-- A nested operation whose first edit has its points in reverse order, one past the end and one
inside a character, and edits at both ends of the text. -/
theorem replay_follows_nested_edits :
    let t : Text := ['a', 'é', '\n', 'b']
    let cs : List Command :=
      [.operation [.replace ⟨7, 9⟩ ⟨0, 2⟩ ['x', '\n', 'ß'],
        .operation [.delete ⟨0, 0⟩ ⟨0, 1⟩, .insert ⟨1, 1⟩ []]], .append ['y'], .setText []]
    Command.everyIn Command.isEdit cs = true ∧ (∀ s ∈ Command.splicesIn t cs, s.after.Fits) ∧
      (Command.splicesIn t cs).length = 4 ∧
      ∃ answers e replayed,
        (ofText t 2).runAll cs = .ok (answers, e) ∧
        Change.replayBatches t (Event.batches e.events) = .ok replayed ∧
        replayed.map (·.2) = (ofText t 2).textsTold cs ∧
        (replayed.map (·.2)).getLastD t = e.text ∧
        Change.Replayed t (Event.batches e.events).flatten (replayed.flatMap (·.1)) e.text :=
  ⟨by decide, by decide, by decide, replay_follows_edits _ 2 _ (by decide) (by decide)⟩

end Editor

end Lumen
