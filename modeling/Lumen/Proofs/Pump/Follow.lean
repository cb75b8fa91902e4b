import Lumen.Proofs.Pump.Events

/-!
# Pumps follow edits

A pump that has been started with the text of an editor parses, whenever it takes the editor's
events, the text that each batch of changes led to, in the order of the batches and also if the
editor has gone on since. The main statement is `pump_follows_edits`: after any pumping the pump has
the text of the editor and the tree that this text has when it is parsed from nothing, and it has
parsed the text of the start and one text for each batch. When and how often it is pumped makes no
difference to any of that.

* `handleEvents_reads` — one batch after the other is replayed, and the tree follows;
* `Following` — what holds of a session all along: the batches told by the edits so far are those
  that have been handled and those that wait.
-/

namespace Lumen

variable {τ σ : Type}

/-! ## Pumps -/

namespace Pump

/-- A pump that has parsed some texts, of which the last is a given text with a line feed after
it: its tree is the one that this text has when it is parsed from nothing. -/
structure Reads (p : Pump τ) (r : Reader τ) (t : Text) (n : Nat) : Prop where
  reader : p.reader = r
  source : p.source = t
  parsed : p.parsed = t ++ ['\n']
  tree : p.live.tree = r.parse? (t ++ ['\n']) none
  generation : p.live.generation = n
  parses : p.parses = n

/-- The text that has been parsed since an earlier state, if there is one. -/
def parsedSince (p p' : Pump τ) : List Text :=
  if p'.parses = p.parses then [] else [p'.parsed]

/-- The texts that a pump parses while it handles events. -/
def textsHandled (p : Pump τ) (e : Editor) (now : Nat) : List Event → List Text
  | [] => []
  | event :: events =>
    match p.handle e now event with
    | .ok (p', e', none) => p.parsedSince p' ++ p'.textsHandled e' now events
    | _ => []

variable {r : Reader τ} {p p' : Pump τ} {t : Text} {n : Nat}

theorem Reads.scheduled (h : p.Reads r t n) (now : Nat) : (p.scheduled now).Reads r t n :=
  ⟨h.reader, h.source, h.parsed, h.tree, h.generation, h.parses⟩

theorem Reads.handleViewport (h : p.Reads r t n) (now : Nat) :
    (p.handleViewport now).Reads r t n :=
  ⟨h.reader, h.source, h.parsed, h.tree, h.generation, h.parses⟩

/-- The text that is parsed when one is parsed for the last time. -/
theorem Reads.parsedSince_succ {t' : Text} (h : p.Reads r t n) (h' : p'.Reads r t' (n + 1)) :
    p.parsedSince p' = [t' ++ ['\n']] := by
  have hne : p'.parses ≠ p.parses := by
    rw [h'.parses, h.parses]
    omega
  rw [parsedSince, if_neg hne, h'.parsed]

theorem Reads.parsedSince_self {t' : Text} (h : p.Reads r t n) (h' : p'.Reads r t' n) :
    p.parsedSince p' = [] := by
  rw [parsedSince, if_pos (h'.parses.trans h.parses.symm)]

/-- A started pump has parsed the text of the start. -/
theorem start_reads (htotal : r.Total) (palette : Highlight.Palette)
    (highlightDelay persistDelay : Nat) {e e' : Editor} {now : Nat} {failure : Option NoTree}
    (hstart : (create r palette highlightDelay persistDelay).start e now =
      .ok (p', e', failure)) :
    failure = none ∧ e' = e ∧ p'.Reads r e.text 1 := by
  obtain ⟨rfl, -⟩ := start_total htotal hstart
  obtain ⟨rfl, tree, htree, rfl⟩ := start_eq_ok hstart
  have hreads :
      ((create r palette highlightDelay persistDelay).advance e'.text tree).Reads r e'.text 1 :=
    ⟨rfl, rfl, rfl, htree.symm, rfl, rfl⟩
  exact ⟨rfl, rfl, hreads.scheduled now⟩

/-- Changes that follow one another on the text of a pump are parsed with the tree moved by their
edits, which comes to the same as parsing from nothing. -/
theorem handleChanges_reads (htotal : r.Total) (hincremental : r.Incremental)
    (h : p.Reads r t n) {ss : List Splice} (hchain : Splice.Chain t ss) {e e' : Editor} {now : Nat}
    {failure : Option NoTree}
    (hhandle : p.handleChanges e (ss.map Splice.change) now = .ok (p', e', failure)) :
    failure = none ∧ e' = e ∧ p'.Reads r (Splice.outcome t ss) (n + 1) := by
  obtain ⟨rfl, edits, source, hedits, hcases⟩ := refresh_cases hhandle
  rw [h.source] at hedits
  obtain ⟨rfl, rfl⟩ := Splice.eq_of_editAll hchain hedits
  obtain ⟨old, hold⟩ := htotal (t ++ ['\n']) none
  obtain ⟨tree, htree⟩ := htotal (Splice.outcome t ss ++ ['\n']) none
  -- the line feed stays behind the last edit, so the edits lead from the one text to the other
  have hpath := Splice.path_edits hchain ['\n']
  have hbase : p.reader.parse? (Splice.outcome t ss ++ ['\n'])
      (if true then p.live.moved p.reader (ss.map Splice.edit) else none) =
        r.parse? (Splice.outcome t ss ++ ['\n']) none := by
    rw [if_pos rfl, LiveTree.moved, h.tree, h.reader, hold]
    exact hincremental _ _ old _ hold hpath
  rcases hcases with ⟨f, -, -, hnone, -⟩ | ⟨rfl, tree', rfl, htree'⟩
  · exact absurd (hnone.symm.trans (hbase.trans htree)) (by simp)
  · have hreads :
        (p.advance (Splice.outcome t ss) tree').Reads r (Splice.outcome t ss) (n + 1) :=
      ⟨h.reader, rfl, rfl, htree'.symm.trans hbase, congrArg (· + 1) h.generation,
        congrArg (· + 1) h.parses⟩
    exact ⟨rfl, rfl, hreads.scheduled now⟩

/-- Events are handled batch by batch: each text that a batch leads to is parsed, and the last is
the pump's. -/
theorem handleEvents_reads (htotal : r.Total) (hincremental : r.Incremental) (h : p.Reads r t n)
    {events : List Event} {waiting : List (List Splice)}
    (hevents : Event.batches events = waiting.map (·.map Splice.change))
    (hchain : Splice.Chain t waiting.flatten) {e e' : Editor} {now : Nat}
    {failure : Option NoTree} (hhandle : p.handleEvents e now events = .ok (p', e', failure)) :
    failure = none ∧ e' = e ∧
      p'.Reads r (Splice.outcome t waiting.flatten) (n + waiting.length) ∧
      p.textsHandled e now events = (Splice.stops t waiting).map (· ++ ['\n']) := by
  induction events generalizing p t n waiting with
  | nil =>
      cases Checked.pure_eq_ok.mp hhandle
      cases waiting with
      | nil => exact ⟨rfl, rfl, h, rfl⟩
      | cons ss waiting => cases hevents
  | cons event events ih =>
      obtain ⟨⟨p₁, e₁, failure₁⟩, hfirst, hrest⟩ := Checked.bind_eq_ok.mp hhandle
      cases event with
      | viewport rows =>
          cases Checked.pure_eq_ok.mp hfirst
          obtain ⟨hnone, rfl, hreads, htexts⟩ := ih (h.handleViewport now) hevents hchain hrest
          refine ⟨hnone, rfl, hreads, ?_⟩
          show p.parsedSince (p.handleViewport now) ++
            (p.handleViewport now).textsHandled _ now events = _
          rw [h.parsedSince_self (h.handleViewport now), htexts, List.nil_append]
      | changes batch =>
          cases waiting with
          | nil => cases hevents
          | cons ss waiting =>
              -- the event tells of the batch that has waited longest
              obtain ⟨rfl, hevents'⟩ := List.cons.inj hevents
              rw [List.flatten_cons] at hchain
              obtain ⟨hss, hwaiting⟩ := Splice.chain_of_append hchain
              obtain ⟨rfl, rfl, hreads₁⟩ := handleChanges_reads htotal hincremental h hss hfirst
              obtain ⟨hnone, rfl, hreads, htexts⟩ := ih hreads₁ hevents' hwaiting hrest
              refine ⟨hnone, rfl, ?_, ?_⟩
              · rw [List.flatten_cons, Splice.outcome_append, List.length_cons,
                  Nat.add_comm waiting.length, ← Nat.add_assoc]
                exact hreads
              · rw [textsHandled, hfirst]
                simp only
                rw [h.parsedSince_succ hreads₁, htexts, Splice.stops]
                rfl

/-- Changes that follow one another on the text of a pump lead it to the text behind them, whatever
trees there are. -/
theorem exists_handleChanges (htotal : p.reader.Total) {ss : List Splice}
    (hchain : Splice.Chain p.source ss) (hfits : ∀ s ∈ ss, s.after.Fits) (e : Editor) (now : Nat) :
    ∃ p', p.handleChanges e (ss.map Splice.change) now = .ok (p', e, none) ∧
      p'.source = Splice.outcome p.source ss ∧ p'.reader = p.reader := by
  obtain ⟨tree, hrefresh⟩ :=
    exists_refresh htotal (Splice.editAll_changes hchain hfits) e true now
  exact ⟨_, hrefresh, rfl, rfl⟩

/-- As long as the texts fit, no fault is met. -/
theorem exists_handleEvents (htotal : p.reader.Total) {events : List Event}
    {waiting : List (List Splice)}
    (hevents : Event.batches events = waiting.map (·.map Splice.change))
    (hchain : Splice.Chain p.source waiting.flatten) (hfits : ∀ s ∈ waiting.flatten, s.after.Fits)
    (e : Editor) (now : Nat) :
    ∃ p', p.handleEvents e now events = .ok (p', e, none) ∧
      p'.source = Splice.outcome p.source waiting.flatten := by
  induction events generalizing p waiting with
  | nil =>
      cases waiting with
      | nil => exact ⟨p, rfl, rfl⟩
      | cons ss waiting => cases hevents
  | cons event events ih =>
      cases event with
      | viewport rows => exact ih (p := p.handleViewport now) htotal hevents hchain hfits
      | changes batch =>
          cases waiting with
          | nil => cases hevents
          | cons ss waiting =>
              -- the first batch is replayed, and the others continue from the text that it leads to
              obtain ⟨rfl, hevents'⟩ := List.cons.inj hevents
              rw [List.flatten_cons] at hchain hfits
              obtain ⟨hss, hwaiting⟩ := Splice.chain_of_append hchain
              obtain ⟨p₁, hfirst, hsource, hreader⟩ := exists_handleChanges htotal hss
                (fun s hs => hfits s (List.mem_append_left _ hs)) e now
              rw [← hsource] at hwaiting
              obtain ⟨p', hrest, hsource'⟩ := ih (hreader.symm ▸ htotal) hevents' hwaiting
                fun s hs => hfits s (List.mem_append_right _ hs)
              refine ⟨p', ?_, ?_⟩
              · rw [handleEvents, handle, hfirst]
                exact hrest
              · rw [hsource', hsource, List.flatten_cons, Splice.outcome_append]

/-- If the changes lead to the text of an editor, taking its events brings the pump there, and
nothing has to be parsed anew. -/
theorem exists_pumpEvents (htotal : p.reader.Total) {e : Editor} {waiting : List (List Splice)}
    (hevents : Event.batches e.events = waiting.map (·.map Splice.change))
    (hchain : Splice.Chain p.source waiting.flatten) (hfits : ∀ s ∈ waiting.flatten, s.after.Fits)
    (htext : Splice.outcome p.source waiting.flatten = e.text) (now : Nat) :
    ∃ p', p.pumpEvents e now = .ok (p', { e with events := [] }, none) ∧ p'.source = e.text := by
  obtain ⟨p', hhandle, hsource⟩ :=
    exists_handleEvents htotal hevents hchain hfits { e with events := [] } now
  rw [htext] at hsource
  refine ⟨p', ?_, hsource⟩
  rw [pumpEvents, Editor.drain]
  simp only
  rw [hhandle, Checked.ok_bind]
  simp only [hsource, ne_eq, not_true_eq_false, and_false, if_false]
  rfl

end Pump

/-! ## Sessions -/

namespace Session

/-- The edits among commands, with all else that is asked of the editor. -/
def edits (cs : List Command) : List Editor.Command :=
  cs.filterMap fun
    | .edit c => some c
    | _ => none

/-- Whether a command can come after a start: events are taken by pumping alone, and in no other way
does the pump get a text or changes. -/
def Command.routine : Command → Bool
  | .edit c => c.every Editor.Command.leavesEvents
  | .start _ | .handleChanges .. => false
  | _ => true

/-- A session in which edits of a text have been made: of the batches that these told, the pump has
handled some, and the others wait among the events. -/
structure Following (s : Session τ σ) (r : Reader τ) (t : Text) (ds : List Editor.Command)
    (handled waiting : List (List Splice)) : Prop where
  atRest : s.editor.AtRest
  text : s.editor.text = Splice.outcome t (Editor.Command.splicesIn t ds)
  batches : handled ++ waiting = Editor.Command.batches t ds
  events : Event.batches s.editor.events = waiting.map (·.map Splice.change)
  reads : s.pump.Reads r (Splice.outcome t handled.flatten) (handled.length + 1)

variable {s s' : Session τ σ} {r : Reader τ} {t : Text} {ds : List Editor.Command}
  {handled waiting : List (List Splice)}

/-- What touches no text leaves all that holds as it is, and nothing is parsed. -/
theorem Following.quiet (h : s.Following r t ds handled waiting) (hquiet : s.Quiet s') :
    s'.Following r t ds handled waiting ∧ s'.editor.text = s.editor.text ∧
      s.pump.parsedSince s'.pump = [] := by
  obtain ⟨⟨highlight, persist, hpump⟩, marks, next, operations, heditor⟩ := hquiet
  refine ⟨⟨?_, ?_, h.batches, ?_, ?_⟩, ?_, ?_⟩
  · rw [heditor]
    exact ⟨h.atRest.depth, h.atRest.pending⟩
  · rw [heditor]
    exact h.text
  · rw [heditor]
    exact h.events
  · rw [hpump]
    exact ⟨h.reads.reader, h.reads.source, h.reads.parsed, h.reads.tree, h.reads.generation,
      h.reads.parses⟩
  · rw [heditor]
  · rw [hpump, Pump.parsedSince, if_pos rfl]

theorem Following.flatten_eq (h : s.Following r t ds handled waiting) :
    Editor.Command.splicesIn t ds = handled.flatten ++ waiting.flatten := by
  rw [← Editor.Command.flatten_batches, ← h.batches, List.flatten_append]

/-- What waits follows on what has been handled. -/
theorem Following.chain (h : s.Following r t ds handled waiting) :
    Splice.Chain (Splice.outcome t handled.flatten) waiting.flatten := by
  have hchain := Editor.Command.chain_splicesIn t ds
  rw [h.flatten_eq] at hchain
  exact (Splice.chain_of_append hchain).2

/-! ## Runs of a session -/

variable [Storage σ]

/-- The texts that the editor of a session holds when it tells of changes in a command. -/
def toldBy (s : Session τ σ) : Command → List Text
  | .edit c => s.editor.textsTold [c]
  | _ => []

/-- The texts that a pump parses in a command that leads to another session: one for each of the
batches that it handles, and what it parses anew if it has lost its way. -/
def parsedBy (s s' : Session τ σ) : Command → List Text
  | .pump now =>
    let (events, e) := s.editor.drain
    match s.pump.handleEvents e now events with
    | .error _ => []
    | .ok (p, _) => s.pump.textsHandled e now events ++ p.parsedSince s'.pump
  | _ => s.pump.parsedSince s'.pump

/-- The texts that the editor of a session holds whenever it tells of changes. -/
def textsTold (s : Session τ σ) : List Command → List Text
  | [] => []
  | c :: cs =>
    match s.run c with
    | .error _ => []
    | .ok (_, s') => s.toldBy c ++ s'.textsTold cs

/-- The texts that the pump of a session parses. -/
def textsParsed (s : Session τ σ) : List Command → List Text
  | [] => []
  | c :: cs =>
    match s.run c with
    | .error _ => []
    | .ok (_, s') => s.parsedBy s' c ++ s'.textsParsed cs

theorem textsParsed_append {cs ds : List Command} {s s' : Session τ σ} {answers : List Answer}
    (h : s.runAll cs = .ok (answers, s')) :
    s.textsParsed (cs ++ ds) = s.textsParsed cs ++ s'.textsParsed ds := by
  induction cs generalizing s answers with
  | nil =>
      obtain ⟨-, rfl⟩ := Prod.mk.inj (Checked.pure_eq_ok.mp h)
      rfl
  | cons c cs ih =>
      obtain ⟨answer, answers₁, s₁, hrun, hall, -⟩ := runAll_cons_eq h
      rw [List.cons_append, textsParsed, textsParsed, hrun]
      simp only
      rw [ih hall, List.append_assoc]

namespace Following

/-- What an edit tells waits to be handled. -/
theorem edit (h : s.Following r t ds handled waiting) {c : Editor.Command}
    (hc : c.every Editor.Command.leavesEvents = true) {answer : Answer}
    (hrun : s.run (.edit c) = .ok (answer, s')) :
    s'.Following r t (ds ++ [c]) handled
        (waiting ++ Editor.Command.batches s.editor.text [c]) ∧
      Splice.stops t (Editor.Command.batches t ds) ++ s.toldBy (.edit c) =
        Splice.stops t (Editor.Command.batches t (ds ++ [c])) := by
  obtain ⟨said, e, hedit, -, rfl⟩ := run_edit_eq hrun
  obtain ⟨htext, hrest, hbatches, htold⟩ := Editor.run_batches hc h.atRest hedit
  refine ⟨⟨hrest, ?_, ?_, ?_, h.reads⟩, ?_⟩
  · have hsplices : Editor.Command.splicesIn s.editor.text [c] = c.splices s.editor.text :=
      List.append_nil _
    rw [htext, Editor.Command.splicesIn_append, Splice.outcome_append, ← h.text, hsplices]
  · rw [Editor.Command.batches_append, ← h.batches, List.append_assoc, ← h.text]
  · rw [hbatches, h.events, List.map_append]
  · show _ ++ s.editor.textsTold [c] = _
    rw [htold, Editor.Command.batches_append, Splice.stops_append, Editor.Command.flatten_batches,
      ← h.text]

/-- Pumping handles all that waits, batch by batch, and comes to the text of the editor. -/
theorem pump (h : s.Following r t ds handled waiting) (htotal : r.Total)
    (hincremental : r.Incremental) {now : Nat} {answer : Answer}
    (hrun : s.run (.pump now) = .ok (answer, s')) :
    answer = .done ∧ s'.editor = { s.editor with events := [] } ∧
      s'.Following r t ds (handled ++ waiting) [] ∧
      s.parsedBy s' (.pump now) =
        (Splice.stops (Splice.outcome t handled.flatten) waiting).map (· ++ ['\n']) := by
  obtain ⟨p, e, failure, hpump, rfl, rfl⟩ := run_pump_eq hrun
  obtain ⟨⟨p₁, e₁, failure₁⟩, hevents, hrest⟩ := Checked.bind_eq_ok.mp hpump
  obtain ⟨rfl, rfl, hreads, htexts⟩ :=
    Pump.handleEvents_reads htotal hincremental h.reads h.events h.chain hevents
  have hparsed : s.parsedBy { s with pump := p₁, editor := { s.editor with events := [] } }
      (.pump now) =
        (Splice.stops (Splice.outcome t handled.flatten) waiting).map (· ++ ['\n']) := by
    rw [parsedBy, Editor.drain]
    simp only
    rw [hevents]
    simp only
    rw [htexts, hreads.parsedSince_self hreads, List.append_nil]
  rw [← Splice.outcome_append, ← h.flatten_eq] at hreads
  have htext : p₁.source = s.editor.text := hreads.source.trans h.text.symm
  -- nothing has to be parsed anew
  have hsame : ¬ (s.editor.events.any Pump.tellsChanges ∧ p₁.source ≠ s.editor.text) :=
    fun hdiverged => hdiverged.2 htext
  simp only at hrest
  rw [if_neg hsame] at hrest
  cases Checked.pure_eq_ok.mp hrest
  refine ⟨rfl, rfl, ⟨⟨h.atRest.depth, h.atRest.pending⟩, h.text, ?_, rfl, ?_⟩, hparsed⟩
  · rw [List.append_nil, h.batches]
  · have hcount : (handled ++ waiting).length + 1 = handled.length + 1 + waiting.length := by
      rw [List.length_append]
      omega
    rw [hcount, List.flatten_append, ← h.flatten_eq]
    exact hreads

/-- As long as the texts fit, pumping meets no fault. -/
theorem exists_pump (h : s.Following r t ds handled waiting) (htotal : r.Total)
    (hfits : ∀ u ∈ Editor.Command.splicesIn t ds, u.after.Fits) (now : Nat) :
    ∃ s', s.run (.pump now) = .ok (.done, s') := by
  have hfits' : ∀ u ∈ waiting.flatten, u.after.Fits := by
    intro u hu
    refine hfits u ?_
    rw [h.flatten_eq]
    exact List.mem_append_right _ hu
  have htext : Splice.outcome s.pump.source waiting.flatten = s.editor.text := by
    rw [h.reads.source, ← Splice.outcome_append, ← h.flatten_eq, h.text]
  obtain ⟨p, hpump, -⟩ := Pump.exists_pumpEvents (h.reads.reader.symm ▸ htotal) h.events
    (h.reads.source.symm ▸ h.chain) hfits' htext now
  refine ⟨{ s with pump := p, editor := { s.editor with events := [] } }, ?_⟩
  rw [Session.run, hpump]
  rfl

/-- In one step some more of the batches may be handled, and some more may come to wait. -/
theorem step (h : s.Following r t ds handled waiting) (htotal : r.Total)
    (hincremental : r.Incremental) {c : Command} (hc : c.routine = true) {answer : Answer}
    (hrun : s.run c = .ok (answer, s')) :
    ∃ handled' waiting', s'.Following r t (ds ++ edits [c]) handled' waiting' ∧
      Splice.stops t (Editor.Command.batches t ds) ++ s.toldBy c =
        Splice.stops t (Editor.Command.batches t (ds ++ edits [c])) ∧
      (Splice.stops t handled).map (· ++ ['\n']) ++ s.parsedBy s' c =
        (Splice.stops t handled').map (· ++ ['\n']) := by
  cases c with
  | edit c =>
      obtain ⟨hfollowing, htold⟩ := h.edit hc hrun
      refine ⟨handled, _, hfollowing, htold, ?_⟩
      have hnone : s.parsedBy s' (.edit c) = [] := h.reads.parsedSince_self hfollowing.reads
      rw [hnone, List.append_nil]
  | start => exact absurd hc (by simp [Command.routine])
  | handleChanges => exact absurd hc (by simp [Command.routine])
  | pump now =>
      obtain ⟨-, -, hfollowing, hparsed⟩ := h.pump htotal hincremental hrun
      refine ⟨_, [], (List.append_nil ds).symm ▸ hfollowing, ?_, ?_⟩
      · show _ ++ [] = Splice.stops t (Editor.Command.batches t (ds ++ []))
        rw [List.append_nil, List.append_nil]
      · rw [hparsed, Splice.stops_append, List.map_append]
  | _ =>
      obtain ⟨hfollowing, -, hnone⟩ := h.quiet (run_quiet rfl h.atRest hrun)
      refine ⟨handled, waiting, (List.append_nil ds).symm ▸ hfollowing, ?_, ?_⟩
      · show _ ++ [] = Splice.stops t (Editor.Command.batches t (ds ++ []))
        rw [List.append_nil, List.append_nil]
      · exact (congrArg (_ ++ ·) hnone).trans (List.append_nil _)

/-- In a run all batches that are told come to wait, and those that are handled are parsed. -/
theorem run (h : s.Following r t ds handled waiting) (htotal : r.Total)
    (hincremental : r.Incremental) {cs : List Command} (hcs : ∀ c ∈ cs, c.routine = true)
    {answers : List Answer} (hrun : s.runAll cs = .ok (answers, s')) :
    ∃ handled' waiting', s'.Following r t (ds ++ edits cs) handled' waiting' ∧
      Splice.stops t (Editor.Command.batches t ds) ++ s.textsTold cs =
        Splice.stops t (Editor.Command.batches t (ds ++ edits cs)) ∧
      (Splice.stops t handled).map (· ++ ['\n']) ++ s.textsParsed cs =
        (Splice.stops t handled').map (· ++ ['\n']) := by
  induction cs generalizing s ds handled waiting answers with
  | nil =>
      obtain ⟨-, rfl⟩ := Prod.mk.inj (Checked.pure_eq_ok.mp hrun)
      have hds : ds ++ edits [] = ds := List.append_nil ds
      rw [hds]
      exact ⟨handled, waiting, h, List.append_nil _, List.append_nil _⟩
  | cons c cs ih =>
      obtain ⟨answer, answers₁, s₁, hfirst, hall, -⟩ := runAll_cons_eq hrun
      have hedits : ds ++ edits (c :: cs) = (ds ++ edits [c]) ++ edits cs := by
        rw [List.append_assoc]
        exact congrArg (ds ++ ·) (List.filterMap_append (l := [c]))
      rw [hedits]
      -- by the step, what is told and what is parsed grow at their ends
      obtain ⟨handled₁, waiting₁, hfollowing, htold, hparsed⟩ :=
        h.step htotal hincremental (hcs c List.mem_cons_self) hfirst
      obtain ⟨handled₂, waiting₂, hfollowing₂, htold₂, hparsed₂⟩ :=
        ih hfollowing (fun d hd => hcs d (List.mem_cons_of_mem c hd)) hall
      refine ⟨handled₂, waiting₂, hfollowing₂, ?_, ?_⟩
      · rw [textsTold, hfirst]
        simp only
        rw [← List.append_assoc, htold, htold₂]
      · rw [textsParsed, hfirst]
        simp only
        rw [← List.append_assoc, hparsed, hparsed₂]

end Following

/-! ## Runs from a start -/

/-- A session before its start: the pump has seen nothing, and the editor is outside of operations
and has told of nothing that has not been taken. -/
structure Unstarted (s : Session τ σ) (r : Reader τ) : Prop where
  pump : ∃ palette highlightDelay persistDelay,
    s.pump = .create r palette highlightDelay persistDelay
  atRest : s.editor.AtRest
  drained : s.editor.events = []

variable {s₀ s s' : Session τ σ}

/-- A start parses the text of the editor, of which no edits have been made yet. -/
theorem Unstarted.start (h : s₀.Unstarted r) (htotal : r.Total) {start : Nat} {answer : Answer}
    (hrun : s₀.run (.start start) = .ok (answer, s)) :
    answer = .done ∧ s.Following r s₀.editor.text [] [] [] ∧
      s₀.parsedBy s (.start start) = [s₀.editor.text ++ ['\n']] := by
  obtain ⟨palette, highlightDelay, persistDelay, hpump⟩ := h.pump
  obtain ⟨p, e, failure, hstart, rfl, rfl⟩ := run_start_eq hrun
  rw [hpump] at hstart
  obtain ⟨rfl, rfl, hreads⟩ :=
    Pump.start_reads htotal palette highlightDelay persistDelay hstart
  refine ⟨rfl, ⟨h.atRest, rfl, rfl, ?_, hreads⟩, ?_⟩
  · show Event.batches s₀.editor.events = []
    rw [h.drained]
    rfl
  · show s₀.pump.parsedSince p = _
    rw [Pump.parsedSince, hpump, hreads.parsed, hreads.parses]
    rfl

/-- What a run from a start comes to: the batches that its edits told are those that the pump has
parsed, after the text of the start, and those that wait. -/
theorem Unstarted.run (h : s₀.Unstarted r) (htotal : r.Total) (hincremental : r.Incremental)
    {start : Nat} {cs : List Command} (hcs : ∀ c ∈ cs, c.routine = true) {answers : List Answer}
    (hrun : s₀.runAll (.start start :: cs) = .ok (answers, s)) :
    ∃ handled waiting, s.Following r s₀.editor.text (edits cs) handled waiting ∧
      s₀.textsTold (.start start :: cs) =
        Splice.stops s₀.editor.text (Editor.Command.batches s₀.editor.text (edits cs)) ∧
      s₀.textsParsed (.start start :: cs) =
        (s₀.editor.text :: Splice.stops s₀.editor.text handled).map (· ++ ['\n']) := by
  obtain ⟨answer, answers₁, s₁, hfirst, hall, -⟩ := runAll_cons_eq hrun
  obtain ⟨-, hstart, hparsed₁⟩ := h.start htotal hfirst
  obtain ⟨handled, waiting, hfollowing, htold, hparsed⟩ := hstart.run htotal hincremental hcs hall
  refine ⟨handled, waiting, hfollowing, ?_, ?_⟩
  · rw [textsTold, hfirst]
    exact htold
  · rw [textsParsed, hfirst, List.map_cons, ← hparsed]
    simp only
    rw [hparsed₁]
    rfl

/-- All that a run and one more pumping come to is settled by the edits that are made in the run. -/
theorem Unstarted.run_pump (h : s₀.Unstarted r) (htotal : r.Total) (hincremental : r.Incremental)
    {start : Nat} {cs : List Command} (hcs : ∀ c ∈ cs, c.routine = true) {answers : List Answer}
    (hrun : s₀.runAll (.start start :: cs) = .ok (answers, s)) {now : Nat} {answer : Answer}
    (hpump : s.run (.pump now) = .ok (answer, s')) :
    answer = .done ∧ s'.editor = { s.editor with events := [] } ∧
      s.editor.text =
        Splice.outcome s₀.editor.text (Editor.Command.splicesIn s₀.editor.text (edits cs)) ∧
      s'.pump.Reads r s.editor.text
        ((Editor.Command.batches s₀.editor.text (edits cs)).length + 1) ∧
      s₀.textsParsed (.start start :: cs ++ [.pump now]) =
        (s₀.editor.text :: s₀.textsTold (.start start :: cs)).map (· ++ ['\n']) := by
  obtain ⟨handled, waiting, hfollowing, htold, hparsed⟩ := h.run htotal hincremental hcs hrun
  obtain ⟨rfl, heditor, hfollowing', hparsed'⟩ := hfollowing.pump htotal hincremental hpump
  have hreads := hfollowing'.reads
  rw [hfollowing.batches, Editor.Command.flatten_batches, ← hfollowing.text] at hreads
  have hpumped : s.textsParsed [.pump now] = s.parsedBy s' (.pump now) := by
    rw [textsParsed, hpump]
    exact List.append_nil _
  refine ⟨rfl, heditor, hfollowing.text, hreads, ?_⟩
  rw [textsParsed_append hrun, hparsed, hpumped, hparsed', htold, ← hfollowing.batches,
    Splice.stops_append, ← List.map_append, List.cons_append]

/-- After any run from a start, pumping makes the pump have the editor's text and the tree that this
text has when it is parsed from nothing. Until then it has parsed the text of the start and the
texts that the editor held when it told of changes, each of them once and in their order, and no
other. Another run with the same edits comes to the same, wherever else it pumps and ticks. As long
as the texts fit, the pumping meets no fault. -/
theorem pump_follows_edits (h : s₀.Unstarted r) (htotal : r.Total) (hincremental : r.Incremental)
    {start : Nat} {cs : List Command} (hcs : ∀ c ∈ cs, c.routine = true) {answers : List Answer}
    (hrun : s₀.runAll (.start start :: cs) = .ok (answers, s)) (now : Nat) :
    ((∀ u ∈ Editor.Command.splicesIn s₀.editor.text (edits cs), u.after.Fits) →
      ∃ s', s.run (.pump now) = .ok (.done, s')) ∧
    ∀ (answer : Answer) (s' : Session τ σ), s.run (.pump now) = .ok (answer, s') →
      answer = .done ∧ s'.editor = { s.editor with events := [] } ∧
      s'.pump.Reads r s.editor.text (1 + (s₀.textsTold (.start start :: cs)).length) ∧
      s₀.textsParsed (.start start :: cs ++ [.pump now]) =
        (s₀.editor.text :: s₀.textsTold (.start start :: cs)).map (· ++ ['\n']) ∧
      ∀ (start₂ now₂ : Nat) (cs₂ : List Command) (answers₂ : List Answer) (answer₂ : Answer)
        (s₂ s₂' : Session τ σ), (∀ c ∈ cs₂, c.routine = true) → edits cs₂ = edits cs →
        s₀.runAll (.start start₂ :: cs₂) = .ok (answers₂, s₂) →
        s₂.run (.pump now₂) = .ok (answer₂, s₂') →
        s₂'.editor.text = s'.editor.text ∧
          s₂'.pump.Reads r s.editor.text (1 + (s₀.textsTold (.start start :: cs)).length) ∧
          s₀.textsParsed (.start start₂ :: cs₂ ++ [.pump now₂]) =
            s₀.textsParsed (.start start :: cs ++ [.pump now]) := by
  obtain ⟨handled, waiting, hfollowing, htold, -⟩ := h.run htotal hincremental hcs hrun
  have hcount : 1 + (s₀.textsTold (.start start :: cs)).length =
      (Editor.Command.batches s₀.editor.text (edits cs)).length + 1 := by
    rw [htold, Splice.length_stops, Nat.add_comm]
  rw [hcount]
  refine ⟨fun hfits => hfollowing.exists_pump htotal hfits now, ?_⟩
  intro answer s' hpump
  obtain ⟨rfl, heditor, htext, hreads, hparsed⟩ :=
    h.run_pump htotal hincremental hcs hrun hpump
  refine ⟨rfl, heditor, hreads, hparsed, ?_⟩
  intro start₂ now₂ cs₂ answers₂ answer₂ s₂ s₂' hcs₂ hedits hrun₂ hpump₂
  obtain ⟨rfl, heditor₂, htext₂, hreads₂, hparsed₂⟩ :=
    h.run_pump htotal hincremental hcs₂ hrun₂ hpump₂
  obtain ⟨-, -, -, htold₂, -⟩ := h.run htotal hincremental hcs₂ hrun₂
  -- all that the runs come to is told by their edits, and these are the same
  rw [hedits] at htext₂ htold₂ hreads₂
  have hsame : s₂.editor.text = s.editor.text := htext₂.trans htext.symm
  refine ⟨?_, hsame ▸ hreads₂, ?_⟩
  · rw [heditor₂, heditor]
    exact hsame
  · rw [hparsed₂, hparsed, htold₂, htold]

/-- A run in which the pump has handled one of three batches when the last two are made, beside one
with the same edits that is not pumped before its end. -/
theorem pump_follows_edits_of_comments :
    let s₀ : Session CommentTree MemoryStore :=
      ⟨.create .comments .default 150 400, .ofText "// é\n// b".toList 2, {}⟩
    let first : Editor.Command :=
      .operation [.insert ⟨0, 4⟩ ['x', '\n'], .delete ⟨1, 0⟩ ⟨0, 9⟩]
    let second : Editor.Command := .append ['y']
    let third : Editor.Command := .replace ⟨1, 2⟩ ⟨1, 0⟩ "//c\n//".toList
    let cs : List Command := [.edit first, .pump 10, .edit second, .tick 170, .edit (.scrollTo 1),
      .edit third, .overlay none]
    let ds : List Command := [.edit first, .edit second, .edit (.scrollTo 1), .edit third, .tick 9]
    s₀.Unstarted .comments ∧ Reader.comments.Total ∧ Reader.comments.Incremental ∧
      (∀ c ∈ cs, c.routine = true) ∧
      (∀ u ∈ Editor.Command.splicesIn s₀.editor.text (edits cs), u.after.Fits) ∧
      (s₀.textsTold (.start 0 :: cs)).length = 3 ∧
      ∃ answers s s' answers₂ s₂ s₂', s₀.runAll (.start 0 :: cs) = .ok (answers, s) ∧
        s.run (.pump 200) = .ok (.done, s') ∧
        s₀.runAll (.start 5 :: ds) = .ok (answers₂, s₂) ∧
        s₂.run (.pump 9) = .ok (.done, s₂') ∧
        s'.pump.Reads .comments s.editor.text 4 ∧ s₂'.pump.Reads .comments s.editor.text 4 ∧
        s₀.textsParsed (.start 5 :: ds ++ [.pump 9]) =
          (s₀.editor.text :: s₀.textsTold (.start 0 :: cs)).map (· ++ ['\n']) := by
  intro s₀ first second third cs ds
  have hunstarted : s₀.Unstarted .comments := ⟨⟨_, _, _, rfl⟩, ⟨rfl, rfl⟩, rfl⟩
  have hcs : ∀ c ∈ cs, c.routine = true := by decide
  have hds : ∀ c ∈ ds, c.routine = true := by decide
  have hfits : ∀ u ∈ Editor.Command.splicesIn s₀.editor.text (edits cs), u.after.Fits := by decide
  have hcount : (s₀.textsTold (.start 0 :: cs)).length = 3 := by decide +kernel
  obtain ⟨⟨answers, s⟩, hrun, -⟩ :=
    Checked.exists_ok (s₀.runAll (.start 0 :: cs)) (fun _ => true) (by decide +kernel)
  obtain ⟨⟨answers₂, s₂⟩, hrun₂, -⟩ :=
    Checked.exists_ok (s₀.runAll (.start 5 :: ds)) (fun _ => true) (by decide +kernel)
  obtain ⟨hexists, hpumped⟩ := pump_follows_edits hunstarted Reader.total_comments
    Reader.incremental_comments hcs hrun 200
  obtain ⟨s', hpump⟩ := hexists hfits
  obtain ⟨s₂', hpump₂⟩ := (pump_follows_edits hunstarted Reader.total_comments
    Reader.incremental_comments hds hrun₂ 9).1 hfits
  obtain ⟨-, -, hreads, hparsed, hothers⟩ := hpumped _ s' hpump
  obtain ⟨-, hreads₂, hparsed₂⟩ := hothers 5 9 ds answers₂ _ s₂ s₂' hds rfl hrun₂ hpump₂
  rw [hcount] at hreads hreads₂
  exact ⟨hunstarted, Reader.total_comments, Reader.incremental_comments, hcs, hfits, hcount,
    answers, s, s', answers₂, s₂, s₂', hrun, hpump, hrun₂, hpump₂, hreads, hreads₂,
    hparsed₂.trans hparsed⟩

end Session

end Lumen
