import Lumen.Proofs.Editor.Cover

/-!
# What edits do and record

Between two points, an edit splices the text: what is before the smaller of their indices and what
is behind the larger one stay, and the new text comes between (`text_replace_between`). The marks
follow the splice, and all else that changes is what the editor has to tell:

* `replace_of_atRest` — outside of operations the change is told at once, as one event;
* `replace_of_inside` — inside one it waits until the outermost operation ends.

Neither tells of an edit that replaces nothing by nothing. A change records the splice whole
(`edits_are_recorded_splices`): its points are those of the two indices, and its lines make up what
was removed and what was inserted.
-/

namespace Lumen

namespace Text

@[simp] theorem indexOf_zero (t : Text) : t.indexOf .zero = 0 := by
  cases t with
  | nil => rfl
  | cons c cs =>
      have hpos := c.utf8Size_pos
      simp [indexOf, Point.zero, hpos]

end Text

namespace Editor

variable {e : Editor} {p q : Point} {x : Text}

/-! ## Edits -/

/-- All that is done to an editor where an edit replaces bytes: the text is spliced, the marks
follow the splice, and its change waits to be told. -/
theorem replaceBytes_eq (e : Editor) (p q : Point) (x : Text) :
    e.replaceBytes (e.spanOf p q).1 (e.spanOf p q).2 x =
      { e with
        text := Splice.outcome e.text (e.text.splices p q x)
        marks := Mark.followAll e.marks (e.text.splices p q x)
        pending := e.pending ++ (e.text.splices p q x).map Splice.change } := by
  have hinside := inside_replaceBytes e p q x
  rw [← hinside.text, ← hinside.pending, ← marks_replaceBytes e p q x]
  unfold replaceBytes
  split <;> rfl

/-- An edit between the begin and the end of its own operation. -/
theorem replace_eq (e : Editor) (p q : Point) (x : Text) :
    e.replace p q x = leave { e with
      text := Splice.outcome e.text (e.text.splices p q x)
      marks := Mark.followAll e.marks (e.text.splices p q x)
      depth := e.depth + 1
      pending := e.pending ++ (e.text.splices p q x).map Splice.change } := by
  show leave (e.enter.replaceBytes (e.enter.spanOf p q).1 (e.enter.spanOf p q).2 x) = _
  rw [replaceBytes_eq]
  rfl

/-- Outside of operations, an edit tells of its splice by one event. -/
theorem replace_of_atRest (he : e.AtRest) (p q : Point) (x : Text) :
    e.replace p q x =
      { e with
        text := Splice.outcome e.text (e.text.splices p q x)
        marks := Mark.followAll e.marks (e.text.splices p q x)
        events := e.events ++ told (e.text.splices p q x)
        operations := e.operations + 1 } := by
  obtain ⟨hdepth, hpending⟩ := he
  rw [replace_eq]
  unfold leave told
  by_cases hnone : e.text.splices p q x = []
  · simp [hdepth, hpending, hnone]
  · simp [hdepth, hpending, hnone]

/-- Inside an operation, the change of the splice waits. -/
theorem replace_of_inside (h : 0 < e.depth) (p q : Point) (x : Text) :
    e.replace p q x =
      { e with
        text := Splice.outcome e.text (e.text.splices p q x)
        marks := Mark.followAll e.marks (e.text.splices p q x)
        pending := e.pending ++ (e.text.splices p q x).map Splice.change } := by
  have hbegun : e.depth ≠ 0 := Nat.ne_of_gt h
  rw [replace_eq]
  unfold leave
  simp [hbegun]

/-- An edit moves none of the rows that can be seen. -/
theorem rows_replace (e : Editor) (p q : Point) (x : Text) :
    (e.replace p q x).topRow = e.topRow ∧ (e.replace p q x).visibleRows = e.visibleRows := by
  rw [replace_eq]
  obtain ⟨_, _, _, _, hleave⟩ := leave_eq { e with
    text := Splice.outcome e.text (e.text.splices p q x)
    marks := Mark.followAll e.marks (e.text.splices p q x)
    depth := e.depth + 1
    pending := e.pending ++ (e.text.splices p q x).map Splice.change }
  rw [hleave]
  exact ⟨rfl, rfl⟩

/-- The points of an edit may come in any order. -/
theorem replace_comm (e : Editor) (p q : Point) (x : Text) : e.replace q p x = e.replace p q x := by
  have hspan : e.spanOf q p = e.spanOf p q := by
    rw [spanOf_eq, spanOf_eq, Nat.min_comm, Nat.max_comm]
  unfold replace
  rw [hspan]

theorem indexOf_endPoint (e : Editor) : e.text.indexOf e.endPoint = e.text.byteLength :=
  e.text.isBoundary_byteLength.indexOf_pointAt

theorem text_append (e : Editor) (x : Text) : (e.append x).text = e.text ++ x := by
  show (e.replace e.endPoint e.endPoint x).text = _
  rw [text_replace, indexOf_endPoint, Nat.min_self, Nat.max_self, Text.splice,
    Text.takeBytes_byteLength, Text.dropBytes_byteLength, List.append_nil]

theorem text_setText (e : Editor) (x : Text) : (e.setText x).text = x := by
  show (e.replace .zero e.endPoint x).text = _
  rw [text_replace, indexOf_endPoint, Text.indexOf_zero, Nat.zero_min, Nat.zero_max, Text.splice,
    Text.takeBytes_zero, Text.dropBytes_byteLength, List.nil_append, List.append_nil]

/-! ## Records -/

/-- That an editor becomes another which has some changes more to tell. Outside of operations they
are told as one event, if there are any; inside they wait behind those that wait already. -/
structure Records (e : Editor) (changes : List Change) (e' : Editor) : Prop where
  depth : e'.depth = e.depth
  outside : e.depth = 0 → e'.pending = [] ∧
    e'.events = e.events ++ if changes = [] then [] else [.changes changes]
  inside : 0 < e.depth → e'.pending = e.pending ++ changes ∧ e'.events = e.events

/-- An edit records the changes of its splices. -/
theorem records_replace (he : e.Reachable) (p q : Point) (x : Text) :
    e.Records ((e.text.splices p q x).map Splice.change) (e.replace p q x) := by
  refine ⟨depth_replace e p q x, ?_, ?_⟩
  · intro hdepth
    have hrest := he.atRest hdepth
    rw [replace_of_atRest hrest]
    refine ⟨hrest.pending, ?_⟩
    simp only [told, List.map_eq_nil_iff]
  · intro hinside
    rw [replace_of_inside hinside]
    exact ⟨rfl, rfl⟩

/-- The three stretches into which the smaller and the larger of two points cut a text. -/
theorem byteLength_spliceBetween {t : Text} (h : p.upTo q = true) (x : Text) :
    (t.spliceBetween p q x).front.byteLength = t.indexOf p ∧
      ((t.spliceBetween p q x).front ++ (t.spliceBetween p q x).removed).byteLength =
        t.indexOf q := by
  have hle := t.indexOf_mono h
  rw [t.byteLength_front, t.byteLength_front_removed, Nat.min_eq_left hle, Nat.max_eq_right hle]
  exact ⟨rfl, rfl⟩

/-- An edit makes one splice, unless it replaces nothing by nothing. -/
theorem splices_between {t : Text} (h : p.upTo q = true) (x : Text) :
    t.splices p q x =
      if t.indexOf p = t.indexOf q ∧ x = [] then [] else [t.spliceBetween p q x] := by
  have hle := t.indexOf_mono h
  unfold Text.splices
  simp only [Text.removed_eq_nil_iff]
  rw [Nat.min_eq_left hle, Nat.max_eq_right hle]

/-- The change of a splice between two points tells of the points of their indices and, line by
line, of what is removed and what is inserted. -/
theorem change_spliceBetween {t : Text} (h : p.upTo q = true) (x : Text) :
    let s := t.spliceBetween p q x
    s.change.start = t.pointAt (t.indexOf p) ∧ s.change.stop = t.pointAt (t.indexOf q) ∧
      Text.joinFeeds s.change.inserted = x ∧ Text.joinFeeds s.change.removed = s.removed ∧
      ∀ line ∈ s.change.inserted ++ s.change.removed, '\n' ∉ line := by
  intro s
  obtain ⟨hfront, hremoved⟩ := byteLength_spliceBetween (t := t) h x
  have hbefore : t = s.front ++ (s.removed ++ s.back) := by
    rw [← List.append_assoc]
    exact (t.before_spliceBetween p q x).symm
  refine ⟨?_, ?_, ?_, ?_, ?_⟩
  · show (Extent.ofChars s.front).point = _
    rw [← hfront, ← Text.pointAt_append, ← hbefore]
  · show (Extent.ofChars (s.front ++ s.removed)).point = _
    rw [← hremoved, ← Text.pointAt_append, List.append_assoc, ← hbefore]
  · exact Text.joinFeeds_splitFeeds x
  · exact Text.joinFeeds_splitFeeds s.removed
  · intro line hline
    rcases List.mem_append.mp hline with hline | hline
    · exact Text.feed_not_mem hline
    · exact Text.feed_not_mem hline

/-- Whatever has been done to an editor, an edit between two points, of which neither has to be in
the text, leaves the text before the index of the smaller one and the text behind the index of the
larger one, with the new text in place of what was between them. The order of the points makes no
difference. If nothing is replaced by nothing, then text, marks and what is to be told stay as they
are, and else there is one change more to tell. It has the points of the two indices, and its lines
make up the new text and the removed one. To append a text puts it behind all that is there, and to
set it puts it in place of all that is there. No edit moves the rows that can be seen. -/
theorem edits_are_recorded_splices (he : e.Reachable) :
    (∀ p q x, p.upTo q = true →
      let start := e.text.indexOf p
      let stop := e.text.indexOf q
      let e' := e.replace p q x
      start ≤ stop ∧ e.replace q p x = e' ∧
      ∃ front removed back, e.text = front ++ removed ++ back ∧
        front.byteLength = start ∧ (front ++ removed).byteLength = stop ∧
        e'.text = front ++ x ++ back ∧
        if start = stop ∧ x = [] then e'.text = e.text ∧ e'.marks = e.marks ∧ e.Records [] e'
        else ∃ c : Change, e.Records [c] e' ∧ c.start = e.text.pointAt start ∧
          c.stop = e.text.pointAt stop ∧ Text.joinFeeds c.inserted = x ∧
          Text.joinFeeds c.removed = removed ∧ ∀ line ∈ c.inserted ++ c.removed, '\n' ∉ line) ∧
    (∀ x, (e.append x).text = e.text ++ x) ∧
    (∀ x, (e.setText x).text = x) ∧
    ∀ c : Command, c.isEdit = true → ∃ e', e.run c = .ok (.done, e') ∧
      e'.topRow = e.topRow ∧ e'.visibleRows = e.visibleRows := by
  refine ⟨?_, text_append e, text_setText e, ?_⟩
  · intro p q x h start stop e'
    have hedited := followed_replace e p q x
    have hrecords := records_replace he p q x
    have hsplices := splices_between (t := e.text) h x
    obtain ⟨hfront, hremoved⟩ := byteLength_spliceBetween (t := e.text) h x
    refine ⟨e.text.indexOf_mono h, replace_comm e p q x, (e.text.spliceBetween p q x).front,
      (e.text.spliceBetween p q x).removed, (e.text.spliceBetween p q x).back,
      (e.text.before_spliceBetween p q x).symm, hfront, hremoved, text_replace e p q x, ?_⟩
    -- only an edit that replaces nothing by nothing is not recorded
    by_cases hidle : start = stop ∧ x = []
    · rw [if_pos hidle] at hsplices ⊢
      rw [hsplices] at hedited hrecords
      exact ⟨hedited.text, hedited.marks, hrecords⟩
    · rw [if_neg hidle] at hsplices ⊢
      rw [hsplices] at hrecords
      exact ⟨_, hrecords, change_spliceBetween h x⟩
  · intro c hc
    cases c with
    | insert | delete | replace | append | setText => exact ⟨_, rfl, rows_replace e _ _ _⟩
    | _ => exact absurd hc (by simp [Command.isEdit])

/-- An edit inside an operation in which an edit has been made before. Of its points one is past the
end of the text and one inside a character. -/
theorem edits_are_recorded_splices_of_operation :
    let e := (ofText ['a', 'é', '\n', 'b'] 2).enter.insert ⟨0, 0⟩ ['ß']
    let p : Point := ⟨0, 4⟩
    let q : Point := ⟨7, 0⟩
    let x : Text := ['\n', 'y']
    let e' := e.replace q p x
    e.Reachable ∧ e.depth = 1 ∧ e.pending.length = 1 ∧ p.upTo q = true ∧ e' = e.replace p q x ∧
    (∃ front removed back c, e.text = front ++ removed ++ back ∧ front.byteLength = 3 ∧
      (front ++ removed).byteLength = 7 ∧ e'.text = front ++ x ++ back ∧
      e'.pending = e.pending ++ [c] ∧ e'.events = e.events ∧ c.start = ⟨0, 3⟩ ∧ c.stop = ⟨1, 1⟩ ∧
      Text.joinFeeds c.inserted = x ∧ Text.joinFeeds c.removed = removed) ∧
    (e.append x).text = e.text ++ x ∧ (e.setText x).text = x ∧
    ∃ e'', e.run (.delete p q) = .ok (.done, e'') ∧ e''.topRow = e.topRow ∧
      e''.visibleRows = e.visibleRows := by
  intro e p q x e'
  have he : e.Reachable :=
    (reachable_ofText _ 2).calls (.head (.enter _) (.single (.replace _ _ _ _)))
  obtain ⟨hbetween, happend, hset, hrows⟩ := edits_are_recorded_splices he
  obtain ⟨-, hswap, front, removed, back, htext, hfront, hremoved, hafter, hrecord⟩ :=
    hbetween p q x (by decide)
  have heffective : ¬(e.text.indexOf p = e.text.indexOf q ∧ x = []) := by decide
  rw [if_neg heffective] at hrecord
  obtain ⟨c, hc, hstart, hstop, hinserted, hlines, -⟩ := hrecord
  obtain ⟨hpending, hevents⟩ := hc.inside (by decide)
  have hstart' : e.text.pointAt (e.text.indexOf p) = ⟨0, 3⟩ := by decide
  have hstop' : e.text.pointAt (e.text.indexOf q) = ⟨1, 1⟩ := by decide
  -- the first point is inside a character of two bytes, so the edit begins before the character
  have hthree : e.text.indexOf p = 3 := by decide
  have hseven : e.text.indexOf q = 7 := by decide
  rw [← hswap] at hafter hpending hevents
  exact ⟨he, by decide, by decide, by decide, hswap,
    ⟨front, removed, back, c, htext, hfront.trans hthree, hremoved.trans hseven, hafter, hpending,
      hevents, hstart.trans hstart', hstop.trans hstop', hinserted, hlines⟩,
    happend x, hset x, hrows (.delete p q) rfl⟩

end Editor

end Lumen
