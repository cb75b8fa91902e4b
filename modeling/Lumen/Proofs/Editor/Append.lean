import Lumen.Proofs.Editor.Records
import Lumen.Proofs.Editor.Replay
import Lumen.Terminal.Run

/-!
# Lines that are added to a text

To add a text to the end of another is one splice, with nothing behind it (`splices_append`). So a
line that is added to an editor is told as one batch of one change (`append_line`).
-/

namespace Lumen

namespace Terminal

@[simp] theorem rowsText_nil : rowsText [] = [] := rfl

theorem rowsText_cons (row : Text) (rows : List Text) :
    rowsText (row :: rows) = (row ++ ['\n']) ++ rowsText rows :=
  List.flatMap_cons

theorem rowsText_append (rows others : List Text) :
    rowsText (rows ++ others) = rowsText rows ++ rowsText others :=
  List.flatMap_append

end Terminal

namespace Editor.Command

/-- A text that is added goes behind all that is there. -/
theorem splices_append (t : Text) {x : Text} (hx : x ≠ []) :
    (Command.append x).splices t = [⟨t, [], [], x⟩] := by
  have hend : t.indexOf (t.pointAt t.byteLength) = t.byteLength :=
    t.isBoundary_byteLength.indexOf_pointAt
  have hsplice : t.spliceBetween (t.pointAt t.byteLength) (t.pointAt t.byteLength) x =
      ⟨t, [], [], x⟩ := by
    simp only [Text.spliceBetween, hend, Nat.min_self, Nat.max_self, Text.between,
      Text.takeBytes_byteLength, Text.dropBytes_byteLength]
  rw [Command.splices, Text.splices, hsplice, if_neg fun h => hx h.2]

/-- The commands that add lines one after the other. -/
def appends (lines : List Text) : List Command := lines.map fun line => .append (line ++ ['\n'])

theorem appends_append (lines : List Text) (line : Text) :
    appends (lines ++ [line]) = appends lines ++ [.append (line ++ ['\n'])] := by
  rw [appends, List.map_append]
  rfl

theorem splices_line (t line : Text) :
    (Command.append (line ++ ['\n'])).splices t = [⟨t, [], [], line ++ ['\n']⟩] :=
  splices_append t (by simp)

end Editor.Command

namespace Editor

/-- A line that is added to an editor at rest comes behind its text, and is told as one batch. -/
theorem append_line {e : Editor} (hrest : e.AtRest) (line : Text) :
    (e.append (line ++ ['\n'])).text = e.text ++ (line ++ ['\n']) ∧
      (e.append (line ++ ['\n'])).AtRest ∧
      Event.batches (e.append (line ++ ['\n'])).events =
        Event.batches e.events ++ [[Splice.change ⟨e.text, [], [], line ++ ['\n']⟩]] := by
  have hrun : e.run (.append (line ++ ['\n'])) = .ok (.done, e.append (line ++ ['\n'])) := rfl
  obtain ⟨htext, hrest', hbatches, -⟩ := run_batches rfl hrest hrun
  have hbatch : Command.batches e.text [.append (line ++ ['\n'])] =
      [[⟨e.text, [], [], line ++ ['\n']⟩]] := by
    rw [Command.batches, Command.splices_line, if_neg (List.cons_ne_nil _ _)]
    rfl
  rw [Command.splices_line] at htext
  rw [hbatch] at hbatches
  refine ⟨?_, hrest', hbatches⟩
  rw [htext]
  simp [Splice.outcome, Splice.after]

end Editor

end Lumen
