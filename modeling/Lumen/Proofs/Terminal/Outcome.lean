import Lumen.Proofs.Store.File
import Lumen.Proofs.Terminal.Input
import Lumen.Proofs.Terminal.Play
import Lumen.Proofs.Terminal.Rows

/-!
# What comes of a run

What a run shows and what it leaves on the disk is settled by its arguments, the disk that it finds
and the lines of its input. The times that are read from the clock make no difference to either
(`settled_by_input`): the rows shown are those of the text that the run comes to, under an overlay
for the tree of that text, and the disk is the one that a single write of that text leaves.
-/

namespace Lumen

namespace Terminal

variable {τ : Type}

/-- The text that a run starts with. -/
def startText (args : Arguments) (home : Home) (disk : Disk) : Text :=
  if args.noPersist then firstText args ({} : MemoryStore)
  else firstText args (FileStore.openAt disk home.stateFile)

/-- The text that a run comes to: the one it starts with and all lines of the input behind it. -/
def lastText (args : Arguments) (home : Home) (disk : Disk) (input : Text) : Text :=
  startText args home disk ++ rowsText input.lines

/-- The disk when a text has been stored once, unless nothing is to be stored. -/
def diskWith (args : Arguments) (home : Home) (disk : Disk) (text : Text) : Disk :=
  if args.noPersist then disk
  else (Storage.set (FileStore.openAt disk home.stateFile) sourceKey text).1.disk

/-! ## With any store -/

/-- What is shown, and what is stored last, is settled by the lines, whatever store there is. -/
theorem runWith_eq {σ : Type} [Storage σ] {readers : Highlight.Readers τ} {args : Arguments}
    {c : Config} {disk : Disk} {r : Reader τ} (hreader : c.reader disk readers = .ok r)
    (htotal : r.Total) (hrows : max (visibleRows args c) 1 ≤ Size.largest) {lines : List Text}
    {store : σ} (hfits : (firstText args store ++ rowsText lines).Fits) (clock : Nat → Nat) :
    ∃ texts shown, runWith readers args c disk clock (lines.map some) store =
        ((Storage.set (Storage.afterTexts store texts) sourceKey
          (firstText args store ++ rowsText lines)).1, .ok (rowsText shown)) ∧
      (r.Incremental → Shows r c.palette (visibleRows args c)
        (firstText args store ++ rowsText lines) shown) := by
  obtain ⟨s, texts, shown, hplay, hstore, hshows⟩ :=
    play_eq htotal hrows hfits c.palette c.highlightDelay c.persistDelay store clock
  have hpump : c.pumpOf disk readers =
      .ok (.create r c.palette c.highlightDelay c.persistDelay) := by
    rw [Config.pumpOf, hreader]
    rfl
  refine ⟨texts, shown, ?_, hshows⟩
  rw [runWith]
  simp only [hpump, hplay, hstore]

/-! ## As a whole -/

/-- What a run is asked for, and what it finds: its disk once the folder for logs has been made, its
configuration, and what reads texts by the query of that. -/
structure Asked (readers : Highlight.Readers τ) (words : List Text) (home : Home) (disk : Disk)
    (args : Arguments) (found : Disk) (c : Config) (r : Reader τ) : Prop where
  ofWords_eq : Request.ofWords words = .ok (.run args)
  withLogs_eq : withLogs home disk = found
  configOf_eq : configOf args home found = c
  reader_eq : c.reader found readers = .ok r

section

variable {readers : Highlight.Readers τ} {words : List Text} {home : Home} {disk found : Disk}
  {args : Arguments} {c : Config} {r : Reader τ} {input : Text}

theorem Asked.visibleRows_le (h : Asked readers words home disk args found c r) :
    max (visibleRows args c) 1 ≤ Size.largest :=
  h.configOf_eq ▸ Terminal.visibleRows_le h.ofWords_eq home found

/-- What comes of a run, whatever times are read from the clock. -/
theorem Asked.runBy_eq (h : Asked readers words home disk args found c r) (htotal : r.Total)
    (hfits : (lastText args home found input).Fits) (clock : Nat → Nat) :
    ∃ shown, runBy readers words home disk clock (String.ofList input).toUTF8 =
        ⟨.ok (rowsText shown), diskWith args home found (lastText args home found input)⟩ ∧
      (r.Incremental →
        Shows r c.palette (visibleRows args c) (lastText args home found input) shown) := by
  rw [runBy]
  simp only [h.ofWords_eq, h.withLogs_eq, inputLines_toUTF8]
  rw [runArguments, h.configOf_eq, diskWith]
  rw [lastText, startText] at hfits ⊢
  simp only
  -- the same run twice, with a store in memory and with the file
  cases hpersist : args.noPersist with
  | true =>
      simp only [hpersist, if_true] at hfits ⊢
      obtain ⟨texts, shown, hrun, hshows⟩ :=
        runWith_eq h.reader_eq htotal h.visibleRows_le hfits clock
      rw [hrun]
      exact ⟨shown, rfl, hshows⟩
  | false =>
      simp only [hpersist, Bool.false_eq_true, if_false] at hfits ⊢
      obtain ⟨texts, shown, hrun, hshows⟩ :=
        runWith_eq h.reader_eq htotal h.visibleRows_le hfits clock
      rw [hrun, (FileStore.placed_openAt home found).set_afterTexts]
      exact ⟨shown, rfl, hshows⟩

/-- Where a text is stored, it is found in the file after the run. -/
theorem get?_diskWith (hpersist : args.noPersist = false) {text : Text}
    (hset : (Storage.set (FileStore.openAt disk home.stateFile) sourceKey text).2 = none) :
    Storage.get? (FileStore.openAt (diskWith args home disk text) home.stateFile) sourceKey =
      some text := by
  have hreopen := FileStore.openAt_set (FileStore.sorted_entriesAt disk home.stateFile) hset
  rw [diskWith, hpersist, if_neg Bool.false_ne_true]
  show Storage.get? (FileStore.openAt _ (FileStore.openAt disk home.stateFile).path) sourceKey = _
  rw [hreopen]
  exact LawfulStorage.get?_set _ sourceKey text

/-- Whatever times are read from the clock, a run shows the same rows and leaves the same disk. The
rows are those of the text that the run comes to, and the disk is that of one write of this text.
Either all writes of a run succeed or none does; if they succeed, the text is found in the file
afterwards. -/
theorem settled_by_input (h : Asked readers words home disk args found c r) (htotal : r.Total)
    (hincremental : r.Incremental) (hfits : (lastText args home found input).Fits) :
    ∃ shown, Shows r c.palette (visibleRows args c) (lastText args home found input) shown ∧
      (∀ clock, runBy readers words home disk clock (String.ofList input).toUTF8 =
        ⟨.ok (rowsText shown), diskWith args home found (lastText args home found input)⟩) ∧
      (Storage.Writable (FileStore.openAt found home.stateFile) ∨
        Storage.Unwritable (FileStore.openAt found home.stateFile)) ∧
      (args.noPersist = false → Storage.Writable (FileStore.openAt found home.stateFile) →
        ∀ clock, Storage.get? (FileStore.openAt
            (runBy readers words home disk clock (String.ofList input).toUTF8).disk
            home.stateFile) sourceKey =
          some (lastText args home found input)) := by
  obtain ⟨shown, -, hshows⟩ := h.runBy_eq htotal hfits fun _ => 0
  -- what is shown is told by the text alone, so it is the same for each clock
  have hrun : ∀ clock, runBy readers words home disk clock (String.ofList input).toUTF8 =
      ⟨.ok (rowsText shown), diskWith args home found (lastText args home found input)⟩ := by
    intro clock
    obtain ⟨shown', hrun, hshows'⟩ := h.runBy_eq htotal hfits clock
    rw [hrun, (hshows hincremental).unique (hshows' hincremental)]
  refine ⟨shown, hshows hincremental, hrun, ?_, ?_⟩
  · exact (FileStore.placed_openAt home found).writable_or_unwritable
  · intro hpersist hwritable clock
    rw [hrun]
    exact get?_diskWith hpersist (hwritable.set_eq_none _)

end

/-- A run on a text of which the last line is not ended, with a configuration by which the overlay
is due at once and the copy a little later. -/
theorem settled_by_input_of_comments :
    let home : Home := ⟨"/u".toList, none⟩
    let words : List Text := ["--rows".toList, "2".toList]
    let args : Arguments := { rows := some 2 }
    let yaml : Text := "highlight_debounce_ms: 0\npersist_debounce_ms: 7\n".toList
    let state : Text := "\x7b\"a\": \"\\u00e9\", \"sourceCode\": \"// a\\n\"\x7d".toList
    let disk : Disk := .folder [("u".toList, .folder [(".config".toList, .folder
      [("highlight-playground".toList, .folder
        [("config.yaml".toList, .file (String.ofList yaml).toUTF8),
          ("state.json".toList, .file (String.ofList state).toUTF8)])])])]
    let found := withLogs home disk
    let c : Config := { highlightDelay := 0, persistDelay := 7 }
    let readers : Highlight.Readers CommentTree := fun _ => .ok .comments
    let input : Text := "// é\r\n\nx".toList
    let last : Text := "// a\n// é\n\nx\n".toList
    Asked readers words home disk args found c .comments ∧ Reader.comments.Total ∧
      Reader.comments.Incremental ∧ lastText args home found input = last ∧ last.Fits ∧
      Storage.Writable (FileStore.openAt found home.stateFile) ∧
      ∃ shown, Shows .comments c.palette 2 last shown ∧
        ∀ clock, runBy readers words home disk clock (String.ofList input).toUTF8 =
            ⟨.ok (rowsText shown), diskWith args home found last⟩ ∧
          Storage.get? (FileStore.openAt
            (runBy readers words home disk clock (String.ofList input).toUTF8).disk
            home.stateFile) sourceKey = some last := by
  intro home words args yaml state disk found c readers input last
  have hconfig : configOf args home found = c := by decide +kernel
  have hasked : Asked readers words home disk args found c .comments :=
    ⟨rfl, rfl, hconfig, rfl⟩
  have hlast : lastText args home found input = last := by decide +kernel
  have hfits : last.Fits := by decide
  -- no folder on the way to the file is locked
  have hwritable : Storage.Writable (FileStore.openAt found home.stateFile) :=
    (FileStore.placed_openAt home found).writable rfl
  obtain ⟨shown, hshows, hrun, -, hstored⟩ := settled_by_input hasked
    Reader.total_comments Reader.incremental_comments (hlast.symm ▸ hfits)
  rw [hlast] at hshows hrun hstored
  exact ⟨hasked, Reader.total_comments, Reader.incremental_comments, hlast, hfits, hwritable,
    shown, hshows, fun clock => ⟨hrun clock, hstored rfl hwritable clock⟩⟩

end Terminal

end Lumen
