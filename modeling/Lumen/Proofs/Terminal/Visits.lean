import Lumen.Proofs.Terminal.Outcome

/-!
# Runs that follow one another

Runs that store what they come to, one after the other, lose nothing and add nothing twice
(`visits_accumulate`): in the end the file holds the text that the first run started with and the
lines of all inputs behind it, in their order, and everything else that was in it before. In
between, all of the disk but that file may change, also the configurations, as long as the file can
be written. The trees that texts have make no difference, as long as each text has one.

* `Visit.InOrder.find_last` — what one run leaves in the file;
* `Visits.readText_last` — what all of them leave, by induction on the runs.
-/

namespace Lumen

/-- There is a sample to start with. -/
theorem sampleSource_ne_nil : sampleSource ≠ [] := by
  rw [sampleSource, String.toList_join, sampleLines, List.map_cons, List.flatMap_cons,
    String.toList_append]
  intro hnone
  have hline := (List.append_eq_nil_iff.mp hnone).1
  exact List.cons_ne_nil _ _ (List.append_eq_nil_iff.mp hline).2

/-- An editor never starts empty. -/
theorem loadSource_ne_nil {σ : Type} [Storage σ] (s : σ) : loadSource s ≠ [] := by
  rw [loadSource]
  split
  · split
    · exact sampleSource_ne_nil
    · next hne => exact hne
  · exact sampleSource_ne_nil

theorem loadSource_of_get? {σ : Type} [Storage σ] {s : σ} {t : Text}
    (h : Storage.get? s sourceKey = some t) (hne : t ≠ []) : loadSource s = t := by
  rw [loadSource, h]
  exact if_neg hne

namespace FileStore

theorem entriesAt_congr {disk disk' : Disk} {path : Path}
    (h : disk'.find path.names = disk.find path.names) :
    entriesAt disk' path = entriesAt disk path := by
  rw [entriesAt, entriesAt, Disk.readText_congr h]

/-- What an editor starts with is settled by the entries of the file. -/
theorem loadSource_congr {disk disk' : Disk} {path : Path}
    (h : entriesAt disk' path = entriesAt disk path) :
    loadSource (openAt disk' path) = loadSource (openAt disk path) := by
  have hget : Storage.get? (openAt disk' path) sourceKey =
      Storage.get? (openAt disk path) sourceKey :=
    congrArg (Entries.get? · sourceKey) h
  rw [loadSource, loadSource, hget]

end FileStore

namespace Terminal

variable {τ : Type}

/-- The file for texts is not on the way to the folder for logs. -/
theorem not_stateFile_prefix_logs (home : Home) :
    ¬ Path.names home.stateFile <+: Path.names home.logs := by
  rw [home.names_logs, home.names_stateFile, List.prefix_append_right_inj]
  decide

/-- Making the folder for logs leaves the file for texts alone. -/
theorem find_withLogs (home : Home) (disk : Disk) :
    (withLogs home disk).find (Path.names home.stateFile) =
      disk.find (Path.names home.stateFile) := by
  rw [withLogs, Home.makeLogs]
  cases hmade : disk.makeFolders (Path.names home.logs) with
  | error e => rfl
  | ok d => exact Disk.find_makeFolders (not_stateFile_prefix_logs home) hmade

theorem admits_withLogs {home : Home} {disk : Disk}
    (h : disk.Admits (Path.names home.stateFile)) :
    (withLogs home disk).Admits (Path.names home.stateFile) := by
  rw [withLogs, Home.makeLogs]
  cases hmade : disk.makeFolders (Path.names home.logs) with
  | error e => exact h
  | ok d => exact h.makeFolders (not_stateFile_prefix_logs home) hmade

/-- A run with its command line, the disk that it finds, the times that it reads from the clock and
its input. -/
structure Visit where
  words : List Text
  disk : Disk
  clock : Nat → Nat
  input : Text

namespace Visit

/-- The disk that a run leaves. -/
def last (v : Visit) (readers : Highlight.Readers τ) (home : Home) : Disk :=
  (runBy readers v.words home v.disk v.clock (String.ofList v.input).toUTF8).disk

/-- What a run adds to the text: each line of its input, ended. -/
def added (v : Visit) : Text := rowsText v.input.lines

/-- Whether a run is asked for in order and stores what it comes to, behind what was stored, and
reads texts by a query that can be used. -/
def InOrder (v : Visit) (readers : Highlight.Readers τ) (home : Home) : Prop :=
  ∃ args found c r, Asked readers v.words home v.disk args found c r ∧ args.reset = false ∧
    args.noPersist = false ∧ r.Total

variable {v : Visit} {readers : Highlight.Readers τ} {home : Home}

/-- A run leaves in the file the text that it started with and its lines behind it, and all else
that was there. -/
theorem InOrder.find_last (h : v.InOrder readers home)
    (hadmits : v.disk.Admits (Path.names home.stateFile))
    (hfits : (loadSource (FileStore.openAt v.disk home.stateFile) ++ v.added).Fits) :
    (v.last readers home).find (Path.names home.stateFile) =
      .ok (.file (String.ofList ((FileStore.entriesAt v.disk home.stateFile).insert sourceKey
        (loadSource (FileStore.openAt v.disk home.stateFile) ++ v.added)).toJson).toUTF8) := by
  obtain ⟨args, found, c, r, hasked, hreset, hpersist, htotal⟩ := h
  have hfind := find_withLogs home v.disk
  have hadmits := admits_withLogs hadmits
  rw [hasked.withLogs_eq] at hfind hadmits
  have hentries := FileStore.entriesAt_congr hfind
  -- nothing is reset, so the run starts with the stored text and adds its lines
  have hstart : startText args home found =
      loadSource (FileStore.openAt v.disk home.stateFile) := by
    rw [startText, hpersist, if_neg Bool.false_ne_true, firstText, hreset,
      if_neg Bool.false_ne_true, FileStore.loadSource_congr hentries]
  have hlast : lastText args home found v.input =
      loadSource (FileStore.openAt v.disk home.stateFile) ++ v.added := by
    rw [lastText, hstart, added]
  rw [← hlast] at hfits
  obtain ⟨shown, hrun, -⟩ := hasked.runBy_eq htotal hfits v.clock
  have hwritable := (FileStore.placed_openAt home found).writable hadmits
  have hwritten := FileStore.find_set
    (hwritable.set_eq_none (lastText args home found v.input))
  rw [last, hrun, diskWith, hpersist,
    if_neg Bool.false_ne_true, ← hentries, ← hlast]
  exact hwritten

end Visit

/-- Runs that follow one another from a disk to another: each finds the file for texts as the run
before it has left it, and can write it if that one could. -/
inductive Visits (readers : Highlight.Readers τ) (home : Home) : Disk → List Visit → Disk → Prop
  | nil {disk} : Visits readers home disk [] disk
  | cons {disk last v vs} :
      v.disk.find (Path.names home.stateFile) = disk.find (Path.names home.stateFile) →
      (disk.Admits (Path.names home.stateFile) → v.disk.Admits (Path.names home.stateFile)) →
      v.InOrder readers home → Visits readers home (v.last readers home) vs last →
      Visits readers home disk (v :: vs) last

variable {readers : Highlight.Readers τ} {home : Home} {disk last : Disk} {vs : List Visit}

/-- Runs leave in the file the text that the first of them started with and the lines of all of them
behind it, and all else that was there. -/
theorem Visits.readText_last (h : Visits readers home disk vs last) (hne : vs ≠ [])
    (hadmits : disk.Admits (Path.names home.stateFile))
    (hfits : (loadSource (FileStore.openAt disk home.stateFile) ++ vs.flatMap Visit.added).Fits) :
    last.readText home.stateFile =
      .ok ((FileStore.entriesAt disk home.stateFile).insert sourceKey
        (loadSource (FileStore.openAt disk home.stateFile) ++ vs.flatMap Visit.added)).toJson := by
  induction h with
  | nil => exact absurd rfl hne
  | @cons disk last v vs hsame hopen horder hrest ih =>
      have hentries := FileStore.entriesAt_congr hsame
      have hstart := FileStore.loadSource_congr hentries
      rw [List.flatMap_cons, ← List.append_assoc] at hfits ⊢
      rw [← hentries, ← hstart]
      rw [← hstart] at hfits
      have hfirst : (loadSource (FileStore.openAt v.disk home.stateFile) ++ v.added).Fits := by
        rw [Text.Fits, Text.byteLength_append] at hfits
        rw [Text.Fits]
        omega
      have hwritten := horder.find_last (hopen hadmits) hfirst
      have hread := Disk.readText_of_find hwritten
      cases vs with
      | nil =>
          cases hrest with
          | nil => rw [List.flatMap_nil, List.append_nil, hread]
      | cons next vs =>
          -- the next run finds what this one has left, and starts with it as it is not empty
          have hsorted := Entries.sorted_insert
            (FileStore.sorted_entriesAt v.disk home.stateFile) sourceKey
            (loadSource (FileStore.openAt v.disk home.stateFile) ++ v.added)
          have hleft := FileStore.entriesAt_of_readText hsorted hread
          have hget : Storage.get? (FileStore.openAt (v.last readers home) home.stateFile)
              sourceKey = some (loadSource (FileStore.openAt v.disk home.stateFile) ++ v.added) :=
            (congrArg (Entries.get? · sourceKey) hleft).trans (Entries.get?_insert_self _ _ _)
          have hload := loadSource_of_get? hget (by
            intro hnone
            exact loadSource_ne_nil _ (List.append_eq_nil_iff.mp hnone).1)
          have hrun := ih (List.cons_ne_nil next vs) (Disk.admits_of_find hwritten)
            (hload.symm ▸ hfits)
          rw [hload, hleft, Entries.insert_insert] at hrun
          exact hrun

/-- Runs that follow one another lose nothing and add nothing twice: afterwards the file can be read
as entries of which one is the text that the first run started with, be it the stored one or the
sample, and the lines of all inputs behind it, in the order of the runs, each of them ended. All
other entries are those that were in the file before the first run. -/
theorem visits_accumulate (h : Visits readers home disk vs last) (hne : vs ≠ [])
    (hadmits : disk.Admits (Path.names home.stateFile))
    (hfits : (loadSource (FileStore.openAt disk home.stateFile) ++ vs.flatMap Visit.added).Fits) :
    ∃ t es, last.readText home.stateFile = .ok t ∧ Entries.ofJson? t = some es ∧
      es.get? sourceKey = some (loadSource (FileStore.openAt disk home.stateFile) ++
        vs.flatMap fun v => rowsText v.input.lines) ∧
      ∀ key, key ≠ sourceKey →
        es.get? key = (FileStore.entriesAt disk home.stateFile).get? key := by
  have hread := h.readText_last hne hadmits hfits
  have hsorted := Entries.sorted_insert (FileStore.sorted_entriesAt disk home.stateFile) sourceKey
    (loadSource (FileStore.openAt disk home.stateFile) ++ vs.flatMap Visit.added)
  exact ⟨_, _, hread, Entries.ofJson?_toJson hsorted, Entries.get?_insert_self _ _ _,
    fun key hkey => Entries.get?_insert_of_ne hkey _ _⟩

/-- Two runs, of which the second sees the times run backwards and an empty line, on a file that has
another entry. -/
theorem visits_accumulate_of_comments :
    let home : Home := ⟨"/u".toList, none⟩
    let state : Text := "\x7b\"note\": \"\\u00fc\", \"sourceCode\": \"// a\\n\"\x7d".toList
    let disk : Disk := .folder [("u".toList, .folder [(".config".toList, .folder
      [("highlight-playground".toList, .folder
        [("state.json".toList, .file (String.ofList state).toUTF8)])])])]
    let readers : Highlight.Readers CommentTree := fun _ => .ok .comments
    let v₁ : Visit := ⟨[], disk, fun i => 100 * i, "// \"é\"\r\n\\".toList⟩
    let v₂ : Visit :=
      ⟨["--rows".toList, "1".toList], v₁.last readers home, fun i => 3000 - i, "\n// b".toList⟩
    Visits readers home disk [v₁, v₂] (v₂.last readers home) ∧
      disk.Admits (Path.names home.stateFile) ∧
      (loadSource (FileStore.openAt disk home.stateFile) ++ [v₁, v₂].flatMap Visit.added).Fits ∧
      ∃ t es, (v₂.last readers home).readText home.stateFile = .ok t ∧
        Entries.ofJson? t = some es ∧
        es.get? sourceKey = some "// a\n// \"é\"\n\\\n\n// b\n".toList ∧
        es.get? "note".toList = some "ü".toList := by
  intro home state disk readers v₁ v₂
  have hconfig₁ : configOf {} home (withLogs home v₁.disk) = {} := by decide +kernel
  have hconfig₂ : configOf { rows := some 1 } home (withLogs home v₂.disk) = {} := by
    decide +kernel
  -- the second run finds the disk that the first one has left
  have hvisits : Visits readers home disk [v₁, v₂] (v₂.last readers home) :=
    .cons rfl id ⟨{}, _, {}, .comments, ⟨rfl, rfl, hconfig₁, rfl⟩, rfl, rfl, Reader.total_comments⟩
      (.cons rfl id ⟨{ rows := some 1 }, _, {}, .comments, ⟨rfl, rfl, hconfig₂, rfl⟩, rfl, rfl,
        Reader.total_comments⟩ .nil)
  have hadmits : disk.Admits (Path.names home.stateFile) := rfl
  have hload : loadSource (FileStore.openAt disk home.stateFile) = "// a\n".toList := by
    decide +kernel
  have hfits : (loadSource (FileStore.openAt disk home.stateFile) ++
      [v₁, v₂].flatMap Visit.added).Fits := by
    rw [hload]
    decide +kernel
  obtain ⟨t, es, hread, hjson, hsource, hothers⟩ :=
    visits_accumulate hvisits (List.cons_ne_nil _ _) hadmits hfits
  refine ⟨hvisits, hadmits, hfits, t, es, hread, hjson, ?_, ?_⟩
  · rw [hsource, hload]
    decide +kernel
  · rw [hothers "note".toList (by decide)]
    decide +kernel

end Terminal

end Lumen
