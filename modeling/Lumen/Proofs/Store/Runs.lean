import Lumen.Proofs.Store.File
import Mathlib.Data.List.Induction

/-!
# Sets one after the other

Texts are set in a store under any keys. If all of them are written, the store is found again when
its file is opened (`reopened_as_saved`).

Others may change the disk meanwhile, so that some sets are written and some are not. A set that is
not written leaves all files alone (`readBytes_set_iff`), but not the entries: they keep what it has
set. So what was set since the last write is in memory only (`failed_sets_stay_in_memory`), and
memory and file do not drift apart any further: the next write brings all of it to the file.
-/

namespace Lumen

namespace Entries

theorem insertAll_append (es fs gs : Entries) :
    es.insertAll (fs ++ gs) = (es.insertAll fs).insertAll gs :=
  List.foldl_append

theorem sorted_insertAll {es : Entries} (h : es.Sorted) (fs : Entries) :
    (es.insertAll fs).Sorted := by
  induction fs generalizing es with
  | nil => exact h
  | cons f fs ih => exact ih (sorted_insert h f.1 f.2)

/-- Of all values that are put in under a key the last counts, and if there are none, the one that
was there. -/
theorem get?_insertAll (es fs : Entries) (key : Text) :
    (es.insertAll fs).get? key = (fs.reverse.lookup key).or (es.get? key) := by
  induction fs using List.reverseRecOn with
  | nil => rfl
  | append_singleton fs f ih =>
      have hlast : es.insertAll (fs ++ [f]) = (es.insertAll fs).insert f.1 f.2 :=
        insertAll_append es fs [f]
      rw [hlast, List.reverse_concat, List.lookup_cons]
      by_cases heq : key = f.1
      · subst heq
        rw [get?_insert_self, beq_self_eq_true]
        rfl
      · rw [get?_insert_of_ne heq, ih, beq_eq_false_iff_ne.mpr heq]

end Entries

namespace Storage

variable {σ : Type} [Storage σ]

/-- The store when texts have been set under their keys, one after the other. -/
def afterSets (s : σ) (ws : Entries) : σ := ws.foldl (fun s w => (set s w.1 w.2).1) s

/-- What kept each of some texts from being written when they are set one after the other. -/
def outcomes (s : σ) : Entries → List (Option SaveError)
  | [] => []
  | w :: ws => (set s w.1 w.2).2 :: outcomes (set s w.1 w.2).1 ws

theorem afterSets_concat (s : σ) (ws : Entries) (w : Text × Text) :
    afterSets s (ws ++ [w]) = (set (afterSets s ws) w.1 w.2).1 := by
  rw [afterSets, List.foldl_append]
  rfl

theorem outcomes_concat (s : σ) (ws : Entries) (w : Text × Text) :
    outcomes s (ws ++ [w]) = outcomes s ws ++ [(set (afterSets s ws) w.1 w.2).2] := by
  induction ws generalizing s with
  | nil => rfl
  | cons u ws ih =>
      rw [List.cons_append, outcomes, outcomes, ih]
      rfl

end Storage

namespace FileStore

open Storage (afterSets outcomes)

/-! ## What is in the file -/

/-- The text that the file at a path has under a key, if the file is an object of texts. -/
def kept? (disk : Disk) (path : Path) (key : Text) : Option Text := do
  let t ← (disk.readText path).toOption
  let es ← Entries.ofJson? t
  es.get? key

theorem get?_entriesAt (disk : Disk) (path : Path) (key : Text) :
    (entriesAt disk path).get? key = kept? disk path key := by
  rw [entriesAt, kept?]
  cases disk.readText path with
  | error e => rfl
  | ok t =>
      show ((Entries.ofJson? t).getD []).get? key = _
      cases hread : Entries.ofJson? t with
      | none => simp [Except.toOption, hread, Entries.get?]
      | some es => simp [Except.toOption, hread]

variable {s : FileStore}

theorem entries_set (s : FileStore) (key text : Text) :
    (Storage.set s key text).1.entries = s.entries.insert key text :=
  entries_save _

theorem path_set (s : FileStore) (key text : Text) : (Storage.set s key text).1.path = s.path :=
  path_save _

theorem entries_afterSets (s : FileStore) (ws : Entries) :
    (afterSets s ws).entries = s.entries.insertAll ws := by
  induction ws generalizing s with
  | nil => rfl
  | cons w ws ih =>
      have hrest := ih (Storage.set s w.1 w.2).1
      rw [entries_set] at hrest
      exact hrest

theorem path_afterSets (s : FileStore) (ws : Entries) : (afterSets s ws).path = s.path := by
  induction ws generalizing s with
  | nil => rfl
  | cons w ws ih => exact (ih _).trans (path_set s w.1 w.2)

/-! ## Sets that are written -/

/-- A store of which all sets were written is the one that is found when its file is opened. -/
theorem openAt_afterSets {disk : Disk} {path : Path} {ws : Entries}
    (h : ∀ o ∈ outcomes (openAt disk path) ws, o = none) :
    openAt (afterSets (openAt disk path) ws).disk path = afterSets (openAt disk path) ws := by
  rcases List.eq_nil_or_concat ws with rfl | ⟨ws, w, rfl⟩
  · rfl
  · have hsorted := Entries.sorted_insertAll (sorted_entriesAt disk path) ws
    have hentries := entries_afterSets (openAt disk path) ws
    have hpath := path_afterSets (openAt disk path) ws
    rw [List.concat_eq_append, Storage.outcomes_concat] at h
    -- only the last write counts, because it writes all entries
    have hlast := h _ (List.mem_append_right _ (List.mem_singleton_self _))
    have hfound := openAt_set (hentries ▸ hsorted) hlast
    rw [hpath] at hfound
    rw [List.concat_eq_append, Storage.afterSets_concat]
    exact hfound

/-- If all sets are written, the store that is opened from the file finds under every key what the
store that wrote it finds there. This is what was last set under the key, or else what the file had
under it at first, which is nothing if it was no object of texts. -/
theorem reopened_as_saved (disk : Disk) (path : Path) (ws : Entries)
    (h : ∀ o ∈ outcomes (openAt disk path) ws, o = none) (key : Text) :
    Storage.get? (openAt (afterSets (openAt disk path) ws).disk path) key =
        Storage.get? (afterSets (openAt disk path) ws) key ∧
      Storage.get? (afterSets (openAt disk path) ws) key =
        (ws.reverse.lookup key).or (kept? disk path key) := by
  constructor
  · rw [openAt_afterSets h]
  · show (afterSets (openAt disk path) ws).entries.get? key = _
    rw [entries_afterSets, Entries.get?_insertAll]
    exact congrArg _ (get?_entriesAt disk path key)

/-- A file that holds an escaped character and a key that stays, and two sets under one key, of a
text with quotes, backslashes and controls and of one with a character outside the basic plane. -/
theorem reopened_as_saved_of_escapes :
    let disk : Disk := .folder [("state.json".toList,
      .file "\x7b \"kept\": \"\\u00e9\", \"k\": \"old\" \x7d".toUTF8)]
    let path := "state.json".toList
    let ws : Entries := [(['k'], ['"', '\\', '\n', '\x00']), ([], []), (['k'], ['😀', '\x7f'])]
    (∀ o ∈ outcomes (openAt disk path) ws, o = none) ∧
      (∀ key, Storage.get? (openAt (afterSets (openAt disk path) ws).disk path) key =
        (ws.reverse.lookup key).or (kept? disk path key)) ∧
      kept? disk path "kept".toList = some ['é'] ∧ kept? disk path ['k'] = some "old".toList := by
  intro disk path ws
  have hsaved : ∀ o ∈ outcomes (openAt disk path) ws, o = none := by decide
  refine ⟨hsaved, ?_, by decide, by decide⟩
  intro key
  obtain ⟨hsame, hlast⟩ := reopened_as_saved disk path ws hsaved key
  exact hsame.trans hlast

/-! ## Sets that are not written -/

/-- The folders for a file are made without any file being made or changed. -/
theorem readBytes_makeFolder_iff {disk : Disk} (h : s.makeFolder = .ok disk) (path : Path)
    (bytes : ByteArray) : disk.readBytes path = .ok bytes ↔ s.disk.readBytes path = .ok bytes := by
  rw [makeFolder] at h
  split at h
  · rw [← Except.ok.inj h]
  · next folder _ =>
      have hmade := Checked.mapError_eq_ok.mp h
      rw [Disk.readBytes_eq_ok_iff, Disk.readBytes_eq_ok_iff]
      exact exists_congr fun locked => Disk.find_makeFolders_eq_file_iff hmade _ _ locked

/-- A set that is not written leaves all files alone. -/
theorem readBytes_set_iff {key text : Text} (h : (Storage.set s key text).2 ≠ none) (path : Path)
    (bytes : ByteArray) :
    (Storage.set s key text).1.disk.readBytes path = .ok bytes ↔
      s.disk.readBytes path = .ok bytes := by
  have hsaved := saved { s with entries := s.entries.insert key text }
  change (save _).2 ≠ none at h
  show (save _).1.disk.readBytes path = .ok bytes ↔ _
  generalize save { s with entries := s.entries.insert key text } = result at h hsaved ⊢
  cases hsaved with
  | folders hcause => exact Iff.rfl
  | file hmade hcause => exact readBytes_makeFolder_iff hmade path bytes
  | written hmade hwritten => exact absurd rfl h

/-- What is in a store and its file when texts have been set in it, of which some were written and
some were not, while the disk became another one now and then: the store, the entries that the file
had when it was last written or else when it was opened, and the texts that have been set and not
written since. -/
inductive Lasting (path : Path) : FileStore → Entries → Entries → Prop
  | opened (disk : Disk) : Lasting path (openAt disk path) (entriesAt disk path) []
  | changed {s : FileStore} {written unwritten : Entries} (disk : Disk) :
      Lasting path s written unwritten → Lasting path { s with disk } written unwritten
  | written {s : FileStore} {written unwritten : Entries} {key text : Text} :
      Lasting path s written unwritten → (Storage.set s key text).2 = none →
      Lasting path (Storage.set s key text).1
        (entriesAt (Storage.set s key text).1.disk path) []
  | failed {s : FileStore} {written unwritten : Entries} {key text : Text} :
      Lasting path s written unwritten → (Storage.set s key text).2 ≠ none →
      Lasting path (Storage.set s key text).1 written (unwritten ++ [(key, text)])

theorem Lasting.path_eq {path : Path} {written unwritten : Entries}
    (h : Lasting path s written unwritten) : s.path = path := by
  induction h with
  | opened disk => rfl
  | changed disk _ ih => exact ih
  | written _ _ ih => exact (path_set _ _ _).trans ih
  | failed _ _ ih => exact (path_set _ _ _).trans ih

/-- The entries are those of the last write with all that was set since. -/
theorem Lasting.entries_eq {path : Path} {written unwritten : Entries}
    (h : Lasting path s written unwritten) :
    s.entries = written.insertAll unwritten ∧ s.entries.Sorted := by
  induction h with
  | opened disk => exact ⟨rfl, sorted_entriesAt disk path⟩
  | changed disk _ ih => exact ih
  | @written s _ _ key text hs hset ih =>
      have hfound := openAt_set ih.2 hset
      rw [hs.path_eq] at hfound
      refine ⟨(congrArg FileStore.entries hfound).symm, ?_⟩
      rw [entries_set]
      exact Entries.sorted_insert ih.2 key text
  | @failed s _ _ key text _ _ ih =>
      rw [entries_set, Entries.insertAll_append, ← ih.1]
      exact ⟨rfl, Entries.sorted_insert ih.2 key text⟩

/-- A set that is not written leaves every file as it is and is found all the same, while all other
keys have what they had. So the entries are at all times those of the last write, or those that were
read when the file was opened, with what was set since and not written. -/
theorem failed_sets_stay_in_memory :
    (∀ (s : FileStore) (key text : Text), (Storage.set s key text).2 ≠ none →
      (∀ path bytes, (Storage.set s key text).1.disk.readBytes path = .ok bytes ↔
        s.disk.readBytes path = .ok bytes) ∧
      Storage.get? (Storage.set s key text).1 key = some text ∧
      ∀ other, other ≠ key →
        Storage.get? (Storage.set s key text).1 other = Storage.get? s other) ∧
    ∀ (path : Path) (s : FileStore) (written unwritten : Entries),
      Lasting path s written unwritten → s.entries = written.insertAll unwritten := by
  constructor
  · intro s key text h
    refine ⟨readBytes_set_iff h, LawfulStorage.get?_set s key text, ?_⟩
    intro other hother
    show (Storage.set s key text).1.entries.get? other = s.entries.get? other
    rw [entries_set, Entries.get?_insert_of_ne hother]
  · intro path s written unwritten h
    exact h.entries_eq.1

/-- A text is found as soon as it is set, also where a file stands in the way of the folder and
nothing is written. -/
theorem failed_set_is_found :
    let s := openAt (.folder [(['a'], .file .empty)]) "a/b".toList
    (Storage.set s ['k'] ['v']).2 = some (.folder ['a'] .alreadyThere) ∧
      Storage.get? s ['k'] = none ∧
      Storage.get? (Storage.set s ['k'] ['v']).1 ['k'] = some ['v'] := by
  decide

/-- The file may not be written when a first text is set, and when a second one is set, it is gone
from a folder in which nothing new may be put. When all may be written again, both get to the file
with a third one. -/
theorem failed_sets_stay_in_memory_of_locked :
    let path := "a/b".toList
    let old := "\x7b \"k\": \"v\" \x7d".toUTF8
    let s := openAt (.folder [(['a'], .folder [(['b'], .file old true)])]) path
    let s₁ := (Storage.set s ['k'] ['w']).1
    let s₂ := (Storage.set { s₁ with disk := .folder [(['a'], .folder [] true)] } ['l'] ['x']).1
    let s₃ := (Storage.set { s₂ with disk := .empty } ['m'] []).1
    (Storage.set s ['k'] ['w']).2 = some (.file path .denied) ∧
      s.disk.readBytes path = .ok old ∧ s₁.disk.readBytes path = .ok old ∧
      Storage.get? s ['k'] = some ['v'] ∧ Storage.get? s₁ ['k'] = some ['w'] ∧
      Storage.get? s₁ ['l'] = Storage.get? s ['l'] ∧
      s₂.entries = (entriesAt s.disk path).insertAll [(['k'], ['w']), (['l'], ['x'])] ∧
      s₃.entries = (entriesAt s₃.disk path).insertAll [] ∧
      entriesAt s.disk path = [(['k'], ['v'])] ∧
      s₃.entries = [(['k'], ['w']), (['l'], ['x']), (['m'], [])] := by
  intro path old s s₁ s₂ s₃
  have hdenied : (Storage.set s ['k'] ['w']).2 = some (.file path .denied) := by decide +kernel
  have hfailed : (Storage.set s ['k'] ['w']).2 ≠ none := by simp [hdenied]
  have hfailed₂ : (Storage.set { s₁ with disk := .folder [(['a'], .folder [] true)] }
      ['l'] ['x']).2 ≠ none := by decide +kernel
  have hwritten : (Storage.set { s₂ with disk := .empty } ['m'] []).2 = none := by decide +kernel
  obtain ⟨hfiles, hfound, hothers⟩ := failed_sets_stay_in_memory.1 s ['k'] ['w'] hfailed
  -- the file is locked, then its folder is, and in the end neither is there
  have hlasting₁ : Lasting path s₁ (entriesAt s.disk path) [(['k'], ['w'])] :=
    .failed (.opened _) hfailed
  have hlasting₂ : Lasting path s₂ (entriesAt s.disk path) [(['k'], ['w']), (['l'], ['x'])] :=
    (hlasting₁.changed (.folder [(['a'], .folder [] true)])).failed hfailed₂
  have hlasting₃ : Lasting path s₃ (entriesAt s₃.disk path) [] :=
    (hlasting₂.changed .empty).written hwritten
  have hread : s.disk.readBytes path = .ok old := rfl
  have hread₁ : s₁.disk.readBytes path = .ok old := (hfiles path old).mpr hread
  have hother : Storage.get? s₁ ['l'] = Storage.get? s ['l'] := hothers ['l'] (by decide)
  have hmemory₂ := failed_sets_stay_in_memory.2 path s₂ _ _ hlasting₂
  have hmemory₃ := failed_sets_stay_in_memory.2 path s₃ _ _ hlasting₃
  refine ⟨hdenied, hread, hread₁, ?_, hfound, hother, hmemory₂, hmemory₃, ?_, ?_⟩
  all_goals decide +kernel

end FileStore

end Lumen
