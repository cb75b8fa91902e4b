import Lumen.Proofs.Disk.Laws
import Lumen.Proofs.Disk.Paths
import Lumen.Proofs.Store.Json

/-!
# Stores in files

A store whose file is in the folder of its path (`FileStore.Placed`) leaves the same file and the
same disk however often it has been written before: of two writes the later counts (`set_set`), and
either all writes succeed or none does (`writable_or_unwritable`). They succeed where the disk
admits the file (`Placed.writable`), and what was written is found again when the store is opened
anew (`openAt_set`).
-/

namespace Lumen

/-- Whether no text of an editor is written, whenever it is set from now on. -/
def Storage.Unwritable {σ : Type} [Storage σ] (s : σ) : Prop :=
  ∀ texts text, (set (afterTexts s texts) sourceKey text).2 ≠ none

namespace FileStore

/-- Whether the file of a store has a name in the folder of its path. -/
def Placed (s : FileStore) : Prop :=
  ∃ folder name, Path.parent? s.path = some folder ∧
    Path.names s.path = Path.names folder ++ [name]

theorem placed_openAt (home : Home) (disk : Disk) : (openAt disk home.stateFile).Placed := by
  obtain ⟨folder, hparent, hnames⟩ := home.names_parent?_stateFile
  refine ⟨folder, "state.json".toList, hparent, ?_⟩
  rw [hnames]
  exact home.names_stateFile

variable {s : FileStore}

/-! ## Writing the file -/

theorem makeFolder_eq_ok {folder : Path} (hparent : Path.parent? s.path = some folder)
    {disk : Disk} :
    s.makeFolder = .ok disk ↔ s.disk.makeFolders (Path.names folder) = .ok disk := by
  rw [makeFolder, hparent]
  exact Checked.mapError_eq_ok

/-- How a write ends: at the folders, at the file or well. -/
inductive Saved (s : FileStore) : FileStore × Option SaveError → Prop
  | folders {cause} : s.makeFolder = .error cause → Saved s (s, some cause)
  | file {disk cause} : s.makeFolder = .ok disk →
      disk.writeText s.path s.entries.toJson = .error cause →
      Saved s ({ s with disk }, some (.file s.path cause))
  | written {disk disk'} : s.makeFolder = .ok disk →
      disk.writeText s.path s.entries.toJson = .ok disk' → Saved s ({ s with disk := disk' }, none)

theorem saved (s : FileStore) : s.Saved s.save := by
  rw [save]
  split
  · next cause hcause => exact .folders hcause
  · next disk hmade =>
      split
      · next cause hcause => exact .file hmade hcause
      · next disk' hwritten => exact .written hmade hwritten

/-- The folders of a file are there once they have been made, also when the file has been written.
-/
theorem Placed.makeFolder_self (h : s.Placed) {disk : Disk} (hmade : s.makeFolder = .ok disk)
    (es : Entries) :
    makeFolder { s with disk, entries := es } = .ok disk ∧
      ∀ t disk', disk.writeText s.path t = .ok disk' →
        makeFolder { s with disk := disk', entries := es } = .ok disk' := by
  obtain ⟨folder, name, hparent, hnames⟩ := h
  have hthere := Disk.makeFolders_self ((makeFolder_eq_ok hparent).mp hmade)
  have hparent' : ∀ d : Disk,
      Path.parent? (path { s with disk := d, entries := es }) = some folder :=
    fun _ => hparent
  refine ⟨(makeFolder_eq_ok (hparent' disk)).mpr hthere, ?_⟩
  intro t disk' hwritten
  rw [Disk.writeText, hnames] at hwritten
  exact (makeFolder_eq_ok (hparent' disk')).mpr (Disk.makeFolders_write hthere hwritten)

/-- A write after another leaves what it leaves without the other. -/
theorem Placed.save_save (h : s.Placed) (es : Entries) :
    save { s.save.1 with entries := es } = save { s with entries := es } := by
  have hsaved := s.saved
  generalize s.save = result at hsaved
  cases hsaved with
  | folders hcause => rfl
  | @file disk cause hmade hcause =>
      have hmade' : makeFolder { s with entries := es } = .ok disk := hmade
      rw [save, save, hmade', (h.makeFolder_self hmade es).1]
  | @written disk disk' hmade hwritten =>
      have hmade' : makeFolder { s with entries := es } = .ok disk := hmade
      have hsame : disk'.writeText s.path es.toJson = disk.writeText s.path es.toJson :=
        Disk.write_write hwritten _
      obtain ⟨disk₁, hwritten₁⟩ : ∃ disk₁, disk.writeText s.path es.toJson = .ok disk₁ :=
        Disk.exists_write hwritten _
      rw [save, save, hmade', (h.makeFolder_self hmade es).2 _ _ hwritten]
      simp only [hsame, hwritten₁]

/-- Whether a write succeeds does not depend on what is written. -/
theorem save_eq_none_of (h : s.save.2 = none) (es : Entries) :
    (save { s with entries := es }).2 = none := by
  have hsaved := s.saved
  generalize s.save = result at h hsaved
  cases hsaved with
  | folders | file => cases h
  | @written disk disk' hmade hwritten =>
      have hmade' : makeFolder { s with entries := es } = .ok disk := hmade
      obtain ⟨disk₁, hwritten₁⟩ : ∃ disk₁, disk.writeText s.path es.toJson = .ok disk₁ :=
        Disk.exists_write hwritten _
      rw [save, hmade']
      simp only [hwritten₁]

/-- Where the disk admits the file, it is written. -/
theorem Placed.save_eq_none (h : s.Placed) (hadmits : s.disk.Admits (Path.names s.path)) :
    s.save.2 = none := by
  obtain ⟨folder, name, hparent, hnames⟩ := h
  rw [hnames] at hadmits
  obtain ⟨disk, hmade⟩ := hadmits.exists_makeFolders
  have hbehind : ¬ Path.names folder ++ [name] <+: Path.names folder := by
    intro hprefix
    have hlength := hprefix.length_le
    rw [List.length_append, List.length_singleton] at hlength
    omega
  have hadmits' := hadmits.makeFolders hbehind hmade
  obtain ⟨disk', hwritten⟩ := hadmits'.exists_write (Disk.makeFolders_self hmade)
    (String.ofList s.entries.toJson).toUTF8
  have hwritten' : disk.writeText s.path s.entries.toJson = .ok disk' := by
    rw [Disk.writeText, hnames]
    exact hwritten
  rw [save, (makeFolder_eq_ok hparent).mpr hmade]
  simp only [hwritten']

/-- A write that succeeds leaves the text of all entries in the file. -/
theorem find_save (h : s.save.2 = none) :
    s.save.1.disk.find (Path.names s.path) =
      .ok (.file (String.ofList s.entries.toJson).toUTF8) := by
  have hsaved := s.saved
  generalize s.save = result at h hsaved ⊢
  cases hsaved with
  | folders | file => cases h
  | written hmade hwritten => exact Disk.find_write hwritten

theorem path_save (s : FileStore) : s.save.1.path = s.path := by
  have hsaved := s.saved
  generalize s.save = result at hsaved ⊢
  cases hsaved with
  | folders | file | written => rfl

/-- The entries of a file that holds the text of some are these. -/
theorem entriesAt_of_readText {disk : Disk} {path : Path} {es : Entries} (hsorted : es.Sorted)
    (h : disk.readText path = .ok es.toJson) : entriesAt disk path = es := by
  rw [entriesAt, h]
  simp only [Entries.ofJson?_toJson hsorted, Option.getD_some]

/-- What was written is found when the file is opened. -/
theorem openAt_save (hsorted : s.entries.Sorted) (h : s.save.2 = none) :
    openAt s.save.1.disk s.path = s.save.1 := by
  rw [openAt, entriesAt_of_readText hsorted (Disk.readText_of_find (find_save h)), ← path_save s,
    ← entries_save s]

/-- Entries that are read from a file are in order. -/
theorem sorted_entriesAt (disk : Disk) (path : Path) : (entriesAt disk path).Sorted := by
  rw [entriesAt]
  split
  · next t _ =>
      cases hread : Entries.ofJson? t with
      | none => exact List.Pairwise.nil
      | some es => exact Entries.sorted_ofJson? hread
  · exact List.Pairwise.nil

/-! ## Setting texts -/

theorem Placed.set (h : s.Placed) (key text : Text) : (Storage.set s key text).1.Placed := by
  have hpath : (Storage.set s key text).1.path = s.path := path_save _
  rw [Placed, hpath]
  exact h

/-- Of two texts that are set under one key the later counts, on the disk as in the entries. -/
theorem Placed.set_set (h : s.Placed) (key text text' : Text) :
    Storage.set (Storage.set s key text).1 key text' = Storage.set s key text' := by
  have hplaced : Placed { s with entries := s.entries.insert key text } := h
  have hentries := entries_save { s with entries := s.entries.insert key text }
  have hsave := hplaced.save_save ((s.entries.insert key text).insert key text')
  rw [Entries.insert_insert] at hsave
  show save { (save _).1 with entries := (save _).1.entries.insert key text' } = _
  rw [hentries, Entries.insert_insert]
  exact hsave

/-- An editor's text counts in place of all those that were set before it. -/
theorem Placed.set_afterTexts (h : s.Placed) (texts : List Text) (text : Text) :
    Storage.set (Storage.afterTexts s texts) sourceKey text = Storage.set s sourceKey text := by
  induction texts generalizing s with
  | nil => rfl
  | cons first texts ih =>
      have hlater : Storage.afterTexts s (first :: texts) =
          Storage.afterTexts (Storage.set s sourceKey first).1 texts := rfl
      rw [hlater, ih (h.set sourceKey first), h.set_set]

/-- Whether an editor's text is written depends neither on the text nor on those before it. -/
theorem Placed.set_eq_none_iff (h : s.Placed) (texts : List Text) (text text' : Text) :
    (Storage.set (Storage.afterTexts s texts) sourceKey text).2 = none ↔
      (Storage.set s sourceKey text').2 = none := by
  rw [h.set_afterTexts]
  exact ⟨fun hset => save_eq_none_of hset _, fun hset => save_eq_none_of hset _⟩

/-- Either all writes of an editor's text succeed or none does. -/
theorem Placed.writable_or_unwritable (h : s.Placed) :
    Storage.Writable s ∨ Storage.Unwritable s := by
  cases hset : (Storage.set s sourceKey []).2 with
  | none => exact .inl fun texts text => (h.set_eq_none_iff texts text []).mpr hset
  | some e =>
      refine .inr ?_
      intro texts text hnone
      rw [(h.set_eq_none_iff texts text []).mp hnone] at hset
      cases hset

/-- Where the disk admits the file, all writes succeed. -/
theorem Placed.writable (h : s.Placed) (hadmits : s.disk.Admits (Path.names s.path)) :
    Storage.Writable s := by
  intro texts text
  have hplaced : Placed { s with entries := s.entries.insert sourceKey text } := h
  exact (h.set_eq_none_iff texts text text).mpr (hplaced.save_eq_none hadmits)

/-- A text that was written is in the file with all other entries. -/
theorem find_set {key text : Text} (h : (Storage.set s key text).2 = none) :
    (Storage.set s key text).1.disk.find (Path.names s.path) =
      .ok (.file (String.ofList (s.entries.insert key text).toJson).toUTF8) :=
  find_save (s := { s with entries := s.entries.insert key text }) h

/-- A store whose text was written is found again when its file is opened. -/
theorem openAt_set (hsorted : s.entries.Sorted) {key text : Text}
    (h : (Storage.set s key text).2 = none) :
    openAt (Storage.set s key text).1.disk s.path = (Storage.set s key text).1 :=
  openAt_save (s := { s with entries := s.entries.insert key text })
    (Entries.sorted_insert hsorted key text) h

end FileStore

end Lumen
