import Lumen.Store.Basic

/-!
# Laws of stores

What is set in a store is what it holds from then on, in memory and in a file alike, whether or not
it could be written (`LawfulStorage`). A store is writable if its writes succeed, however often the
text of an editor is set (`Storage.Writable`).
-/

namespace Lumen

namespace Entries

/-- The entry that was put in is the one that is found. -/
theorem get?_insert_self (key value : Text) (es : Entries) :
    (es.insert key value).get? key = some value := by
  induction es with
  | nil => simp [insert, get?]
  | cons e es ih =>
      rw [insert]
      split
      · simp [get?]
      · next hne =>
          split
          · simp [get?]
          · have hother : (key == e.1) = false := beq_eq_false_iff_ne.mpr hne
            show List.lookup key (e :: insert key value es) = some value
            rw [List.lookup_cons, hother]
            exact ih

/-- All other entries are found as before. -/
theorem get?_insert_of_ne {key other : Text} (h : other ≠ key) (value : Text) (es : Entries) :
    (es.insert key value).get? other = es.get? other := by
  have hkey : (other == key) = false := beq_eq_false_iff_ne.mpr h
  induction es with
  | nil => simp [insert, get?, hkey]
  | cons e es ih =>
      rw [insert]
      split
      · next heq => rw [get?, get?, List.lookup_cons, List.lookup_cons, ← heq, hkey]
      · split
        · simp [get?, List.lookup_cons, hkey]
        · rw [get?, get?, List.lookup_cons, List.lookup_cons]
          split
          · rfl
          · exact ih

/-- Of two values under one key the later counts. -/
theorem insert_insert (key value value' : Text) (es : Entries) :
    (es.insert key value).insert key value' = es.insert key value' := by
  induction es with
  | nil => simp [insert]
  | cons e es ih =>
      rw [insert, insert]
      split
      · simp [insert]
      · next hne =>
          split
          · simp [insert]
          · next hnot => simp [insert, hne, hnot, ih]

end Entries

/-- A store that holds what is set in it. -/
class LawfulStorage (σ : Type) [Storage σ] : Prop where
  get?_set (s : σ) (key text : Text) : Storage.get? (Storage.set s key text).1 key = some text

instance : LawfulStorage MemoryStore where
  get?_set s key text := Entries.get?_insert_self key text s.entries

namespace FileStore

/-- Writing the file leaves the entries alone. -/
theorem entries_save (s : FileStore) : s.save.1.entries = s.entries := by
  rw [save]
  split
  · rfl
  · split
    · rfl
    · rfl

end FileStore

instance : LawfulStorage FileStore where
  get?_set s key text := by
    show (FileStore.save { s with entries := s.entries.insert key text }).1.entries.get? key = _
    rw [FileStore.entries_save]
    exact Entries.get?_insert_self key text s.entries

namespace Storage

variable {σ : Type} [Storage σ]

/-- The store when an editor's text has been set some times. -/
def afterTexts (s : σ) (texts : List Text) : σ :=
  texts.foldl (fun s text => (set s sourceKey text).1) s

/-- Whether an editor's text is written whenever it is set from now on. -/
def Writable (s : σ) : Prop :=
  ∀ texts text, (set (afterTexts s texts) sourceKey text).2 = none

theorem Writable.set_eq_none {s : σ} (h : Writable s) (text : Text) :
    (set s sourceKey text).2 = none :=
  h [] text

theorem Writable.set {s : σ} (h : Writable s) (text : Text) :
    Writable (set s sourceKey text).1 :=
  fun texts text' => h (text :: texts) text'

theorem writable_memoryStore (s : MemoryStore) : Writable s := fun _ _ => rfl

end Storage

end Lumen
