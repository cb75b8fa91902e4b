import Lumen.Disk.Basic
import Lumen.Proofs.Checked

/-!
# Laws of disks

What is done to a disk along one way leaves alone what is at the end of other ways, and doing it
once more changes nothing more:

* `find_makeFolders` — making folders leaves alone all that is not on the way;
* `find_makeFolders_eq_file_iff` — it leaves alone all files, wherever they are;
* `makeFolders_self` — folders that have been made are there;
* `write_write`, `makeFolders_write` — of two writes to one file the later counts;
* `Admits.exists_makeFolders`, `Admits.exists_write` — where a file may be written or put, it can
  be written once the folders on the way are made.
-/

namespace Lumen

namespace Disk

/-! ## Entries of a folder -/

theorem lookup_put_self (entries : List (Text × Disk)) (name : Text) (d : Disk) :
    (put entries name d).lookup name = some d := by
  induction entries with
  | nil => simp [put]
  | cons e es ih =>
      rw [put]
      split
      · simp
      · next hne =>
          have hother : (name == e.1) = false := beq_eq_false_iff_ne.mpr (Ne.symm hne)
          rw [List.lookup_cons, hother]
          exact ih

theorem lookup_put_of_ne {name other : Text} (h : other ≠ name) (entries : List (Text × Disk))
    (d : Disk) : (put entries name d).lookup other = entries.lookup other := by
  induction entries with
  | nil => simp [put, h]
  | cons e es ih =>
      rw [put]
      split
      · next heq =>
          have hother : (other == name) = false := beq_eq_false_iff_ne.mpr h
          rw [List.lookup_cons, List.lookup_cons, heq, hother]
      · rw [List.lookup_cons, List.lookup_cons, ih]

theorem put_put (entries : List (Text × Disk)) (name : Text) (d d' : Disk) :
    put (put entries name d) name d' = put entries name d' := by
  induction entries with
  | nil => simp [put]
  | cons e es ih =>
      by_cases heq : e.1 = name
      · simp [put, heq]
      · simp [put, heq, ih]

/-! ## Folders -/

theorem makeFolders_folder_cons_eq {entries : List (Text × Disk)} {locked : Bool} {name : Text}
    {names : List Text} {d' : Disk}
    (h : (Disk.folder entries locked).makeFolders (name :: names) = .ok d') :
    (∃ d d₁, entries.lookup name = some d ∧ d.makeFolders names = .ok d₁ ∧
      d' = .folder (put entries name d₁) locked) ∨
    entries.lookup name = none ∧ locked = false ∧
      d' = .folder (put entries name (nested names)) := by
  rw [makeFolders] at h
  split at h
  · next d hd =>
      obtain ⟨d₁, hmade, heq⟩ := Checked.map_eq_ok.mp h
      exact .inl ⟨d, d₁, hd, hmade, heq.symm⟩
  · next hnone =>
      cases locked with
      | true => cases h
      | false => exact .inr ⟨hnone, rfl, (Except.ok.inj h).symm⟩

theorem makeFolders_nested (names : List Text) :
    (nested names).makeFolders names = .ok (nested names) := by
  induction names with
  | nil => rfl
  | cons name names ih =>
      rw [nested, makeFolders]
      simp only [List.lookup_cons, beq_self_eq_true, ih]
      simp [Except.map, put]

/-- Folders that have been made are there. -/
theorem makeFolders_self {d d' : Disk} {names : List Text} (h : d.makeFolders names = .ok d') :
    d'.makeFolders names = .ok d' := by
  induction names generalizing d d' with
  | nil =>
      cases d with
      | file bytes locked => cases h
      | folder entries locked =>
          obtain rfl := Except.ok.inj h
          rfl
  | cons name names ih =>
      cases d with
      | file bytes locked => cases h
      | folder entries locked =>
          -- a folder that was there and one that is new are both passed through the second time
          have hthere : ∀ (d₁ : Disk) (locked : Bool), d₁.makeFolders names = .ok d₁ →
              (Disk.folder (put entries name d₁) locked).makeFolders (name :: names) =
                .ok (.folder (put entries name d₁) locked) := by
            intro d₁ locked hd₁
            rw [makeFolders, lookup_put_self]
            simp only [hd₁, Except.map, put_put]
          rcases makeFolders_folder_cons_eq h with ⟨d, d₁, -, hmade, rfl⟩ | ⟨-, rfl, rfl⟩
          · exact hthere d₁ locked (ih hmade)
          · exact hthere _ false (makeFolders_nested names)

theorem find_nested {names others : List Text} (h : ¬ others <+: names) :
    (nested names).find others = .error .notFound := by
  induction others generalizing names with
  | nil => exact absurd List.nil_prefix h
  | cons other others ih =>
      cases names with
      | nil => rfl
      | cons name names =>
          rw [nested, find, List.lookup_cons]
          by_cases heq : other = name
          · subst heq
            rw [beq_self_eq_true]
            exact ih fun hrest => h ((List.prefix_cons_inj other).mpr hrest)
          · rw [beq_eq_false_iff_ne.mpr heq]
            rfl

/-- Making folders leaves alone what is at the end of each way that goes another way or on from
there. -/
theorem find_makeFolders {d d' : Disk} {names others : List Text} (h : ¬ others <+: names)
    (hmade : d.makeFolders names = .ok d') : d'.find others = d.find others := by
  induction names generalizing d d' others with
  | nil =>
      cases d with
      | file bytes locked => cases hmade
      | folder entries locked => rw [← Except.ok.inj hmade]
  | cons name names ih =>
      cases d with
      | file bytes locked => cases hmade
      | folder entries locked =>
          cases others with
          | nil => exact absurd List.nil_prefix h
          | cons other others =>
              -- by the first name: both ways go into the same folder, or they part here
              have hcases := makeFolders_folder_cons_eq hmade
              by_cases heq : other = name
              · subst heq
                have hrest : ¬ others <+: names :=
                  fun hrest => h ((List.prefix_cons_inj other).mpr hrest)
                rcases hcases with ⟨d, d₁, hd, hmade₁, rfl⟩ | ⟨hnone, -, rfl⟩
                · rw [find, find, lookup_put_self, hd]
                  exact ih hrest hmade₁
                · rw [find, find, lookup_put_self, hnone]
                  exact find_nested hrest
              · have hsame : ∀ (d₁ : Disk) (locked' : Bool),
                    (Disk.folder (put entries name d₁) locked').find (other :: others) =
                      (Disk.folder entries locked).find (other :: others) := by
                  intro d₁ locked'
                  rw [find, find, lookup_put_of_ne heq]
                rcases hcases with ⟨d, d₁, -, -, rfl⟩ | ⟨-, -, rfl⟩
                · exact hsame d₁ locked
                · exact hsame _ false

theorem find_nested_ne_file (names others : List Text) (bytes : ByteArray) (locked : Bool) :
    (nested names).find others ≠ .ok (.file bytes locked) := by
  induction others generalizing names with
  | nil => cases names <;> exact nofun
  | cons other others ih =>
      cases names with
      | nil => exact nofun
      | cons name names =>
          rw [nested, find, List.lookup_cons]
          by_cases heq : other = name
          · subst heq
            rw [beq_self_eq_true]
            exact ih names
          · rw [beq_eq_false_iff_ne.mpr heq]
            exact nofun

/-- Making folders leaves alone every file there is, and makes none, wherever the ways lead. -/
theorem find_makeFolders_eq_file_iff {d d' : Disk} {names : List Text}
    (hmade : d.makeFolders names = .ok d') (others : List Text) (bytes : ByteArray)
    (locked : Bool) :
    d'.find others = .ok (.file bytes locked) ↔ d.find others = .ok (.file bytes locked) := by
  induction names generalizing d d' others with
  | nil =>
      cases d with
      | file old locked' => cases hmade
      | folder entries locked' => rw [← Except.ok.inj hmade]
  | cons name names ih =>
      cases d with
      | file old locked' => cases hmade
      | folder entries locked' =>
          have hcases := makeFolders_folder_cons_eq hmade
          -- what has been made are folders, so where one is new there is no file, before or after
          cases others with
          | nil => rcases hcases with ⟨d, d₁, -, -, rfl⟩ | ⟨-, -, rfl⟩ <;> exact ⟨nofun, nofun⟩
          | cons other others =>
              by_cases heq : other = name
              · subst heq
                rcases hcases with ⟨d, d₁, hd, hmade₁, rfl⟩ | ⟨hnone, -, rfl⟩
                · rw [find, find, lookup_put_self, hd]
                  exact ih hmade₁ others
                · rw [find, find, lookup_put_self, hnone]
                  exact ⟨fun h => absurd h (find_nested_ne_file names others bytes locked), nofun⟩
              · have haway : ¬ other :: others <+: name :: names :=
                  fun hprefix => heq (List.cons_prefix_cons.mp hprefix).1
                rw [find_makeFolders haway hmade]

/-- If all folders on a way are there, those behind the first are in it. -/
theorem exists_lookup_of_makeFolders {entries : List (Text × Disk)} {locked : Bool} {name : Text}
    {names : List Text}
    (h : (Disk.folder entries locked).makeFolders (name :: names) =
      .ok (.folder entries locked)) :
    ∃ d, entries.lookup name = some d ∧ d.makeFolders names = .ok d := by
  rcases makeFolders_folder_cons_eq h with ⟨d, d₁, hd, hmade, heq⟩ | ⟨hnone, -, heq⟩
  · have hput := lookup_put_self entries name d₁
    rw [← (Disk.folder.inj heq).1, hd] at hput
    rw [← Option.some.inj hput] at hmade
    exact ⟨d, hd, hmade⟩
  · have hput := lookup_put_self entries name (nested names)
    rw [← (Disk.folder.inj heq).1, hnone] at hput
    cases hput

/-! ## Files -/

/-- A file that is there can be written just if it is not locked. -/
theorem write_file_eq {old bytes : ByteArray} {locked : Bool} {d' : Disk}
    (h : (Disk.file old locked).write [] bytes = .ok d') : locked = false ∧ d' = .file bytes := by
  cases locked with
  | true => cases h
  | false => exact ⟨rfl, (Except.ok.inj h).symm⟩

theorem write_folder_cons_eq {entries : List (Text × Disk)} {locked : Bool} {name : Text}
    {names : List Text} {bytes : ByteArray} {d' : Disk}
    (h : (Disk.folder entries locked).write (name :: names) bytes = .ok d') :
    (∃ d d₁, entries.lookup name = some d ∧ d.write names bytes = .ok d₁ ∧
      d' = .folder (put entries name d₁) locked) ∨
    entries.lookup name = none ∧ names = [] ∧ locked = false ∧
      d' = .folder (put entries name (.file bytes)) := by
  rw [write] at h
  split at h
  · next d hd =>
      obtain ⟨d₁, hwritten, heq⟩ := Checked.map_eq_ok.mp h
      exact .inl ⟨d, d₁, hd, hwritten, heq.symm⟩
  · next hnone =>
      split at h
      · next hlast =>
          cases locked with
          | true => cases h
          | false => exact .inr ⟨hnone, hlast, rfl, (Except.ok.inj h).symm⟩
      · cases h

/-- A file that has been written is there. -/
theorem find_write {d d' : Disk} {names : List Text} {bytes : ByteArray}
    (h : d.write names bytes = .ok d') : d'.find names = .ok (.file bytes) := by
  induction names generalizing d d' with
  | nil =>
      cases d with
      | folder entries locked => cases h
      | file old locked =>
          obtain ⟨-, rfl⟩ := write_file_eq h
          rfl
  | cons name names ih =>
      cases d with
      | file old locked => cases h
      | folder entries locked =>
          rcases write_folder_cons_eq h with ⟨d, d₁, -, hwritten, rfl⟩ | ⟨-, rfl, -, rfl⟩
          · rw [find, lookup_put_self]
            exact ih hwritten
          · rw [find, lookup_put_self]
            rfl

/-- Of two writes to one file the later counts. -/
theorem write_write {d d' : Disk} {names : List Text} {bytes : ByteArray}
    (h : d.write names bytes = .ok d') (bytes' : ByteArray) :
    d'.write names bytes' = d.write names bytes' := by
  induction names generalizing d d' with
  | nil =>
      cases d with
      | folder entries locked => cases h
      | file old locked =>
          obtain ⟨rfl, rfl⟩ := write_file_eq h
          rfl
  | cons name names ih =>
      cases d with
      | file old locked => cases h
      | folder entries locked =>
          rcases write_folder_cons_eq h with ⟨d, d₁, hd, hwritten, rfl⟩ | ⟨hnone, rfl, rfl, rfl⟩
          · rw [write, write, lookup_put_self, hd]
            simp only [ih hwritten, put_put]
          · rw [write, write, lookup_put_self, hnone]
            simp [write, Except.map, put_put]

/-- Whether a file can be written does not depend on what is written. -/
theorem write_eq_error {d : Disk} {names : List Text} {bytes : ByteArray} {e : DiskError}
    (h : d.write names bytes = .error e) (bytes' : ByteArray) :
    d.write names bytes' = .error e := by
  induction names generalizing d with
  | nil =>
      cases d with
      | folder entries locked => exact h
      | file old locked =>
          cases locked with
          | true => exact h
          | false => cases h
  | cons name names ih =>
      cases d with
      | file old locked => exact h
      | folder entries locked =>
          -- on the way to the file nothing is asked of its bytes
          rw [write] at h ⊢
          split at h
          · next d hd =>
              cases hwritten : d.write names bytes with
              | ok d₁ =>
                  rw [hwritten] at h
                  cases h
              | error e' =>
                  rw [hwritten] at h
                  obtain rfl := Except.error.inj h
                  rw [ih hwritten]
                  rfl
          · split at h
            · next hlast =>
                rw [if_pos hlast]
                cases locked with
                | true => exact h
                | false => cases h
            · next hnames => rw [if_neg hnames, h]

/-- Where something could be written, anything can be. -/
theorem exists_write {d d' : Disk} {names : List Text} {bytes : ByteArray}
    (h : d.write names bytes = .ok d') (bytes' : ByteArray) :
    ∃ d₁, d.write names bytes' = .ok d₁ := by
  cases hwrite : d.write names bytes' with
  | ok d₁ => exact ⟨d₁, rfl⟩
  | error e =>
      rw [write_eq_error hwrite bytes] at h
      cases h

/-- Writing a file leaves the folders on the way to it alone. -/
theorem makeFolders_write {d d' : Disk} {names : List Text} {name : Text} {bytes : ByteArray}
    (hmade : d.makeFolders names = .ok d) (h : d.write (names ++ [name]) bytes = .ok d') :
    d'.makeFolders names = .ok d' := by
  induction names generalizing d d' with
  | nil =>
      cases d with
      | file old locked => cases h
      | folder entries locked =>
          rcases write_folder_cons_eq h with ⟨d, d₁, -, -, rfl⟩ | ⟨-, -, -, rfl⟩
          · rfl
          · rfl
  | cons first names ih =>
      cases d with
      | file old locked => cases h
      | folder entries locked =>
          -- the folder is there, so the write goes into it
          obtain ⟨d, hd, hthere⟩ := exists_lookup_of_makeFolders hmade
          rcases write_folder_cons_eq h with ⟨d₂, d₁, hd₂, hwritten, rfl⟩ | ⟨hnone, -, -, -⟩
          · obtain rfl := Option.some.inj (hd.symm.trans hd₂)
            rw [makeFolders, lookup_put_self]
            simp only [ih hthere hwritten, Except.map, put_put]
          · rw [hd] at hnone
            cases hnone

/-! ## Where a file can be written -/

/-- Whether a file can be written at the end of the way along some names: one that is there is not
locked, or there is none yet and the last folder that is there is not locked. -/
def Admits : Disk → List Text → Prop
  | .file _ locked, [] => locked = false
  | .folder _ _, [] => False
  | .file _ _, _ :: _ => False
  | .folder entries locked, name :: names =>
    match entries.lookup name with
    | some d => d.Admits names
    | none => locked = false

theorem Admits.of_lookup {entries : List (Text × Disk)} {locked : Bool} {name : Text}
    {names : List Text} {d : Disk} (h : (Disk.folder entries locked).Admits (name :: names))
    (hd : entries.lookup name = some d) : d.Admits names := by
  rw [Admits, hd] at h
  exact h

theorem Admits.of_lookup_none {entries : List (Text × Disk)} {locked : Bool} {name : Text}
    {names : List Text} (h : (Disk.folder entries locked).Admits (name :: names))
    (hnone : entries.lookup name = none) : locked = false := by
  rw [Admits, hnone] at h
  exact h

/-- A file that is there and not locked can be written. -/
theorem admits_of_find {d : Disk} {names : List Text} {bytes : ByteArray}
    (h : d.find names = .ok (.file bytes)) : d.Admits names := by
  induction names generalizing d with
  | nil =>
      cases d with
      | file old locked => exact (Disk.file.inj (Except.ok.inj h)).2
      | folder entries locked => cases h
  | cons name names ih =>
      cases d with
      | file old locked => cases h
      | folder entries locked =>
          rw [find] at h
          rw [Admits]
          cases hd : entries.lookup name with
          | none =>
              rw [hd] at h
              cases h
          | some d =>
              rw [hd] at h
              exact ih h

/-- In folders that have just been made, a file can be put. -/
theorem admits_nested {names others : List Text} (h : ¬ others <+: names) :
    (nested names).Admits others := by
  induction others generalizing names with
  | nil => exact absurd List.nil_prefix h
  | cons other others ih =>
      cases names with
      | nil => rfl
      | cons name names =>
          rw [nested, Admits, List.lookup_cons]
          by_cases heq : other = name
          · subst heq
            rw [beq_self_eq_true]
            exact ih fun hrest => h ((List.prefix_cons_inj other).mpr hrest)
          · rw [beq_eq_false_iff_ne.mpr heq]
            rfl

/-- A file can be written as well when folders have been made that are not in its place. -/
theorem Admits.makeFolders {d d' : Disk} {names others : List Text} (h : d.Admits others)
    (hother : ¬ others <+: names) (hmade : d.makeFolders names = .ok d') : d'.Admits others := by
  induction names generalizing d d' others with
  | nil =>
      cases d with
      | file bytes locked => cases hmade
      | folder entries locked =>
          rw [← Except.ok.inj hmade]
          exact h
  | cons name names ih =>
      cases d with
      | file bytes locked => cases hmade
      | folder entries locked =>
          cases others with
          | nil => exact absurd List.nil_prefix hother
          | cons other others =>
              by_cases heq : other = name
              · subst heq
                -- the way is a new one from here on, which nothing locks, or it goes on in an old
                -- folder
                have hrest : ¬ others <+: names :=
                  fun hrest => hother ((List.prefix_cons_inj other).mpr hrest)
                rcases makeFolders_folder_cons_eq hmade with
                  ⟨d, d₁, hd, hmade₁, rfl⟩ | ⟨-, -, rfl⟩
                · rw [Admits, lookup_put_self]
                  exact ih (h.of_lookup hd) hrest hmade₁
                · rw [Admits, lookup_put_self]
                  exact admits_nested hrest
              · rcases makeFolders_folder_cons_eq hmade with
                  ⟨d, d₁, -, -, rfl⟩ | ⟨-, hunlocked, rfl⟩
                · rw [Admits, lookup_put_of_ne heq]
                  exact h
                · subst hunlocked
                  rw [Admits, lookup_put_of_ne heq]
                  exact h

/-- The folders on the way to a file can be made. -/
theorem Admits.exists_makeFolders {d : Disk} {names : List Text} {name : Text}
    (h : d.Admits (names ++ [name])) : ∃ d', d.makeFolders names = .ok d' := by
  induction names generalizing d with
  | nil =>
      cases d with
      | file bytes locked => exact absurd h id
      | folder entries locked => exact ⟨_, rfl⟩
  | cons first names ih =>
      cases d with
      | file bytes locked => exact absurd h id
      | folder entries locked =>
          rw [Disk.makeFolders]
          cases hd : entries.lookup first with
          | none =>
              rw [h.of_lookup_none hd]
              exact ⟨_, rfl⟩
          | some d =>
              obtain ⟨d', hmade⟩ := ih (h.of_lookup hd)
              simp only [hmade]
              exact ⟨_, rfl⟩

/-- With the folders on the way to it, the file can be written. -/
theorem Admits.exists_write {d : Disk} {names : List Text} {name : Text}
    (h : d.Admits (names ++ [name])) (hmade : d.makeFolders names = .ok d) (bytes : ByteArray) :
    ∃ d', d.write (names ++ [name]) bytes = .ok d' := by
  induction names generalizing d with
  | nil =>
      cases d with
      | file old locked => exact absurd h id
      | folder entries locked =>
          rw [List.nil_append, write]
          cases hd : entries.lookup name with
          | none =>
              rw [h.of_lookup_none hd]
              exact ⟨_, rfl⟩
          | some d =>
              -- what the last name leads to is a file that is not locked, or nothing
              have hlast := h.of_lookup hd
              cases d with
              | file old locked' =>
                  obtain rfl : locked' = false := hlast
                  exact ⟨_, rfl⟩
              | folder inner locked' => exact absurd hlast id
  | cons first names ih =>
      cases d with
      | file old locked => exact absurd h id
      | folder entries locked =>
          obtain ⟨d, hd, hthere⟩ := exists_lookup_of_makeFolders hmade
          obtain ⟨d', hwritten⟩ := ih (h.of_lookup hd) hthere
          rw [List.cons_append, write, hd]
          simp only [hwritten]
          exact ⟨_, rfl⟩

/-! ## Texts in files -/

theorem fromUTF8?_toUTF8 (s : String) : String.fromUTF8? s.toUTF8 = some s := by
  have hvalid : s.toUTF8.IsValidUTF8 := s.isValidUTF8
  rw [String.fromUTF8?, dif_pos hvalid]
  rfl

theorem readBytes_eq_ok_iff {d : Disk} {p : Path} {bytes : ByteArray} :
    d.readBytes p = .ok bytes ↔ ∃ locked, d.find p.names = .ok (.file bytes locked) := by
  rw [readBytes]
  cases d.find p.names with
  | error e => exact ⟨nofun, nofun⟩
  | ok found =>
      cases found with
      | folder entries locked => exact ⟨nofun, nofun⟩
      | file old locked =>
          constructor
          · intro h
            exact ⟨locked, congrArg (Except.ok <| Disk.file · locked) (Except.ok.inj h)⟩
          · rintro ⟨locked', h⟩
            exact congrArg Except.ok (Disk.file.inj (Except.ok.inj h)).1

/-- What is read is settled by what is at the end of the path. -/
theorem readText_congr {d d' : Disk} {p : Path} (h : d'.find p.names = d.find p.names) :
    d'.readText p = d.readText p := by
  rw [readText, readText, readBytes, readBytes, h]

/-- What is read in a file that holds the bytes of a text is the text. -/
theorem readText_of_find {d : Disk} {p : Path} {t : Text} {locked : Bool}
    (h : d.find p.names = .ok (.file (String.ofList t).toUTF8 locked)) : d.readText p = .ok t := by
  rw [readText, readBytes, h]
  simp only
  rw [fromUTF8?_toUTF8]
  simp

end Disk

end Lumen
