import Lumen.Proofs.Config.Bounds
import Lumen.Proofs.Disk.Laws
import Lumen.Proofs.Yaml.Mapping
import Lumen.Proofs.Yaml.Number

/-!
# A saved configuration can be loaded

A configuration is written as the entries of a mapping (`Config.entries`, `Config.toYaml_eq`). A
number is read as itself because it stands plain, and a text because it stands plain only where it
could mean nothing else. A setting that is left out has the value that it has by default. So what is
written is read as the same configuration (`Config.ofYaml?_toYaml`), and from a disk on which it has
been saved the same configuration is loaded (`Config.load_of_save`).
-/

namespace Lumen

namespace Yaml

namespace Document

/-! ## Values of entries -/

theorem natural?_scalarNode (d : Document) {bound n : Nat} (h : n < bound) :
    d.natural? bound (Entry.scalarNode (Nat.toDigits 10 n) .plain) = some n :=
  natural?_toDigits h

/-- A text stands plain only if it cannot be taken for nothing. -/
theorem not_null_of_styleOf {t : Text} (h : styleOf t = .plain) : t ≠ [] ∧ isNull t = false := by
  have hsure : isAmbiguous t = false := by
    cases hambiguous : isAmbiguous t with
    | false => rfl
    | true =>
        rw [styleOf, hambiguous] at h
        simp only [Bool.not_true, Bool.and_false, Bool.false_eq_true, if_false] at h
        repeat' split at h
        all_goals cases h
  constructor
  · rintro rfl
    cases hsure
  · rw [isNull, List.any_eq_false]
    intro word hword heq
    have hmem : isWord t = true := by
      simp only [decide_eq_true_eq] at heq
      have hwords : ∀ w ∈ ["null", "Null", "NULL", "~"], isWord w.toList = true := by decide
      exact heq ▸ hwords word hword
    simp [isAmbiguous, hmem] at hsure

theorem optionalText?_scalarNode (d : Document) (t : Text) :
    d.optionalText? (Entry.scalarNode t (styleOf t)) = some (some t) := by
  by_cases hstyle : styleOf t = .plain
  · obtain ⟨hne, hnull⟩ := not_null_of_styleOf hstyle
    simp [optionalText?, Entry.scalarNode, resolve?, hstyle, hne, hnull]
  · simp [optionalText?, Entry.scalarNode, resolve?, hstyle]

theorem texts?_sequence (d : Document) (items : List Text) :
    d.texts? (.sequence none (items.map fun t => Entry.scalarNode t (styleOf t))) = some items := by
  have hread : (items.map fun t => Entry.scalarNode t (styleOf t)).mapM d.text? = some items := by
    induction items with
    | nil => rfl
    | cons t items ih =>
        have htext : d.text? (Entry.scalarNode t (styleOf t)) = some t := rfl
        simp [htext, ih]
  simpa [texts?, resolve?] using hread

end Document

end Yaml

namespace Config

open Yaml (Entry)

/-! ## The entries of a configuration -/

/-- The entry of a setting, if it is written. -/
def entryOf? (c : Config) (s : Setting) : Option Entry :=
  match s with
  | .highlightDelay =>
    some (.text s.name .plain (decimal c.highlightDelay) (decimal c.highlightDelay))
  | .persistDelay => some (.text s.name .plain (decimal c.persistDelay) (decimal c.persistDelay))
  | .rows => some (.text s.name .plain (decimal c.rows) (decimal c.rows))
  | .queryPath => c.queryPath.map fun p => .text s.name (Yaml.styleOf p) (Yaml.spell p) p
  | .colors => if c.colors = [] then none else some (.texts s.name c.colors)

def entries (c : Config) : List Entry := Setting.all.filterMap c.entryOf?

theorem lines_eq (c : Config) (s : Setting) :
    c.lines s = ((c.entryOf? s).map Entry.lines).getD [] := by
  cases s with
  | highlightDelay => rfl
  | persistDelay => rfl
  | rows => rfl
  | queryPath => cases hpath : c.queryPath <;> simp [lines, entryOf?, hpath, Entry.lines]
  | colors => by_cases hcolors : c.colors = [] <;> simp [lines, entryOf?, hcolors, Entry.lines]

theorem toYaml_eq (c : Config) : c.toYaml = c.entries.flatMap Entry.lines := by
  rw [toYaml, entries]
  induction Setting.all with
  | nil => rfl
  | cons s ss ih =>
      rw [List.flatMap_cons, lines_eq, ih]
      cases hentry : c.entryOf? s with
      | none => rw [List.filterMap_cons_none hentry]; rfl
      | some e => rw [List.filterMap_cons_some hentry, List.flatMap_cons]; rfl

theorem entries_ne_nil (c : Config) : c.entries ≠ [] := List.cons_ne_nil _ _

theorem isKey_name (s : Setting) : Yaml.IsKey s.name := by
  cases s <;> exact ⟨by decide, by decide, by decide, by decide⟩

theorem valid_of_entryOf? {c : Config} {s : Setting} {e : Entry} (h : c.entryOf? s = some e) :
    e.Valid := by
  have hnumber : ∀ n, Yaml.Written .plain (decimal n) (decimal n) := fun n =>
    .plain Nat.toDigits_ne_nil (Yaml.allowsPlain_of_digits fun c hc =>
      Nat.isDigit_of_mem_toDigits (by decide) (by decide) hc)
  cases s with
  | highlightDelay => exact Option.some.inj h ▸ ⟨isKey_name .highlightDelay, hnumber _⟩
  | persistDelay => exact Option.some.inj h ▸ ⟨isKey_name .persistDelay, hnumber _⟩
  | rows => exact Option.some.inj h ▸ ⟨isKey_name .rows, hnumber _⟩
  | queryPath =>
      obtain ⟨p, -, rfl⟩ := Option.map_eq_some_iff.mp h
      exact ⟨isKey_name .queryPath, Yaml.written_spell p⟩
  | colors =>
      rw [entryOf?] at h
      split at h
      · cases h
      · next hcolors => exact Option.some.inj h ▸ ⟨isKey_name .colors, hcolors⟩

/-! ## Reading the entries -/

/-- The configuration with a setting of another. -/
def adopt (c c' : Config) (s : Setting) : Config :=
  match s with
  | .highlightDelay => { c with highlightDelay := c'.highlightDelay }
  | .persistDelay => { c with persistDelay := c'.persistDelay }
  | .rows => { c with rows := c'.rows }
  | .queryPath => { c with queryPath := c'.queryPath }
  | .colors => { c with colors := c'.colors }

instance : LawfulBEq Setting where
  eq_of_beq {s s'} h := by cases s <;> cases s' <;> first | rfl | cases h
  rfl {s} := by cases s <;> rfl

theorem ofName?_name (s : Setting) : Setting.ofName? s.name = some s := by
  cases s <;> decide

/-- The nodes of an entry name its setting and set it. -/
theorem set?_entryOf? {c c' : Config} {s : Setting} {e : Entry} (d : Yaml.Document)
    (hc : c'.Bounded) (h : c'.entryOf? s = some e) :
    d.text? e.nodes.1 = some s.name ∧ c.set? d s e.nodes.2 = some (c.adopt c' s) := by
  cases s with
  | highlightDelay =>
      obtain rfl := Option.some.inj h
      exact ⟨rfl, congrArg (Option.map _) (d.natural?_scalarNode hc.highlightDelay)⟩
  | persistDelay =>
      obtain rfl := Option.some.inj h
      exact ⟨rfl, congrArg (Option.map _) (d.natural?_scalarNode hc.persistDelay)⟩
  | rows =>
      obtain rfl := Option.some.inj h
      exact ⟨rfl, congrArg (Option.map _) (d.natural?_scalarNode hc.rows)⟩
  -- texts are read back because they are written in a style that keeps them texts
  | queryPath =>
      obtain ⟨p, hpath, rfl⟩ := Option.map_eq_some_iff.mp h
      refine ⟨rfl, ?_⟩
      rw [adopt, hpath]
      exact congrArg (Option.map _) (d.optionalText?_scalarNode p)
  | colors =>
      rw [entryOf?] at h
      split at h
      · cases h
      · obtain rfl := Option.some.inj h
        exact ⟨rfl, congrArg (Option.map _) (d.texts?_sequence c'.colors)⟩

/-- The configuration with a setting of another if it is written there. -/
def adoptWritten (c' c : Config) (s : Setting) : Config :=
  if (c'.entryOf? s).isSome then c.adopt c' s else c

theorem setEntries?_entries {c c' : Config} (d : Yaml.Document) (hc : c'.Bounded)
    {ss seen : List Setting} (hss : ss.Nodup) (hseen : ∀ s ∈ ss, s ∉ seen) :
    setEntries? d c seen ((ss.filterMap c'.entryOf?).map Entry.nodes) =
      some (ss.foldl c'.adoptWritten c) := by
  induction ss generalizing c seen with
  | nil => rfl
  | cons s ss ih =>
      rw [List.nodup_cons] at hss
      rw [List.forall_mem_cons] at hseen
      rw [List.foldl_cons, adoptWritten]
      cases hentry : c'.entryOf? s with
      | none =>
          rw [List.filterMap_cons_none hentry]
          exact ih hss.2 hseen.2
      | some e =>
          obtain ⟨hname, hset⟩ := set?_entryOf? (c := c) d hc hentry
          -- no setting is written twice, so none is refused as one that is there already
          have hseen' : ∀ s' ∈ ss, s' ∉ s :: seen := by
            intro s' hs'
            rw [List.mem_cons, not_or]
            exact ⟨fun heq => hss.1 (heq ▸ hs'), hseen.2 s' hs'⟩
          have hrest := ih (c := c.adopt c' s) hss.2 hseen'
          rw [List.filterMap_cons_some hentry, List.map_cons, setEntries?]
          simp [hname, ofName?_name, hseen.1, hset, hrest]

/-- Settings that are not written have their defaults. -/
theorem foldl_adoptWritten (c : Config) : Setting.all.foldl c.adoptWritten {} = c := by
  obtain ⟨highlightDelay, persistDelay, rows, queryPath, colors⟩ := c
  cases queryPath <;> cases colors <;> rfl

/-- What is written for a configuration is read as the configuration. -/
theorem ofYaml?_toYaml {c : Config} (hc : c.Bounded) : ofYaml? c.toYaml = some c := by
  have hvalid : ∀ e ∈ c.entries, e.Valid := by
    intro e he
    obtain ⟨s, -, hentry⟩ := List.mem_filterMap.mp he
    exact valid_of_entryOf? hentry
  rw [ofYaml?, toYaml_eq, Entry.ofText?_flatMap c.entries_ne_nil hvalid, Option.bind_some]
  have hnodup : Setting.all.Nodup := by decide
  have hnone : ∀ s ∈ Setting.all, s ∉ [] := fun _ _ => List.not_mem_nil
  have hread := setEntries?_entries (c := {})
    (.ofRoot (some (.mapping none (c.entries.map Entry.nodes)))) hc hnodup hnone
  rw [foldl_adoptWritten] at hread
  exact hread

/-! ## On a disk -/

theorem exists_writeText_of_save {c : Config} {disk disk' : Disk} {path : Path}
    (h : c.save disk path = .ok disk') : ∃ d : Disk, d.writeText path c.toYaml = .ok disk' := by
  rw [save] at h
  split at h
  · exact ⟨disk, Checked.mapError_eq_ok.mp h⟩
  · obtain ⟨d, -, hwritten⟩ := Checked.bind_eq_ok.mp h
    exact ⟨d, Checked.mapError_eq_ok.mp hwritten⟩

/-- A configuration that has been saved is loaded as it was, whatever its texts are. -/
theorem load_of_save {c : Config} {disk disk' : Disk} {path : Path} (hc : c.Bounded)
    (h : c.save disk path = .ok disk') : load disk' path = c := by
  obtain ⟨d, hd⟩ := exists_writeText_of_save h
  rw [load, Disk.readText_of_find (Disk.find_write hd)]
  simp only
  rw [ofYaml?_toYaml hc, Option.getD_some]

/-- Texts that could be numbers, words, signs or nothing, and lines of every kind. -/
def hardToWrite : Config :=
  { highlightDelay := Nat.pow 2 64 - 1
    rows := 0
    queryPath := some []
    colors := ["", "~", "true", "0x1F", "1e3", "- red", "a: b", "<i>", " blue", "\x01\t",
      "\n two\n\n lines\n\n", "\u2028'"].map String.toList }

/-- A disk with that configuration in a folder. -/
def hardToWriteDisk : Disk :=
  .folder [(['a'], .folder [(['c'], .file (String.ofList hardToWrite.toYaml).toUTF8)])]

theorem load_of_save_hardToWrite :
    hardToWrite.Bounded ∧ hardToWrite.save .empty ['a', '/', 'c'] = .ok hardToWriteDisk ∧
      load hardToWriteDisk ['a', '/', 'c'] = hardToWrite := by
  have hbounded : hardToWrite.Bounded := ⟨by decide, by decide, by decide⟩
  have hsave : hardToWrite.save .empty ['a', '/', 'c'] = .ok hardToWriteDisk := rfl
  exact ⟨hbounded, hsave, load_of_save hbounded hsave⟩

end Config

end Lumen
