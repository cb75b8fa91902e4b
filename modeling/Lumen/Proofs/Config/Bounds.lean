import Lumen.Config.File

/-!
# Bounded numbers of configurations

The numbers of a configuration that is loaded are below their bound, whatever is on the disk
(`Config.bounded_load`): a number that reaches it is not read, so there is no setting that could
have it, and the defaults are smaller.
-/

namespace Lumen

/-! ## Numbers -/

namespace Yaml

theorem digits?_lt {base bound n : Nat} {t : Text} (h : digits? base bound t = some n) :
    n < bound := by
  rw [digits?] at h
  split at h
  · cases h
  · obtain ⟨m, -, hm⟩ := Option.bind_eq_some_iff.mp h
    split at hm
    · next hlt => exact Option.some.inj hm ▸ hlt
    · cases hm

theorem unsigned?_lt {bound n : Nat} {t : Text} (h : unsigned? bound t = some n) : n < bound := by
  have hdecimal : ∀ {t : Text}, (if hasLeadingZero t then none else digits? 10 bound t) = some n →
      n < bound := by
    intro t hread
    split at hread
    · cases hread
    · exact digits?_lt hread
  -- what has no other base, or is no number to it, is read to the base 10
  rw [unsigned?.eq_def] at h
  simp only at h
  split at h
  · next cs =>
      split at h
      · next base _ =>
          cases hbased : digits? base bound cs with
          | some m =>
              rw [hbased] at h
              obtain rfl := Option.some.inj h
              exact digits?_lt hbased
          | none =>
              rw [hbased] at h
              exact hdecimal h
      · exact hdecimal h
  · exact hdecimal h

/-- A number is read only if it is below the bound. -/
theorem natural?_lt {bound n : Nat} {t : Text} (h : natural? bound t = some n) : n < bound := by
  rw [natural?.eq_def] at h
  split at h
  · split at h
    · cases h
    · exact unsigned?_lt h
  · split at h
    · cases h
    · exact unsigned?_lt h

theorem Document.natural?_lt {d : Document} {bound k : Nat} {n : Node}
    (h : d.natural? bound n = some k) : k < bound := by
  rw [Document.natural?] at h
  split at h
  · split at h
    · exact Yaml.natural?_lt h
    · cases h
  · cases h

end Yaml

/-! ## Settings -/

namespace Config

/-- Whether the numbers of a configuration are below their bound. -/
structure Bounded (c : Config) : Prop where
  highlightDelay : c.highlightDelay < bound
  persistDelay : c.persistDelay < bound
  rows : c.rows < bound

theorem Bounded.default : Bounded {} := ⟨by decide, by decide, by decide⟩

theorem Bounded.set? {c c' : Config} (hc : c.Bounded) {d : Yaml.Document} {s : Setting}
    {n : Yaml.Node} (h : c.set? d s n = some c') : c'.Bounded := by
  cases s with
  | highlightDelay =>
      obtain ⟨k, hk, rfl⟩ := Option.map_eq_some_iff.mp h
      exact { hc with highlightDelay := Yaml.Document.natural?_lt hk }
  | persistDelay =>
      obtain ⟨k, hk, rfl⟩ := Option.map_eq_some_iff.mp h
      exact { hc with persistDelay := Yaml.Document.natural?_lt hk }
  | rows =>
      obtain ⟨k, hk, rfl⟩ := Option.map_eq_some_iff.mp h
      exact { hc with rows := Yaml.Document.natural?_lt hk }
  | queryPath | colors =>
      obtain ⟨-, -, rfl⟩ := Option.map_eq_some_iff.mp h
      exact { hc with }

theorem Bounded.setEntries? {c c' : Config} (hc : c.Bounded) {d : Yaml.Document}
    {seen : List Setting} {entries : List (Yaml.Node × Yaml.Node)}
    (h : c.setEntries? d seen entries = some c') : c'.Bounded := by
  induction entries generalizing c seen with
  | nil => exact Option.some.inj h ▸ hc
  | cons entry entries ih =>
      rw [Config.setEntries?] at h
      obtain ⟨name, -, h⟩ := Option.bind_eq_some_iff.mp h
      split at h
      · exact ih hc h
      · split at h
        · cases h
        · obtain ⟨c₁, hset, hrest⟩ := Option.bind_eq_some_iff.mp h
          exact ih (hc.set? hset) hrest

theorem Bounded.setItems? {c c' : Config} (hc : c.Bounded) {d : Yaml.Document}
    {settings : List Setting} {items : List Yaml.Node}
    (h : c.setItems? d settings items = some c') : c'.Bounded := by
  induction items generalizing c settings with
  | nil =>
      rw [Config.setItems?] at h
      exact Option.some.inj h ▸ hc
  | cons item items ih =>
      cases settings with
      | nil => cases h
      | cons s settings =>
          obtain ⟨c₁, hset, hrest⟩ := Option.bind_eq_some_iff.mp h
          exact ih (hc.set? hset) hrest

/-- The numbers of a configuration that is read are bounded, whatever the text is. -/
theorem bounded_of_ofYaml? {c : Config} {t : Text} (h : ofYaml? t = some c) : c.Bounded := by
  obtain ⟨d, -, h⟩ := Option.bind_eq_some_iff.mp h
  rw [ofDocument?] at h
  split at h
  · exact Option.some.inj h ▸ .default
  · exact Bounded.default.setEntries? h
  · exact Bounded.default.setItems? h
  · split at h
    · exact Option.some.inj h ▸ .default
    · cases h

/-- The numbers of a configuration that is loaded are bounded, whatever the disk has. -/
theorem bounded_load (disk : Disk) (path : Path) : (load disk path).Bounded := by
  rw [load]
  split
  · next t _ =>
      cases hread : ofYaml? t with
      | none => exact .default
      | some c => exact bounded_of_ofYaml? hread
  · exact .default

end Config

end Lumen
