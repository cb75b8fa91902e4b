import Lumen.Terminal.Home

/-!
# Names on a path

A slash parts the names before it from those after it (`names_append_slash`), and slashes at the end
of a path name nothing (`names_dropSlashes`). So a file that is joined to a folder has the names of
the folder and its own (`names_join`), and its parent has those of the folder (`names_parent?`). The
file in which the program keeps texts is one of the program's folder, beside the logs
(`Home.names_stateFile`, `Home.names_logs`).
-/

namespace Lumen

namespace Text

theorem split_ne_nil (separator : Char) (t : Text) : t.split separator ≠ [] := by
  cases t with
  | nil => simp [split]
  | cons c cs =>
      rw [split]
      split
      · simp
      · split <;> simp

/-- A separator parts the pieces before it from those after it. -/
theorem split_append (separator : Char) (a b : Text) :
    (a ++ separator :: b).split separator = a.split separator ++ b.split separator := by
  induction a with
  | nil => simp [split]
  | cons c cs ih =>
      rw [List.cons_append, split, split]
      by_cases hc : c = separator
      · rw [if_pos hc, if_pos hc, ih, List.cons_append]
      · rw [if_neg hc, if_neg hc, ih]
        cases hpieces : split separator cs with
        | nil => exact absurd hpieces (split_ne_nil separator cs)
        | cons piece pieces => rfl

/-- A text without a separator is one piece. -/
theorem split_of_not_mem {separator : Char} {t : Text} (h : separator ∉ t) :
    t.split separator = [t] := by
  induction t with
  | nil => rfl
  | cons c cs ih =>
      obtain ⟨hc, hcs⟩ := not_or.mp (mt List.mem_cons.mpr h)
      rw [split, if_neg (Ne.symm hc), ih hcs]

end Text

namespace Path

/-- A name of a file or folder in a path: not empty, without a slash, and not the dot that stands
for the folder itself. -/
def IsName (name : Text) : Prop := name ≠ [] ∧ name ≠ ['.'] ∧ '/' ∉ name

instance (name : Text) : Decidable (IsName name) :=
  inferInstanceAs (Decidable (name ≠ [] ∧ name ≠ ['.'] ∧ '/' ∉ name))

theorem names_of_isName {name : Text} (h : IsName name) : names name = [name] := by
  obtain ⟨hne, hdot, hslash⟩ := h
  rw [names, Text.split_of_not_mem hslash]
  simp [hne, hdot]

/-- A slash parts the names before it from those after it. -/
theorem names_append_slash (p q : Path) : names (p ++ '/' :: q) = names p ++ names q := by
  rw [names, Text.split_append, List.filter_append]
  rfl

/-- Slashes name nothing. -/
theorem names_append_slashes (p : Path) {slashes : Path} (h : ∀ c ∈ slashes, c = '/') :
    names (p ++ slashes) = names p := by
  induction slashes generalizing p with
  | nil => rw [List.append_nil]
  | cons c slashes ih =>
      obtain rfl := h c List.mem_cons_self
      have hrest := ih [] fun d hd => h d (List.mem_cons_of_mem _ hd)
      rw [List.nil_append] at hrest
      have hnone : names [] = [] := rfl
      rw [names_append_slash, hrest, hnone, List.append_nil]

/-- A path is its part without the slashes at its end, and these. -/
theorem exists_dropSlashes_append (p : Path) :
    ∃ slashes : Path, p = dropSlashes p ++ slashes ∧ ∀ c ∈ slashes, c = '/' := by
  refine ⟨(p.reverse.takeWhile (· = '/')).reverse, ?_, ?_⟩
  · rw [dropSlashes, ← List.reverse_append, List.takeWhile_append_dropWhile, List.reverse_reverse]
  · intro c hc
    have hall := List.all_takeWhile (p := fun c : Char => decide (c = '/')) (l := p.reverse)
    exact of_decide_eq_true (List.all_eq_true.mp hall c (List.mem_reverse.mp hc))

theorem names_dropSlashes (p : Path) : names (dropSlashes p) = names p := by
  obtain ⟨slashes, hp, hslashes⟩ := exists_dropSlashes_append p
  rw [← names_append_slashes (dropSlashes p) hslashes, ← hp]

theorem dropSlashes_append_slash (p : Path) : dropSlashes (p ++ ['/']) = dropSlashes p := by
  simp [dropSlashes]

/-- A path with a last character other than a slash has no slashes at its end. -/
theorem dropSlashes_of_getLast? {p : Path} {c : Char} (h : p.getLast? = some c) (hc : c ≠ '/') :
    dropSlashes p = p := by
  rw [List.getLast?_eq_head?_reverse] at h
  rw [dropSlashes]
  cases hp : p.reverse with
  | nil =>
      rw [hp] at h
      cases h
  | cons d ds =>
      rw [hp] at h
      obtain rfl := Option.some.inj h
      rw [List.dropWhile_cons_of_neg (by simpa using hc), ← hp, List.reverse_reverse]

theorem IsName.getLast?_ne {name : Text} (h : IsName name) :
    ∃ c, name.getLast? = some c ∧ c ≠ '/' := by
  obtain ⟨hne, -, hslash⟩ := h
  refine ⟨name.getLast hne, List.getLast?_eq_some_getLast hne, ?_⟩
  intro hc
  exact hslash (hc ▸ List.getLast_mem hne)

theorem IsName.not_isAbsolute {name : Text} (h : IsName name) : isAbsolute name = false := by
  obtain ⟨-, -, hslash⟩ := h
  cases name with
  | nil => rfl
  | cons c cs =>
      have hc : c ≠ '/' := fun hc => hslash (hc ▸ List.mem_cons_self)
      simp [isAbsolute, hc]

/-- A path to which a name is joined ends with a slash, with which it has no other names, and with
that name. -/
theorem join_eq {name : Text} (h : IsName name) (p : Path) :
    p = [] ∧ join p name = name ∨
    ∃ folder, join p name = folder ++ '/' :: name ∧ names folder = names p := by
  rw [join, h.not_isAbsolute]
  by_cases hnil : p = []
  · subst hnil
    exact .inl ⟨rfl, rfl⟩
  · refine .inr ?_
    by_cases hlast : p.getLast? = some '/'
    · obtain ⟨folder, rfl⟩ := List.getLast?_eq_some_iff.mp hlast
      refine ⟨folder, ?_, ?_⟩
      · simp
      · rw [names_append_slashes folder (by simp)]
    · exact ⟨p, by simp [hnil, hlast], rfl⟩

/-- A name that is joined to a path is the last of its names. -/
theorem names_join {name : Text} (h : IsName name) (p : Path) :
    names (join p name) = names p ++ [name] := by
  rcases join_eq h p with ⟨rfl, hjoin⟩ | ⟨folder, hjoin, hfolder⟩
  · rw [hjoin, names_of_isName h]
    rfl
  · rw [hjoin, names_append_slash, names_of_isName h, hfolder]

theorem getLast?_join {name : Text} (h : IsName name) (p : Path) :
    (join p name).getLast? = name.getLast? := by
  obtain ⟨c, hc, -⟩ := h.getLast?_ne
  rcases join_eq h p with ⟨-, hjoin⟩ | ⟨folder, hjoin, -⟩
  · rw [hjoin]
  · rw [hjoin, List.getLast?_append, List.getLast?_cons, hc]
    rfl

/-- The folder of a path to which a name was joined has the names before that. -/
theorem names_parent? {name : Text} (h : IsName name) (p : Path) :
    ∃ folder, parent? (join p name) = some folder ∧ names folder = names p := by
  obtain ⟨c, hlast, hc⟩ := h.getLast?_ne
  have htrimmed := dropSlashes_of_getLast? ((getLast?_join h p).trans hlast) hc
  have hall : ∀ d ∈ name.reverse, decide (d ≠ '/') = true := by
    intro d hd
    exact decide_eq_true fun heq => h.2.2 (heq ▸ List.mem_reverse.mp hd)
  rw [parent?, htrimmed]
  -- without a folder before it the name is the whole path, and else a slash comes before it
  rcases join_eq h p with ⟨rfl, hjoin⟩ | ⟨folder, hjoin, hfolder⟩
  · have hbefore : name.reverse.dropWhile (· ≠ '/') = [] := by
      rw [← List.append_nil name.reverse, List.dropWhile_append_of_pos hall]
      rfl
    simp only [hjoin, hbefore, h.1]
    exact ⟨_, rfl, rfl⟩
  · have hreverse : (folder ++ '/' :: name).reverse = name.reverse ++ '/' :: folder.reverse := by
      simp
    have hbefore : (folder ++ '/' :: name).reverse.dropWhile (· ≠ '/') = '/' :: folder.reverse := by
      rw [hreverse, List.dropWhile_append_of_pos hall]
      simp
    have hjoined : folder ++ '/' :: name ≠ [] := by simp
    simp only [hjoin, hbefore, hjoined, List.reverse_cons, List.reverse_reverse,
      dropSlashes_append_slash, if_false]
    refine ⟨_, rfl, ?_⟩
    rw [← hfolder, ← names_dropSlashes folder]
    split
    · next hroot =>
        rw [hroot.1]
        rfl
    · rfl

end Path

namespace Home

theorem names_stateFile (h : Home) :
    Path.names h.stateFile = Path.names h.base ++ ["state.json".toList] :=
  Path.names_join (by decide) h.base

theorem names_logs (h : Home) : Path.names h.logs = Path.names h.base ++ ["logs".toList] :=
  Path.names_join (by decide) h.base

/-- The file for texts is in the program's folder. -/
theorem names_parent?_stateFile (h : Home) :
    ∃ folder, Path.parent? h.stateFile = some folder ∧ Path.names folder = Path.names h.base :=
  Path.names_parent? (by decide) h.base

end Home

end Lumen
