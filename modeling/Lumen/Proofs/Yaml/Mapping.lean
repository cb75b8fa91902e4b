import Lumen.Proofs.Yaml.Outline
import Lumen.Yaml.Node

/-!
# Mappings of texts can be read back

The tokens of an entry meet the goal of further keys in a number of steps, and leave that goal
(`Entry.exists_meets`). The events they give put the key and the value into the collection that is
open (`Entry.foldlM_read?`). So the lines of some entries are the document of their nodes
(`Entry.ofText?_flatMap`).
-/

namespace Lumen

namespace Yaml

/-! ## Meeting goals -/

/-- Some steps give events, and leave other goals for other tokens. -/
def Meets (n : Nat) (gs : List Goal) (ts : List Token) (events : List Event) (gs' : List Goal)
    (ts' : List Token) : Prop :=
  ∀ handles k, meet? handles (k + n) gs ts =
    (meet? handles k gs' ts').map fun r => (events ++ r.1, r.2)

theorem Meets.refl (gs : List Goal) (ts : List Token) : Meets 0 gs ts [] gs ts := by
  intro handles k
  simp

theorem Meets.trans {n k : Nat} {gs gs' gs'' : List Goal} {ts ts' ts'' : List Token}
    {es es' : List Event} (h : Meets n gs ts es gs' ts') (h' : Meets k gs' ts' es' gs'' ts'') :
    Meets (k + n) gs ts (es ++ es') gs'' ts'' := by
  intro handles j
  rw [← Nat.add_assoc, h, h', Option.map_map]
  simp [Function.comp_def]

theorem meets_step {g : Goal} {gs : List Goal} {ts : List Token} {s : Step}
    (h : ∀ handles, step? handles g ts = some s) :
    Meets 1 (g :: gs) ts s.events (s.goals ++ gs) s.tokens := by
  intro handles k
  rw [meet?, h, Option.bind_eq_bind, Option.bind_some]
  cases meet? handles k (s.goals ++ gs) s.tokens <;> rfl

namespace Entry

def scalarEvent (t : Text) (style : Style) : Event := .scalar none { value := t, style }

/-- The events after that of the key. -/
def contentEvents : Entry → List Event
  | .text _ style _ t => [scalarEvent t style]
  | .texts _ items =>
    .sequenceStart none :: (items.map fun t => scalarEvent t (styleOf t)) ++ [.sequenceEnd]

def events (e : Entry) : List Event := scalarEvent e.key .plain :: e.contentEvents

theorem meets_scalar {block indentless : Bool} {t : Text} {style : Style} {gs : List Goal}
    {ts : List Token} :
    Meets 1 (.node block indentless :: gs) (.scalar t style :: ts) [scalarEvent t style] gs ts :=
  meets_step (s := { events := [scalarEvent t style], tokens := ts }) fun _ => rfl

/-- An item of a sequence is met in two steps. -/
theorem meets_item {t : Text} {style : Style} {gs : List Goal} {ts : List Token} :
    Meets 2 (.indentlessEntries :: gs) (.entry :: .scalar t style :: ts) [scalarEvent t style]
      (.indentlessEntries :: gs) ts :=
  (meets_step (s := { goals := [.node true false, .indentlessEntries]
                      tokens := .scalar t style :: ts }) fun _ => rfl).trans meets_scalar

theorem meets_items {items : List Text} {gs : List Goal} {ts : List Token} :
    Meets (2 * items.length) (.indentlessEntries :: gs) (itemTokens items ++ ts)
      (items.map fun t => scalarEvent t (styleOf t)) (.indentlessEntries :: gs) ts := by
  induction items with
  | nil => exact .refl _ _
  | cons t items ih => exact meets_item.trans ih

/-- What follows an entry: the next one or the end of the mapping. -/
def Follows (ts : List Token) : Prop := ts.head? = some .key ∨ ts.head? = some .blockEnd

theorem meets_content {e : Entry} (he : e.Valid) (gs : List Goal) {ts : List Token}
    (hts : Follows ts) :
    ∃ n, n ≤ 2 * e.contentTokens.length + 1 ∧
      Meets n (.node true true :: gs) (e.contentTokens ++ ts) e.contentEvents gs ts := by
  cases e with
  | text k style w t => exact ⟨1, by simp [contentTokens], meets_scalar⟩
  | texts k items =>
      obtain ⟨t, items, rfl⟩ := List.exists_cons_of_ne_nil he.2
      -- a sequence has a step to begin, those of its items and one to end
      have hbegin : Meets 1 (.node true true :: gs) (itemTokens (t :: items) ++ ts)
          [.sequenceStart none] (.indentlessEntries :: gs) (itemTokens (t :: items) ++ ts) :=
        meets_step (s := { events := [.sequenceStart none], goals := [.indentlessEntries]
                           tokens := itemTokens (t :: items) ++ ts }) fun _ => rfl
      have hend : Meets 1 (.indentlessEntries :: gs) ts [.sequenceEnd] gs ts := by
        refine meets_step (s := { events := [.sequenceEnd], tokens := ts }) fun _ => ?_
        cases ts with
        | nil => rfl
        | cons x ts =>
            rcases hts with hx | hx <;> (obtain rfl := Option.some.inj hx; rfl)
      refine ⟨_, ?_, (hbegin.trans (meets_items.trans hend))⟩
      rw [contentTokens, length_itemTokens, List.length_cons]
      omega

/-- A key and its value are met before the keys after it. -/
theorem exists_meets {e : Entry} (he : e.Valid) (gs : List Goal) {ts : List Token}
    (hts : Follows ts) :
    ∃ n, n ≤ 2 * e.tokens.length ∧
      Meets n (.blockKeys :: gs) (e.tokens ++ ts) e.events (.blockKeys :: gs) ts := by
  obtain ⟨n, hn, hcontent⟩ := meets_content he (.blockKeys :: gs) hts
  have hkey : Meets 1 (.blockKeys :: gs) (e.tokens ++ ts) []
      (.node true true :: .blockValue :: gs)
      (.scalar e.key .plain :: .value :: (e.contentTokens ++ ts)) :=
    meets_step (s := { goals := [.node true true, .blockValue]
                       tokens := .scalar e.key .plain :: .value :: (e.contentTokens ++ ts) })
      fun _ => rfl
  -- whatever the value is, its first token is none that would end the entry
  have hvalue : Meets 1 (.blockValue :: gs) (.value :: (e.contentTokens ++ ts)) []
      (.node true true :: .blockKeys :: gs) (e.contentTokens ++ ts) := by
    refine meets_step (s := { goals := [.node true true, .blockKeys]
                              tokens := e.contentTokens ++ ts }) fun _ => ?_
    cases e with
    | text => rfl
    | texts k items =>
        obtain ⟨t, items, rfl⟩ := List.exists_cons_of_ne_nil he.2
        rfl
  refine ⟨_, ?_, hkey.trans (meets_scalar.trans (hvalue.trans hcontent))⟩
  simp only [tokens, List.length_append, List.length_cons, List.length_nil]
  omega

theorem follows_flatMap (es : List Entry) (ts : List Token) :
    Follows (es.flatMap tokens ++ .blockEnd :: ts) := by
  cases es with
  | nil => exact .inr rfl
  | cons e es => exact .inl rfl

theorem exists_meets_flatMap {es : List Entry} (hes : ∀ e ∈ es, e.Valid) (gs : List Goal)
    (ts : List Token) :
    ∃ n, n ≤ 2 * (es.flatMap tokens).length ∧
      Meets n (.blockKeys :: gs) (es.flatMap tokens ++ .blockEnd :: ts) (es.flatMap events)
        (.blockKeys :: gs) (.blockEnd :: ts) := by
  induction es with
  | nil => exact ⟨0, Nat.le_refl 0, .refl _ _⟩
  | cons e es ih =>
      rw [List.forall_mem_cons] at hes
      obtain ⟨k, hk, hrest⟩ := ih hes.2
      obtain ⟨n, hn, hfirst⟩ := exists_meets hes.1 gs (follows_flatMap es ts)
      rw [List.flatMap_cons, List.flatMap_cons, List.append_assoc]
      refine ⟨k + n, ?_, hfirst.trans hrest⟩
      rw [List.length_append]
      omega

theorem events?_of_meet {ts : List Token} {es : List Event}
    (h : meet? standardHandles (8 * (Token.mappingStart :: ts).length + 8) [.node true false]
      (.mappingStart :: ts) = some (es, [])) : events? (.mappingStart :: ts) = some es := by
  rw [List.length_cons] at h
  simp [events?, directives?, h]

/-- The events of a mapping. -/
theorem events?_flatMap {es : List Entry} (hes : ∀ e ∈ es, e.Valid) :
    events? (.mappingStart :: es.flatMap tokens ++ [.blockEnd]) =
      some (.mappingStart none :: es.flatMap events ++ [.mappingEnd]) := by
  obtain ⟨n, hn, hkeys⟩ := exists_meets_flatMap hes [] []
  have hbegin : Meets 1 [.node true false] (.mappingStart :: es.flatMap tokens ++ [.blockEnd])
      [.mappingStart none] [.blockKeys] (es.flatMap tokens ++ [.blockEnd]) :=
    meets_step (s := { events := [.mappingStart none], goals := [.blockKeys]
                       tokens := es.flatMap tokens ++ [.blockEnd] }) fun _ => rfl
  have hend : Meets 1 [.blockKeys] [.blockEnd] [.mappingEnd] [] [] :=
    meets_step (s := { events := [.mappingEnd], tokens := [] }) fun _ => rfl
  have hall := hbegin.trans (hkeys.trans hend)
  -- there are more steps than are needed, which makes no difference
  have hmeet : meet? standardHandles
      (8 * (.mappingStart :: es.flatMap tokens ++ [Token.blockEnd]).length + 8) [.node true false]
      (.mappingStart :: es.flatMap tokens ++ [.blockEnd]) =
      some (.mappingStart none :: es.flatMap events ++ [.mappingEnd], []) := by
    obtain ⟨k, hk⟩ : ∃ k, 8 * (.mappingStart :: es.flatMap tokens ++ [Token.blockEnd]).length + 8 =
        k + (1 + n + 1) := by
      refine Nat.exists_eq_add_of_le' ?_
      simp only [List.cons_append, List.length_cons, List.length_append]
      omega
    rw [hk, hall]
    cases k <;> simp [meet?]
  exact events?_of_meet hmeet

/-! ## Nodes -/

def scalarNode (t : Text) (style : Style) : Node := .scalar none { value := t, style }

/-- The key and the value. -/
def nodes : Entry → Node × Node
  | .text k style _ t => (scalarNode k .plain, scalarNode t style)
  | .texts k items =>
    (scalarNode k .plain, .sequence none (items.map fun t => scalarNode t (styleOf t)))

theorem foldlM_read?_scalars {items : List Text} {names : List (Text × Nat)} {f : Frame}
    {fs : List Frame} {root : Option Node} :
    (items.map fun t => scalarEvent t (styleOf t)).foldlM Reading.read? ⟨names, f :: fs, root⟩ =
      some ⟨names, { f with
        items := (items.map fun t => scalarNode t (styleOf t)).reverse ++ f.items } :: fs,
        root⟩ := by
  induction items generalizing f with
  | nil => rfl
  | cons t items ih =>
      have hscalar : Reading.read? ⟨names, f :: fs, root⟩ (scalarEvent t (styleOf t)) =
          some ⟨names, { f with items := scalarNode t (styleOf t) :: f.items } :: fs, root⟩ := rfl
      rw [List.map_cons, List.foldlM_cons, hscalar, Option.bind_eq_bind, Option.bind_some, ih]
      simp

/-- An entry puts a key and a value into the collection that is open. -/
theorem foldlM_read? (e : Entry) {names : List (Text × Nat)} {f : Frame} {fs : List Frame}
    {root : Option Node} :
    e.events.foldlM Reading.read? ⟨names, f :: fs, root⟩ =
      some ⟨names, { f with items := e.nodes.2 :: e.nodes.1 :: f.items } :: fs, root⟩ := by
  cases e with
  | text k style w t => rfl
  | texts k items =>
      have hopen : [scalarEvent k .plain, .sequenceStart none].foldlM Reading.read?
          ⟨names, f :: fs, root⟩ = some ⟨names, { anchor := none, isMapping := false } ::
            { f with items := scalarNode k .plain :: f.items } :: fs, root⟩ := rfl
      have hevents : (texts k items).events = [scalarEvent k .plain, .sequenceStart none] ++
          ((items.map fun t => scalarEvent t (styleOf t)) ++ [.sequenceEnd]) := rfl
      rw [hevents, List.foldlM_append, hopen, Option.bind_eq_bind, Option.bind_some,
        List.foldlM_append, foldlM_read?_scalars]
      simp [Reading.read?, Reading.leave, Reading.add, Frame.node, nodes]

theorem foldlM_read?_flatMap (es : List Entry) {names : List (Text × Nat)} {f : Frame}
    {fs : List Frame} {root : Option Node} :
    (es.flatMap events).foldlM Reading.read? ⟨names, f :: fs, root⟩ =
      some ⟨names, { f with
        items := (es.flatMap fun e => [e.nodes.1, e.nodes.2]).reverse ++ f.items } :: fs,
        root⟩ := by
  induction es generalizing f with
  | nil => rfl
  | cons e es ih =>
      rw [List.flatMap_cons, List.foldlM_append, foldlM_read?, Option.bind_eq_bind,
        Option.bind_some, ih]
      simp

theorem pairs_flatMap (es : List Entry) :
    pairs (es.flatMap fun e => [e.nodes.1, e.nodes.2]) = es.map nodes := by
  induction es with
  | nil => rfl
  | cons e es ih => rw [List.flatMap_cons, List.map_cons, ← ih]; rfl

/-- The lines of a mapping are read as its keys and values. -/
theorem ofText?_flatMap {es : List Entry} (hsome : es ≠ []) (hes : ∀ e ∈ es, e.Valid) :
    Document.ofText? (es.flatMap lines) =
      some (Document.ofRoot (some (.mapping none (es.map nodes)))) := by
  have hbegin : Reading.read? {} (.mappingStart none) =
      some ⟨[], [{ anchor := none, isMapping := true }], none⟩ := rfl
  simp only [Document.ofText?, tokens?_flatMap hsome hes, events?_flatMap hes, Option.bind_eq_bind,
    Option.bind_some]
  rw [Document.ofEvents?, List.cons_append, List.foldlM_cons, hbegin, Option.bind_eq_bind,
    Option.bind_some, List.foldlM_append, foldlM_read?_flatMap]
  simp [Reading.read?, Reading.leave, Reading.add, Frame.node, pairs_flatMap]

end Entry

end Yaml

end Lumen
