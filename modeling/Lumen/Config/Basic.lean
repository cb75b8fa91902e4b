import Lumen.Disk.Path
import Lumen.Highlight.Palette
import Lumen.Yaml.Node
import Lumen.Yaml.Spelling

/-!
# Configurations

A `Config` says how an editor is to be highlighted. It is kept as a mapping in YAML, in which
every setting can be left out. A setting that is there has to be right, and none may be there
twice; what is unknown is ignored. A sequence gives the settings in their order.

* `Config.ofYaml?` reads a configuration.
* `Config.toYaml` writes one: delays and rows always, the others where they say anything.
-/

namespace Lumen

/-- The settings of an editor. Delays are in milliseconds. -/
structure Config where
  highlightDelay : Nat := 50
  persistDelay : Nat := 2000
  rows : Nat := 40
  queryPath : Option Path := none
  /-- The names of the colours, none for those of the default palette. -/
  colors : List Text := []
deriving BEq, Repr, Inhabited, DecidableEq

namespace Config

/-- The bound of delays and rows. -/
def bound : Nat := Nat.pow 2 64

def palette (c : Config) : Highlight.Palette := .ofList c.colors

/-- What can be set. -/
inductive Setting where
  | highlightDelay
  | persistDelay
  | rows
  | queryPath
  | colors
deriving BEq, Repr, Inhabited, DecidableEq

namespace Setting

def all : List Setting := [.highlightDelay, .persistDelay, .rows, .queryPath, .colors]

def name : Setting → Text
  | .highlightDelay => "highlight_debounce_ms".toList
  | .persistDelay => "persist_debounce_ms".toList
  | .rows => "viewport_rows".toList
  | .queryPath => "query_path".toList
  | .colors => "palette".toList

def ofName? (name : Text) : Option Setting := all.find? fun s => s.name = name

end Setting

/-! ## Reading -/

/-- The configuration with a setting as a node of a document has it. -/
def set? (c : Config) (d : Yaml.Document) (s : Setting) (n : Yaml.Node) : Option Config :=
  match s with
  | .highlightDelay => (d.natural? bound n).map fun k => { c with highlightDelay := k }
  | .persistDelay => (d.natural? bound n).map fun k => { c with persistDelay := k }
  | .rows => (d.natural? bound n).map fun k => { c with rows := k }
  | .queryPath => (d.optionalText? n).map fun t => { c with queryPath := t }
  | .colors => (d.texts? n).map fun ts => { c with colors := ts }

/-- Sets what the entries of a mapping say. -/
def setEntries? (d : Yaml.Document) (c : Config) (seen : List Setting) :
    List (Yaml.Node × Yaml.Node) → Option Config
  | [] => some c
  | (key, value) :: entries => do
    match Setting.ofName? (← d.text? key) with
    | none => setEntries? d c seen entries
    | some s =>
      if seen.contains s then none
      else setEntries? d (← c.set? d s value) (s :: seen) entries

/-- Sets what the items of a sequence say, as many as there are. -/
def setItems? (d : Yaml.Document) (c : Config) : List Setting → List Yaml.Node → Option Config
  | _, [] => some c
  | [], _ :: _ => none
  | s :: settings, item :: items => do setItems? d (← c.set? d s item) settings items

def ofDocument? (d : Yaml.Document) : Option Config :=
  match d.root with
  | none => some {}
  | some (.mapping _ entries) => setEntries? d {} [] entries
  | some (.sequence _ items) => setItems? d {} Setting.all items
  | some n => if Yaml.Document.isEmpty n then some {} else none

def ofYaml? (t : Text) : Option Config := (Yaml.Document.ofText? t).bind ofDocument?

/-! ## Writing -/

def decimal (n : Nat) : Text := Nat.toDigits 10 n

def lines (c : Config) (s : Setting) : Text :=
  match s with
  | .highlightDelay => Yaml.entryLines s.name (decimal c.highlightDelay)
  | .persistDelay => Yaml.entryLines s.name (decimal c.persistDelay)
  | .rows => Yaml.entryLines s.name (decimal c.rows)
  | .queryPath =>
    match c.queryPath with
    | some p => Yaml.entryLines s.name (Yaml.spell p)
    | none => []
  | .colors => if c.colors = [] then [] else Yaml.sequenceLines s.name c.colors

def toYaml (c : Config) : Text := Setting.all.flatMap c.lines

end Config

end Lumen
