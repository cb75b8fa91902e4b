import Lumen.Config.Basic
import Lumen.Disk.Basic
import Lumen.Highlight.Engine
import Lumen.Query.Message

/-!
# Configurations on a disk

A configuration is loaded from a file, and the defaults stand in for one that cannot be read. The
query that it names is read from a file too, but there nothing stands in for a fault.
-/

namespace Lumen

namespace Config

/-- The configuration in a file, or the default one. -/
def load (disk : Disk) (path : Path) : Config :=
  match disk.readText path with
  | .ok t => (ofYaml? t).getD {}
  | .error _ => {}

inductive SaveError where
  | folder (cause : DiskError)
  | file (path : Path) (cause : DiskError)
deriving BEq, Repr, DecidableEq

def SaveError.message : SaveError → Text
  | .folder cause => s!"Failed to create config directory: {cause.message}".toList
  | .file path cause => "Failed to write config to ".toList ++ path ++ s!": {cause.message}".toList

/-- Saves a configuration in a file, whose folder is made if need be. -/
def save (c : Config) (disk : Disk) (path : Path) : Except SaveError Disk := do
  let disk ← match path.parent? with
    | none => pure disk
    | some folder => (disk.makeFolders folder.names).mapError .folder
  (disk.writeText path c.toYaml).mapError (.file path)

/-- Why there is no query to highlight by. -/
inductive QueryError where
  | unreadable (path : Path) (cause : DiskError)
  | unusable (source : Text) (cause : Query.Error)
deriving Repr

def QueryError.title : Text := "Highlight query is unusable".toList

def QueryError.message (e : QueryError) : Checked Text :=
  match e with
  | .unreadable path cause =>
    return title ++ ": Failed to read query file ".toList ++ path ++ s!": {cause.message}".toList
  | .unusable source cause => return title ++ ": ".toList ++ (← cause.message source)

/-- What reads texts by the query in the file that is named, or by the bundled one. -/
def reader {τ : Type} (c : Config) (disk : Disk) (readers : Highlight.Readers τ) :
    Except QueryError (Reader τ) :=
  match c.queryPath with
  | none =>
    let source := Highlight.rustQuery.toList
    (readers source).mapError (.unusable source)
  | some path =>
    match disk.readText path with
    | .error cause => .error (.unreadable path cause)
    | .ok source => (readers source).mapError (.unusable source)

def pumpOf {τ : Type} (c : Config) (disk : Disk) (readers : Highlight.Readers τ) :
    Except QueryError (Pump τ) :=
  return .create (← c.reader disk readers) c.palette c.highlightDelay c.persistDelay

/-- A pump that reads by an engine. -/
def pump (c : Config) (disk : Disk) (e : Highlight.Engine) : Except QueryError (Pump SyntaxTree) :=
  c.pumpOf disk e.readers

end Config

end Lumen
