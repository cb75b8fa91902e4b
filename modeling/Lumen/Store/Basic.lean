import Lumen.Disk.Basic
import Lumen.Store.Json
import Lumen.Store.Sample

/-!
# Stores

A store keeps texts under keys. A `MemoryStore` forgets them; a `FileStore` keeps them in a file,
which it reads when it is opened and writes whenever a text is set. An unreadable file is taken as
one without entries. The text of an editor is stored under `sourceKey`.
-/

namespace Lumen

/-- Why a text was set but not written. -/
inductive SaveError where
  | folder (path : Path) (cause : DiskError)
  | file (path : Path) (cause : DiskError)
deriving BEq, Repr, DecidableEq

def SaveError.message : SaveError → Text
  | .folder path cause => "Failed to create ".toList ++ path ++ s!": {cause.message}".toList
  | .file path cause => "Failed to write state to ".toList ++ path ++ s!": {cause.message}".toList

/-- What texts can be kept in. -/
class Storage (σ : Type) where
  get? : σ → Text → Option Text
  /-- The store with a text under a key, and what kept it from being written. -/
  set : σ → Text → Text → σ × Option SaveError

def sourceKey : Text := "sourceCode".toList

/-- The text to start an editor with: the stored one unless it is empty, or else the sample. -/
def loadSource {σ : Type} [Storage σ] (s : σ) : Text :=
  match Storage.get? s sourceKey with
  | some t => if t = [] then sampleSource else t
  | none => sampleSource

/-! ## In memory -/

/-- Texts that are kept nowhere else. -/
structure MemoryStore where
  entries : Entries := []
  writes : Nat := 0
deriving Inhabited, DecidableEq

namespace MemoryStore

def withSource (source : Text) : MemoryStore := { entries := Entries.insert sourceKey source [] }

instance : Storage MemoryStore where
  get? s key := s.entries.get? key
  set s key value := ({ entries := s.entries.insert key value, writes := s.writes + 1 }, none)

end MemoryStore

/-! ## In a file -/

/-- Texts that are kept in a file of a disk. -/
structure FileStore where
  path : Path
  entries : Entries
  disk : Disk
deriving Inhabited

namespace FileStore

def entriesAt (disk : Disk) (path : Path) : Entries :=
  match disk.readText path with
  | .ok t => (Entries.ofJson? t).getD []
  | .error _ => []

def openAt (disk : Disk) (path : Path) : FileStore := ⟨path, entriesAt disk path, disk⟩

def makeFolder (s : FileStore) : Except SaveError Disk :=
  match Path.parent? s.path with
  | none => .ok s.disk
  | some folder => (s.disk.makeFolders (Path.names folder)).mapError (SaveError.folder folder)

def save (s : FileStore) : FileStore × Option SaveError :=
  match s.makeFolder with
  | .error e => (s, some e)
  | .ok disk =>
    match disk.writeText s.path s.entries.toJson with
    | .error e => ({ s with disk }, some (.file s.path e))
    | .ok disk => ({ s with disk }, none)

instance : Storage FileStore where
  get? s key := s.entries.get? key
  set s key value := save { s with entries := s.entries.insert key value }

end FileStore

end Lumen
