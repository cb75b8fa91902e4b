import Lumen.Disk.Basic

/-!
# Where the program keeps its files

All files are in one folder for configurations: in the one that the environment names, or in the
usual one in the user's home.
-/

namespace Lumen

/-- What the environment says about where files are kept. -/
structure Home where
  folder : Path
  configFolder : Option Path := none
deriving Repr, Inhabited, DecidableEq

namespace Home

/-- The folder of the program. -/
def base (h : Home) : Path :=
  (h.configFolder.getD (h.folder.join ".config".toList)).join "highlight-playground".toList

def configFile (h : Home) : Path := h.base.join "config.yaml".toList

def stateFile (h : Home) : Path := h.base.join "state.json".toList

def logs (h : Home) : Path := h.base.join "logs".toList

/-- That the folder for logs cannot be made. -/
structure FolderError where
  path : Path
  cause : DiskError
deriving BEq, Repr, DecidableEq

def FolderError.message (e : FolderError) : Text :=
  "Failed to create directory ".toList ++ e.path ++ s!": {e.cause.message}".toList

def makeLogs (h : Home) (disk : Disk) : Except FolderError Disk :=
  (disk.makeFolders (Path.names h.logs)).mapError (FolderError.mk h.logs)

end Home

end Lumen
