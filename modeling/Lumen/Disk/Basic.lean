import Lumen.Disk.Path

/-!
# Disks

A `Disk` is a file or a folder with all that is in it, as a value. What is done to a disk gives
another one, or fails as an operating system would let it fail. A file that is locked cannot be
written, and nothing new can be put in a folder that is locked; both can be read all the same.
-/

namespace Lumen

/-- A file, or a folder and what it holds by name. -/
inductive Disk where
  | file (bytes : ByteArray) (locked : Bool := false)
  | folder (entries : List (Text × Disk)) (locked : Bool := false)
deriving Inhabited

inductive DiskError where
  | notFound
  | alreadyThere
  | notAFolder
  | isAFolder
  | denied
  | notText
deriving BEq, Repr, Inhabited, DecidableEq

def DiskError.message : DiskError → String
  | .notFound => "No such file or directory (os error 2)"
  | .alreadyThere => "File exists (os error 17)"
  | .notAFolder => "Not a directory (os error 20)"
  | .isAFolder => "Is a directory (os error 21)"
  | .denied => "Permission denied (os error 13)"
  | .notText => "stream did not contain valid UTF-8"

namespace Disk

def empty : Disk := .folder []

/-- Entries with one of them put in place of that of its name, or after the others. -/
def put (entries : List (Text × Disk)) (name : Text) (d : Disk) : List (Text × Disk) :=
  match entries with
  | [] => [(name, d)]
  | e :: es => if e.1 = name then (name, d) :: es else e :: put es name d

/-- What is at the end of the way along some names. -/
def find : Disk → List Text → Except DiskError Disk
  | d, [] => .ok d
  | .file _ _, _ :: _ => .error .notAFolder
  | .folder entries _, name :: names =>
    match entries.lookup name with
    | none => .error .notFound
    | some d => d.find names

/-- Writes a file, which may be new in a folder that is there. -/
def write : Disk → List Text → ByteArray → Except DiskError Disk
  | .file _ locked, [], bytes => if locked then .error .denied else .ok (.file bytes)
  | .folder _ _, [], _ => .error .isAFolder
  | .file _ _, _ :: _, _ => .error .notAFolder
  | .folder entries locked, name :: names, bytes =>
    match entries.lookup name with
    | some d => (d.write names bytes).map fun d => .folder (put entries name d) locked
    | none =>
      if names = [] then
        if locked then .error .denied else .ok (.folder (put entries name (.file bytes)))
      else .error .notFound

def nested : List Text → Disk
  | [] => .folder []
  | name :: names => .folder [(name, nested names)]

/-- Makes those folders on the way along some names that are not there. -/
def makeFolders : Disk → List Text → Except DiskError Disk
  | .folder entries locked, [] => .ok (.folder entries locked)
  | .file _ _, [] => .error .alreadyThere
  | .file _ _, _ :: _ => .error .notAFolder
  | .folder entries locked, name :: names =>
    match entries.lookup name with
    | some d => (d.makeFolders names).map fun d => .folder (put entries name d) locked
    | none =>
      if locked then .error .denied else .ok (.folder (put entries name (nested names)))

/-- The disk with a file at the end of a path and the folders on the way to it, or as it is if these
cannot be. -/
def provide (d : Disk) (p : Path) (bytes : ByteArray) : Disk :=
  let made := do
    let d ← d.makeFolders (Path.names ((Path.parent? p).getD []))
    d.write p.names bytes
  made.toOption.getD d

def hasFolder (d : Disk) (p : Path) : Bool :=
  match d.find p.names with
  | .ok (.folder _ _) => true
  | _ => false

def readBytes (d : Disk) (p : Path) : Except DiskError ByteArray :=
  match d.find p.names with
  | .ok (.file bytes _) => .ok bytes
  | .ok (.folder _ _) => .error .isAFolder
  | .error e => .error e

def readText (d : Disk) (p : Path) : Except DiskError Text :=
  match d.readBytes p with
  | .error e => .error e
  | .ok bytes =>
    match String.fromUTF8? bytes with
    | some s => .ok s.toList
    | none => .error .notText

def writeText (d : Disk) (p : Path) (t : Text) : Except DiskError Disk :=
  d.write p.names (String.ofList t).toUTF8

end Disk

end Lumen
