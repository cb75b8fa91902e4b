import Lumen.Terminal.Run

/-!
# The program

Reads the files that a run can ask for, does the run, and writes what it changed: the stored text.
The times of a run make no difference to what comes of it, so the time is read once.
-/

namespace Lumen

namespace Terminal

/-- The disk with a file as it is found at a path, if there is one. -/
def gather (d : Disk) (p : Path) : IO Disk := do
  try
    return d.provide p (← IO.FS.readBinFile (String.ofList p))
  catch _ => return d

/-- A disk with the files that a run of the program can ask for. -/
def gatherFor (words : List Text) (home : Home) : IO Disk := do
  match Request.ofWords words with
  | .ok (.run args) =>
    let disk ← gather .empty (args.config.getD home.configFile)
    let disk ← gather disk home.stateFile
    match (configOf args home disk).queryPath with
    | some p => gather disk p
    | none => return disk
  | _ => return .empty

def makeFolder (p : Path) : IO Unit := do
  try IO.FS.createDirAll (String.ofList p) catch _ => return

/-- Writes the stored text if a run has changed it. -/
def writeState (home : Home) (before after : Disk) : IO Unit := do
  match before.readText home.stateFile, after.readText home.stateFile with
  | _, .error _ => return
  | .ok old, .ok new => if old = new then return else write new
  | .error _, .ok new => write new
where
  write (t : Text) : IO Unit := do
    makeFolder home.base
    try IO.FS.writeFile (String.ofList home.stateFile) (String.ofList t) catch _ => return

partial def readAll (stream : IO.FS.Stream) (start : ByteArray) : IO ByteArray := do
  let bytes ← stream.read 65536
  if bytes.isEmpty then return start else readAll stream (start ++ bytes)

end Terminal

end Lumen

open Lumen Terminal in
def main (args : List String) : IO UInt32 := do
  let words := args.map String.toList
  let folder := ((← IO.getEnv "HOME").getD "").toList
  let home : Home := ⟨folder, (← IO.getEnv "XDG_CONFIG_HOME").map String.toList⟩
  let disk ← gatherFor words home
  let input ← match Request.ofWords words with
    | .ok (.run _) => readAll (← IO.getStdin) .empty
    | _ => pure .empty
  let now ← IO.monoMsNow
  let outcome := run words home disk (fun _ => now) input
  makeFolder home.logs
  writeState home disk outcome.disk
  match outcome.shown with
  | .ok t => IO.print (String.ofList t)
  | .error e =>
    match e.message with
    | some line => IO.eprintln (String.ofList line)
    | none => pure ()
  return outcome.exitCode.toUInt32
