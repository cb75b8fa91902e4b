import Lumen.Config.File
import Lumen.Pump.Session
import Lumen.Terminal.Arguments
import Lumen.Terminal.Home

/-!
# Runs of the program

A run starts an editor with the stored text or the sample, adds each line of the input to its end
as an edit of its own, lets a pump follow, and shows the rows that can be seen when the input is
over. What is due by then is not waited for but done at once, so no time that is read from the
clock makes a difference to what is shown or stored.

* `play` is the part between start and end, for a session with any trees and any store.
* `runBy` is a run as a whole, from the command line to the exit code, with anything that reads
  texts; `run` reads them by the syntax of Rust.
-/

namespace Lumen

namespace Terminal

inductive Failure where
  | arguments (cause : ArgumentError)
  | query (cause : Config.QueryError)
  | noTree (cause : NoTree)
  | input
  | fault (cause : Fault)
deriving Repr

namespace Failure

def exitCode : Failure → Nat
  | .arguments _ => 2
  | .fault _ => 101
  | _ => 1

/-- The line in which the failure is told. A fault of the program itself is told in no such line. -/
def message : Failure → Option Text
  | .arguments cause => some cause.message
  | .query _ => some ("Error: ".toList ++ Config.QueryError.title)
  | .noTree cause => some s!"Error: {cause.message}".toList
  | .input => some "Error: Failed to read stdin".toList
  | .fault _ => none

end Failure

/-! ## Input -/

/-- The pieces of a list before each separator, and the rest. -/
def cut (separator : UInt8) : List UInt8 → List (List UInt8)
  | [] => [[]]
  | b :: bs =>
    if b = separator then [] :: cut separator bs
    else
      match cut separator bs with
      | [] => [[b]]
      | piece :: rest => (b :: piece) :: rest

def lineText? (ended : Bool) (bytes : List UInt8) : Option Text :=
  (String.fromUTF8? ⟨bytes.toArray⟩).map fun s =>
    if ended then Text.dropReturn s.toList else s.toList

/-- The lines of which all but the last are ended, without the last if it is empty. -/
def lineTexts : List (List UInt8) → List (Option Text)
  | [] => []
  | [rest] => if rest = [] then [] else [lineText? false rest]
  | line :: lines => lineText? true line :: lineTexts lines

/-- The lines of the input, each a text or none. -/
def inputLines (input : ByteArray) : List (Option Text) := lineTexts (cut 10 input.toList)

/-! ## Sessions -/

section

variable {τ σ : Type} [Storage σ]

/-- Adds a line to the end of the text and lets the pump follow. -/
def feed (s : Session τ σ) (line : Text) (now : Nat) :
    Checked (Session τ σ × Option NoTree) := do
  let (pump, editor, failure) ← s.pump.pumpEvents (s.editor.append (line ++ ['\n'])) now
  let s := { s with pump, editor }
  match failure with
  | some e => return (s, some e)
  | none => return ((← s.tick now).2, none)

/-- Adds lines one after the other, the first as the `i`-th of the input. -/
def feedAll (clock : Nat → Nat) (i : Nat) (s : Session τ σ) :
    List (Option Text) → Session τ σ × Option Failure
  | [] => (s, none)
  | none :: _ => (s, some .input)
  | some line :: lines =>
    match feed s line (clock i) with
    | .error e => (s, some (.fault e))
    | .ok (s, some e) => (s, some (.noTree e))
    | .ok (s, none) => feedAll clock (i + 1) s lines

def rowsText (rows : List Text) : Text := rows.flatMap fun row => row ++ ['\n']

/-- Starts a pump, feeds it the lines, settles it and shows the rows that can be seen. -/
def play (clock : Nat → Nat) (lines : List (Option Text)) (s : Session τ σ) :
    Session τ σ × Except Failure Text :=
  match s.pump.start s.editor (clock 0) with
  | .error e => (s, .error (.fault e))
  | .ok (pump, editor, some e) => ({ s with pump, editor }, .error (.noTree e))
  | .ok (pump, editor, none) =>
    match feedAll clock 1 { s with pump, editor } lines with
    | (s, some e) => (s, .error e)
    | (s, none) =>
      match s.settle s.pump.waiting with
      | (s, some e) => (s, .error (.fault e))
      | (s, none) => (s, (s.editor.render.map rowsText).mapError .fault)

/-! ## Runs -/

/-- The number of rows that can be seen, which is at least one. -/
def visibleRows (args : Arguments) (c : Config) : Nat := max 1 (args.rows.getD c.rows)

def firstText (args : Arguments) (store : σ) : Text :=
  if args.reset then sampleSource else loadSource store

/-- A run with a store: the store after it, and what is shown. -/
def runWith (readers : Highlight.Readers τ) (args : Arguments) (c : Config) (disk : Disk)
    (clock : Nat → Nat) (lines : List (Option Text)) (store : σ) : σ × Except Failure Text :=
  match c.pumpOf disk readers with
  | .error e => (store, .error (.query e))
  | .ok pump =>
    let editor := Editor.ofText (firstText args store) (visibleRows args c)
    let (s, shown) := play clock lines { pump, editor, store }
    (s.store, shown)

end

structure Outcome where
  /-- What is shown, or why nothing is. -/
  shown : Except Failure Text
  disk : Disk

def Outcome.exitCode (o : Outcome) : Nat :=
  match o.shown with
  | .ok _ => 0
  | .error e => e.exitCode

def configOf (args : Arguments) (home : Home) (disk : Disk) : Config :=
  Config.load disk (args.config.getD home.configFile)

section

variable {τ : Type}

/-- A run with arguments in order. -/
def runArguments (readers : Highlight.Readers τ) (args : Arguments) (home : Home) (disk : Disk)
    (clock : Nat → Nat) (lines : List (Option Text)) : Outcome :=
  let c := configOf args home disk
  if args.noPersist then
    ⟨(runWith readers args c disk clock lines ({} : MemoryStore)).2, disk⟩
  else
    let (store, shown) :=
      runWith readers args c disk clock lines (FileStore.openAt disk home.stateFile)
    ⟨shown, store.disk⟩

/-- The disk on which a run finds itself: the folder for logs is made first, if it can be. -/
def withLogs (home : Home) (disk : Disk) : Disk := (home.makeLogs disk).toOption.getD disk

def runBy (readers : Highlight.Readers τ) (words : List Text) (home : Home) (disk : Disk)
    (clock : Nat → Nat) (input : ByteArray) : Outcome :=
  let disk := withLogs home disk
  match Request.ofWords words with
  | .error e => ⟨.error (.arguments e), disk⟩
  | .ok (.help long) => ⟨.ok (if long then longHelp else shortHelp).toList, disk⟩
  | .ok .version => ⟨.ok versionLine.toList, disk⟩
  | .ok (.run args) => runArguments readers args home disk clock (inputLines input)

end

def run (words : List Text) (home : Home) (disk : Disk) (clock : Nat → Nat) (input : ByteArray) :
    Outcome :=
  runBy Highlight.Engine.rust.readers words home disk clock input

end Terminal

end Lumen
