import Lumen.Size
import Lumen.Text.Lines

/-!
# Arguments of the command line

Words that begin with two dashes are arguments; the value of one that takes a value is written
after an equals sign, or is the next word. A word with one dash holds letters, each an argument of
its own. Two dashes alone end the arguments, and nothing may follow.

The value of the argument before is looked at only when the next argument is in order, so of two
faults the later can be the one that is told (`read`).
-/

namespace Lumen

namespace Terminal

/-- What is asked of the program. -/
structure Arguments where
  reset : Bool := false
  rows : Option Nat := none
  noPersist : Bool := false
  config : Option Text := none
deriving BEq, Repr, Inhabited, DecidableEq

/-- The arguments there are. -/
inductive Argument where
  | reset
  | rows
  | noPersist
  | config
  | help
  | version
deriving BEq, Repr, Inhabited, DecidableEq

namespace Argument

def all : List Argument := [.reset, .rows, .noPersist, .config, .help, .version]

def name : Argument → String
  | .reset => "reset"
  | .rows => "rows"
  | .noPersist => "no-persist"
  | .config => "config"
  | .help => "help"
  | .version => "version"

/-- What the value is called, if there is one. -/
def valueName? : Argument → Option String
  | .rows => some "N"
  | .config => some "PATH"
  | _ => none

def takesValue (a : Argument) : Bool := a.valueName?.isSome

def shown (a : Argument) : String :=
  match a.valueName? with
  | some v => s!"--{a.name} <{v}>"
  | none => s!"--{a.name}"

def ofName? (name : Text) : Option Argument := all.find? fun a => a.name.toList = name

end Argument

/-- Why a text is no number of rows. -/
inductive NumberError where
  | empty
  | noDigit
  | tooLarge
deriving BEq, Repr, Inhabited, DecidableEq

def NumberError.message : NumberError → String
  | .empty => "cannot parse integer from empty string"
  | .noDigit => "invalid digit found in string"
  | .tooLarge => "number too large to fit in target type"

/-- What is wrong with the command line. -/
inductive ArgumentError where
  | unknown (word : Text)
  | noValue (a : Argument)
  | badValue (a : Argument) (value : Text) (cause : NumberError)
  | repeated (a : Argument)
  | needlessValue (a : Argument) (value : Text)
deriving BEq, Repr, Inhabited, DecidableEq

/-- The line in which an error is told, cut where a value goes on in another line. -/
def ArgumentError.message (e : ArgumentError) : Text :=
  let full : Text := "error: ".toList ++
    match e with
    | .unknown word => "unexpected argument '".toList ++ word ++ "' found".toList
    | .noValue a => s!"a value is required for '{a.shown}' but none was supplied".toList
    | .badValue a value cause => "invalid value '".toList ++ value ++
        s!"' for '{a.shown}': {cause.message}".toList
    | .repeated a => s!"the argument '{a.shown}' cannot be used multiple times".toList
    | .needlessValue a value => "unexpected value '".toList ++ value ++
        s!"' for '{a.shown}' found; no more were expected".toList
  (Text.lines (full ++ ['\n'])).headD []

/-! ## Values -/

/-- Adds digits to a number, up to the first fault. -/
def addDigits (n : Nat) : Text → Except NumberError Nat
  | [] => .ok n
  | c :: cs =>
    if !c.isDigit then .error .noDigit
    else
      let m := n * 10 + (c.toNat - 48)
      if Size.largest < m then .error .tooLarge else addDigits m cs

def number (t : Text) : Except NumberError Nat :=
  match t with
  | [] => .error .empty
  | ['+'] => .error .noDigit
  | '+' :: cs => addDigits 0 cs
  | cs => addDigits 0 cs

/-- The arguments with one more, which must not have been given before. -/
def Arguments.add (args : Arguments) (a : Argument) (value : Option Text) :
    Except ArgumentError Arguments :=
  match a, value with
  | .reset, _ => if args.reset then .error (.repeated a) else .ok { args with reset := true }
  | .noPersist, _ =>
    if args.noPersist then .error (.repeated a) else .ok { args with noPersist := true }
  | .rows, some t =>
    if args.rows.isSome then .error (.repeated a)
    else
      match number t with
      | .ok n => .ok { args with rows := some n }
      | .error cause => .error (.badValue a t cause)
  | .config, some t =>
    if args.config.isSome then .error (.repeated a)
    else if t = [] then .error (.noValue a)
    else .ok { args with config := some t }
  | .rows, none | .config, none => .error (.noValue a)
  | .help, _ | .version, _ => .ok args

/-! ## Words -/

inductive Request where
  | run (args : Arguments)
  | help (long : Bool)
  | version
deriving BEq, Repr, Inhabited, DecidableEq

/-- What a word is. -/
inductive Word where
  | ending
  | long (name : Text) (value : Option Text)
  | letters (first : Char) (others : Text)
  | plain
deriving BEq, Repr, Inhabited, DecidableEq

/-- What a word is by its dashes. -/
def wordOf : Text → Word
  | ['-', '-'] => .ending
  | '-' :: '-' :: cs =>
    let name := cs.takeWhile (· ≠ '=')
    .long name (if '=' ∈ cs then some (cs.drop (name.length + 1)) else none)
  | '-' :: c :: cs => .letters c cs
  | _ => .plain

/-- An argument whose value has not been looked at, or has not come yet. -/
abbrev Pending := Option (Argument × Option Text)

/-- Looks at the value of the argument before. -/
def settle (args : Arguments) : Pending → Except ArgumentError Arguments
  | none => .ok args
  | some (a, value) => args.add a value

def read (args : Arguments) (pending : Pending) : List Text → Except ArgumentError Request
  | [] => return .run (← settle args pending)
  | word :: words =>
    match wordOf word with
    | .ending =>
      match words with
      | [] => return .run (← settle args pending)
      | next :: _ => .error (.unknown next)
    | .long name value =>
      match Argument.ofName? name, value with
      | none, _ => .error (.unknown ('-' :: '-' :: name))
      | some .help, none => do let _ ← settle args pending; return .help true
      | some .version, none => do let _ ← settle args pending; return .version
      | some a, some t =>
        if a.takesValue then do
          let args ← settle args pending
          read (← args.add a (some t)) none words
        else .error (.needlessValue a t)
      | some a, none => do
        let args ← settle args pending
        if a.takesValue then read args (some (a, none)) words
        else read (← args.add a none) none words
    | .letters c _ =>
      if c = 'h' then do let _ ← settle args pending; return .help false
      else if c = 'V' then do let _ ← settle args pending; return .version
      else .error (.unknown ['-', c])
    | .plain =>
      match pending with
      | some (a, none) => read args (some (a, some word)) words
      | _ => .error (.unknown word)

def Request.ofWords (words : List Text) : Except ArgumentError Request := read {} none words

/-! ## Help -/

def shortHelp : String :=
  "An incremental tree-sitter syntax highlighting playground

Usage: playground [OPTIONS]

Options:
      --reset          Ignore the persisted buffer and start from the sample document
      --rows <N>       Number of visible rows (overrides the config file)
      --no-persist     Never write the buffer back to the state file
      --config <PATH>  Config file to use instead of the default location
  -h, --help           Print help (see more with '--help')
  -V, --version        Print version
"

def purpose : String :=
  "Lines read from stdin are appended to the buffer one edit at a time; " ++
    "the highlighted viewport is printed once input ends."

def longHelp : String :=
  "Incremental syntax highlighting playground\n\n" ++ purpose ++ "

Usage: playground [OPTIONS]

Options:
      --reset
          Ignore the persisted buffer and start from the sample document

      --rows <N>
          Number of visible rows (overrides the config file)

      --no-persist
          Never write the buffer back to the state file

      --config <PATH>
          Config file to use instead of the default location

  -h, --help
          Print help (see a summary with '-h')

  -V, --version
          Print version
"

def versionLine : String := "playground 0.1.0\n"

end Terminal

end Lumen
