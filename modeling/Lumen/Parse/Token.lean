import Lumen.Parse.Stack

/-!
# Finding tokens

`Language.nextToken?` finds the token at the place of a reading. The scanner of the language is
asked first, and then the lexing automaton for the tokens that the state looks for. Where neither
finds anything, every token of the language is looked for instead, and characters are skipped until
one is found; what was skipped is a token of its own, an error.

A token that reads as the word token is looked at again: it may be a keyword, which it becomes if
the state has something to do on it.
-/

namespace Lumen

namespace Language

/-- Runs the lexing automaton: the last token that was complete, and the cursor where it stopped.
Each step reads a character. -/
def runLexer (l : Language) (fuel state : Nat) (c : Cursor) (found : Option Nat) :
    Option Nat × Cursor :=
  match fuel with
  | 0 => (found, c)
  | fuel + 1 =>
    match l.lexer.states[state]? with
    | none => (found, c)
    | some s =>
      let (found, c) := match s.accept with
        | some t => (some t, c.mark)
        | none => (found, c)
      match c.next? with
      | none => if s.atEnd then (some l.numbering.eof, c.mark) else (found, c)
      | some x =>
        match s.ways.getD (l.alphabet.classOf x.toNat) .stop with
        | .stop => (found, c)
        | .read n => runLexer l fuel n c.advance found
        | .skip n => runLexer l fuel n c.skip found

/-- Begins a token at a place. A mark of byte order at the start of a text belongs to the gap. -/
def beginToken (text : String) (place : Extent) : Cursor :=
  let c := Cursor.begin text place
  if place.bytes = 0 && c.sees '\uFEFF' then c.skip else c

/-- Looks for a token of a lexing state. -/
def lexFrom (l : Language) (mode : Nat) (text : String) (place : Extent) : Option Nat × Cursor :=
  let c := beginToken text place
  l.runLexer (c.left + 1) mode c none

inductive Found where
  | token (symbol : Nat) (cursor : Cursor)
  | external (symbol memory : Nat) (cursor : Cursor)
  | junk (start stop : Extent)

/-- What a token is looked for with: the state, and what its reading remembers. -/
structure Site where
  state : Nat
  memory : Option Nat
  /-- Whether the reading has taken anything in since its last error. -/
  advanced : Bool

/-- Asks the scanner. An empty token that changes nothing is refused where it could be found for
ever. -/
def scanAt (l : Language) (site : Site) (recovering : Bool) (text : String) (place : Extent) :
    Option Found :=
  let valid := l.externalsOf (if recovering then 0 else site.state)
  if valid = 0 then none
  else
    match l.scanner.scan (site.memory.getD 0) valid.testBit (beginToken text place) with
    | none => none
    | some f =>
      let symbol := l.numbering.terminals + f.token
      let empty := f.cursor.finish.bytes ≤ place.bytes && site.memory == some f.memory
      if empty && (recovering || !site.advanced ||
          l.nextState? site.state symbol == some site.state) then none
      else some (.external symbol f.memory f.cursor)

/-- Looks for any token at all from a place onwards, skipping characters; `skipped` is where these
start and end. Each round skips a character. -/
def searchOn (l : Language) (site : Site) (text : String) (fuel : Nat) (place : Extent)
    (skipped : Option (Extent × Extent)) : Found :=
  let give (f : Found) : Found := match skipped with
    | some (a, b) => .junk a b
    | none => f
  match fuel with
  | 0 => give (.junk place place)
  | fuel + 1 =>
    match l.scanAt site true text place with
    | some f => give f
    | none =>
      match l.lexFrom ((l.modes.getD 0 none).getD 0) text place with
      | (some t, c) => give (.token t c)
      | (none, c) =>
        let (start, stop) := skipped.getD (c.start, c.start)
        if c.here.bytes = stop.bytes then
          if c.atEnd then .junk start stop
          else
            let c := c.advance
            searchOn l site text fuel c.here (some (start, c.here))
        else searchOn l site text fuel c.here (some (start, c.here))

def expected? (l : Language) (site : Site) (mode : Nat) (text : String) (place : Extent) :
    Option Found :=
  if site.state = 0 then none
  else
    match l.scanAt site false text place with
    | some f => some f
    | none =>
      match l.lexFrom mode text place with
      | (some t, c) => some (.token t c)
      | (none, _) => none

def search (l : Language) (site : Site) (mode : Nat) (text : String) (place : Extent) : Found :=
  match l.expected? site mode text place with
  | some f => f
  | none => l.searchOn site text (text.utf8ByteSize + 2) place none

/-- The keyword that a word is, if its text begins with one, and whether it is that keyword as a
whole. -/
def keywordAt? (l : Language) (text : String) (word : Cursor) : Option (Nat × Bool) :=
  match l.lexFrom l.keywordMode text word.start with
  | (some k, c) => some (k, c.finish.bytes = word.finish.bytes)
  | (none, _) => none

def nextToken? (l : Language) (site : Site) (text : String) (place : Extent) : Option Subtree :=
  match l.modes.getD site.state none with
  | none => none
  | some mode =>
    let leaf (symbol : Nat) (start stop : Extent) : Subtree :=
      Subtree.leaf l symbol (start - place) (stop - start) (some site.state)
    match l.search site mode text place with
    | .junk start stop => some (leaf errorSymbol start stop)
    | .external symbol memory c =>
      match leaf symbol c.start c.finish with
      | .mk i cs => some (.mk
          { i with memory := some memory, memoryChanges := site.memory != some memory } cs)
    | .token symbol c =>
      if some symbol = l.word then
        match l.keywordAt? text c with
        | none => some (leaf symbol c.start c.finish)
        | some (k, whole) =>
          let symbol := if whole && !(l.actions site.state k).isEmpty then k else symbol
          match leaf symbol c.start c.finish with
          | .mk i cs => some (.mk { i with keyword := true } cs)
      else some (leaf symbol c.start c.finish)

/-- Whether a token that was found in one state is the one that another state would find. -/
def canReuse (l : Language) (state : Nat) (t : Subtree) : Bool :=
  match l.modes.getD state none with
  | none => false
  | some mode =>
    let origin := t.info.state.getD 0
    let actions := l.actions state t.symbol
    let alike := !actions.isEmpty && l.modes.getD origin none == some mode &&
      l.externalsOf origin = l.externalsOf state &&
      (some t.symbol ≠ l.word || (!t.info.keyword && t.info.state = some state))
    let alone := !actions.isEmpty && !actions.contains .recover &&
      (l.overlaps.getD t.symbol 0) &&& (l.tokenSets.getD state 0) = 0
    alike ||
      ((0 < t.info.size.bytes || t.symbol = l.numbering.eof) && l.externalsOf state = 0 && alone)

end Language

end Lumen
