import Lumen.Grammar.Symbol

/-!
# The tokens of a grammar

`Lexicon.ofGrammar` separates a grammar into the tokens that its rules are made of and rules over
the symbols of these tokens.

* A text, a pattern or a rule marked as a token becomes a token; equal ones become one token.
* A rule whose whole body is a token that occurs nowhere else is no rule any more: the token takes
  over its name, and the rules after it move up. A hidden rule whose token is a plain text stays.
* What an extra matches is either a symbol, which may then stand anywhere, or it separates tokens
  and is skipped before each of them.
* Rules that the start rule, the extras and the external tokens do not reach are left out.
-/

namespace Lumen

namespace Grammar

/-- A token: its name, how it shows, what it matches, and how often rules refer to it. -/
structure Token where
  name : String
  kind : Kind
  body : Rule Symbol
  uses : Nat
deriving Inhabited

/-- A rule over resolved symbols. -/
structure Variable where
  name : String
  kind : Kind
  body : Rule Symbol
deriving Inhabited

/-- A grammar separated into tokens and rules. -/
structure Lexicon where
  tokens : Array Token
  externals : Array (String × Kind)
  rules : Array Variable
  extras : List Symbol
  /-- What is skipped before a token. -/
  separators : List (Rule Symbol)
  supertypes : List Nat
  inlined : List Nat
  word : Option Nat
deriving Inhabited

namespace Lexicon

/-! ## Names -/

/-- The names that a list of names refers to, directly or through rules. -/
def reach (rules : List (String × Rule String)) (fuel : Nat) (names : List String) : List String :=
  match fuel with
  | 0 => names
  | fuel + 1 =>
    let next := rules.flatMap fun (name, body) => if names.contains name then body.symbols else []
    let fresh := next.foldl (fun acc n => if acc.contains n then acc else acc ++ [n]) names
    if fresh.length = names.length then names else reach rules fuel fresh

def usedRules (g : Grammar) : List (String × Rule String) :=
  let roots := (g.rules.head?.map Prod.fst).toList ++ g.externals ++ g.word.toList ++
    g.extras.flatMap Rule.symbols
  let used := reach g.rules (g.rules.length + 1) roots
  g.rules.filter fun (name, _) => used.contains name

/-- The symbol that a name stands for. -/
def resolve (names externals : List String) (name : String) : Symbol :=
  match names.findIdx? (· == name) with
  | some i => .rule i
  | none => .external (externals.findIdx (· == name))

/-! ## Extraction of tokens -/

/-- What extraction has found so far: the tokens, and how many of them the rule at hand has named
after itself. -/
structure Found where
  tokens : Array Token := #[]
  named : Nat := 0

/-- Adds a token, or counts one more use of an equal one. -/
def Found.add (f : Found) (owner : String) (body : Rule Symbol) (text : Option String) :
    Symbol × Found :=
  match f.tokens.findIdx? (·.body == body) with
  | some i =>
    (.terminal i, { f with tokens := f.tokens.modify i fun t => { t with uses := t.uses + 1 } })
  | none =>
    let i := f.tokens.size
    match text with
    | some s => (.terminal i, { f with tokens := f.tokens.push ⟨s, .anonymous, body, 1⟩ })
    | none =>
      let n := f.named + 1
      (.terminal i,
        ⟨f.tokens.push ⟨owner ++ "_token" ++ toString n, .auxiliary, body, 1⟩, n⟩)

/-- Replaces the tokens of a rule by their symbols. -/
def extract (owner : String) (f : Found) : Rule Symbol → Rule Symbol × Found
  | .blank => (.blank, f)
  | .sym s => (.sym s, f)
  | .text s =>
    let (t, f) := f.add owner (.text s) (some s)
    (.sym t, f)
  | .pattern s =>
    let (t, f) := f.add owner (.pattern s) none
    (.sym t, f)
  | .seq a b =>
    let (a, f) := extract owner f a
    let (b, f) := extract owner f b
    (.seq a b, f)
  | .alt a b =>
    let (a, f) := extract owner f a
    let (b, f) := extract owner f b
    (.alt a b, f)
  | .rep r =>
    let (r, f) := extract owner f r
    (.rep r, f)
  | .note n r =>
    if n.isToken then
      let text := match r with
        | .text s => some s
        | _ => none
      let body := if ({ n with isToken := false } : Notes) == {} then r else .note n r
      let (t, f) := f.add owner body text
      (.sym t, f)
    else
      let (r, f) := extract owner f r
      (.note n r, f)

def extractAll (f : Found) (vars : List Variable) : List Variable × Found :=
  let (done, f) := vars.foldl (fun (done, f) v =>
    let (body, f) := extract v.name { f with named := 0 } v.body
    ({ v with body } :: done, f)) (([] : List Variable), f)
  (done.reverse, f)

/-! ## Rules that are tokens -/

/-- The token that a rule merely names, if the rule is not the start. A hidden rule does not take
the place of a token that shows as its own text. -/
def wholeToken? (tokens : Array Token) (i : Nat) (v : Variable) : Option Nat :=
  match v.body with
  | .sym (.terminal t) =>
    match tokens[t]? with
    | some token =>
      if 0 < i && token.uses = 1 && (token.kind == .auxiliary || v.kind != .hidden) then some t
      else none
    | none => none
  | _ => none

/-- What becomes of each rule: the token it names, or its new number. -/
def placements (tokens : Array Token) (vars : List Variable) : Array Symbol :=
  (vars.zipIdx.foldl (fun (out, next) (v, i) =>
    match wholeToken? tokens i v with
    | some t => (out.push (Symbol.terminal t), next)
    | none => (out.push (Symbol.rule next), next + 1)) ((#[] : Array Symbol), 0)).1

def move (places : Array Symbol) : Symbol → Symbol
  | .rule i => places.getD i (.rule i)
  | s => s

/-- Gives each token that a rule merely names the rule's name. -/
def renameTokens (tokens : Array Token) (vars : List Variable) : Array Token :=
  vars.zipIdx.foldl (fun ts (v, i) =>
    match wholeToken? tokens i v with
    | some t => ts.modify t fun tok => { tok with name := v.name, kind := v.kind }
    | none => ts) tokens

def ruleIndex? : Symbol → Option Nat
  | .rule i => some i
  | _ => none

def terminalIndex? : Symbol → Option Nat
  | .terminal i => some i
  | _ => none

def ofGrammar (g : Grammar) : Lexicon :=
  let used := usedRules g
  let names := used.map Prod.fst
  let symbolOf := resolve names g.externals
  let vars := used.map fun (name, body) =>
    let kind := if g.supertypes.contains name then Kind.hidden else Kind.ofName name
    (⟨name, kind, body.map symbolOf⟩ : Variable)
  let (vars, found) := extractAll {} vars
  let places := placements found.tokens vars
  let tokens := renameTokens found.tokens vars
  let kept := vars.zipIdx.filterMap fun (v, i) =>
    match wholeToken? found.tokens i v with
    | some _ => none
    | none => some { v with body := v.body.map (move places) }
  let place (name : String) : Symbol := move places (symbolOf name)
  let extras : List (Symbol ⊕ Rule Symbol) := g.extras.map fun r => match r with
    | .sym name => .inl (place name)
    | r =>
      let body := r.map symbolOf
      match tokens.findIdx? (fun t => t.body == body) with
      | some t => .inl (.terminal t)
      | none => .inr body
  { tokens
    externals := (g.externals.map fun n => (n, Kind.ofName n)).toArray
    rules := kept.toArray
    extras := extras.filterMap fun e => e.getLeft?
    separators := extras.filterMap fun e => e.getRight?
    supertypes := g.supertypes.filterMap fun n => ruleIndex? (place n)
    inlined := g.inlined.filterMap fun n => ruleIndex? (place n)
    word := g.word.bind fun n => terminalIndex? (place n) }

end Lexicon

end Grammar

end Lumen
