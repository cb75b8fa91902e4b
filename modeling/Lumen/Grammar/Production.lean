import Lumen.Grammar.Lexicon

/-!
# Productions

`Syntax.ofLexicon` brings the rules of a grammar into the form from which parse states are built:
each rule becomes a list of productions, and each production a list of steps.

1. *Repetition.* A repeated rule becomes a hidden rule of its own that is either its body or two
   of itself, so that long lists are shallow. Equal bodies share one such rule.
2. *Flattening.* A choice is multiplied out. The last step of a marked group ends the group: it
   keeps the precedence of the group only where the group ends the production.
3. *Renaming.* A symbol that is never shown under its own kind is shown by default under the alias
   that it has most often; such an alias is dropped from the steps.
-/

namespace Lumen

namespace Grammar

/-- One step of a production: a symbol and what is said about it there. -/
structure Step where
  symbol : Symbol
  prec : Option Int := none
  assoc : Option Assoc := none
  rename : Option Alias := none
  field : Option String := none
deriving BEq, Hashable, Repr, Inhabited

/-- A rule as its productions. -/
structure SyntaxRule where
  name : String
  kind : Kind
  productions : Array (Array Step)
deriving Inhabited

/-- A grammar ready for the construction of parse states. -/
structure Syntax where
  lexicon : Lexicon
  rules : Array SyntaxRule
  inlined : Array Bool
  aliases : List (Symbol × Alias)
deriving Inhabited

namespace Syntax

/-! ## Repetition -/

/-- The rules introduced for repetitions so far, with the bodies they repeat. -/
structure Repeats where
  base : Nat
  added : Array Variable := #[]
  known : List (Rule Symbol × Symbol) := []
  counted : Nat := 0

/-- Either the body or two of the repetition. -/
def twofold (self : Symbol) (body : Rule Symbol) : Rule Symbol :=
  Rule.oneOf [.seq (.sym self) (.sym self), body]

def expand (owner : String) (s : Repeats) : Rule Symbol → Rule Symbol × Repeats
  | .seq a b =>
    let (a, s) := expand owner s a
    let (b, s) := expand owner s b
    (.seq a b, s)
  | .alt a b =>
    let (a, s) := expand owner s a
    let (b, s) := expand owner s b
    (.alt a b, s)
  | .note n r =>
    let (r, s) := expand owner s r
    (.note n r, s)
  | .rep r =>
    let (r, s) := expand owner s r
    match s.known.find? fun (body, _) => body == r with
    | some (_, symbol) => (.sym symbol, s)
    | none =>
      let symbol := Symbol.rule (s.base + s.added.size)
      let n := s.counted + 1
      let v : Variable := ⟨owner ++ "_repeat" ++ toString n, .auxiliary, twofold symbol r⟩
      let known := (r, symbol) :: s.known
      (.sym symbol, { s with added := s.added.push v, known, counted := n })
  | r => (r, s)

/-- Replaces the repetitions of one rule. A hidden rule that is a repetition as a whole becomes
twofold itself. -/
def expandRule (s : Repeats) (v : Variable) (i : Nat) : Variable × Repeats :=
  let s := { s with counted := 0 }
  match v.kind, v.body with
  | .hidden, .rep r =>
    let (r, s) := expand v.name s r
    ({ v with kind := .auxiliary, body := twofold (.rule i) r }, s)
  | _, body =>
    let (body, s) := expand v.name s body
    ({ v with body }, s)

/-- Replaces the repetitions of all rules; the rules for them come last. -/
def expandAll (rules : Array Variable) : Array Variable :=
  let (done, s) := rules.zipIdx.foldl (fun (done, s) (v, i) =>
    let (v, s) := expandRule s v i
    (done.push v, s)) ((#[] : Array Variable), ({ base := rules.size } : Repeats))
  done ++ s.added

/-! ## Flattening -/

/-- Multiplies out the choices of a rule. -/
def choices : Rule Symbol → List (Rule Symbol)
  | .seq a b => (choices a).flatMap fun x => (choices b).map fun y => .seq x y
  | .alt a b => choices a ++ choices b
  | .note n r => (choices r).map (.note n)
  | r => [r]

/-- What the groups around a step say about it. -/
structure Context where
  prec : Option Int := none
  assoc : Option Assoc := none
  rename : Option Alias := none
  field : Option String := none

/-- The steps of a rule without choices. A group's precedence ends with the group, so the last step
of a group that does not end the production takes the precedence around the group. -/
def steps (c : Context) (atEnd : Bool) : Rule Symbol → Array Step
  | .seq a b => steps c false a ++ steps c atEnd b
  | .sym s => #[⟨s, c.prec, c.assoc, c.rename, c.field⟩]
  | .note n r =>
    let inner : Context :=
      ⟨n.prec <|> c.prec, n.assoc <|> c.assoc, n.rename <|> c.rename, n.field <|> c.field⟩
    let out := steps inner atEnd r
    if atEnd || out.isEmpty then out
    else
      out.modify (out.size - 1) fun last =>
        { last with
          prec := if n.prec.isSome then c.prec else last.prec
          assoc := if n.assoc.isSome then c.assoc else last.assoc }
  | _ => #[]

def flatten (v : Variable) : SyntaxRule :=
  let all := (choices v.body).map (steps {} true)
  { name := v.name
    kind := v.kind
    productions := all.foldl (fun ps p => if ps.contains p then ps else ps.push p) #[] }

/-! ## Default aliases -/

/-- The aliases under which a symbol occurs, with how often, and whether it occurs under its own
kind. -/
structure Usage where
  plain : Bool := false
  aliases : List (Alias × Nat) := []

def Usage.add (u : Usage) : Option Alias → Usage
  | none => { u with plain := true }
  | some a =>
    if u.aliases.any fun (b, _) => b == a then
      { u with aliases := u.aliases.map fun (b, n) => if b == a then (b, n + 1) else (b, n) }
    else { u with aliases := u.aliases ++ [(a, 1)] }

/-- How a symbol occurs in the productions. -/
def usage (rules : Array SyntaxRule) (extras : List Symbol) (s : Symbol) : Usage :=
  let u := rules.foldl (fun u r => r.productions.foldl (fun u p => p.foldl (fun u step =>
    if step.symbol == s then u.add step.rename else u) u) u) {}
  if extras.contains s then { u with plain := true } else u

/-- The alias that occurs most often; of equal ones the first. -/
def Usage.default? (u : Usage) : Option Alias :=
  if u.plain then none
  else
    (u.aliases.foldl (fun best (a, n) =>
      match best with
      | some (b, m) => if m < n then some (a, n) else some (b, m)
      | none => some (a, n)) none).map Prod.fst

def defaults (symbols extras : List Symbol) (inlined : Array Bool) (rules : Array SyntaxRule) :
    List (Symbol × Alias) :=
  symbols.filterMap fun s =>
    let skip := match s with
      | .rule i => inlined.getD i false
      | _ => false
    if skip then none else (usage rules extras s).default?.map fun a => (s, a)

def defaultOf (table : List (Symbol × Alias)) (s : Symbol) : Option Alias :=
  (table.find? fun (t, _) => t == s).map Prod.snd

/-- Drops the aliases that their symbols have by default, except where another production of the
rule needs the alias in the same place for a symbol without that default. -/
def dropDefaults (table : List (Symbol × Alias)) (r : SyntaxRule) : SyntaxRule :=
  let needed (j : Nat) (a : Alias) (i : Nat) : Bool :=
    r.productions.zipIdx.any fun (p, k) =>
      k ≠ i && (match p[j]? with
        | some other => other.rename == some a && defaultOf table other.symbol != some a
        | none => false)
  { r with
    productions := r.productions.mapIdx fun i p => p.mapIdx fun j step =>
      match step.rename with
      | some a =>
        if defaultOf table step.symbol == some a && !needed j a i then { step with rename := none }
        else step
      | none => step }

def ofLexicon (l : Lexicon) : Syntax :=
  let expanded := expandAll l.rules
  let wasExpanded (i : Nat) : Bool :=
    (expanded[i]?.map (·.kind)) == some .auxiliary
  let rules := expanded.map flatten
  let inlined := (Array.range rules.size).map fun i => l.inlined.contains i && !wasExpanded i
  let symbols := (List.range l.tokens.size).map .terminal ++ (List.range rules.size).map .rule ++
    (List.range l.externals.size).map .external
  let aliases := defaults symbols l.extras inlined rules
  { lexicon := l, rules := rules.map (dropDefaults aliases), inlined, aliases }

end Syntax

end Grammar

end Lumen
