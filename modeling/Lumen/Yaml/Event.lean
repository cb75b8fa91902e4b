import Lumen.Yaml.Scanner

/-!
# Events of YAML

The tokens of a text give a list of events: the begins and ends of collections, and what is in
them. What is still expected is kept as a stack of goals, of which the top one is met by the next
tokens and gives way to others. A text of one document gives its events; one with a fault, or with
anything after its first document, gives none.
-/

namespace Lumen

namespace Yaml

/-- A scalar as it was written. -/
structure Scalar where
  value : Text
  style : Style
  tag : Option Text := none
deriving BEq, Repr, Inhabited, DecidableEq

/-- A part of a document in the order in which it was written. -/
inductive Event where
  | alias (name : Text)
  | scalar (anchor : Option Text) (s : Scalar)
  | sequenceStart (anchor : Option Text)
  | sequenceEnd
  | mappingStart (anchor : Option Text)
  | mappingEnd
deriving BEq, Repr, Inhabited, DecidableEq

/-- What is expected next. -/
inductive Goal where
  /-- A node; in brackets it can be no block. After a key a sequence need not be indented. -/
  | node (block indentless : Bool)
  | blockEntries
  | indentlessEntries
  | blockKeys
  | blockValue
  | flowEntries (first : Bool)
  /-- The key, the value and the end of a mapping of one key in a sequence in brackets. -/
  | pairKey
  | pairValue
  | pairEnd
  | flowKeys (first : Bool)
  | flowValue
  | flowNoValue
deriving BEq, Repr, Inhabited, DecidableEq

/-- What tag handles stand for. -/
abbrev Handles := List (Text × Text)

/-- The handles that need no directive. -/
def standardHandles : Handles := [(['!'], ['!']), (['!', '!'], "tag:yaml.org,2002:".toList)]

/-- The events by which a goal is met, the goals in its place, and the tokens left. -/
structure Step where
  events : List Event := []
  goals : List Goal := []
  tokens : List Token

def emptyScalar : Event := .scalar none { value := [], style := .plain }

def tagText (handles : Handles) (handle rest : Text) : Option Text :=
  if handle = [] then some rest else (handles.lookup handle).map (· ++ rest)

/-- The anchor and the tag before a node, in either order. -/
def properties? (handles : Handles) :
    List Token → Option (Option Text × Option Text × List Token)
  | .anchor a :: .tag h r :: ts => (tagText handles h r).map fun t => (some a, some t, ts)
  | .anchor a :: ts => some (some a, none, ts)
  | .tag h r :: .anchor a :: ts => (tagText handles h r).map fun t => (some a, some t, ts)
  | .tag h r :: ts => (tagText handles h r).map fun t => (none, some t, ts)
  | ts => some (none, none, ts)

/-- The tag that a scalar is left with: a single mark counts as none. -/
def scalarTag (tag : Option Text) : Option Text := if tag = some ['!'] then none else tag

def node? (handles : Handles) (block indentless : Bool) : List Token → Option Step
  | .alias name :: ts => some { events := [.alias name], tokens := ts }
  | ts => do
    let (anchor, tag, ts) ← properties? handles ts
    match ts with
    | .entry :: _ =>
      if indentless then
        return { events := [.sequenceStart anchor], goals := [.indentlessEntries], tokens := ts }
      else empty anchor tag ts
    | .scalar value style :: ts =>
      return { events := [.scalar anchor ⟨value, style, scalarTag tag⟩], tokens := ts }
    | .flowSequenceStart :: ts =>
      return { events := [.sequenceStart anchor], goals := [.flowEntries true], tokens := ts }
    | .flowMappingStart :: ts =>
      return { events := [.mappingStart anchor], goals := [.flowKeys true], tokens := ts }
    | .sequenceStart :: rest =>
      if block then
        return { events := [.sequenceStart anchor], goals := [.blockEntries], tokens := rest }
      else empty anchor tag ts
    | .mappingStart :: rest =>
      if block then
        return { events := [.mappingStart anchor], goals := [.blockKeys], tokens := rest }
      else empty anchor tag ts
    | ts => empty anchor tag ts
where
  /-- A node of which only the anchor or the tag is written. -/
  empty (anchor tag : Option Text) (ts : List Token) : Option Step :=
    if anchor.isNone && tag.isNone then none
    else some { events := [.scalar anchor ⟨[], .plain, tag⟩], tokens := ts }

/-- Meets a goal by a node unless a token of those that end it comes next. -/
def nodeUnless (ends : List Token) (node after : Goal) (ts : List Token) : Step :=
  if ts.head?.any ends.contains then { events := [emptyScalar], goals := [after], tokens := ts }
  else { goals := [node, after], tokens := ts }

/-- The next step to meet a goal. -/
def step? (handles : Handles) : Goal → List Token → Option Step
  | .node block indentless, ts => node? handles block indentless ts
  | .blockEntries, .entry :: ts =>
    some (nodeUnless [.entry, .blockEnd] (.node true false) .blockEntries ts)
  | .blockEntries, .blockEnd :: ts => some { events := [.sequenceEnd], tokens := ts }
  | .blockEntries, _ => none
  | .indentlessEntries, .entry :: ts =>
    some (nodeUnless [.entry, .key, .value, .blockEnd] (.node true false) .indentlessEntries ts)
  -- No token ends a sequence that is not indented.
  | .indentlessEntries, ts => some { events := [.sequenceEnd], tokens := ts }
  | .blockKeys, .key :: ts =>
    some (nodeUnless [.key, .value, .blockEnd] (.node true true) .blockValue ts)
  | .blockKeys, .blockEnd :: ts => some { events := [.mappingEnd], tokens := ts }
  | .blockKeys, _ => none
  | .blockValue, .value :: ts =>
    some (nodeUnless [.key, .value, .blockEnd] (.node true true) .blockKeys ts)
  | .blockValue, ts => some { events := [emptyScalar], goals := [.blockKeys], tokens := ts }
  | .flowEntries _, .flowSequenceEnd :: ts => some { events := [.sequenceEnd], tokens := ts }
  | .flowEntries true, .key :: ts =>
    some { events := [.mappingStart none], goals := [.pairKey], tokens := ts }
  | .flowEntries true, ts =>
    some { goals := [.node false false, .flowEntries false], tokens := ts }
  -- A comma may stand after the last entry.
  | .flowEntries false, .comma :: .flowSequenceEnd :: ts =>
    some { events := [.sequenceEnd], tokens := ts }
  | .flowEntries false, .comma :: .key :: ts =>
    some { events := [.mappingStart none], goals := [.pairKey], tokens := ts }
  | .flowEntries false, .comma :: ts =>
    some { goals := [.node false false, .flowEntries false], tokens := ts }
  | .flowEntries false, _ => none
  | .pairKey, ts =>
    if ts.head?.any [Token.value, .comma, .flowSequenceEnd].contains then
      some { events := [emptyScalar], goals := [.pairValue], tokens := ts.drop 1 }
    else some { goals := [.node false false, .pairValue], tokens := ts }
  | .pairValue, .value :: ts =>
    some (nodeUnless [.comma, .flowSequenceEnd] (.node false false) .pairEnd ts)
  | .pairValue, ts => some { events := [emptyScalar], goals := [.pairEnd], tokens := ts }
  | .pairEnd, ts => some { events := [.mappingEnd], goals := [.flowEntries false], tokens := ts }
  | .flowKeys _, .flowMappingEnd :: ts => some { events := [.mappingEnd], tokens := ts }
  | .flowKeys first, ts => do
    let ts ← match first, ts with
      | true, ts => some ts
      | false, .comma :: ts => some ts
      | false, _ => none
    match ts with
    | .key :: ts =>
      return nodeUnless [.value, .comma, .flowMappingEnd] (.node false false) .flowValue ts
    | .flowMappingEnd :: ts => return { events := [.mappingEnd], tokens := ts }
    | ts => return { goals := [.node false false, .flowNoValue], tokens := ts }
  | .flowValue, .value :: ts =>
    some (nodeUnless [.comma, .flowMappingEnd] (.node false false) (.flowKeys false) ts)
  | .flowValue, ts =>
    some { events := [emptyScalar], goals := [.flowKeys false], tokens := ts }
  | .flowNoValue, ts =>
    some { events := [emptyScalar], goals := [.flowKeys false], tokens := ts }

def meet? (handles : Handles) : Nat → List Goal → List Token → Option (List Event × List Token)
  | _, [], ts => some ([], ts)
  | 0, _ :: _, _ => none
  | n + 1, g :: gs, ts => do
    let s ← step? handles g ts
    let (events, ts) ← meet? handles n (s.goals ++ gs) s.tokens
    return (s.events ++ events, ts)

/-! ## Documents -/

/-- What the directives before a document say. -/
structure Directives where
  version : Bool := false
  handles : Handles := []

/-- Reads directives. Each may come once, and the version has to be 1.1 or 1.2. -/
def directives? (d : Directives) : List Token → Option (Directives × List Token)
  | .version major minor :: ts =>
    if d.version ∨ major ≠ 1 ∨ (minor ≠ 1 ∧ minor ≠ 2) then none
    else directives? { d with version := true } ts
  | .tagHandle handle start :: ts =>
    if d.handles.any (·.1 = handle) then none
    else directives? { d with handles := d.handles ++ [(handle, start)] } ts
  | ts => some (d, ts)

/-- The events of the node that a document is. -/
def content? (handles : Handles) (ts : List Token) : Option (List Event × List Token) :=
  match ts with
  | [] | .version _ _ :: _ | .tagHandle _ _ :: _ | .documentStart :: _ | .documentEnd :: _ =>
    some ([emptyScalar], ts)
  | ts => meet? handles (8 * ts.length + 8) [.node true false] ts

/-- The events of the only document, if it is the only one. A text of nothing has no events. -/
def events? (ts : List Token) : Option (List Event) := do
  if ts = [] then return []
  let (d, ts) ← directives? {} ts
  let handles := d.handles ++ standardHandles
  let (events, ts) ←
    match ts with
    | .documentStart :: ts => content? handles ts
    | ts =>
      if d.version ∨ d.handles ≠ [] then none
      else meet? handles (8 * ts.length + 8) [.node true false] ts
  if ts.all (· == .documentEnd) then return events else none

end Yaml

end Lumen
