import Lumen.Parse.Reading

/-!
# Recovery from errors

Where no reading can take the next token, the parse recovers in one of three ways, and follows all
that are worth it:

* a single token is taken to be missing;
* the reading goes back to an earlier state in which the token is welcome, and what lies between
  becomes an error;
* the token is skipped, and becomes part of an error.
-/

namespace Lumen

namespace Readings

/-! ## Reductions on any token -/

/-- The reductions of nonempty nodes that a state has on some tokens, each once, and whether one of
the tokens can be taken in. -/
def reductionsOn (l : Language) (state : Nat) (tokens : List Nat) : List (Nat × Nat × Nat) × Bool :=
  let (found, shifts) := tokens.foldl (fun acc token =>
    (l.actions state token).foldl (fun (found, shifts) a =>
      match a with
      | .shift _ false => (found, true)
      | .recover => (found, true)
      | .reduce rule count shape =>
        if count = 0 || found.any fun (r, c, _) => r = rule && c = count then (found, shifts)
        else ((rule, count, shape) :: found, shifts)
      | _ => (found, shifts)) acc) (([] : List (Nat × Nat × Nat)), false)
  (found.reverse, shifts)

/-- Does every reduction that some tokens allow, from reading `start` on; with no token given, any
token counts. Tells whether the token can be taken in afterwards. -/
def reduceAll (l : Language) (start before : Nat) (token : Option Nat) (fuel round v : Nat)
    (can : Bool) (r : Readings) : Bool × Readings :=
  match fuel with
  | 0 => (can, r)
  | fuel + 1 =>
    let count := r.stack.size
    if count ≤ v then (can, r)
    else
      match r with
      | ⟨stack, cache, finished, accepted⟩ =>
        match mergeInto stack v ((List.range v).drop before) with
        | some s =>
          reduceAll l start before token fuel (round + 1) v can ⟨s, cache, finished, accepted⟩
        | none =>
          let (reductions, shifts) :=
            reductionsOn l (stack.state v) (match token with
              | some t => [t]
              | none => l.tokens)
          let (last, r) := reductions.foldl (fun (_, r) (rule, count, shape) =>
            reduce l r v rule count shape false)
            ((none : Option Nat), ⟨stack, cache, finished, accepted⟩)
          -- The first reading is followed by those made from it; what is between was there before.
          let next := if v = start then count else v + 1
          if shifts then reduceAll l start before token fuel (round + 1) next true r
          else
            match last with
            | some w =>
              -- The last reading takes the place of the one it was reduced from, which is then
              -- tried again.
              if round < maxReadings then
                reduceAll l start before token fuel (round + 1) v can
                  (r.mapStack fun s => s.moveTo w v)
              else if token.isSome then
                reduceAll l start before token fuel (round + 1) next can
                  (r.mapStack fun s => s.remove v)
              else reduceAll l start before token fuel (round + 1) next can r
            | none =>
              if token.isSome then
                reduceAll l start before token fuel (round + 1) next can
                  (r.mapStack fun s => s.remove v)
              else reduceAll l start before token fuel (round + 1) next can r

/-- Does every reduction that a token allows. The end of the text stands for any token. -/
def allReductions (l : Language) (r : Readings) (v : Nat) (token : Option Nat) :
    Bool × Readings :=
  let token := token.filter (· ≠ l.numbering.eof)
  reduceAll l v r.stack.size token stepBound 0 v false r

/-! ## Going back and skipping -/

/-- Puts the subtrees above an earlier state into an error, for one way down to that state. -/
def wrapSlice (l : Language) (goal : Nat) (s : Stack) (slice : Stack.Slice) : Stack :=
  let (s, errors) := s.popError slice.head
  let before := (errors.head?.map Subtree.children).getD []
  let (trees, extras) := Subtree.splitExtras (before ++ slice.trees)
  let s := if trees.isEmpty then s
    else s.push slice.head (some (Subtree.errorNode l trees true)) goal
  extras.foldl (fun s t => s.push slice.head (some t) goal) s

/-- Goes back over a number of subtrees to a state; tells whether there is such a way. -/
def goBack (l : Language) (s : Stack) (v depth goal : Nat) : Bool × Stack :=
  let (s, slices) := s.pop v depth
  let (s, last) := slices.foldl (fun (s, (last : Option Nat)) slice =>
    if last = some slice.head then (s, last)
    else if s.state slice.head ≠ goal then (s.halt slice.head, last)
    else (wrapSlice l goal s slice, some slice.head)) (s, none)
  (last.isSome, s)

/-- Looks for an earlier state in which the token is welcome, nearest first, and goes back there. -/
def tryGoingBack (l : Language) (v : Nat) (token : Subtree) (place : Extent) (cost : Nat)
    (advanced : Bool) (count : Nat) (r : Readings) : List Stack.Past → Bool × Readings
  | [] => (false, r)
  | past :: rest =>
    if past.state = 0 || past.place.bytes = place.bytes then
      tryGoingBack l v token place cost advanced count r rest
    else if (List.range count).any fun w =>
        r.stack.state w = past.state && (r.stack.place w).bytes = place.bytes then
      tryGoingBack l v token place cost advanced count r rest
    else
      let newCost := cost + past.depth * Subtree.skippedTreeCost +
        (place.bytes - past.place.bytes) * Subtree.skippedByteCost +
        (place.row - past.place.row) * Subtree.skippedLineCost
      let (beaten, r) := r.betterExists v false newCost
      if beaten then (false, r)
      else if (l.actions past.state token.symbol).isEmpty then
        tryGoingBack l v token place cost advanced count r rest
      else
        match r with
        | ⟨stack, cache, finished, accepted⟩ =>
          let depth := if advanced then past.depth + 1 else past.depth
          let (ok, s) := goBack l stack v depth past.state
          let r : Readings := ⟨s, cache, finished, accepted⟩
          if ok then (true, r) else tryGoingBack l v token place cost advanced count r rest

/-- Removes the heads from `v` on that are not active. -/
def dropInactive (fuel : Nat) (s : Stack) (v : Nat) : Stack :=
  match fuel with
  | 0 => s
  | fuel + 1 =>
    if s.size ≤ v then s
    else if s.isActive v then dropInactive fuel s (v + 1)
    else dropInactive fuel (s.remove v) v

def dropBeyond (s : Stack) (count : Nat) : Stack :=
  Nat.fold (s.size - count) (fun _ _ s => s.remove count) s

/-- Puts a token into the error on top of a reading. -/
def skipToken (l : Language) (r : Readings) (v : Nat) (token : Subtree) (advanced : Bool) :
    Readings :=
  let token := match (l.actions 1 token.symbol).getLast? with
    | some .shiftExtra => token.withExtra true
    | _ => token
  let skipped := Subtree.node l Language.skippedSymbol 0 [token]
  r.mapStack fun s =>
    let (s, skipped) :=
      if advanced then
        let (s, slices) := s.pop v 1
        match slices[0]? with
        | some slice =>
          let s := if 1 < slices.size then dropBeyond s (slice.head + 1) else s
          (s.moveTo slice.head v,
            Subtree.node l Language.skippedSymbol 0 (slice.trees ++ [skipped]))
        | none => (s, skipped)
      else (s, skipped)
    let s := s.push v (some skipped) 0
    match token.info.memory with
    | some m => s.modifyHead v fun h => { h with memory := some m }
    | none => s

/-- Recovers a reading in an error with the next token. -/
def recover (l : Language) (r : Readings) (v : Nat) (token : Subtree) : Readings :=
  let count := r.stack.size
  let place := r.stack.place v
  let r := r.mapStack fun s => s.settle v
  let advanced := 0 < r.stack.progressSinceError v
  let cost := r.stack.cost v
  let past := if token.isError then [] else (((r.stack.head v).past).getD #[]).toList
  let (back, r) := tryGoingBack l v token place cost advanced count r past
  let r := r.mapStack fun s => dropInactive (s.size + 1) s count
  -- No token is left to be skipped at the end of the text.
  if token.symbol = l.numbering.eof then
    accept l (r.mapStack fun s => s.push v (some (Subtree.errorNode l [] false)) 1) v token
  else if back && (maxReadings < r.stack.size || token.info.memoryChanges) then
    r.mapStack fun s => s.halt v
  else
    let newCost := cost + Subtree.skippedTreeCost + token.extent.bytes * Subtree.skippedByteCost +
      token.extent.row * Subtree.skippedLineCost
    let (beaten, r) := r.betterExists v false newCost
    if beaten then r.mapStack fun s => s.halt v else skipToken l r v token advanced

/-! ## Missing tokens -/

def reducesOn (l : Language) (state symbol : Nat) : Bool :=
  match (l.actions state symbol).head? with
  | some (.reduce ..) => true
  | _ => false

/-- Tries to go on as if a token were there that is missing; tells whether this works out. -/
def tryMissing (l : Language) (v : Nat) (token : Subtree) (r : Readings) :
    List Nat → Bool × Readings
  | [] => (false, r)
  | missing :: rest =>
    let state := r.stack.state v
    match l.nextState? state missing with
    | none => tryMissing l v token r rest
    | some next =>
      if next = 0 || next = state || !reducesOn l next token.symbol then
        tryMissing l v token r rest
      else
        match r with
        | ⟨stack, cache, finished, accepted⟩ =>
          let (w, s) := stack.copy v
          let s := s.push w (some (Subtree.missingLeaf l missing)) next
          let (ok, r) := allReductions l ⟨s, cache, finished, accepted⟩ w (some token.symbol)
          if ok then (true, r) else tryMissing l v token r rest

/-- Lets each of some readings enter an error, once a missing token has been tried. -/
def enterErrors (l : Language) (token : Subtree) (tried : Bool) (r : Readings) :
    List Nat → Readings
  | [] => r
  | v :: rest =>
    let (ok, r) := if tried then (true, r) else tryMissing l v token r l.tokens
    enterErrors l token ok (r.mapStack fun s => s.push v none 0) rest

/-- How many states below an error are remembered. -/
def maxPastDepth : Nat := 16

/-- Begins the recovery of a reading that cannot take its next token. -/
def handleError (l : Language) (r : Readings) (v : Nat) (token : Subtree) : Readings :=
  let before := r.stack.size
  let (_, r) := allReductions l r v none
  let after := r.stack.size
  let r := enterErrors l token false r (v :: (List.range after).drop before)
  let r := r.mapStack fun s =>
    Nat.fold (after - before) (fun _ _ s => (s.merge? v before).getD s) s
  let r := r.mapStack fun s => s.recordPast v maxPastDepth
  recover l r v token

end Readings

end Lumen
