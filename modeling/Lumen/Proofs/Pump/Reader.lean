import Lumen.Proofs.Editor.Splice
import Lumen.Pump.Basic
import Lumen.Tree.Edit
import Mathlib.Data.List.Forall2

/-!
# What is asked of a reader

Readers are free to find no tree and to find other trees when they start from other ones. What is
known of a good one are two conditions: that it has a tree for every text (`Reader.Total`), and that
a tree of an earlier text, moved by edits that tell how the text has become another, makes no
difference to what it reads (`Reader.Incremental`).

`Reader.comments` is such a reader. It takes a moved tree at its word, so a tree that was moved by
any other edits does make a difference.
-/

namespace Lumen

variable {τ : Type}

namespace Reader

/-- That every text has a tree, whatever it is parsed from. -/
def Total (r : Reader τ) : Prop := ∀ text base, ∃ tree, r.parse? text base = some tree

/-- That a text which is parsed from the tree of an earlier text, moved by coherent edits that lead
to it, has the tree that it has when it is parsed from nothing. -/
def Incremental (r : Reader τ) : Prop :=
  ∀ text text' tree edits, r.parse? text none = some tree → Edit.Path text edits text' →
    r.parse? text' (some (edits.foldl (fun tree e => r.edit e tree) tree)) = r.parse? text' none

end Reader

/-! ## Trees of comments -/

/-- The tree of a text whose lines are comments or empty: its lines, the character that each byte
belongs to, if that is known, and where the text ends. -/
structure CommentTree where
  lines : List Text
  bytes : List (Option Char)
  stop : Extent
deriving Inhabited, DecidableEq

namespace CommentTree

/-- The character that each byte of a text belongs to. -/
def characters (t : Text) : List Char := t.flatMap fun c => List.replicate c.utf8Size c

def ofText (t : Text) : CommentTree :=
  ⟨t.splitFeeds, (characters t).map some, Extent.ofChars t⟩

/-- The tree after an edit: nothing is known of the bytes that were put in. -/
def move (tree : CommentTree) (e : Edit) : CommentTree where
  lines := []
  bytes := tree.bytes.take e.start.bytes ++
    List.replicate (e.newStop.bytes - e.start.bytes) none ++ tree.bytes.drop e.oldStop.bytes
  stop := SyntaxTree.movedStop e tree.stop

/-- Whether what is known of a byte, if anything is, is the character that it belongs to. -/
def Knows (known : Option Char) (c : Char) : Prop := known = none ∨ known = some c

instance (known : Option Char) (c : Char) : Decidable (Knows known c) :=
  inferInstanceAs (Decidable (known = none ∨ known = some c))

/-- Whether a tree tells nothing wrong of a text. -/
structure Fits (tree : CommentTree) (t : Text) : Prop where
  bytes : List.Forall₂ Knows tree.bytes (characters t)
  stop : tree.stop = Extent.ofChars t

instance (tree : CommentTree) (t : Text) : Decidable (tree.Fits t) :=
  decidable_of_iff (List.Forall₂ Knows tree.bytes (characters t) ∧ tree.stop = Extent.ofChars t)
    ⟨fun h => ⟨h.1, h.2⟩, fun h => ⟨h.bytes, h.stop⟩⟩

theorem characters_append (a b : Text) : characters (a ++ b) = characters a ++ characters b :=
  List.flatMap_append

@[simp] theorem length_characters (t : Text) : (characters t).length = t.byteLength := by
  induction t with
  | nil => rfl
  | cons c cs ih =>
      rw [characters, List.flatMap_cons, List.length_append, List.length_replicate,
        Text.byteLength_cons]
      exact congrArg (c.utf8Size + ·) ih

theorem fits_ofText (t : Text) : (ofText t).Fits t where
  bytes := by
    rw [ofText, List.forall₂_map_left_iff]
    exact List.forall₂_same.mpr fun c _ => .inr rfl
  stop := rfl

/-- Bytes of which nothing is known can belong to any text of their number. -/
theorem forall₂_replicate_none (t : Text) :
    List.Forall₂ Knows (List.replicate t.byteLength none) (characters t) := by
  rw [← length_characters]
  induction characters t with
  | nil => exact .nil
  | cons c cs ih => exact .cons (.inl rfl) ih

/-- The end of a text is moved to the end of the next one. -/
theorem movedStop_splice (s : Splice) :
    SyntaxTree.movedStop s.edit (Extent.ofChars s.before) = Extent.ofChars s.after := by
  have hbefore := Extent.ofChars_append (s.front ++ s.removed) s.back
  have hafter := Extent.ofChars_append (s.front ++ s.inserted) s.back
  simp only [SyntaxTree.movedStop, Splice.edit, Splice.before, Splice.after, Extent.bytes_ofChars,
    Text.byteLength_append, Bool.or_eq_true, Bool.and_eq_true, decide_eq_true_eq]
  rw [if_pos (by omega)]
  split
  · rw [hbefore, hafter, Extent.add_sub_cancel_left]
  · have hback : s.back = [] := Text.eq_nil_of_byteLength_eq_zero (by omega)
    rw [hback, List.append_nil]

/-- A tree that tells nothing wrong of a text tells nothing wrong of the next one when it is moved
by an edit that leads there. -/
theorem Fits.move {tree : CommentTree} {t t' : Text} {e : Edit} (h : tree.Fits t)
    (he : e.Coherent t t') : (tree.move e).Fits t' := by
  obtain ⟨s, rfl, rfl, rfl⟩ := he.exists_splice
  constructor
  · have hbytes := h.bytes
    rw [Splice.before, characters_append] at hbytes
    have hback := List.forall₂_drop_append _ _ _ hbytes
    rw [characters_append, List.append_assoc] at hbytes
    have hfront := List.forall₂_take_append _ _ _ hbytes
    rw [length_characters] at hfront hback
    have hinserted := forall₂_replicate_none s.inserted
    have hsize : (s.front ++ s.inserted).byteLength - s.front.byteLength =
        s.inserted.byteLength := by
      rw [Text.byteLength_append, Nat.add_sub_cancel_left]
    simp only [Splice.after, CommentTree.move, Splice.edit, Extent.bytes_ofChars, hsize,
      characters_append]
    exact List.rel_append (List.rel_append hfront hinserted) hback
  · rw [CommentTree.move, h.stop]
    exact movedStop_splice s

theorem Fits.moveAll {tree : CommentTree} {t t' : Text} {edits : List Edit} (h : tree.Fits t)
    (hpath : Edit.Path t edits t') : (edits.foldl CommentTree.move tree).Fits t' := by
  induction hpath generalizing tree with
  | nil t => exact h
  | cons he _ ih => exact ih (h.move he)

end CommentTree

namespace Reader

/-- A reader of texts whose lines are comments or empty. It finds no lines where a tree from which
it is to start tells anything wrong of the text. -/
def comments : Reader CommentTree where
  parse? text base :=
    match base with
    | none => some (.ofText text)
    | some tree => some (if tree.Fits text then .ofText text else default)
  edit e tree := tree.move e
  captures tree _ rows :=
    (tree.lines.zipIdx.filter fun (line, row) => line ≠ [] ∧ rows.contains row).map
      fun (line, row) => ⟨"comment", 8, row, ⟨row, 0⟩, ⟨row, line.byteLength⟩⟩

theorem total_comments : comments.Total
  | _, none => ⟨_, rfl⟩
  | _, some _ => ⟨_, rfl⟩

theorem incremental_comments : comments.Incremental := by
  intro text text' tree edits htree hpath
  have htext : tree.Fits text := Option.some.inj htree ▸ CommentTree.fits_ofText text
  exact congrArg some (if_pos (htext.moveAll hpath))

/-- A character was put in before another one, and the edit tells that it was put in after it. -/
example :
    let wrong : Edit := ⟨⟨1, 0, 1⟩, ⟨1, 0, 1⟩, ⟨2, 0, 2⟩⟩
    ¬ ((CommentTree.ofText ['a']).move wrong).Fits ['b', 'a'] := by
  decide

end Reader

end Lumen
