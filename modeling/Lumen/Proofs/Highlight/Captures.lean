import Lumen.Highlight.Query
import Lumen.Proofs.Text.Place

/-!
# What captures are of

A capture of a query is of a node of the tree that starts in the rows asked for (`of_mem_captures`),
and it has the ends of that node. Which captures are kept is said without the walk through the list:
they are those before which there is no other of the same node (`firsts_firstOfNodes`).

In the trees of texts no node ends before it begins (`ordered_ofSubtree`), since each node is given
its end by what it takes up from its start on.
-/

namespace Lumen

theorem Extent.upTo_add (a b : Extent) : a.point.upTo (a + b).point = true := by
  rw [Point.upTo_iff]
  simp only [point, row_add, column_add]
  by_cases hrow : b.row = 0
  · right
    rw [if_pos hrow]
    omega
  · left
    omega

/-! ## Trees -/

namespace SyntaxTree

/-- That a node does not end before it begins. -/
def Node.Ordered (n : Node) : Prop := n.start.point.upTo n.stop.point = true

instance (n : Node) : Decidable n.Ordered := inferInstanceAs (Decidable (_ = true))

/-- That no node of a tree ends before it begins. -/
def Ordered (t : SyntaxTree) : Prop := ∀ n ∈ t.nodes, n.Ordered

instance (t : SyntaxTree) : Decidable t.Ordered := inferInstanceAs (Decidable (∀ n ∈ t.nodes, _))

/-- What holds of all nodes of a tree, and of the empty node that stands for any that the tree does
not have, holds of whatever node is asked for. -/
theorem node_of_forall {P : Node → Prop} {t : SyntaxTree} (hnone : P default)
    (h : ∀ n ∈ t.nodes, P n) (n : Nat) : P (t.node n) := by
  unfold SyntaxTree.node
  by_cases hn : n < t.nodes.size
  · rw [Array.getD, dif_pos hn]
    exact h _ (Array.getElem_mem hn)
  · rw [Array.getD, dif_neg hn]
    exact hnone

theorem Ordered.node {t : SyntaxTree} (h : t.Ordered) (n : Nat) : (t.node n).Ordered := by
  have hnone : (default : Node).Ordered := rfl
  exact node_of_forall hnone h n

/-- To set where a node is left moves no node. -/
theorem ordered_modify {nodes : Array Node} (h : ∀ n ∈ nodes, n.Ordered) (i next : Nat) :
    ∀ n ∈ nodes.modify i (fun n => { n with next }), n.Ordered := by
  intro n hn
  obtain ⟨j, hj, rfl⟩ := Array.mem_iff_getElem.mp hn
  rw [Array.size_modify] at hj
  have hnode := h nodes[j] (Array.getElem_mem hj)
  rw [Array.getElem_modify]
  split
  · exact hnode
  · exact hnode

mutual
theorem ordered_addSubtree (l : Language) (symbol : Nat) (place : Extent) (s : Setting)
    (parent : Option Nat) (depth : Nat) {nodes : Array Node} (h : ∀ n ∈ nodes, n.Ordered)
    (t : Subtree) : ∀ n ∈ addSubtree l symbol place s parent depth nodes t, n.Ordered := by
  cases t with
  | mk i cs =>
      rw [addSubtree]
      split
      · -- the node comes before those inside it, and is told last where it is left
        apply ordered_modify
        apply ordered_addAll
        intro n hn
        rcases Array.mem_push.mp hn with hn | rfl
        · exact h n hn
        · exact Extent.upTo_add _ _
      · split
        · exact h
        · exact ordered_addAll l i.shape 0 place s parent depth h cs
theorem ordered_addAll (l : Language) (shape i : Nat) (place : Extent) (s : Setting)
    (parent : Option Nat) (depth : Nat) {nodes : Array Node} (h : ∀ n ∈ nodes, n.Ordered)
    (ts : List Subtree) : ∀ n ∈ addAll l shape i place s parent depth nodes ts, n.Ordered := by
  cases ts with
  | nil =>
      rw [addAll]
      exact h
  | cons t ts =>
      rw [addAll]
      apply ordered_addAll
      exact ordered_addSubtree l _ place _ parent depth h t
end

/-- In the tree of a text no node ends before it begins. -/
theorem ordered_ofSubtree (l : Language) (t : Subtree) : (ofSubtree l t).Ordered :=
  ordered_addSubtree l _ _ _ _ _ (fun _ hn => absurd hn (Array.not_mem_empty _)) t

theorem ordered_of_tree? {l : Language} {text : String} {t : SyntaxTree}
    (h : l.tree? text = some t) : t.Ordered := by
  obtain ⟨subtree, -, rfl⟩ := Option.map_eq_some_iff.mp h
  exact ordered_ofSubtree l subtree

end SyntaxTree

namespace Highlight

/-! ## Captures -/

/-- A capture is of a node that starts in the rows asked for, and is where the node is. -/
theorem of_mem_captures {q : Query} {t : SyntaxTree} {text : String} {rows : RowRange} {c : Capture}
    (h : c ∈ captures q t text rows) :
    rows.contains c.start.row = true ∧ c.start = (t.node c.node).start.point ∧
      c.stop = (t.node c.node).stop.point := by
  obtain ⟨found, -, hfound⟩ := List.mem_filterMap.mp h
  simp only at hfound
  split at hfound
  · next hrows =>
      obtain rfl := Option.some.inj hfound
      exact ⟨hrows, rfl, rfl⟩
  · cases hfound

/-! ## The first of each node -/

/-- That of some captures those are kept before which there is none of the same node, in the order
in which the nodes are captured first. -/
structure Firsts (cs kept : List Capture) : Prop where
  mem_iff : ∀ c, c ∈ kept ↔ cs.find? (fun d => d.node = c.node) = some c
  nodup : (kept.map Capture.node).Nodup
  inOrder : kept.Pairwise fun c d =>
    cs.findIdx (fun b => b.node = c.node) < cs.findIdx (fun b => b.node = d.node)

theorem Firsts.subset {cs kept : List Capture} (h : Firsts cs kept) {c : Capture} (hc : c ∈ kept) :
    c ∈ cs :=
  List.mem_of_find?_eq_some ((h.mem_iff c).mp hc)

/-- A capture is kept if its node has not been seen and there is no capture of the node before. -/
theorem mem_firstUnseen_iff {seen : List Nat} {cs : List Capture} {c : Capture} :
    c ∈ firstUnseen seen cs ↔
      c.node ∉ seen ∧ cs.find? (fun d => d.node = c.node) = some c := by
  induction cs generalizing seen with
  | nil => simp [firstUnseen]
  | cons d ds ih =>
      rw [firstUnseen]
      by_cases hsame : d.node = c.node
      · rw [List.find?_cons_of_pos (by simp [hsame])]
        by_cases hseen : d.node ∈ seen
        · rw [if_pos hseen, ih]
          constructor
          · rintro ⟨hnode, -⟩
            exact absurd (hsame ▸ hseen) hnode
          · rintro ⟨hnode, -⟩
            exact absurd (hsame ▸ hseen) hnode
        · -- what comes after the first capture of a node is not kept
          rw [if_neg hseen, List.mem_cons, ih, hsame]
          constructor
          · rintro (rfl | ⟨hnode, -⟩)
            · exact ⟨hseen, rfl⟩
            · exact absurd List.mem_cons_self hnode
          · rintro ⟨-, heq⟩
            exact .inl (Option.some.inj heq).symm
      -- a capture of another node neither counts as the first one nor keeps it from being kept
      · rw [List.find?_cons_of_neg (by simp [hsame])]
        by_cases hseen : d.node ∈ seen
        · rw [if_pos hseen, ih]
        · rw [if_neg hseen, List.mem_cons, ih, List.mem_cons, not_or]
          constructor
          · rintro (rfl | ⟨⟨-, hnode⟩, hfind⟩)
            · exact absurd rfl hsame
            · exact ⟨hnode, hfind⟩
          · rintro ⟨hnode, hfind⟩
            exact .inr ⟨⟨fun h => hsame h.symm, hnode⟩, hfind⟩

/-- What is kept of captures after another is of none of the nodes that have been seen, nor of the
node of that one. So it is as much later among all captures as it is among those after the other. -/
theorem findIdx_of_mem_firstUnseen {seen : List Nat} {c d : Capture} {ds : List Capture}
    (hd : d ∈ firstUnseen seen ds) (hc : c.node ∈ seen) :
    (c :: ds).findIdx (fun b => b.node = d.node) = ds.findIdx (fun b => b.node = d.node) + 1 := by
  have hunseen := (mem_firstUnseen_iff.mp hd).1
  have hne : c.node ≠ d.node := fun h => hunseen (h ▸ hc)
  rw [List.findIdx_cons, decide_eq_false hne, cond_false]

theorem pairwise_firstUnseen (seen : List Nat) (cs : List Capture) :
    (firstUnseen seen cs).Pairwise fun c d =>
      cs.findIdx (fun b => b.node = c.node) < cs.findIdx (fun b => b.node = d.node) := by
  induction cs generalizing seen with
  | nil => exact List.Pairwise.nil
  | cons c cs ih =>
      have hlater : ∀ seen', c.node ∈ seen' → (firstUnseen seen' cs).Pairwise fun d d' =>
          (c :: cs).findIdx (fun b => b.node = d.node) <
            (c :: cs).findIdx (fun b => b.node = d'.node) := by
        intro seen' hc
        apply (ih seen').imp_of_mem
        intro d d' hd hd' hlt
        rw [findIdx_of_mem_firstUnseen hd hc, findIdx_of_mem_firstUnseen hd' hc]
        exact Nat.succ_lt_succ hlt
      rw [firstUnseen]
      -- in either case the node of `c` has been seen from here on
      by_cases hseen : c.node ∈ seen
      · rw [if_pos hseen]
        exact hlater seen hseen
      · rw [if_neg hseen]
        refine List.Pairwise.cons ?_ (hlater _ List.mem_cons_self)
        intro d hd
        rw [findIdx_of_mem_firstUnseen hd List.mem_cons_self, List.findIdx_cons, decide_eq_true rfl,
          cond_true]
        exact Nat.succ_pos _

/-- Those captures are kept that are the first of their node. -/
theorem firsts_firstOfNodes (cs : List Capture) : Firsts cs (firstOfNodes cs) where
  mem_iff c := by
    unfold firstOfNodes
    rw [mem_firstUnseen_iff]
    exact and_iff_right List.not_mem_nil
  nodup := by
    -- captures of one node would be found at one place
    apply List.pairwise_map.mpr
    apply (pairwise_firstUnseen [] cs).imp
    intro c d hlt hsame
    rw [hsame] at hlt
    exact Nat.lt_irrefl _ hlt
  inOrder := pairwise_firstUnseen [] cs

end Highlight

end Lumen
