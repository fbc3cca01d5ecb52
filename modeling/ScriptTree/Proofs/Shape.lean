import ScriptTree.Proofs.Building

/-! # Reading a forest back

The tables of a forest hold the forest: what they say of a node is what the forest has in its place. -/
set_option autoImplicit false
namespace ScriptTree

/-! ## Tables that hold a forest -/

/-- The tables of a tree have the entries of a forest from a numbering on, and the tokens there are the
leaves of the forest. -/
structure SyntaxTree.Holds (tree : SyntaxTree) (parent : Option NodeId) (numbering : Numbering)
    (forest : Forest) : Prop where
  nodes : forest.nodeEntries parent numbering <+: tree.nodes.toList.drop numbering.node
  children : forest.childTable numbering <+: tree.childTable.toList.drop numbering.child
  lists : forest.listEntries (parent.getD SyntaxTree.root) numbering <+:
    tree.lists.toList.drop numbering.list
  leaves : forest.leaves = (List.range' numbering.token forest.leaves.length).map fun id =>
    (id - tree.firstToken, (tree.token id).kind)

namespace SyntaxTree.Holds

variable {tree : SyntaxTree} {parent : Option NodeId} {numbering : Numbering}

theorem prefix_drop {α : Type} {left right all : List α} {count : Nat}
    (ahead : left ++ right <+: all.drop count) :
    left <+: all.drop count ∧ right <+: all.drop (count + left.length) := by
  obtain ⟨rest, same⟩ := ahead
  refine ⟨⟨right ++ rest, by rw [← same, List.append_assoc]⟩, rest, ?_⟩
  rw [← List.drop_drop, ← same, List.append_assoc, List.drop_left]

theorem getElem?_of_prefix {α : Type} {value : α} {rest all : List α} {count : Nat}
    (ahead : value :: rest <+: all.drop count) : all[count]? = some value := by
  obtain ⟨more, same⟩ := ahead
  have first : (all.drop count)[0]? = some value := by rw [← same]; rfl
  simpa using first

/-- The table has the entries ahead in a stretch of it. -/
theorem extract_of_prefix {α : Type} {values : List α} {all : Array α} {count : Nat}
    (ahead : values <+: all.toList.drop count) :
    (all.extract count (count + values.length)).toList = values := by
  rw [Array.toList_extract, List.extract_eq_take_drop, Nat.add_sub_cancel_left]
  exact (List.prefix_iff_eq_take.mp ahead).symm

theorem hole {before : Forest} (holds : tree.Holds parent numbering before.hole) :
    tree.Holds parent numbering before :=
  ⟨holds.nodes, holds.children, holds.lists, holds.leaves⟩

theorem append {left right : Forest} (holds : tree.Holds parent numbering (left ++ right)) :
    tree.Holds parent numbering left ∧ tree.Holds parent (left.after numbering) right := by
  have nodes := holds.nodes
  have children := holds.children
  have lists := holds.lists
  have leaves := holds.leaves
  rw [Forest.nodeEntries_append] at nodes
  rw [Forest.childTable_append] at children
  rw [Forest.listEntries_append] at lists
  rw [Forest.leaves_append, List.length_append, ← List.range'_append_1, List.map_append] at leaves
  obtain ⟨leftLeaves, rightLeaves⟩ := List.append_inj leaves (by simp)
  refine ⟨⟨(prefix_drop nodes).1, (prefix_drop children).1, (prefix_drop lists).1, leftLeaves⟩, ?_, ?_,
    ?_, ?_⟩
  · rw [Forest.after_eq] at nodes ⊢
    have rest := (prefix_drop nodes).2
    rwa [Forest.length_nodeEntries] at rest
  · rw [Forest.after_eq] at children ⊢
    have rest := (prefix_drop children).2
    rwa [Forest.length_childTable] at rest
  · rw [Forest.after_eq] at lists ⊢
    have rest := (prefix_drop lists).2
    rwa [Forest.length_listEntries] at rest
  · rw [Forest.after_eq]
    exact rightLeaves

theorem token {position : Nat} {kind : Kind}
    (holds : tree.Holds parent numbering (Forest.empty.token position kind)) :
    numbering.token - tree.firstToken = position ∧ (tree.token numbering.token).kind = kind := by
  have leaves := holds.leaves
  simp only [Forest.leaves, List.nil_append, List.length_singleton, List.range'_one, List.map_cons,
    List.map_nil, List.cons.injEq, Prod.mk.injEq, and_true] at leaves
  exact ⟨leaves.1.symm, leaves.2.symm⟩

theorem entry {kind : Kind} {children : Forest}
    (holds : tree.Holds parent numbering (Forest.empty.node kind children)) :
    tree.entry numbering.node = ⟨kind, parent, (children.after numbering.nextNode).child,
      (children.after numbering.nextNode).child + children.childCount, numbering.token,
      (children.after numbering.nextNode).token⟩ := by
  have nodes := holds.nodes
  simp only [Forest.nodeEntries, Forest.after, List.nil_append] at nodes
  have found := getElem?_of_prefix nodes
  rw [Array.getElem?_toList] at found
  rw [SyntaxTree.entry, Array.getD_eq_getD_getElem?, found]
  rfl

theorem node {kind : Kind} {children : Forest}
    (holds : tree.Holds parent numbering (Forest.empty.node kind children)) :
    tree.kind numbering.node = kind ∧
      tree.children numbering.node = children.childrenFrom numbering.nextNode ∧
      tree.Holds (some numbering.node) numbering.nextNode children := by
  have nodes := holds.nodes
  simp only [Forest.nodeEntries, Forest.after, List.nil_append] at nodes
  have stored := holds.children
  simp only [Forest.childTable, Forest.after, List.nil_append] at stored
  obtain ⟨inner, own⟩ := prefix_drop stored
  refine ⟨by rw [SyntaxTree.kind, holds.entry], ?_, ?_, inner, ?_, ?_⟩
  · have stretch := extract_of_prefix own
    rw [Forest.length_childrenFrom, Forest.length_childTable] at stretch
    rw [SyntaxTree.children, holds.entry, Forest.after_eq]
    exact stretch
  · rw [← List.singleton_append] at nodes
    exact (prefix_drop nodes).2
  · simpa [Forest.listEntries, Forest.after] using holds.lists
  · simpa [Forest.leaves] using holds.leaves

theorem listEntry {items : Forest}
    (holds : tree.Holds parent numbering (Forest.empty.list items)) :
    tree.listEntry numbering.list = ⟨parent.getD SyntaxTree.root,
      (SeparatedListBuilder.ofItems (items.itemsFrom numbering.nextList)).finish⟩ := by
  have lists := holds.lists
  simp only [Forest.listEntries, Forest.after, List.nil_append] at lists
  have found := getElem?_of_prefix lists
  rw [Array.getElem?_toList] at found
  rw [SyntaxTree.listEntry, Array.getD_eq_getD_getElem?, found]
  rfl

theorem list {items : Forest} (holds : tree.Holds parent numbering (Forest.empty.list items)) :
    (tree.listEntry numbering.list).items =
        (SeparatedListBuilder.ofItems (items.itemsFrom numbering.nextList)).finish ∧
      tree.Holds parent numbering.nextList items := by
  have lists := holds.lists
  simp only [Forest.listEntries, Forest.after, List.nil_append] at lists
  refine ⟨by rw [holds.listEntry], ?_, ?_, ?_, ?_⟩
  · simpa [Forest.nodeEntries, Forest.after] using holds.nodes
  · simpa [Forest.childTable, Forest.after] using holds.children
  · rw [← List.singleton_append] at lists
    exact (prefix_drop lists).2
  · simpa [Forest.leaves] using holds.leaves

end SyntaxTree.Holds

/-! ## The shape of a tree that holds a forest -/

namespace SyntaxTree

/-- The children and the items that the tables say give the forest again, if there are levels
enough. -/
theorem Holds.read_back {tree : SyntaxTree} (forest : Forest) (parent : Option NodeId)
    (numbering : Numbering) (budget : Nat) (holds : tree.Holds parent numbering forest)
    (enough : forest.nodes.length ≤ budget) :
    (forest.WellBuilt false →
      (forest.childrenFrom numbering).foldl (tree.addChild (tree.shapeWithin budget)) .empty =
        forest) ∧
    (forest.WellBuilt true → forest.expectsElement ≠ none →
      (forest.itemsFrom numbering).foldl (tree.addItem (tree.shapeWithin budget)) .empty = forest) := by
  induction forest generalizing parent numbering budget with
  | empty => exact ⟨fun _ => rfl, fun _ _ => rfl⟩
  | token before position kind ih =>
      obtain ⟨beforeHolds, tokenHolds⟩ : _ ∧ tree.Holds parent _ (Forest.empty.token position kind) :=
        Holds.append holds
      obtain ⟨rfl, rfl⟩ := tokenHolds.token
      obtain ⟨children, items⟩ := ih parent numbering budget beforeHolds enough
      refine ⟨?_, ?_⟩
      · intro built
        rw [Forest.childrenFrom, List.foldl_append, children built]
        rfl
      · intro built alternates
        have odd := Forest.expectsElement_before_token alternates
        rw [Forest.itemsFrom, List.foldl_append, items built (by simp [odd])]
        rfl
  | hole before ih =>
      obtain ⟨children, items⟩ := ih parent numbering budget holds.hole
        enough
      refine ⟨fun built => absurd built.1 (by simp), ?_⟩
      intro built alternates
      have even := Forest.expectsElement_before_hole alternates
      rw [Forest.itemsFrom, List.foldl_append, items built.2 (by simp [even])]
      rfl
  | node before kind children ih childrenIh =>
      simp only [Forest.nodes, List.length_append, List.length_cons] at enough
      obtain ⟨beforeHolds, nodeHolds⟩ : _ ∧ tree.Holds parent _ (Forest.empty.node kind children) :=
        Holds.append holds
      obtain ⟨rfl, held, childrenHold⟩ := nodeHolds.node
      obtain ⟨childrenRead, itemsRead⟩ := ih parent numbering budget beforeHolds (by omega)
      obtain ⟨levels, rfl⟩ : ∃ levels, budget = levels + 1 := ⟨budget - 1, by omega⟩
      have inside := (childrenIh _ _ levels childrenHold (by omega)).1
      refine ⟨?_, ?_⟩
      · intro built
        rw [Forest.childrenFrom, List.foldl_append, childrenRead built.1]
        simp only [List.foldl_cons, List.foldl_nil, addChild, shapeWithin, held, inside built.2.2]
      · intro built alternates
        have even := Forest.expectsElement_before_node alternates
        rw [Forest.itemsFrom, List.foldl_append, itemsRead built.1 (by simp [even])]
        simp only [List.foldl_cons, List.foldl_nil, addItem, shapeWithin, held, inside built.2.2]
  | list before items ih itemsIh =>
      simp only [Forest.nodes, List.length_append] at enough
      obtain ⟨beforeHolds, listHolds⟩ : _ ∧ tree.Holds parent _ (Forest.empty.list items) :=
        Holds.append holds
      obtain ⟨entry, itemsHold⟩ := listHolds.list
      obtain ⟨childrenRead, _⟩ := ih parent numbering budget beforeHolds (by omega)
      refine ⟨?_, fun built => absurd built.1 (by simp)⟩
      intro built
      obtain ⟨_, beforeBuilt, itemsBuilt, alternates⟩ := built
      have inside := (itemsIh _ _ budget itemsHold (by omega)).2 itemsBuilt alternates
      rw [Forest.childrenFrom, List.foldl_append, childrenRead beforeBuilt]
      simp only [List.foldl_cons, List.foldl_nil, addChild, entry, Forest.items_finish _ _ alternates,
        inside]

theorem Holds.nodes_eq {tree : SyntaxTree} (forest : Forest) (parent : Option NodeId)
    (numbering : Numbering) (budget : Nat) (holds : tree.Holds parent numbering forest)
    (enough : forest.nodes.length ≤ budget) (inList : Bool) (built : forest.WellBuilt inList) :
    forest.nodes = (List.range' numbering.node forest.nodes.length).map fun id =>
      (tree.kind id, tree.shapeWithin budget id) := by
  induction forest generalizing parent numbering inList with
  | empty => rfl
  | token before position kind ih =>
      obtain ⟨beforeHolds, _⟩ : _ ∧ tree.Holds parent _ (Forest.empty.token position kind) :=
        Holds.append holds
      exact ih parent numbering beforeHolds enough inList built
  | hole before ih =>
      exact ih parent numbering holds.hole enough inList built.2
  | node before kind children ih childrenIh =>
      simp only [Forest.nodes, List.length_append, List.length_cons] at enough
      obtain ⟨beforeHolds, nodeHolds⟩ : _ ∧ tree.Holds parent _ (Forest.empty.node kind children) :=
        Holds.append holds
      obtain ⟨sameKind, held, childrenHold⟩ := nodeHolds.node
      have earlier := ih parent numbering beforeHolds (by omega) inList built.1
      have inside := childrenIh _ _ childrenHold (by omega) false built.2.2
      have shape : tree.shapeWithin budget (before.after numbering).node = children := by
        obtain ⟨levels, rfl⟩ : ∃ levels, budget = levels + 1 := ⟨budget - 1, by omega⟩
        rw [shapeWithin, held]
        exact (Holds.read_back children _ _ levels childrenHold (by omega)).1 built.2.2
      rw [Forest.nodes, List.length_append, List.length_cons, ← List.range'_append_1, List.map_append,
        ← earlier, List.range'_succ, List.map_cons]
      congr 2
      · rw [← sameKind, Forest.after_eq]
        rw [Forest.after_eq] at shape
        rw [shape]
      · rw [Forest.after_eq] at inside
        exact inside
  | list before items ih itemsIh =>
      simp only [Forest.nodes, List.length_append] at enough
      obtain ⟨beforeHolds, listHolds⟩ : _ ∧ tree.Holds parent _ (Forest.empty.list items) :=
        Holds.append holds
      have earlier := ih parent numbering beforeHolds (by omega) inList built.2.1
      have inside := itemsIh _ _ listHolds.list.2 (by omega) true built.2.2.1
      rw [Forest.after_eq] at inside
      rw [Forest.nodes, List.length_append, ← List.range'_append_1, List.map_append, ← earlier]
      congr 1

end SyntaxTree

/-! ## The shape of the tree of a forest -/

namespace Forest

def LiesOn (stream : TokenStream) (start : TokenId) (forest : Forest) : Prop :=
  ∀ leaf ∈ forest.leaves, (stream.tokens.getD (start + leaf.1) default).kind = leaf.2

variable {stream : TokenStream} {start : TokenId} {kind : Kind} {children : Forest}

theorem holds_tree {forest : Forest} (consecutive : forest.Consecutive 0)
    (lies : forest.LiesOn stream start) :
    (forest.tree stream start).Holds none (.startingAt start) forest where
  nodes := by
    simp only [tree, Numbering.startingAt, List.drop_zero]
    exact List.prefix_refl _
  children := by
    simp only [tree, Numbering.startingAt, List.drop_zero]
    exact List.prefix_refl _
  lists := by
    simp only [tree, Numbering.startingAt, List.drop_zero]
    exact List.prefix_refl _
  leaves := by
    have shifted : List.range' start forest.leaves.length =
        (forest.leaves.map Prod.fst).map (start + ·) := by
      rw [consecutive, List.map_add_range', Nat.add_zero]
    simp only [Numbering.startingAt, shifted, List.map_map]
    have same : ∀ leaf ∈ forest.leaves, id leaf = ((start + leaf.1) - start,
        ((forest.tree stream start).token (start + leaf.1)).kind) := by
      intro leaf member
      rw [Nat.add_sub_cancel_left]
      exact Prod.ext rfl (lies leaf member).symm
    exact (List.map_id _).symm.trans (List.map_congr_left same)

theorem nodes_tree {forest : Forest} (built : forest.WellBuilt false)
    (consecutive : forest.Consecutive 0) (lies : forest.LiesOn stream start) :
    forest.nodes = (List.range (forest.tree stream start).nodes.size).map fun id =>
      ((forest.tree stream start).kind id, (forest.tree stream start).shapeOf id) := by
  have size : (forest.tree stream start).nodes.size = forest.nodes.length := by
    simp [tree, length_nodeEntries]
  have nodes := (holds_tree consecutive lies).nodes_eq forest none _ _
    (Nat.le_of_eq size.symm) false built
  rwa [← size, Numbering.startingAt, ← List.range_eq_range'] at nodes

theorem shape_tree (built : (empty.node kind children).WellBuilt false)
    (consecutive : (empty.node kind children).Consecutive 0)
    (lies : (empty.node kind children).LiesOn stream start) :
    ((empty.node kind children).tree stream start).shape = empty.node kind children := by
  have nodes := nodes_tree built consecutive lies
  have first := congrArg List.head? nodes
  have size : ((empty.node kind children).tree stream start).nodes.size ≠ 0 := by
    simp [tree, nodeEntries]
  obtain ⟨rest, same⟩ := Nat.exists_eq_succ_of_ne_zero size
  rw [same, List.range_succ_eq_map, List.map_cons] at first
  simp only [Forest.nodes, List.nil_append, List.head?_cons, Option.some.injEq, Prod.mk.injEq] at first
  rw [SyntaxTree.shape, SyntaxTree.root, ← first.1, ← first.2]

end Forest
end ScriptTree
