import ScriptTree.Proofs.Flattening

/-! # Owners

Every node but the root, every list and every token of a tree is owned by one node: it is a child of the
node or stands in one of its lists. The tables of a tree name this node as the parent. -/
set_option autoImplicit false
namespace ScriptTree

/-! ## Numbers in order -/

namespace Numbering

/-- The number of a child is not given out yet. -/
def Precedes (numbering : Numbering) : Child → Prop
  | .token id => numbering.token ≤ id
  | .node id => numbering.node ≤ id
  | .list id => numbering.list ≤ id

variable {numbering : Numbering} {child : Child}

theorem precedes_nextToken_iff : numbering.nextToken.Precedes child ↔
    numbering.Precedes child ∧ child ≠ .token numbering.token := by
  cases child with
  | token id =>
      simp only [Precedes, nextToken, ne_eq, Child.token.injEq, eq_comm (a := id)]
      exact Nat.lt_iff_le_and_ne
  | node id => simp [Precedes, nextToken]
  | list id => simp [Precedes, nextToken]

theorem precedes_nextNode_iff : numbering.nextNode.Precedes child ↔
    numbering.Precedes child ∧ child ≠ .node numbering.node := by
  cases child with
  | token id => simp [Precedes, nextNode]
  | node id =>
      simp only [Precedes, nextNode, ne_eq, Child.node.injEq, eq_comm (a := id)]
      exact Nat.lt_iff_le_and_ne
  | list id => simp [Precedes, nextNode]

theorem precedes_nextList_iff : numbering.nextList.Precedes child ↔
    numbering.Precedes child ∧ child ≠ .list numbering.list := by
  cases child with
  | token id => simp [Precedes, nextList]
  | node id => simp [Precedes, nextList]
  | list id =>
      simp only [Precedes, nextList, ne_eq, Child.list.injEq, eq_comm (a := id)]
      exact Nat.lt_iff_le_and_ne

@[simp] theorem precedes_closed (count : Nat) :
    (numbering.closed count).Precedes child ↔ numbering.Precedes child := by
  cases child <;> exact Iff.rfl

def Between (first last : Numbering) (child : Child) : Prop := first.Precedes child ∧ ¬last.Precedes child

@[simp] theorem between_closed {first : Numbering} (count : Nat) :
    first.Between (numbering.closed count) child ↔ first.Between numbering child := by
  rw [Between, precedes_closed, Between]

theorem Between.extend {first middle last : Numbering} (between : first.Between middle child)
    (further : last.Precedes child → middle.Precedes child) : first.Between last child :=
  ⟨between.1, fun later => between.2 (further later)⟩

end Numbering

namespace Forest

variable {numbering : Numbering} {child : Child} {forest : Forest}

theorem precedes_of_after (precedes : (forest.after numbering).Precedes child) :
    numbering.Precedes child := by
  rw [after_eq] at precedes
  cases child <;> exact Nat.le_trans (Nat.le_add_right _ _) precedes

/-- What a forest gives to its owner has the numbers of the forest. -/
theorem between_of_mem_ownedFrom (member : child ∈ forest.ownedFrom numbering) :
    numbering.Between (forest.after numbering) child := by
  induction forest generalizing numbering with
  | empty => cases member
  | token before position kind ih =>
      rw [after, Numbering.Between, Numbering.precedes_nextToken_iff]
      rcases List.mem_append.mp member with earlier | last
      · obtain ⟨behind, ahead⟩ := ih earlier
        exact ⟨behind, fun precedes => ahead precedes.1⟩
      · cases List.mem_singleton.mp last
        exact ⟨precedes_of_after (Nat.le_refl _), fun precedes => precedes.2 rfl⟩
  | hole before ih => exact ih member
  | node before kind children ih _ =>
      rw [after, Numbering.between_closed]
      rcases List.mem_append.mp member with earlier | last
      · obtain ⟨behind, ahead⟩ := ih earlier
        refine ⟨behind, fun precedes => ahead ?_⟩
        exact (Numbering.precedes_nextNode_iff.mp (precedes_of_after precedes)).1
      · cases List.mem_singleton.mp last
        refine ⟨precedes_of_after (Nat.le_refl _), fun precedes => ?_⟩
        exact (Numbering.precedes_nextNode_iff.mp (precedes_of_after precedes)).2 rfl
  | list before items ih itemsIh =>
      rw [after]
      rcases List.mem_append.mp member with earlier | last
      · obtain ⟨behind, ahead⟩ := ih earlier
        refine ⟨behind, fun precedes => ahead ?_⟩
        exact (Numbering.precedes_nextList_iff.mp (precedes_of_after precedes)).1
      · rcases List.mem_cons.mp last with rfl | inside
        · refine ⟨precedes_of_after (Nat.le_refl _), fun precedes => ?_⟩
          exact (Numbering.precedes_nextList_iff.mp (precedes_of_after precedes)).2 rfl
        · obtain ⟨behind, ahead⟩ := itemsIh inside
          exact ⟨precedes_of_after (Numbering.precedes_nextList_iff.mp behind).1, ahead⟩

theorem nodup_ownedFrom (numbering : Numbering) (forest : Forest) :
    (forest.ownedFrom numbering).Nodup := by
  induction forest generalizing numbering with
  | empty => exact List.nodup_nil
  | token before position kind ih =>
      refine List.nodup_append.mpr ⟨ih numbering, by simp, ?_⟩
      rintro child earlier _ last rfl
      cases List.mem_singleton.mp last
      exact (between_of_mem_ownedFrom earlier).2 (Nat.le_refl _)
  | hole before ih => exact ih numbering
  | node before kind children ih _ =>
      refine List.nodup_append.mpr ⟨ih numbering, by simp, ?_⟩
      rintro child earlier _ last rfl
      cases List.mem_singleton.mp last
      exact (between_of_mem_ownedFrom earlier).2 (Nat.le_refl _)
  | list before items ih itemsIh =>
      have fresh : .list (before.after numbering).list ∉
          items.ownedFrom (before.after numbering).nextList := by
        intro inside
        exact (Numbering.precedes_nextList_iff.mp (between_of_mem_ownedFrom inside).1).2 rfl
      refine List.nodup_append.mpr ⟨ih numbering, List.nodup_cons.mpr ⟨fresh, itemsIh _⟩, ?_⟩
      rintro child earlier _ last rfl
      apply (between_of_mem_ownedFrom earlier).2
      rcases List.mem_cons.mp last with rfl | inside
      · exact Nat.le_refl _
      · exact (Numbering.precedes_nextList_iff.mp (between_of_mem_ownedFrom inside).1).1

theorem length_tokenParents (parent : NodeId) (numbering : Numbering) (forest : Forest) :
    (forest.tokenParents parent numbering).length = forest.leaves.length := by
  induction forest generalizing parent numbering with
  | empty => rfl
  | token before position kind ih => simp [tokenParents, leaves, ih]
  | hole before ih => exact ih parent numbering
  | node before kind children ih childrenIh => simp [tokenParents, leaves, ih, childrenIh]
  | list before items ih itemsIh => simp [tokenParents, leaves, ih, itemsIh]

end Forest

/-! ## Tables that tell the owners -/

/-- The tables of a tree have the entries of a forest, and those of its tokens as well. -/
structure SyntaxTree.Stores (tree : SyntaxTree) (parent : Option NodeId) (numbering : Numbering)
    (forest : Forest) : Prop extends tree.Holds parent numbering forest where
  starts : tree.firstToken ≤ numbering.token
  tokenParents : forest.tokenParents (parent.getD SyntaxTree.root) numbering <+:
    tree.tokenParents.toList.drop (numbering.token - tree.firstToken)

namespace SyntaxTree

def childParent? (tree : SyntaxTree) : Child → Option NodeId
  | .token id => some (tree.tokenParent id)
  | .node id => tree.parent? id
  | .list id => some (tree.listEntry id).parent

namespace Stores

variable {tree : SyntaxTree} {parent : Option NodeId} {numbering : Numbering}

theorem hole {before : Forest} (stores : tree.Stores parent numbering before.hole) :
    tree.Stores parent numbering before :=
  ⟨stores.toHolds.hole, stores.starts, stores.tokenParents⟩

theorem append {left right : Forest} (stores : tree.Stores parent numbering (left ++ right)) :
    tree.Stores parent numbering left ∧ tree.Stores parent (left.after numbering) right := by
  obtain ⟨leftHolds, rightHolds⟩ := stores.toHolds.append
  have parents := stores.tokenParents
  have starts := stores.starts
  rw [Forest.tokenParents_append] at parents
  obtain ⟨leftParents, rightParents⟩ := Holds.prefix_drop parents
  refine ⟨⟨leftHolds, starts, leftParents⟩, rightHolds, ?_, ?_⟩
  · rw [Forest.after_eq]
    exact Nat.le_trans starts (Nat.le_add_right _ _)
  · rw [Forest.length_tokenParents, ← Nat.sub_add_comm starts] at rightParents
    simpa only [Forest.after_eq] using rightParents

theorem node {kind : Kind} {children : Forest}
    (stores : tree.Stores parent numbering (Forest.empty.node kind children)) :
    tree.Stores (some numbering.node) numbering.nextNode children where
  toHolds := stores.toHolds.node.2.2
  starts := stores.starts
  tokenParents := by simpa [Forest.tokenParents, Forest.after] using stores.tokenParents

theorem list {items : Forest} (stores : tree.Stores parent numbering (Forest.empty.list items)) :
    tree.Stores parent numbering.nextList items where
  toHolds := stores.toHolds.list.2
  starts := stores.starts
  tokenParents := by simpa [Forest.tokenParents, Forest.after] using stores.tokenParents

theorem token {position : Nat} {kind : Kind}
    (stores : tree.Stores parent numbering (Forest.empty.token position kind)) :
    tree.tokenParent numbering.token = parent.getD root := by
  have first := Holds.getElem?_of_prefix stores.tokenParents
  rw [Array.getElem?_toList] at first
  rw [tokenParent, if_pos stores.starts, Array.getD_eq_getD_getElem?, first]
  rfl

theorem childParent?_of_mem {owner : NodeId} {forest : Forest} {child : Child}
    (stores : tree.Stores (some owner) numbering forest)
    (member : child ∈ forest.ownedFrom numbering) : tree.childParent? child = some owner := by
  induction forest generalizing numbering with
  | empty => cases member
  | token before position kind ih =>
      obtain ⟨beforeStores, tokenStores⟩ :
          _ ∧ tree.Stores _ _ (Forest.empty.token position kind) := Stores.append stores
      rcases List.mem_append.mp member with earlier | last
      · exact ih beforeStores earlier
      · cases List.mem_singleton.mp last
        exact congrArg some tokenStores.token
  | hole before ih =>
      exact ih stores.hole member
  | node before kind children ih _ =>
      obtain ⟨beforeStores, nodeStores⟩ :
          _ ∧ tree.Stores _ _ (Forest.empty.node kind children) := Stores.append stores
      rcases List.mem_append.mp member with earlier | last
      · exact ih beforeStores earlier
      · cases List.mem_singleton.mp last
        rw [childParent?, parent?, nodeStores.entry]
  | list before items ih itemsIh =>
      obtain ⟨beforeStores, listStores⟩ :
          _ ∧ tree.Stores _ _ (Forest.empty.list items) := Stores.append stores
      rcases List.mem_append.mp member with earlier | last
      · exact ih beforeStores earlier
      · rcases List.mem_cons.mp last with rfl | inside
        · rw [childParent?, listStores.listEntry]
          rfl
        · exact itemsIh listStores.list inside

/-- What has a number of a forest is given to the owner of the forest or owned by a node of the
forest. -/
theorem exists_owner {inList : Bool} {forest : Forest} {child : Child}
    (stores : tree.Stores parent numbering forest) (placed : forest.Placed inList)
    (between : numbering.Between (forest.after numbering) child) :
    child ∈ forest.ownedFrom numbering ∨
      ∃ owner, numbering.Between (forest.after numbering) (.node owner) ∧
        child ∈ tree.owned owner := by
  induction forest generalizing parent numbering inList with
  | empty => exact absurd between.1 between.2
  | token before position kind ih =>
      obtain ⟨beforeStores, -⟩ :
          _ ∧ tree.Stores _ _ (Forest.empty.token position kind) := Stores.append stores
      by_cases ahead : (before.after numbering).Precedes child
      · have last : child = .token (before.after numbering).token := by
          by_cases last : child = .token (before.after numbering).token
          · exact last
          · exact absurd (Numbering.precedes_nextToken_iff.mpr ⟨ahead, last⟩) between.2
        exact .inl (by simp [Forest.ownedFrom, last])
      · rcases ih beforeStores placed ⟨between.1, ahead⟩ with member | ⟨owner, inside, member⟩
        · exact .inl (List.mem_append_left _ member)
        · exact .inr ⟨owner, inside.extend fun later => (Numbering.precedes_nextToken_iff.mp later).1,
            member⟩
  | hole before ih =>
      exact ih stores.hole placed.2 between
  | node before kind children ih childrenIh =>
      obtain ⟨beforeStores, nodeStores⟩ :
          _ ∧ tree.Stores _ _ (Forest.empty.node kind children) := Stores.append stores
      simp only [Forest.after, Numbering.between_closed] at between ⊢
      have reaches : ∀ {other}, (children.after (before.after numbering).nextNode).Precedes other →
          (before.after numbering).Precedes other := fun later =>
        (Numbering.precedes_nextNode_iff.mp (Forest.precedes_of_after later)).1
      by_cases ahead : (before.after numbering).Precedes child
      · by_cases here : child = .node (before.after numbering).node
        · exact .inl (by simp [Forest.ownedFrom, here])
        · have inside := Numbering.precedes_nextNode_iff.mpr ⟨ahead, here⟩
          rcases childrenIh nodeStores.node placed.2 ⟨inside, between.2⟩ with
            member | ⟨owner, within, member⟩
          · rw [← nodeStores.owned_eq placed.2] at member
            refine .inr ⟨_, ⟨Forest.precedes_of_after (Nat.le_refl _), fun later => ?_⟩, member⟩
            exact (Numbering.precedes_nextNode_iff.mp (Forest.precedes_of_after later)).2 rfl
          · refine .inr ⟨owner, ⟨?_, within.2⟩, member⟩
            exact Forest.precedes_of_after (Numbering.precedes_nextNode_iff.mp within.1).1
      · rcases ih beforeStores placed.1 ⟨between.1, ahead⟩ with member | ⟨owner, inside, member⟩
        · exact .inl (List.mem_append_left _ member)
        · exact .inr ⟨owner, inside.extend reaches, member⟩
  | list before items ih itemsIh =>
      obtain ⟨beforeStores, listStores⟩ :
          _ ∧ tree.Stores _ _ (Forest.empty.list items) := Stores.append stores
      have reaches : ∀ {other}, (items.after (before.after numbering).nextList).Precedes other →
          (before.after numbering).Precedes other := fun later =>
        (Numbering.precedes_nextList_iff.mp (Forest.precedes_of_after later)).1
      by_cases ahead : (before.after numbering).Precedes child
      · by_cases here : child = .list (before.after numbering).list
        · exact .inl (by simp [Forest.ownedFrom, here])
        · have inside := Numbering.precedes_nextList_iff.mpr ⟨ahead, here⟩
          rcases itemsIh listStores.list placed.2.2.1 ⟨inside, between.2⟩ with
            member | ⟨owner, within, member⟩
          · exact .inl (List.mem_append_right _ (List.mem_cons_of_mem _ member))
          · refine .inr ⟨owner, ⟨?_, within.2⟩, member⟩
            exact Forest.precedes_of_after (Numbering.precedes_nextList_iff.mp within.1).1
      · rcases ih beforeStores placed.2.1 ⟨between.1, ahead⟩ with member | ⟨owner, inside, member⟩
        · exact .inl (List.mem_append_left _ member)
        · exact .inr ⟨owner, inside.extend reaches, member⟩

theorem exists_node {inList : Bool} {forest : Forest} {id : NodeId}
    (stores : tree.Stores parent numbering forest) (placed : forest.Placed inList)
    (between : numbering.Between (forest.after numbering) (.node id)) :
    ∃ above here kind children, here.node = id ∧
      tree.Stores above here (Forest.empty.node kind children) ∧ children.Placed false ∧
      (kind, children) ∈ forest.nodes := by
  induction forest generalizing parent numbering inList with
  | empty => exact absurd between.1 between.2
  | token before position kind ih =>
      obtain ⟨beforeStores, -⟩ :
          _ ∧ tree.Stores _ _ (Forest.empty.token position kind) := Stores.append stores
      exact ih beforeStores placed between
  | hole before ih =>
      exact ih stores.hole placed.2 between
  | node before kind children ih childrenIh =>
      obtain ⟨beforeStores, nodeStores⟩ :
          _ ∧ tree.Stores _ _ (Forest.empty.node kind children) := Stores.append stores
      by_cases ahead : (before.after numbering).Precedes (.node id)
      · by_cases here : Child.node id = .node (before.after numbering).node
        · cases here
          exact ⟨parent, _, kind, children, rfl, nodeStores, placed.2, by simp [Forest.nodes]⟩
        · obtain ⟨above, place, found, held, same, inside, heldPlaced, member⟩ :=
            childrenIh nodeStores.node placed.2
              ⟨Numbering.precedes_nextNode_iff.mpr ⟨ahead, here⟩, between.2⟩
          exact ⟨above, place, found, held, same, inside, heldPlaced,
            List.mem_append_right _ (List.mem_cons_of_mem _ member)⟩
      · obtain ⟨above, place, found, held, same, inside, heldPlaced, member⟩ :=
          ih beforeStores placed.1 ⟨between.1, ahead⟩
        exact ⟨above, place, found, held, same, inside, heldPlaced, List.mem_append_left _ member⟩
  | list before items ih itemsIh =>
      obtain ⟨beforeStores, listStores⟩ :
          _ ∧ tree.Stores _ _ (Forest.empty.list items) := Stores.append stores
      by_cases ahead : (before.after numbering).Precedes (.node id)
      · obtain ⟨above, place, found, held, same, inside, heldPlaced, member⟩ :=
          itemsIh listStores.list placed.2.2.1 ⟨ahead, between.2⟩
        exact ⟨above, place, found, held, same, inside, heldPlaced, List.mem_append_right _ member⟩
      · obtain ⟨above, place, found, held, same, inside, heldPlaced, member⟩ :=
          ih beforeStores placed.2.1 ⟨between.1, ahead⟩
        exact ⟨above, place, found, held, same, inside, heldPlaced, List.mem_append_left _ member⟩

end Stores
end SyntaxTree
end ScriptTree
