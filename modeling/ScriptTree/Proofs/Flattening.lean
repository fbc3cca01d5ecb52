import ScriptTree.Proofs.Sequences

/-! # Flattening lists

A list can be walked through by its positions, which alternate between elements and separators, or by its
elements with the separator behind each. Both walks meet the same items in every list that a builder
finishes, and so the flattened children of a node are its children with the items of the lists that are
there in the place of the lists. -/
set_option autoImplicit false
namespace ScriptTree

/-! ## Items by their positions -/

namespace SeparatedList

variable {α σ : Type}

/-- The item at a position: elements stand at the even ones, separators at the odd ones. -/
def itemAt (list : SeparatedList α σ) (position : Nat) : Option (ListItem α σ) :=
  if position % 2 = 1 then list.separators[position / 2]?.map .separator
  else list.elements[position / 2]?.map .element

def itemsByPosition (list : SeparatedList α σ) : List (ListItem α σ) :=
  (List.range list.positions).filterMap list.itemAt

variable {list longer : SeparatedList α σ}

theorem itemsByPosition_push {item : ListItem α σ} (positions : longer.positions = list.positions + 1)
    (kept : ∀ position < list.positions, longer.itemAt position = list.itemAt position)
    (last : longer.itemAt list.positions = some item) :
    longer.itemsByPosition = list.itemsByPosition ++ [item] := by
  have earlier : (List.range list.positions).map longer.itemAt =
      (List.range list.positions).map list.itemAt :=
    List.map_congr_left fun position member => kept position (List.mem_range.mp member)
  have same := congrArg (List.filterMap id) earlier
  rw [List.filterMap_map, List.filterMap_map, Function.id_comp, Function.id_comp] at same
  rw [itemsByPosition, positions, List.range_succ, List.filterMap_append, same]
  simp [last, itemsByPosition]

theorem itemsByPosition_pushElement {elements : Array α} {separators : Array σ}
    (even : elements.size = separators.size) (value : α) :
    (⟨elements.push value, separators⟩ : SeparatedList α σ).itemsByPosition =
      (⟨elements, separators⟩ : SeparatedList α σ).itemsByPosition ++ [.element value] := by
  apply itemsByPosition_push
  · simp only [SeparatedList.positions, Array.size_push]
    omega
  · intro position before
    simp only [SeparatedList.positions] at before
    have inside : position / 2 ≠ elements.size := by omega
    simp only [itemAt, Array.getElem?_push, if_neg inside]
  · have half : (elements.size + separators.size) / 2 = elements.size := by omega
    have even : (elements.size + separators.size) % 2 = 0 := by omega
    simp [itemAt, SeparatedList.positions, half, even]

theorem itemsByPosition_pushSeparator {elements : Array α} {separators : Array σ}
    (odd : elements.size = separators.size + 1) (value : σ) :
    (⟨elements, separators.push value⟩ : SeparatedList α σ).itemsByPosition =
      (⟨elements, separators⟩ : SeparatedList α σ).itemsByPosition ++ [.separator value] := by
  apply itemsByPosition_push
  · simp only [SeparatedList.positions, Array.size_push]
    omega
  · intro position before
    simp only [SeparatedList.positions] at before
    by_cases separates : position % 2 = 1
    · have inside : position / 2 ≠ separators.size := by omega
      simp only [itemAt, Array.getElem?_push, if_neg inside]
    · rw [itemAt, itemAt, if_neg separates, if_neg separates]
  · have half : (elements.size + separators.size) / 2 = separators.size := by omega
    have odd : (elements.size + separators.size) % 2 = 1 := by omega
    simp [itemAt, SeparatedList.positions, half, odd]

/-- There are as many elements as separators, or one more. -/
def Alternates (list : SeparatedList α σ) : Prop :=
  list.elements.size = list.separators.size ∨ list.elements.size = list.separators.size + 1

/-- The two ways through a list meet the same items. -/
theorem Alternates.itemsByPosition_eq (alternates : list.Alternates) :
    list.itemsByPosition = list.items := by
  obtain ⟨count, counted⟩ : ∃ count, list.positions = count := ⟨_, rfl⟩
  induction count generalizing list with
  | zero =>
      obtain ⟨elements, separators⟩ := list
      simp only [SeparatedList.positions] at counted
      have noElements : elements = #[] := Array.size_eq_zero_iff.mp (by omega)
      have noSeparators : separators = #[] := Array.size_eq_zero_iff.mp (by omega)
      subst noElements
      subst noSeparators
      rfl
  | succ count ih =>
      obtain ⟨elements, separators⟩ := list
      simp only [SeparatedList.positions] at counted
      rcases alternates with even | odd
      · simp only at even
        have some : 0 < separators.size := by omega
        obtain ⟨earlier, value, rfl⟩ := Array.exists_push_of_size_pos some
        rw [Array.size_push] at even counted
        rw [itemsByPosition_pushSeparator even, items_pushSeparator even, ih (.inr even)]
        simp only [SeparatedList.positions]
        omega
      · simp only at odd
        have some : 0 < elements.size := by omega
        obtain ⟨earlier, value, rfl⟩ := Array.exists_push_of_size_pos some
        rw [Array.size_push] at odd counted
        have even : earlier.size = separators.size := by omega
        rw [itemsByPosition_pushElement even, items_pushElement even, ih (.inl even)]
        simp only [SeparatedList.positions]
        omega

end SeparatedList

/-! ## What a node owns -/

def ListItem.toElement? : ListItem (Slot NodeId) TokenId → Option Element
  | .element (.present id) => some (.node id)
  | .element .absent => none
  | .separator id => some (.token id)

def Element.toChild : Element → Child
  | node id => .node id
  | token id => .token id

def Child.toElement? : Child → Option Element
  | token id => some (.token id)
  | node id => some (.node id)
  | list _ => none

namespace SyntaxTree

variable (tree : SyntaxTree)

/-- The elements and separators of a list as they stand in the text, without the holes. -/
def listed (list : ListId) : List Element :=
  (tree.listEntry list).items.items.filterMap ListItem.toElement?

/-- A child of a node, with the items of a list in the place of the list. -/
def flatten : Child → List Element
  | .token id => [.token id]
  | .node id => [.node id]
  | .list id => tree.listed id

/-- A child of a node, with the items of a list behind the list. -/
def withItems : Child → List Child
  | .token id => [.token id]
  | .node id => [.node id]
  | .list id => .list id :: (tree.listed id).map Element.toChild

/-- The children of a node and what stands in its lists. -/
def owned (node : NodeId) : List Child := (tree.children node).flatMap tree.withItems

theorem filterMap_withItems (child : Child) :
    (tree.withItems child).filterMap Child.toElement? = tree.flatten child := by
  cases child with
  | token id => rfl
  | node id => rfl
  | list id =>
      have back : Child.toElement? ∘ Element.toChild = some := by
        funext element
        cases element <;> rfl
      rw [withItems, List.filterMap_cons_none rfl, List.filterMap_map, back, List.filterMap_some, flatten]

theorem filterMap_owned (node : NodeId) :
    (tree.owned node).filterMap Child.toElement? = (tree.children node).flatMap tree.flatten := by
  rw [owned, List.filterMap_flatMap]
  congr 1
  funext child
  exact tree.filterMap_withItems child

/-- A list that alternates shows the same elements by its positions. -/
theorem listElements_eq_listed {list : ListId} (alternates : (tree.listEntry list).items.Alternates) :
    tree.listElements list = tree.listed list := by
  have positioned : tree.listElements list =
      (tree.listEntry list).items.itemsByPosition.filterMap ListItem.toElement? := by
    rw [SeparatedList.itemsByPosition, List.filterMap_filterMap, listElements, ListCursor.rest,
      Nat.sub_zero, ← List.range_eq_range']
    congr 1
    funext position
    rw [ListCursor.elementAt]
    by_cases separates : position % 2 = 1
    · rw [if_pos separates, SeparatedList.itemAt, if_pos separates]
      cases (tree.listEntry list).items.separators[position / 2]? <;> rfl
    · rw [if_neg separates, SeparatedList.itemAt, if_neg separates]
      rcases (tree.listEntry list).items.elements[position / 2]? with - | ⟨id⟩ | - <;> rfl
  rw [positioned, alternates.itemsByPosition_eq, listed]

theorem elements_eq_flatMap {node : NodeId}
    (alternate : ∀ list, .list list ∈ tree.children node → (tree.listEntry list).items.Alternates) :
    tree.elements node = (tree.children node).flatMap tree.flatten := by
  rw [elements_eq_flatMap_childElements, List.flatMap_def, List.flatMap_def]
  congr 1
  apply List.map_congr_left
  intro child member
  cases child with
  | token id => rfl
  | node id => rfl
  | list id => exact tree.listElements_eq_listed (alternate id member)

end SyntaxTree

/-! ## What a forest gives to a node -/

namespace Forest

def ownedFrom (numbering : Numbering) : Forest → List Child
  | empty => []
  | token before _ _ => before.ownedFrom numbering ++ [.token (before.after numbering).token]
  | hole before => before.ownedFrom numbering
  | node before _ _ => before.ownedFrom numbering ++ [.node (before.after numbering).node]
  | list before items =>
      let here := before.after numbering
      before.ownedFrom numbering ++ .list here.list :: items.ownedFrom here.nextList

/-- The children of a node around the forest, with the items of the lists in their place. -/
def elementsFrom (numbering : Numbering) (forest : Forest) : List Element :=
  (forest.ownedFrom numbering).filterMap Child.toElement?

section Elements

variable (numbering : Numbering) (before rest : Forest) (kind : Kind)

@[simp] theorem elementsFrom_empty : empty.elementsFrom numbering = [] := rfl

@[simp] theorem elementsFrom_token (position : Nat) :
    (before.token position kind).elementsFrom numbering =
      before.elementsFrom numbering ++ [.token (before.after numbering).token] := by
  rw [elementsFrom, ownedFrom, List.filterMap_append]
  rfl

@[simp] theorem elementsFrom_hole : before.hole.elementsFrom numbering = before.elementsFrom numbering :=
  rfl

@[simp] theorem elementsFrom_node :
    (before.node kind rest).elementsFrom numbering =
      before.elementsFrom numbering ++ [.node (before.after numbering).node] := by
  rw [elementsFrom, ownedFrom, List.filterMap_append]
  rfl

@[simp] theorem elementsFrom_list :
    (before.list rest).elementsFrom numbering =
      before.elementsFrom numbering ++ rest.elementsFrom (before.after numbering).nextList := by
  rw [elementsFrom, ownedFrom, List.filterMap_append]
  rfl

end Elements

variable {numbering : Numbering} {forest : Forest}

theorem map_filterMap_itemsFrom (placed : forest.Placed true) :
    ((forest.itemsFrom numbering).filterMap ListItem.toElement?).map Element.toChild =
      forest.ownedFrom numbering := by
  induction forest with
  | empty => rfl
  | token before position kind ih =>
      rw [itemsFrom, List.filterMap_append, List.map_append, ih placed]
      rfl
  | hole before ih =>
      rw [itemsFrom, List.filterMap_append, List.map_append, ih placed.2]
      simp [ListItem.toElement?, ownedFrom]
  | node before kind children ih _ =>
      rw [itemsFrom, List.filterMap_append, List.map_append, ih placed.1]
      rfl
  | list before items _ _ => exact absurd placed.1 (by simp)

theorem alternates_finish (alternates : forest.expectsElement ≠ none) :
    (SeparatedListBuilder.ofItems (forest.itemsFrom numbering)).finish.Alternates := by
  cases expects : forest.expectsElement with
  | none => exact absurd expects alternates
  | some element =>
      have sizes := sizes_ofItems numbering forest element expects
      cases element
      · exact .inr sizes
      · exact .inl sizes

end Forest

/-! ## What the tables say of it -/

namespace SyntaxTree.Holds

variable {tree : SyntaxTree} {parent : Option NodeId} {numbering : Numbering} {forest : Forest}

theorem flatMap_withItems (holds : tree.Holds parent numbering forest)
    (placed : forest.Placed false) :
    (forest.childrenFrom numbering).flatMap tree.withItems = forest.ownedFrom numbering := by
  induction forest with
  | empty => rfl
  | token before position kind ih =>
      obtain ⟨beforeHolds, -⟩ : _ ∧ tree.Holds parent _ (Forest.empty.token position kind) :=
        Holds.append holds
      rw [Forest.childrenFrom, List.flatMap_append, ih beforeHolds placed]
      rfl
  | hole before ih => exact absurd placed.1 (by simp)
  | node before kind children ih _ =>
      obtain ⟨beforeHolds, -⟩ : _ ∧ tree.Holds parent _ (Forest.empty.node kind children) :=
        Holds.append holds
      rw [Forest.childrenFrom, List.flatMap_append, ih beforeHolds placed.1]
      rfl
  | list before items ih _ =>
      obtain ⟨beforeHolds, listHolds⟩ : _ ∧ tree.Holds parent _ (Forest.empty.list items) :=
        Holds.append holds
      obtain ⟨-, beforePlaced, itemsPlaced, alternates⟩ := placed
      rw [Forest.childrenFrom, List.flatMap_append, ih beforeHolds beforePlaced,
        List.flatMap_singleton, withItems, listed, listHolds.list.1,
        Forest.items_finish _ _ alternates, Forest.map_filterMap_itemsFrom itemsPlaced]
      rfl

theorem alternates_of_mem {list : ListId} (holds : tree.Holds parent numbering forest)
    (placed : forest.Placed false) (member : .list list ∈ forest.childrenFrom numbering) :
    (tree.listEntry list).items.Alternates := by
  induction forest with
  | empty => cases member
  | token before position kind ih =>
      obtain ⟨beforeHolds, -⟩ : _ ∧ tree.Holds parent _ (Forest.empty.token position kind) :=
        Holds.append holds
      exact ih beforeHolds placed (by simpa [Forest.childrenFrom] using member)
  | hole before ih => exact absurd placed.1 (by simp)
  | node before kind children ih _ =>
      obtain ⟨beforeHolds, -⟩ : _ ∧ tree.Holds parent _ (Forest.empty.node kind children) :=
        Holds.append holds
      exact ih beforeHolds placed.1 (by simpa [Forest.childrenFrom] using member)
  | list before items ih _ =>
      obtain ⟨beforeHolds, listHolds⟩ : _ ∧ tree.Holds parent _ (Forest.empty.list items) :=
        Holds.append holds
      obtain ⟨-, beforePlaced, itemsPlaced, alternates⟩ := placed
      rcases List.mem_append.mp member with earlier | last
      · exact ih beforeHolds beforePlaced earlier
      · cases List.mem_singleton.mp last
        rw [listHolds.list.1]
        exact Forest.alternates_finish alternates

variable {kind : Kind} {children : Forest}

theorem owned_eq (holds : tree.Holds parent numbering (Forest.empty.node kind children))
    (placed : children.Placed false) :
    tree.owned numbering.node = children.ownedFrom numbering.nextNode := by
  obtain ⟨-, held, inside⟩ := holds.node
  rw [owned, held, inside.flatMap_withItems placed]

theorem elements_eq_flatMap (holds : tree.Holds parent numbering (Forest.empty.node kind children))
    (placed : children.Placed false) :
    tree.elements numbering.node = (tree.children numbering.node).flatMap tree.flatten := by
  obtain ⟨-, held, inside⟩ := holds.node
  apply tree.elements_eq_flatMap
  intro list member
  rw [held] at member
  exact inside.alternates_of_mem placed member

theorem elements_eq (holds : tree.Holds parent numbering (Forest.empty.node kind children))
    (placed : children.Placed false) :
    tree.elements numbering.node = children.elementsFrom numbering.nextNode := by
  rw [holds.elements_eq_flatMap placed, ← tree.filterMap_owned, holds.owned_eq placed,
    Forest.elementsFrom]

end SyntaxTree.Holds
end ScriptTree
