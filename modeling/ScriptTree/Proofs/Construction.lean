import ScriptTree.Proofs.Alternation
import ScriptTree.Proofs.Replay
import ScriptTree.Tree.Builder

/-! # The tables of a forest

The entries that the nodes and lists of a forest get are known from the forest alone: nodes are numbered
in preorder, lists in the order they start, tokens as they stand in the stream. A builder that goes
through the steps of a forest fills its tables with these entries and refuses none of the steps. -/
set_option autoImplicit false
namespace ScriptTree

/-- The numbers of the next node, list and token, and of the next entry of the table of children. -/
structure Numbering where
  node : NodeId
  list : ListId
  token : TokenId
  child : Nat

namespace Numbering

def nextNode (numbering : Numbering) : Numbering := { numbering with node := numbering.node + 1 }

def nextList (numbering : Numbering) : Numbering := { numbering with list := numbering.list + 1 }

def nextToken (numbering : Numbering) : Numbering := { numbering with token := numbering.token + 1 }

def closed (numbering : Numbering) (count : Nat) : Numbering :=
  { numbering with child := numbering.child + count }

@[simp] theorem nextNode_list (numbering : Numbering) : numbering.nextNode.list = numbering.list := rfl

@[simp] theorem nextNode_token (numbering : Numbering) : numbering.nextNode.token = numbering.token :=
  rfl

@[simp] theorem nextList_node (numbering : Numbering) : numbering.nextList.node = numbering.node := rfl

@[simp] theorem nextList_token (numbering : Numbering) : numbering.nextList.token = numbering.token :=
  rfl

@[simp] theorem nextNode_child (numbering : Numbering) : numbering.nextNode.child = numbering.child :=
  rfl

@[simp] theorem nextList_child (numbering : Numbering) : numbering.nextList.child = numbering.child :=
  rfl

@[simp] theorem closed_node (numbering : Numbering) (count : Nat) :
    (numbering.closed count).node = numbering.node := rfl

@[simp] theorem closed_list (numbering : Numbering) (count : Nat) :
    (numbering.closed count).list = numbering.list := rfl

@[simp] theorem closed_token (numbering : Numbering) (count : Nat) :
    (numbering.closed count).token = numbering.token := rfl

def startingAt (start : TokenId) : Numbering := ⟨0, 0, start, 0⟩

end Numbering

namespace Forest

/-! ## The entries of a forest -/

def childCount : Forest → Nat
  | empty => 0
  | token before _ _ => before.childCount + 1
  | hole before => before.childCount
  | node before _ _ => before.childCount + 1
  | list before _ => before.childCount + 1

def heldCount : Forest → Nat
  | empty => 0
  | token before _ _ => before.heldCount
  | hole before => before.heldCount
  | node before _ children => before.heldCount + (children.heldCount + children.childCount)
  | list before items => before.heldCount + items.heldCount

def after (numbering : Numbering) : Forest → Numbering
  | empty => numbering
  | token before _ _ => (before.after numbering).nextToken
  | hole before => before.after numbering
  | node before _ children =>
      (children.after (before.after numbering).nextNode).closed children.childCount
  | list before items => items.after (before.after numbering).nextList

def childrenFrom (numbering : Numbering) : Forest → List Child
  | empty => []
  | token before _ _ => before.childrenFrom numbering ++ [.token (before.after numbering).token]
  | hole before => before.childrenFrom numbering
  | node before _ _ => before.childrenFrom numbering ++ [.node (before.after numbering).node]
  | list before _ => before.childrenFrom numbering ++ [.list (before.after numbering).list]

def itemsFrom (numbering : Numbering) : Forest → List (ListItem (Slot NodeId) TokenId)
  | empty => []
  | token before _ _ => before.itemsFrom numbering ++ [.separator (before.after numbering).token]
  | hole before => before.itemsFrom numbering ++ [.element .absent]
  | node before _ _ =>
      before.itemsFrom numbering ++ [.element (.present (before.after numbering).node)]
  | list before _ => before.itemsFrom numbering

def nodeEntries (parent : Option NodeId) (numbering : Numbering) : Forest → List NodeEntry
  | empty => []
  | token before _ _ => before.nodeEntries parent numbering
  | hole before => before.nodeEntries parent numbering
  | node before kind children =>
      let here := before.after numbering
      let inside := children.after here.nextNode
      before.nodeEntries parent numbering ++
        ⟨kind, parent, inside.child, inside.child + children.childCount, here.token, inside.token⟩ ::
        children.nodeEntries (some here.node) here.nextNode
  | list before items =>
      before.nodeEntries parent numbering ++
        items.nodeEntries parent (before.after numbering).nextList

/-- The table of children: those of a node stand behind those of all nodes in it. -/
def childTable (numbering : Numbering) : Forest → List Child
  | empty => []
  | token before _ _ => before.childTable numbering
  | hole before => before.childTable numbering
  | node before _ children =>
      let here := before.after numbering
      before.childTable numbering ++
        (children.childTable here.nextNode ++ children.childrenFrom here.nextNode)
  | list before items =>
      before.childTable numbering ++ items.childTable (before.after numbering).nextList

def listEntries (parent : NodeId) (numbering : Numbering) : Forest → List ListEntry
  | empty => []
  | token before _ _ => before.listEntries parent numbering
  | hole before => before.listEntries parent numbering
  | node before _ children =>
      let here := before.after numbering
      before.listEntries parent numbering ++ children.listEntries here.node here.nextNode
  | list before items =>
      let here := before.after numbering
      before.listEntries parent numbering ++
        ⟨parent, (SeparatedListBuilder.ofItems (items.itemsFrom here.nextList)).finish⟩ ::
        items.listEntries parent here.nextList

def tokenParents (parent : NodeId) (numbering : Numbering) : Forest → List NodeId
  | empty => []
  | token before _ _ => before.tokenParents parent numbering ++ [parent]
  | hole before => before.tokenParents parent numbering
  | node before _ children =>
      let here := before.after numbering
      before.tokenParents parent numbering ++ children.tokenParents here.node here.nextNode
  | list before items =>
      before.tokenParents parent numbering ++
        items.tokenParents parent (before.after numbering).nextList

def tree (stream : TokenStream) (start : TokenId) (forest : Forest) : SyntaxTree where
  stream := stream
  nodes := (forest.nodeEntries none (.startingAt start)).toArray
  childTable := (forest.childTable (.startingAt start)).toArray
  lists := (forest.listEntries SyntaxTree.root (.startingAt start)).toArray
  tokenParents := (forest.tokenParents SyntaxTree.root (.startingAt start)).toArray
  firstToken := start
  endToken := (forest.after (.startingAt start)).token

/-! ## Numbers are counts -/

theorem after_eq (numbering : Numbering) (forest : Forest) :
    forest.after numbering = ⟨numbering.node + forest.nodes.length,
      numbering.list + forest.listCount, numbering.token + forest.leaves.length,
      numbering.child + forest.heldCount⟩ := by
  induction forest generalizing numbering with
  | empty => rfl
  | token before position kind ih =>
      simp [after, ih, Numbering.nextToken, nodes, listCount, leaves, heldCount, Nat.add_assoc]
  | hole before ih => simp [after, ih, nodes, listCount, leaves, heldCount]
  | node before kind children ih childrenIh =>
      simp [after, ih, childrenIh, Numbering.nextNode, Numbering.closed, nodes, listCount, leaves,
        heldCount, Nat.add_assoc]
      omega
  | list before items ih itemsIh =>
      simp [after, ih, itemsIh, Numbering.nextList, nodes, listCount, leaves, heldCount, Nat.add_assoc]

theorem length_childrenFrom (numbering : Numbering) (forest : Forest) :
    (forest.childrenFrom numbering).length = forest.childCount := by
  induction forest with
  | empty => rfl
  | token before position kind ih => simp [childrenFrom, childCount, ih]
  | hole before ih => exact ih
  | node before kind children ih _ => simp [childrenFrom, childCount, ih]
  | list before items ih _ => simp [childrenFrom, childCount, ih]

theorem length_childTable (numbering : Numbering) (forest : Forest) :
    (forest.childTable numbering).length = forest.heldCount := by
  induction forest generalizing numbering with
  | empty => rfl
  | token before position kind ih => exact ih numbering
  | hole before ih => exact ih numbering
  | node before kind children ih childrenIh =>
      simp [childTable, heldCount, ih, childrenIh, length_childrenFrom]
  | list before items ih itemsIh => simp [childTable, heldCount, ih, itemsIh]

theorem length_nodeEntries (parent : Option NodeId) (numbering : Numbering) (forest : Forest) :
    (forest.nodeEntries parent numbering).length = forest.nodes.length := by
  induction forest generalizing parent numbering with
  | empty => rfl
  | token before position kind ih => exact ih parent numbering
  | hole before ih => exact ih parent numbering
  | node before kind children ih childrenIh => simp [nodeEntries, nodes, ih, childrenIh]
  | list before items ih itemsIh => simp [nodeEntries, nodes, ih, itemsIh]

theorem length_listEntries (parent : NodeId) (numbering : Numbering) (forest : Forest) :
    (forest.listEntries parent numbering).length = forest.listCount := by
  induction forest generalizing parent numbering with
  | empty => rfl
  | token before position kind ih => exact ih parent numbering
  | hole before ih => exact ih parent numbering
  | node before kind children ih childrenIh => simp [listEntries, listCount, ih, childrenIh]
  | list before items ih itemsIh => simp [listEntries, listCount, ih, itemsIh]; omega

/-! ## Entries of joined forests -/

@[simp] theorem after_append (numbering : Numbering) (left right : Forest) :
    (left ++ right).after numbering = right.after (left.after numbering) := by
  induction right with
  | empty => rfl
  | token before position kind ih => rw [append_token, after, ih, after]
  | hole before ih => rw [append_hole, after, ih, after]
  | node before kind children ih _ => rw [append_node, after, ih, after]
  | list before items ih _ => rw [append_list, after, ih, after]

@[simp] theorem nodeEntries_append (parent : Option NodeId) (numbering : Numbering)
    (left right : Forest) :
    (left ++ right).nodeEntries parent numbering =
      left.nodeEntries parent numbering ++ right.nodeEntries parent (left.after numbering) := by
  induction right with
  | empty => simp [nodeEntries]
  | token before position kind ih => simp [nodeEntries, ih]
  | hole before ih => simp [nodeEntries, ih]
  | node before kind children ih _ => simp [nodeEntries, ih]
  | list before items ih _ => simp [nodeEntries, ih]

@[simp] theorem childTable_append (numbering : Numbering) (left right : Forest) :
    (left ++ right).childTable numbering =
      left.childTable numbering ++ right.childTable (left.after numbering) := by
  induction right with
  | empty => simp [childTable]
  | token before position kind ih => simp [childTable, ih]
  | hole before ih => simp [childTable, ih]
  | node before kind children ih _ => simp [childTable, ih]
  | list before items ih _ => simp [childTable, ih]

@[simp] theorem listEntries_append (parent : NodeId) (numbering : Numbering) (left right : Forest) :
    (left ++ right).listEntries parent numbering =
      left.listEntries parent numbering ++ right.listEntries parent (left.after numbering) := by
  induction right with
  | empty => simp [listEntries]
  | token before position kind ih => simp [listEntries, ih]
  | hole before ih => simp [listEntries, ih]
  | node before kind children ih _ => simp [listEntries, ih]
  | list before items ih _ => simp [listEntries, ih]

@[simp] theorem tokenParents_append (parent : NodeId) (numbering : Numbering) (left right : Forest) :
    (left ++ right).tokenParents parent numbering =
      left.tokenParents parent numbering ++ right.tokenParents parent (left.after numbering) := by
  induction right with
  | empty => simp [tokenParents]
  | token before position kind ih => simp [tokenParents, ih]
  | hole before ih => simp [tokenParents, ih]
  | node before kind children ih _ => simp [tokenParents, ih]
  | list before items ih _ => simp [tokenParents, ih]

/-! ## Items alternate -/

/-- Whether as many elements as separators were pushed tells what comes next. -/
theorem sizes_ofItems (numbering : Numbering) (forest : Forest) (expects : Bool)
    (alternates : forest.expectsElement = some expects) :
    (SeparatedListBuilder.ofItems (forest.itemsFrom numbering)).elements.size =
      (SeparatedListBuilder.ofItems (forest.itemsFrom numbering)).separators.size +
        (if expects then 0 else 1) := by
  have known : forest.expectsElement ≠ none := by simp [alternates]
  induction forest generalizing expects with
  | empty =>
      cases alternates
      rfl
  | token before position kind ih =>
      have odd := expectsElement_before_token known
      have sizes := ih false odd (by simp [odd])
      rw [expectsElement, if_pos odd] at alternates
      cases alternates
      simp [itemsFrom, sizes]
  | hole before ih =>
      have even := expectsElement_before_hole known
      have sizes := ih true even (by simp [even])
      rw [expectsElement, if_pos even] at alternates
      cases alternates
      simp [itemsFrom, sizes]
  | node before kind children ih _ =>
      have even := expectsElement_before_node known
      have sizes := ih true even (by simp [even])
      rw [expectsElement, if_pos even] at alternates
      cases alternates
      simp [itemsFrom, sizes]
  | list before items _ _ => cases alternates

end Forest

theorem Forest.items_finish (numbering : Numbering) (forest : Forest)
    (alternates : forest.expectsElement ≠ none) :
    (SeparatedListBuilder.ofItems (forest.itemsFrom numbering)).finish.items =
      forest.itemsFrom numbering := by
  induction forest with
  | empty => rfl
  | token before position kind ih =>
      have alternating := expectsElement_before_token alternates
      have sizes := sizes_ofItems numbering before false alternating
      have earlier := ih (by simp [alternating])
      have pushed := SeparatedList.items_pushSeparator sizes (before.after numbering).token
      simp only [SeparatedListBuilder.finish] at earlier
      rw [earlier] at pushed
      simpa [SeparatedListBuilder.finish, itemsFrom] using pushed
  | hole before ih =>
      have alternating := expectsElement_before_hole alternates
      have sizes := sizes_ofItems numbering before true alternating
      have earlier := ih (by simp [alternating])
      have pushed := SeparatedList.items_pushElement sizes Slot.absent
      simp only [SeparatedListBuilder.finish] at earlier
      rw [earlier] at pushed
      simpa [SeparatedListBuilder.finish, itemsFrom] using pushed
  | node before kind children ih _ =>
      have alternating := expectsElement_before_node alternates
      have sizes := sizes_ofItems numbering before true alternating
      have earlier := ih (by simp [alternating])
      have pushed := SeparatedList.items_pushElement sizes (Slot.present (before.after numbering).node)
      simp only [SeparatedListBuilder.finish] at earlier
      rw [earlier] at pushed
      simpa [SeparatedListBuilder.finish, itemsFrom] using pushed
  | list before items _ _ => exact absurd rfl alternates

end ScriptTree
