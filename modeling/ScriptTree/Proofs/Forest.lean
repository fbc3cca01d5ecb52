import ScriptTree.Tree.Basic

/-! # Forests

A forest is what a node or a list holds, in the order of the text: it grows at its end. It is a tree
without numbers: positions count tokens from the first one of the tree. `SyntaxTree.shape` reads the
forest back from the tables of a tree. -/
set_option autoImplicit false
namespace ScriptTree

inductive Forest where
  | empty
  | token (before : Forest) (position : Nat) (kind : Kind)
  | hole (before : Forest)
  | node (before : Forest) (kind : Kind) (children : Forest)
  | list (before : Forest) (items : Forest)
  deriving DecidableEq, Repr

namespace Forest

/-! ## Joining forests -/

def append (left : Forest) : Forest → Forest
  | empty => left
  | token before position kind => (left.append before).token position kind
  | hole before => (left.append before).hole
  | node before kind children => (left.append before).node kind children
  | list before items => (left.append before).list items

instance : Append Forest := ⟨append⟩

@[simp] theorem append_empty (left : Forest) : left ++ empty = left := rfl

@[simp] theorem append_token (left before : Forest) (position : Nat) (kind : Kind) :
    left ++ before.token position kind = (left ++ before).token position kind := rfl

@[simp] theorem append_hole (left before : Forest) : left ++ before.hole = (left ++ before).hole := rfl

@[simp] theorem append_node (left before children : Forest) (kind : Kind) :
    left ++ before.node kind children = (left ++ before).node kind children := rfl

@[simp] theorem append_list (left before items : Forest) :
    left ++ before.list items = (left ++ before).list items := rfl

@[simp] theorem empty_append (right : Forest) : empty ++ right = right := by
  induction right with
  | empty => rfl
  | token before position kind ih => rw [append_token, ih]
  | hole before ih => rw [append_hole, ih]
  | node before kind children ih _ => rw [append_node, ih]
  | list before items ih _ => rw [append_list, ih]

theorem append_assoc (left middle right : Forest) :
    left ++ middle ++ right = left ++ (middle ++ right) := by
  induction right with
  | empty => rfl
  | token before position kind ih => simp only [append_token, ih]
  | hole before ih => simp only [append_hole, ih]
  | node before kind children ih _ => simp only [append_node, ih]
  | list before items ih _ => simp only [append_list, ih]

def wrapLast (forest : Forest) (kind : Kind) (rest : Forest) : Forest :=
  match forest with
  | node before inner children => before.node kind (empty.node inner children ++ rest)
  | other => other

@[simp] theorem wrapLast_node (before children rest : Forest) (inner kind : Kind) :
    (before.node inner children).wrapLast kind rest =
      before.node kind (empty.node inner children ++ rest) := rfl

/-! ## What a forest holds -/

def leaves : Forest → List (Nat × Kind)
  | empty => []
  | token before position kind => before.leaves ++ [(position, kind)]
  | hole before => before.leaves
  | node before _ children => before.leaves ++ children.leaves
  | list before items => before.leaves ++ items.leaves

/-- The nodes in preorder, each with its kind and what it holds. -/
def nodes : Forest → List (Kind × Forest)
  | empty => []
  | token before _ _ => before.nodes
  | hole before => before.nodes
  | node before kind children => before.nodes ++ (kind, children) :: children.nodes
  | list before items => before.nodes ++ items.nodes

def listCount : Forest → Nat
  | empty => 0
  | token before _ _ => before.listCount
  | hole before => before.listCount
  | node before _ children => before.listCount + children.listCount
  | list before items => before.listCount + 1 + items.listCount

@[simp] theorem leaves_append (left right : Forest) :
    (left ++ right).leaves = left.leaves ++ right.leaves := by
  induction right with
  | empty => simp [leaves]
  | token before position kind ih => simp [leaves, ih]
  | hole before ih => simp [leaves, ih]
  | node before kind children ih _ => simp [leaves, ih]
  | list before items ih _ => simp [leaves, ih]

@[simp] theorem nodes_append (left right : Forest) :
    (left ++ right).nodes = left.nodes ++ right.nodes := by
  induction right with
  | empty => simp [nodes]
  | token before position kind ih => simp [nodes, ih]
  | hole before ih => simp [nodes, ih]
  | node before kind children ih _ => simp [nodes, ih]
  | list before items ih _ => simp [nodes, ih]

/-! ## Properties of all nodes -/

def AllNodes (holds : Kind → Forest → Prop) (forest : Forest) : Prop :=
  ∀ node ∈ forest.nodes, holds node.1 node.2

section AllNodes

variable {holds : Kind → Forest → Prop} {before children items left right forest rest : Forest}
  {kind : Kind}

theorem AllNodes.of_mem (all : forest.AllNodes holds) (member : (kind, children) ∈ forest.nodes) :
    holds kind children :=
  all _ member

theorem allNodes_empty : empty.AllNodes holds := by simp [AllNodes, nodes]

theorem allNodes_node : (before.node kind children).AllNodes holds ↔
    before.AllNodes holds ∧ holds kind children ∧ children.AllNodes holds := by
  simp only [AllNodes, nodes, List.forall_mem_append, List.forall_mem_cons]

theorem allNodes_list : (before.list items).AllNodes holds ↔
    before.AllNodes holds ∧ items.AllNodes holds := by
  simp only [AllNodes, nodes, List.forall_mem_append]

theorem allNodes_append : (left ++ right).AllNodes holds ↔ left.AllNodes holds ∧ right.AllNodes holds := by
  simp only [AllNodes, nodes_append, List.forall_mem_append]

/-- The node around the last one has the property if the last one hands it on. -/
theorem AllNodes.wrapLast (all : forest.AllNodes holds) (inside : rest.AllNodes holds)
    (around : ∀ inner children, holds inner children → holds kind (empty.node inner children ++ rest)) :
    (forest.wrapLast kind rest).AllNodes holds := by
  cases forest with
  | node before inner children =>
      obtain ⟨earlier, last, within⟩ := allNodes_node.mp all
      refine allNodes_node.mpr ⟨earlier, around inner children last, ?_⟩
      exact allNodes_append.mpr ⟨allNodes_node.mpr ⟨allNodes_empty, last, within⟩, inside⟩
  | empty | token before position inner | hole before | list before items => exact all

end AllNodes

/-! ## Forests that a builder accepts -/

/-- Whether an element comes next in a list of these items; nothing if they do not alternate. -/
def expectsElement : Forest → Option Bool
  | empty => some true
  | token before _ _ => if before.expectsElement = some false then some true else none
  | hole before => if before.expectsElement = some true then some false else none
  | node before _ _ => if before.expectsElement = some true then some false else none
  | list _ _ => none

theorem expectsElement_before_token {before : Forest} {position : Nat} {kind : Kind}
    (alternates : (before.token position kind).expectsElement ≠ none) :
    before.expectsElement = some false := by
  simp only [expectsElement] at alternates
  split at alternates
  · assumption
  · exact absurd rfl alternates

theorem expectsElement_before_hole {before : Forest} (alternates : before.hole.expectsElement ≠ none) :
    before.expectsElement = some true := by
  simp only [expectsElement] at alternates
  split at alternates
  · assumption
  · exact absurd rfl alternates

theorem expectsElement_before_node {before children : Forest} {kind : Kind}
    (alternates : (before.node kind children).expectsElement ≠ none) :
    before.expectsElement = some true := by
  simp only [expectsElement] at alternates
  split at alternates
  · assumption
  · exact absurd rfl alternates

/-- The nodes have node kinds, lists stand in nodes alone and alternate, and holes stand in lists
alone. -/
def WellBuilt (inList : Bool) : Forest → Prop
  | empty => True
  | token before _ _ => before.WellBuilt inList
  | hole before => inList = true ∧ before.WellBuilt inList
  | node before kind children =>
      before.WellBuilt inList ∧ kind.isNode = true ∧ children.WellBuilt false
  | list before items =>
      inList = false ∧ before.WellBuilt inList ∧ items.WellBuilt true ∧ items.expectsElement ≠ none

/-- Lists stand in nodes alone and alternate, and holes stand in lists alone; any kind may be that of a
node. -/
def Placed (inList : Bool) : Forest → Prop
  | empty => True
  | token before _ _ => before.Placed inList
  | hole before => inList = true ∧ before.Placed inList
  | node before _ children => before.Placed inList ∧ children.Placed false
  | list before items =>
      inList = false ∧ before.Placed inList ∧ items.Placed true ∧ items.expectsElement ≠ none

theorem WellBuilt.placed {inList : Bool} {forest : Forest} (built : forest.WellBuilt inList) :
    forest.Placed inList := by
  induction forest generalizing inList with
  | empty => trivial
  | token before position kind ih => exact ih built
  | hole before ih => exact ⟨built.1, ih built.2⟩
  | node before kind children ih childrenIh => exact ⟨ih built.1, childrenIh built.2.2⟩
  | list before items ih itemsIh => exact ⟨built.1, ih built.2.1, itemsIh built.2.2.1, built.2.2.2⟩

theorem WellBuilt.append {left right : Forest} (leftBuilt : left.WellBuilt false)
    (rightBuilt : right.WellBuilt false) : (left ++ right).WellBuilt false := by
  induction right with
  | empty => exact leftBuilt
  | token before position kind ih => exact ih rightBuilt
  | hole before ih => exact ⟨rightBuilt.1, ih rightBuilt.2⟩
  | node before kind children ih _ => exact ⟨ih rightBuilt.1, rightBuilt.2⟩
  | list before items ih _ => exact ⟨rightBuilt.1, ih rightBuilt.2.1, rightBuilt.2.2⟩

end Forest

/-! ## The forest of a tree -/

namespace SyntaxTree

/-- A token as a leaf: its place behind the first token of the tree, and its kind. -/
def addLeaf (tree : SyntaxTree) (forest : Forest) (id : TokenId) : Forest :=
  forest.token (id - tree.firstToken) (tree.token id).kind

def addItem (tree : SyntaxTree) (inside : NodeId → Forest) (items : Forest) :
    ListItem (Slot NodeId) TokenId → Forest
  | .element (.present id) => items.node (tree.kind id) (inside id)
  | .element .absent => items.hole
  | .separator id => tree.addLeaf items id

def addChild (tree : SyntaxTree) (inside : NodeId → Forest) (forest : Forest) : Child → Forest
  | .token id => tree.addLeaf forest id
  | .node id => forest.node (tree.kind id) (inside id)
  | .list id => forest.list ((tree.listEntry id).items.items.foldl (tree.addItem inside) .empty)

/-- What a node holds; `budget` bounds the number of levels. -/
def shapeWithin (tree : SyntaxTree) : Nat → NodeId → Forest
  | 0, _ => .empty
  | budget + 1, node => (tree.children node).foldl (tree.addChild (tree.shapeWithin budget)) .empty

def shapeOf (tree : SyntaxTree) (node : NodeId) : Forest := tree.shapeWithin tree.nodes.size node

def shape (tree : SyntaxTree) : Forest := Forest.empty.node (tree.kind root) (tree.shapeOf root)

def leaves (tree : SyntaxTree) : List TokenId :=
  tree.shape.leaves.map fun leaf => tree.firstToken + leaf.1

end SyntaxTree
end ScriptTree
