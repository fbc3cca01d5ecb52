import ScriptTree.Tree.Basic

/-! # Going through the children of a node

A cursor gives the children of a node one after the other, and in the place of a list what stands in it.
It goes through the list by positions: elements and separators alternate there, and holes are passed. -/
set_option autoImplicit false
namespace ScriptTree

structure ListCursor where
  list : ListId
  position : Nat
  deriving DecidableEq, Repr, Inhabited

namespace ListCursor

/-- What stands at a position of a list, unless it is a hole. -/
def elementAt (items : SeparatedList (Slot NodeId) TokenId) (position : Nat) : Option Element :=
  if position % 2 = 1 then items.separators[position / 2]?.map .token
  else (items.elements[position / 2]?.bind Slot.toOption).map .node

/-- The first element among `left` positions, and the position behind it. -/
def elementFrom (items : SeparatedList (Slot NodeId) TokenId) : Nat → Nat → Option (Element × Nat)
  | 0, _ => none
  | left + 1, position =>
      match elementAt items position with
      | some element => some (element, position + 1)
      | none => elementFrom items left (position + 1)

def next (cursor : ListCursor) (tree : SyntaxTree) : Option (Element × ListCursor) :=
  let items := (tree.listEntry cursor.list).items
  (elementFrom items (items.positions - cursor.position) cursor.position).map fun (element, behind) =>
    (element, { cursor with position := behind })

def rest (cursor : ListCursor) (tree : SyntaxTree) : List Element :=
  let items := (tree.listEntry cursor.list).items
  (List.range' cursor.position (items.positions - cursor.position)).filterMap (elementAt items)

theorem elementFrom_eq (items : SeparatedList (Slot NodeId) TokenId) (left position : Nat) :
    match elementFrom items left position with
    | none => (List.range' position left).filterMap (elementAt items) = []
    | some (element, behind) => position < behind ∧ behind ≤ position + left ∧
        (List.range' position left).filterMap (elementAt items) =
          element :: (List.range' behind (position + left - behind)).filterMap (elementAt items) := by
  induction left generalizing position with
  | zero => rfl
  | succ left ih =>
      rw [List.range'_succ]
      cases here : elementAt items position with
      | some element =>
          simp only [elementFrom, here, List.filterMap_cons_some here]
          exact ⟨Nat.lt_succ_self _, by omega, by congr 3; omega⟩
      | none =>
          have further := ih (position + 1)
          simp only [elementFrom, here, List.filterMap_cons_none here]
          split at further
          · simpa using further
          · obtain ⟨behind, within, same⟩ := further
            exact ⟨by omega, by omega, by rw [same]; congr 3; omega⟩

variable {cursor after : ListCursor} {tree : SyntaxTree} {element : Element}

theorem rest_eq_nil (ended : cursor.next tree = none) : cursor.rest tree = [] := by
  have found := elementFrom_eq (tree.listEntry cursor.list).items
    ((tree.listEntry cursor.list).items.positions - cursor.position) cursor.position
  rw [next, Option.map_eq_none_iff] at ended
  rwa [ended] at found

theorem rest_eq_cons (given : cursor.next tree = some (element, after)) :
    cursor.rest tree = element :: after.rest tree := by
  have found := elementFrom_eq (tree.listEntry cursor.list).items
    ((tree.listEntry cursor.list).items.positions - cursor.position) cursor.position
  obtain ⟨⟨element, behind⟩, shown, same⟩ := Option.map_eq_some_iff.mp given
  cases same
  rw [shown] at found
  obtain ⟨further, within, same⟩ := found
  rw [rest, same, rest]
  congr 3
  simp only
  omega

end ListCursor

/-- A place among the children of a node: in a list that is gone through, if there is one, and in front of
the children behind it. -/
structure ElementCursor where
  active : Option ListCursor
  children : List Child
  deriving DecidableEq, Repr, Inhabited

namespace ElementCursor

def done : ElementCursor := ⟨none, []⟩

/-- The first element of the children, and the cursor behind it. -/
def ofChildren (tree : SyntaxTree) : List Child → Option (Element × ElementCursor)
  | [] => none
  | .node id :: children => some (.node id, ⟨none, children⟩)
  | .token id :: children => some (.token id, ⟨none, children⟩)
  | .list id :: children =>
      match ListCursor.next ⟨id, 0⟩ tree with
      | some (element, list) => some (element, ⟨some list, children⟩)
      | none => ofChildren tree children

/-- The next element of the list that is gone through, or else of the children behind it. -/
def next (cursor : ElementCursor) (tree : SyntaxTree) : Option (Element × ElementCursor) :=
  match cursor.active.bind (·.next tree) with
  | some (element, list) => some (element, { cursor with active := some list })
  | none => ofChildren tree cursor.children

end ElementCursor

/-! ## What a cursor has still to give -/

namespace SyntaxTree

/-- Elements and separators of a list by their positions. -/
def listElements (tree : SyntaxTree) (list : ListId) : List Element := ListCursor.rest ⟨list, 0⟩ tree

/-- What a child is in the eyes of a cursor: a list is what stands in it. -/
def childElements (tree : SyntaxTree) : Child → List Element
  | .node id => [.node id]
  | .token id => [.token id]
  | .list id => tree.listElements id

end SyntaxTree

namespace ElementCursor

def rest (cursor : ElementCursor) (tree : SyntaxTree) : List Element :=
  (cursor.active.map (·.rest tree)).getD [] ++ cursor.children.flatMap tree.childElements

variable {cursor after : ElementCursor} {tree : SyntaxTree} {element : Element}

@[simp] theorem rest_done (tree : SyntaxTree) : done.rest tree = [] := rfl

theorem ofChildren_eq (tree : SyntaxTree) (children : List Child) :
    match ofChildren tree children with
    | none => children.flatMap tree.childElements = []
    | some (element, after) => children.flatMap tree.childElements = element :: after.rest tree := by
  induction children with
  | nil => rfl
  | cons child children ih =>
      cases child with
      | node id | token id => rfl
      | list id =>
          cases given : ListCursor.next ⟨id, 0⟩ tree with
          | none =>
              have empty : tree.listElements id = [] := ListCursor.rest_eq_nil given
              simpa only [ofChildren, given, List.flatMap_cons, SyntaxTree.childElements, empty,
                List.nil_append] using ih
          | some pair =>
              have split : tree.listElements id = pair.1 :: pair.2.rest tree :=
                ListCursor.rest_eq_cons given
              simp [ofChildren, given, SyntaxTree.childElements, split, rest]

/-- A step of the cursor gives the first of what it has still to give. -/
theorem next_eq (cursor : ElementCursor) (tree : SyntaxTree) :
    match cursor.next tree with
    | none => cursor.rest tree = []
    | some (element, after) => cursor.rest tree = element :: after.rest tree := by
  obtain ⟨active, children⟩ := cursor
  have behind := ofChildren_eq tree children
  cases active with
  | none => exact behind
  | some list =>
      cases given : list.next tree with
      | none =>
          have empty := ListCursor.rest_eq_nil given
          simpa [next, rest, given, empty] using behind
      | some pair => simp [next, rest, given, ListCursor.rest_eq_cons given]

theorem rest_eq_nil (ended : cursor.next tree = none) : cursor.rest tree = [] := by
  simpa only [ended] using cursor.next_eq tree

theorem rest_eq_cons (given : cursor.next tree = some (element, after)) :
    cursor.rest tree = element :: after.rest tree := by
  simpa only [given] using cursor.next_eq tree

theorem exists_next {more : List Element} (split : cursor.rest tree = element :: more) :
    ∃ after, cursor.next tree = some (element, after) ∧ after.rest tree = more := by
  cases given : cursor.next tree with
  | none =>
      rw [rest_eq_nil given] at split
      cases split
  | some pair =>
      rw [rest_eq_cons given] at split
      cases split
      exact ⟨pair.2, rfl, rfl⟩

theorem next_eq_none (nothing : cursor.rest tree = []) : cursor.next tree = none := by
  cases given : cursor.next tree with
  | none => rfl
  | some pair =>
      rw [rest_eq_cons given] at nothing
      cases nothing

def toList (cursor : ElementCursor) (tree : SyntaxTree) : List Element :=
  match _given : cursor.next tree with
  | none => []
  | some (element, after) => element :: after.toList tree
termination_by (cursor.rest tree).length
decreasing_by simp [rest_eq_cons _given]

theorem toList_eq (cursor : ElementCursor) (tree : SyntaxTree) : cursor.toList tree = cursor.rest tree := by
  fun_induction toList cursor tree with
  | case1 cursor ended => rw [rest_eq_nil ended]
  | case2 cursor element after given ih => rw [rest_eq_cons given, ih]

end ElementCursor

namespace SyntaxTree

def elementCursor (tree : SyntaxTree) (node : NodeId) : ElementCursor := ⟨none, tree.children node⟩

/-- The children of a node with its lists flattened. -/
def elements (tree : SyntaxTree) (node : NodeId) : List Element := (tree.elementCursor node).toList tree

theorem rest_elementCursor (tree : SyntaxTree) (node : NodeId) :
    (tree.elementCursor node).rest tree = tree.elements node :=
  (ElementCursor.toList_eq _ _).symm

theorem elements_eq_flatMap_childElements (tree : SyntaxTree) (node : NodeId) :
    tree.elements node = (tree.children node).flatMap tree.childElements :=
  ElementCursor.toList_eq _ _

def childNodes (tree : SyntaxTree) (node : NodeId) : List NodeId :=
  (tree.elements node).filterMap Element.toNode?

end SyntaxTree
end ScriptTree
