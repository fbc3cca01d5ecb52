import ScriptTree.Proofs.Ownership
import ScriptTree.Tree.Walk

/-! # Walks in preorder

A walk through a tree keeps for each node it is in the place among the children of the node. Over tables
that hold a forest it goes through the events of the forest, which enter the nodes and meet the tokens in
the order of their numbers. -/
set_option autoImplicit false
namespace ScriptTree

/-! ## The events of a forest -/

namespace Forest

def eventsFrom (numbering : Numbering) : Forest → List WalkEvent
  | empty => []
  | token before _ _ => before.eventsFrom numbering ++ [.token (before.after numbering).token]
  | hole before => before.eventsFrom numbering
  | node before _ children =>
      let here := before.after numbering
      before.eventsFrom numbering ++
        .enter here.node :: (children.eventsFrom here.nextNode ++ [.leave here.node])
  | list before items =>
      before.eventsFrom numbering ++ items.eventsFrom (before.after numbering).nextList

theorem length_eventsFrom (numbering : Numbering) (forest : Forest) :
    (forest.eventsFrom numbering).length = 2 * forest.nodes.length + forest.leaves.length := by
  induction forest generalizing numbering with
  | empty => rfl
  | token before position kind ih => simp [eventsFrom, nodes, leaves, ih, Nat.add_assoc]
  | hole before ih => exact ih numbering
  | node before kind children ih childrenIh =>
      simp only [eventsFrom, nodes, leaves, List.length_append, List.length_cons, List.length_nil, ih,
        childrenIh]
      omega
  | list before items ih itemsIh =>
      simp only [eventsFrom, nodes, leaves, List.length_append, ih, itemsIh]
      omega

theorem filterMap_entered? (numbering : Numbering) (forest : Forest) :
    (forest.eventsFrom numbering).filterMap WalkEvent.entered? =
      List.range' numbering.node forest.nodes.length := by
  induction forest generalizing numbering with
  | empty => rfl
  | token before position kind ih =>
      simp [eventsFrom, nodes, ih, WalkEvent.entered?]
  | hole before ih => exact ih numbering
  | node before kind children ih childrenIh =>
      rw [nodes, List.length_append, List.length_cons, ← List.range'_append_1, List.range'_succ]
      simp [eventsFrom, ih, childrenIh, WalkEvent.entered?, after_eq, Numbering.nextNode]
  | list before items ih itemsIh =>
      rw [nodes, List.length_append, ← List.range'_append_1]
      simp [eventsFrom, ih, itemsIh, after_eq, Numbering.nextList]

theorem filterMap_toToken? (numbering : Numbering) (forest : Forest) :
    ((forest.eventsFrom numbering).filterMap WalkEvent.element?).filterMap Element.toToken? =
      List.range' numbering.token forest.leaves.length := by
  induction forest generalizing numbering with
  | empty => rfl
  | token before position kind ih =>
      rw [leaves, List.length_append, ← List.range'_append_1]
      simp [eventsFrom, ih, WalkEvent.element?, Element.toToken?, after_eq]
  | hole before ih => exact ih numbering
  | node before kind children ih childrenIh =>
      rw [leaves, List.length_append, ← List.range'_append_1]
      simp [eventsFrom, ih, childrenIh, List.filterMap_cons, WalkEvent.element?, Element.toToken?,
        after_eq, Numbering.nextNode]
  | list before items ih itemsIh =>
      rw [leaves, List.length_append, ← List.range'_append_1]
      simp [eventsFrom, ih, itemsIh, after_eq, Numbering.nextList]

end Forest

/-! ## Steps of a walk -/

namespace Walk

section Next

variable {tree : SyntaxTree} (node : NodeId) {child : NodeId} {id : TokenId} {cursor rest : ElementCursor}
  (outer : List (NodeId × ElementCursor)) (pending : Option NodeId)

theorem next_node (given : cursor.next tree = some (.node child, rest)) :
    next ⟨(node, cursor) :: outer, pending⟩ tree =
      some (.enter child, ⟨(child, tree.elementCursor child) :: (node, rest) :: outer, pending⟩) := by
  simp only [next, given, enter]

theorem next_token (given : cursor.next tree = some (.token id, rest)) :
    next ⟨(node, cursor) :: outer, pending⟩ tree = some (.token id, ⟨(node, rest) :: outer, pending⟩) := by
  simp only [next, given]

theorem next_leave (ended : cursor.next tree = none) :
    next ⟨(node, cursor) :: outer, pending⟩ tree = some (.leave node, ⟨outer, pending⟩) := by
  simp only [next, ended]

/-- A walk inside of a node enters a node in it, meets a token or leaves the node. -/
theorem next_cases {event : WalkEvent} {after : Walk}
    (shown : next ⟨(node, cursor) :: outer, pending⟩ tree = some (event, after)) :
    (∃ child rest, cursor.next tree = some (.node child, rest) ∧ event = .enter child ∧
      after = ⟨(child, tree.elementCursor child) :: (node, rest) :: outer, pending⟩) ∨
    (∃ id rest, cursor.next tree = some (.token id, rest) ∧ event = .token id ∧
      after = ⟨(node, rest) :: outer, pending⟩) ∨
    (cursor.next tree = none ∧ event = .leave node ∧ after = ⟨outer, pending⟩) := by
  cases given : cursor.next tree with
  | none =>
      rw [next_leave node outer pending given] at shown
      cases shown
      exact .inr (.inr ⟨rfl, rfl, rfl⟩)
  | some pair =>
      obtain ⟨_ | _, rest⟩ := pair
      · rw [next_node node outer pending given] at shown
        cases shown
        exact .inl ⟨_, rest, rfl, rfl, rfl⟩
      · rw [next_token node outer pending given] at shown
        cases shown
        exact .inr (.inl ⟨_, rest, rfl, rfl, rfl⟩)

theorem next_cons_ne_none (tree : SyntaxTree) (frame : NodeId × ElementCursor) :
    next ⟨frame :: outer, pending⟩ tree ≠ none := by
  obtain ⟨node, cursor⟩ := frame
  cases given : cursor.next tree with
  | none => simp [next_leave node outer pending given]
  | some pair =>
      obtain ⟨_ | _, rest⟩ := pair
      · simp [next_node node outer pending given]
      · simp [next_token node outer pending given]

end Next

/-- A walk shows events one after the other and comes to another walk. -/
inductive Shows (tree : SyntaxTree) : Walk → List WalkEvent → Walk → Prop
  | nil (walk : Walk) : Shows tree walk [] walk
  | cons {walk after last : Walk} {event : WalkEvent} {events : List WalkEvent}
      (shown : walk.next tree = some (event, after)) (further : Shows tree after events last) :
      Shows tree walk (event :: events) last

namespace Shows

variable {tree : SyntaxTree} {walk after last : Walk} {events more : List WalkEvent}

theorem append (shows : walk.Shows tree events after) (further : after.Shows tree more last) :
    walk.Shows tree (events ++ more) last := by
  induction shows with
  | nil => exact further
  | cons shown _ ih => exact .cons shown (ih further)

theorem eventsWithin_eq (shows : walk.Shows tree events last) (budget : Nat) :
    eventsWithin tree (fun _ => false) (events.length + budget) walk =
      events ++ eventsWithin tree (fun _ => false) budget last := by
  induction shows with
  | nil => simp
  | @cons _ _ _ event events shown _ ih =>
      rw [List.length_cons, Nat.add_right_comm, eventsWithin, shown, List.cons_append, ← ih]
      cases event <;> rfl

end Shows
end Walk

/-! ## Walks over tables -/

namespace SyntaxTree.Stores

variable {tree : SyntaxTree} {parent : Option NodeId} {numbering : Numbering}

theorem shows {inList : Bool} {forest : Forest} (stores : tree.Stores parent numbering forest)
    (placed : forest.Placed inList) {cursor : ElementCursor} {more : List Element}
    (split : cursor.rest tree = forest.elementsFrom numbering ++ more) (node : NodeId)
    (outer : List (NodeId × ElementCursor)) (pending : Option NodeId) :
    ∃ behind, behind.rest tree = more ∧ Walk.Shows tree ⟨(node, cursor) :: outer, pending⟩
      (forest.eventsFrom numbering) ⟨(node, behind) :: outer, pending⟩ := by
  induction forest generalizing parent numbering inList node cursor more outer with
  | empty => exact ⟨cursor, split, .nil _⟩
  | token before position kind ih =>
      obtain ⟨beforeStores, -⟩ :
          _ ∧ tree.Stores _ _ (Forest.empty.token position kind) := Stores.append stores
      rw [Forest.elementsFrom_token, List.append_assoc] at split
      obtain ⟨middle, ahead, earlier⟩ := ih beforeStores placed split node outer
      obtain ⟨behind, given, left⟩ := ElementCursor.exists_next ahead
      exact ⟨behind, left, earlier.append (.cons (Walk.next_token node outer pending given) (.nil _))⟩
  | hole before ih => exact ih stores.hole placed.2 split node outer
  | node before kind children ih childrenIh =>
      obtain ⟨beforeStores, nodeStores⟩ :
          _ ∧ tree.Stores _ _ (Forest.empty.node kind children) := Stores.append stores
      rw [Forest.elementsFrom_node, List.append_assoc] at split
      obtain ⟨middle, ahead, earlier⟩ := ih beforeStores placed.1 split node outer
      obtain ⟨behind, given, left⟩ := ElementCursor.exists_next ahead
      -- The walk enters the node, goes through what it holds and leaves it with nothing left to show.
      have held : (tree.elementCursor (before.after numbering).node).rest tree =
          children.elementsFrom (before.after numbering).nextNode ++ [] := by
        rw [rest_elementCursor, nodeStores.elements_eq placed.2, List.append_nil]
      obtain ⟨last, nothing, inside⟩ := childrenIh nodeStores.node placed.2 held
        (before.after numbering).node ((node, behind) :: outer)
      have leaves := Walk.next_leave (before.after numbering).node ((node, behind) :: outer) pending
        (ElementCursor.next_eq_none nothing)
      exact ⟨behind, left, earlier.append (.cons (Walk.next_node node outer pending given)
        (inside.append (.cons leaves (.nil _))))⟩
  | list before items ih itemsIh =>
      obtain ⟨beforeStores, listStores⟩ :
          _ ∧ tree.Stores _ _ (Forest.empty.list items) := Stores.append stores
      rw [Forest.elementsFrom_list, List.append_assoc] at split
      obtain ⟨middle, ahead, earlier⟩ := ih beforeStores placed.2.1 split node outer
      obtain ⟨behind, left, later⟩ := itemsIh listStores.list placed.2.2.1 ahead node outer
      exact ⟨behind, left, earlier.append later⟩

variable {kind : Kind} {children : Forest}

/-- There are events enough for the walk below and with a node. -/
theorem exists_spare (stores : tree.Stores parent numbering (Forest.empty.node kind children)) :
    ∃ spare, 2 * tree.nodes.size + tree.tokenParents.size =
      ((Forest.empty.node kind children).eventsFrom numbering).length + spare := by
  have nodes := stores.nodes.length_le
  have tokens := stores.tokenParents.length_le
  rw [Forest.length_nodeEntries, List.length_drop] at nodes
  rw [Forest.length_tokenParents, List.length_drop] at tokens
  have events := (Forest.empty.node kind children).length_eventsFrom numbering
  simp only [Array.length_toList] at nodes tokens
  exact ⟨2 * tree.nodes.size + tree.tokenParents.size -
    ((Forest.empty.node kind children).eventsFrom numbering).length, by omega⟩

theorem walk_eq (stores : tree.Stores parent numbering (Forest.empty.node kind children))
    (placed : children.Placed false) :
    tree.walk numbering.node =
      .enter numbering.node :: (children.eventsFrom numbering.nextNode ++ [.leave numbering.node]) := by
  obtain ⟨spare, budget⟩ := stores.exists_spare
  have held : (tree.elementCursor numbering.node).rest tree =
      children.elementsFrom numbering.nextNode ++ [] := by
    rw [rest_elementCursor, stores.elements_eq placed, List.append_nil]
  obtain ⟨last, nothing, inside⟩ := stores.node.shows placed held numbering.node [] none
  have leaves := Walk.next_leave numbering.node [] none (ElementCursor.next_eq_none nothing)
  have shows : (Walk.start numbering.node).Shows tree ((Forest.empty.node kind children).eventsFrom numbering)
      ⟨[], none⟩ := .cons rfl (inside.append (.cons leaves (.nil _)))
  have ends : Walk.eventsWithin tree (fun _ => false) spare ⟨[], none⟩ = [] := by
    cases spare <;> rfl
  rw [walk, walkSkipping, budget, shows.eventsWithin_eq, ends, List.append_nil]
  rfl

theorem descendants_eq (stores : tree.Stores parent numbering (Forest.empty.node kind children))
    (placed : children.Placed false) :
    tree.descendants numbering.node = List.range' numbering.node (children.nodes.length + 1) := by
  rw [descendants, stores.walk_eq placed, List.range'_succ]
  simp [WalkEvent.entered?, children.filterMap_entered?, Numbering.nextNode]

theorem tokens_eq (stores : tree.Stores parent numbering (Forest.empty.node kind children)) :
    tree.tokens numbering.node = List.range' numbering.token children.leaves.length := by
  rw [tokens, stores.entry, Forest.after_eq]
  simp only [Numbering.nextNode_token, Nat.add_sub_cancel_left]

/-- The tokens that a node covers are those that a walk below it meets. -/
theorem tokens_eq_filterMap (stores : tree.Stores parent numbering (Forest.empty.node kind children))
    (placed : children.Placed false) :
    tree.tokens numbering.node =
      (tree.descendantElements numbering.node).filterMap Element.toToken? := by
  have met := children.filterMap_toToken? numbering.nextNode
  rw [stores.tokens_eq, descendantElements, stores.walk_eq placed]
  simp [List.filterMap_cons, WalkEvent.element?, Element.toToken?, met]

end SyntaxTree.Stores
end ScriptTree
