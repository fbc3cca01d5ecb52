import ScriptTree.Tree.Outline

/-! # Walking a tree

A walk enters a node, goes through its children and leaves it. While it is under way the rest of the
node entered last can be skipped; it is left all the same. -/
set_option autoImplicit false
namespace ScriptTree

inductive WalkEvent where
  | enter (node : NodeId)
  | leave (node : NodeId)
  | token (id : TokenId)
  deriving DecidableEq, Repr

namespace WalkEvent

def isToken : WalkEvent → Bool
  | token _ => true
  | _ => false

def entered? : WalkEvent → Option NodeId
  | enter node => some node
  | _ => none

def element? : WalkEvent → Option Element
  | enter node => some (.node node)
  | token id => some (.token id)
  | leave _ => none

def inspect (tree : SyntaxTree) : WalkEvent → String
  | enter node => "EnterNode(" ++ tree.inspectNode node ++ ")"
  | leave node => "LeaveNode(" ++ tree.inspectNode node ++ ")"
  | token id => "Token(" ++ tree.inspectToken id ++ ")"

def inspectNodeEvent (tree : SyntaxTree) : WalkEvent → String
  | enter node => "Enter(" ++ tree.inspectNode node ++ ")"
  | leave node => "Leave(" ++ tree.inspectNode node ++ ")"
  | token id => "Token(" ++ tree.inspectToken id ++ ")"

end WalkEvent

/-- A walk under way: the nodes that were entered and not left, innermost first, each with the place
among its children, and the node to enter first. -/
structure Walk where
  stack : List (NodeId × ElementCursor)
  pending : Option NodeId
  deriving DecidableEq, Repr

namespace Walk

def start (node : NodeId) : Walk := ⟨[], some node⟩

def enter (walk : Walk) (tree : SyntaxTree) (node : NodeId) : Walk :=
  { walk with stack := (node, tree.elementCursor node) :: walk.stack }

def next (walk : Walk) (tree : SyntaxTree) : Option (WalkEvent × Walk) :=
  match walk.stack with
  | [] =>
      match walk.pending with
      | none => none
      | some node => some (.enter node, ({ walk with pending := none } : Walk).enter tree node)
  | (node, cursor) :: outer =>
      match cursor.next tree with
      | some (.node child, rest) =>
          some (.enter child, ({ walk with stack := (node, rest) :: outer } : Walk).enter tree child)
      | some (.token id, rest) => some (.token id, { walk with stack := (node, rest) :: outer })
      | none => some (.leave node, { walk with stack := outer })

/-- Leaves out what is left of the node entered last. -/
def skipSubtree (walk : Walk) : Walk :=
  match walk.stack with
  | (node, _) :: outer => { walk with stack := (node, .done) :: outer }
  | [] => walk

def innermost (walk : Walk) (tree : SyntaxTree) : List Element :=
  match walk.stack with
  | (_, cursor) :: _ => cursor.rest tree
  | [] => []

theorem innermost_eq_cons {walk after : Walk} {tree : SyntaxTree} {id : TokenId}
    (met : walk.next tree = some (.token id, after)) :
    walk.innermost tree = .token id :: after.innermost tree := by
  unfold next at met
  split at met
  · split at met <;> cases met
  · rename_i node cursor outer stack
    split at met
    · cases met
    · rename_i rest given
      cases met
      simp only [innermost, stack, ElementCursor.rest_eq_cons given]
    · cases met

/-- The next event of a walk over nodes alone, which goes past the tokens. -/
def nextNode (walk : Walk) (tree : SyntaxTree) : Option (WalkEvent × Walk) :=
  match _met : walk.next tree with
  | none => none
  | some (.token _, after) => after.nextNode tree
  | some (event, after) => some (event, after)
termination_by (walk.innermost tree).length
decreasing_by simp [innermost_eq_cons _met]

/-- The events of a walk that skips the nodes it enters when `skips` holds of them; `budget` bounds
their number. -/
def eventsWithin (tree : SyntaxTree) (skips : NodeId → Bool) : Nat → Walk → List WalkEvent
  | 0, _ => []
  | budget + 1, walk =>
      match walk.next tree with
      | none => []
      | some (event, after) =>
          let skipped := match event with
            | .enter node => skips node
            | _ => false
          event :: eventsWithin tree skips budget (if skipped then after.skipSubtree else after)

end Walk

namespace SyntaxTree

/-- The walk below and with a node. Each node has two events and each token one. -/
def walkSkipping (tree : SyntaxTree) (skips : NodeId → Bool) (node : NodeId) : List WalkEvent :=
  Walk.eventsWithin tree skips (2 * tree.nodes.size + tree.tokenParents.size) (Walk.start node)

def walk (tree : SyntaxTree) (node : NodeId) : List WalkEvent :=
  tree.walkSkipping (fun _ => false) node

def descendants (tree : SyntaxTree) (node : NodeId) : List NodeId :=
  (tree.walk node).filterMap WalkEvent.entered?

def descendantElements (tree : SyntaxTree) (node : NodeId) : List Element :=
  (tree.walk node).filterMap WalkEvent.element?

end SyntaxTree
end ScriptTree
