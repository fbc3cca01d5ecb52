import ScriptTree.Text.Quoted
import ScriptTree.Tree.Children

/-! # Showing trees

A node is shown by its kind and its span without the trivia around it, a token by its text besides.
The outline of a node has one line for each element below it, indented by depth. -/
set_option autoImplicit false
namespace ScriptTree.SyntaxTree

def inspectNode (tree : SyntaxTree) (node : NodeId) : String :=
  (tree.kind node).name ++ "@" ++ (tree.trimmedSpan node).inspect

def inspectToken (tree : SyntaxTree) (id : TokenId) : String :=
  (tree.token id).kind.name ++ "@" ++ (tree.token id).span.inspect ++ " " ++
    Text.quoted (tree.tokenTrimmedText id)

def inspectElement (tree : SyntaxTree) : Element → String
  | .node id => tree.inspectNode id
  | .token id => tree.inspectToken id

/-- An element with the word for its case. -/
def inspectTagged (tree : SyntaxTree) : Element → String
  | .node id => "Node(" ++ tree.inspectNode id ++ ")"
  | .token id => "Token(" ++ tree.inspectToken id ++ ")"

def inspectSlot (tree : SyntaxTree) (slot : Slot NodeId) : String := slot.inspect tree.inspectNode

def inspectList (tree : SyntaxTree) (list : ListId) : String :=
  let items := (tree.listEntry list).items.items.map fun item =>
    item.inspect tree.inspectSlot tree.inspectToken
  "[" ++ ", ".intercalate items ++ "]"

def inspect (tree : SyntaxTree) : String :=
  "SyntaxTree \x7b root: " ++ tree.inspectNode root ++ ", nodes: " ++ toString tree.nodes.size ++
    ", .. \x7d"

/-- A line of an outline: two spaces for each level. -/
def outlineLine (depth : Nat) (content : String) : String :=
  "".pushn ' ' (2 * depth) ++ content ++ "\n"

/-- The lines below and with a node; `budget` bounds the number of levels. -/
def outlineLines (tree : SyntaxTree) : Nat → Nat → NodeId → List String
  | 0, _, _ => []
  | budget + 1, depth, node =>
      outlineLine depth (tree.inspectNode node) ::
        (tree.children node).flatMap fun
          | .node id => tree.outlineLines budget (depth + 1) id
          | .token id => [outlineLine (depth + 1) (tree.inspectToken id)]
          | .list id =>
              outlineLine (depth + 1) "LIST" ::
                (tree.listEntry id).items.items.flatMap fun
                  | .element (.present element) => tree.outlineLines budget (depth + 2) element
                  | .element .absent => [outlineLine (depth + 2) "<elided>"]
                  | .separator token => [outlineLine (depth + 2) (tree.inspectToken token)]

def outline (tree : SyntaxTree) (node : NodeId) : String :=
  String.join (tree.outlineLines tree.nodes.size 0 node)

end ScriptTree.SyntaxTree
