import ScriptTree.SeparatedList
import ScriptTree.Slot
import ScriptTree.Token.Stream

/-! # Syntax trees

A tree is a table of nodes over a token stream. Nodes are numbered in preorder, the root is number
zero, and tokens keep their index in the stream. The children of all nodes stand in one table, of which
each node has a stretch; separated lists have a table of their own. -/
set_option autoImplicit false
namespace ScriptTree

abbrev NodeId := Nat
abbrev ListId := Nat
abbrev TokenId := Nat

inductive Child where
  | token (id : TokenId)
  | node (id : NodeId)
  | list (id : ListId)
  deriving DecidableEq, Repr, Inhabited

/-- A node has the entries of the table of children from `firstChild` up to `endChild`, and it covers the
tokens from `firstToken` up to `endToken`. -/
structure NodeEntry where
  kind : Kind
  parent : Option NodeId
  firstChild : Nat
  endChild : Nat
  firstToken : TokenId
  endToken : TokenId
  deriving DecidableEq, Repr, Inhabited

/-- A separated list and the node that owns it. -/
structure ListEntry where
  parent : NodeId
  items : SeparatedList (Slot NodeId) TokenId
  deriving DecidableEq, Inhabited

/-- The tree covers the tokens from `firstToken` up to `endToken`; for each of them `tokenParents` holds
the node it stands in. -/
structure SyntaxTree where
  stream : TokenStream
  nodes : Array NodeEntry
  childTable : Array Child
  lists : Array ListEntry
  tokenParents : Array NodeId
  firstToken : TokenId
  endToken : TokenId
  deriving DecidableEq, Inhabited

/-- A child of a node once its lists are flattened. -/
inductive Element where
  | node (id : NodeId)
  | token (id : TokenId)
  deriving DecidableEq, Repr, Inhabited

/-- There is no token before the first one of the stream. -/
structure NoPreviousToken where
  deriving DecidableEq, Repr

def NoPreviousToken.message (_ : NoPreviousToken) : String := "attempt to subtract with overflow"

namespace Element

def toNode? : Element → Option NodeId
  | node id => some id
  | token _ => none

def toToken? : Element → Option TokenId
  | node _ => none
  | token id => some id

end Element

namespace SyntaxTree

def root : NodeId := 0

def entry (tree : SyntaxTree) (node : NodeId) : NodeEntry := tree.nodes.getD node default

def listEntry (tree : SyntaxTree) (list : ListId) : ListEntry := tree.lists.getD list default

def token (tree : SyntaxTree) (id : TokenId) : Token := tree.stream.tokens.getD id default

def missingToken? (tree : SyntaxTree) : Option TokenId :=
  if tree.endToken ≤ tree.firstToken ∨ tree.endToken ≤ tree.stream.size then none
  else if tree.stream.size ≤ tree.firstToken then some tree.firstToken
  else some (tree.endToken - 1)

/-! ## Nodes -/

def kind (tree : SyntaxTree) (node : NodeId) : Kind := (tree.entry node).kind

def parent? (tree : SyntaxTree) (node : NodeId) : Option NodeId := (tree.entry node).parent

/-- A node, its parent and so on up to the root, at most `budget` of them. -/
def ancestorsWithin (tree : SyntaxTree) : Nat → NodeId → List NodeId
  | 0, _ => []
  | budget + 1, node =>
      node :: match tree.parent? node with
        | some parent => tree.ancestorsWithin budget parent
        | none => []

def ancestors (tree : SyntaxTree) (node : NodeId) : List NodeId :=
  tree.ancestorsWithin tree.nodes.size node

def tokens (tree : SyntaxTree) (node : NodeId) : List TokenId :=
  List.range' (tree.entry node).firstToken
    ((tree.entry node).endToken - (tree.entry node).firstToken)

def firstToken? (tree : SyntaxTree) (node : NodeId) : Option TokenId :=
  if (tree.entry node).firstToken < (tree.entry node).endToken then
    some (tree.entry node).firstToken
  else none

/-- The token before the end of a node, if the node covers any. A node that ends at the start of the
stream has no token before its end to look at. -/
def lastToken (tree : SyntaxTree) (node : NodeId) : Except NoPreviousToken (Option TokenId) :=
  if (tree.entry node).endToken = 0 then .error {}
  else if (tree.entry node).firstToken < (tree.entry node).endToken then
    .ok (some ((tree.entry node).endToken - 1))
  else .ok none

/-- The span of a run of tokens with their trivia. An empty run lies where the next token starts. -/
def tokensSpan (tree : SyntaxTree) (first stop : TokenId) : Span :=
  if first = stop then
    .emptyAt (match tree.stream.tokens[first]? with
      | some next => next.fullSpan.start
      | none => Text.byteLength tree.stream.text)
  else ⟨(tree.token first).fullSpan.start, (tree.token (stop - 1)).fullSpan.stop⟩

/-- The span of a run of tokens without the trivia at its ends. -/
def tokensTrimmedSpan (tree : SyntaxTree) (first stop : TokenId) : Span :=
  if first = stop then tree.tokensSpan first stop
  else ⟨(tree.token first).span.start, (tree.token (stop - 1)).span.stop⟩

def span (tree : SyntaxTree) (node : NodeId) : Span :=
  tree.tokensSpan (tree.entry node).firstToken (tree.entry node).endToken

def trimmedSpan (tree : SyntaxTree) (node : NodeId) : Span :=
  tree.tokensTrimmedSpan (tree.entry node).firstToken (tree.entry node).endToken

def text (tree : SyntaxTree) (node : NodeId) : List Char := (tree.span node).sliceOf tree.stream.text

def trimmedText (tree : SyntaxTree) (node : NodeId) : List Char :=
  (tree.trimmedSpan node).sliceOf tree.stream.text

/-! ## Tokens -/

def tokenText (tree : SyntaxTree) (id : TokenId) : List Char :=
  (tree.token id).fullSpan.sliceOf tree.stream.text

def tokenTrimmedText (tree : SyntaxTree) (id : TokenId) : List Char :=
  (tree.token id).span.sliceOf tree.stream.text

def previousToken? (tree : SyntaxTree) (id : TokenId) : Option TokenId :=
  if 0 < id ∧ tree.firstToken ≤ id - 1 then some (id - 1) else none

def nextToken? (tree : SyntaxTree) (id : TokenId) : Option TokenId :=
  if id + 1 < tree.endToken then some (id + 1) else none

/-- The node that has the token as a child or as a separator of one of its lists. -/
def tokenParent (tree : SyntaxTree) (id : TokenId) : NodeId :=
  if tree.firstToken ≤ id then tree.tokenParents.getD (id - tree.firstToken) root else root

/-! ## Children -/

def children (tree : SyntaxTree) (node : NodeId) : List Child :=
  (tree.childTable.extract (tree.entry node).firstChild (tree.entry node).endChild).toList

def childLists (tree : SyntaxTree) (node : NodeId) : List ListId :=
  (tree.children node).filterMap fun
    | .list id => some id
    | _ => none

/-! ## Elements -/

def elementKind (tree : SyntaxTree) : Element → Kind
  | .node id => tree.kind id
  | .token id => (tree.token id).kind

def elementSpan (tree : SyntaxTree) : Element → Span
  | .node id => tree.span id
  | .token id => (tree.token id).fullSpan

def elementParent? (tree : SyntaxTree) : Element → Option NodeId
  | .node id => tree.parent? id
  | .token id => some (tree.tokenParent id)

def elementText (tree : SyntaxTree) : Element → List Char
  | .node id => tree.text id
  | .token id => tree.tokenText id

end SyntaxTree
end ScriptTree
