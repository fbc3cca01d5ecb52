import ScriptTree.Tree.Basic

/-! # Building trees

A tree is built by opening and closing nodes and lists and by adding tokens in stream order. What is open
keeps its children to itself; they go to the table of children when it is closed. A step that does not fit
is refused with its cause. -/
set_option autoImplicit false
namespace ScriptTree

inductive BuildStep where
  | startNode (kind : Kind)
  | finishNode
  | token (index : TokenId)
  | startList
  | elision
  | finishList
  deriving DecidableEq, Repr

inductive BuildFault where
  | secondRoot
  | noOpenNode
  | listOutsideNode
  | listInsideList
  | elisionOutsideList
  | noOpenList
  | tokenOutOfOrder
  | tokenOutsideNode
  | misplacedItem (fault : ListFault)
  | outOfBounds (size index : Nat)
  | lastToken
  | unfinished
  | emptyTree
  | dropped
  deriving DecidableEq, Repr

def BuildFault.message : BuildFault → String
  | .secondRoot => "a tree has exactly one root"
  | .noOpenNode => "expected an opened node"
  | .listOutsideNode => "a list needs an enclosing node"
  | .listInsideList => "lists can only be direct children of nodes"
  | .elisionOutsideList => "elision outside of a list"
  | .noOpenList => "expected an opened list"
  | .tokenOutOfOrder => "assertion `left == right` failed: tokens must be added in order"
  | .tokenOutsideNode => "a token needs an enclosing node"
  | .misplacedItem fault => fault.message
  | .outOfBounds size index =>
      "index out of bounds: the len is " ++ toString size ++ " but the index is " ++ toString index
  | .lastToken => "attempt to add with overflow"
  | .unfinished => "unfinished nodes"
  | .emptyTree => "empty tree"
  | .dropped => "you should call `Builder::finish()`"

/-- A node or list that is not closed yet, with what it holds so far. -/
inductive Opened where
  | node (id : NodeId) (children : Array Child)
  | list (id : ListId) (items : SeparatedListBuilder (Slot NodeId) TokenId)
  deriving DecidableEq

structure Builder where
  nodes : Array NodeEntry
  childTable : Array Child
  lists : Array ListEntry
  tokenParents : Array NodeId
  opened : List Opened
  firstToken : TokenId
  nextToken : TokenId

namespace Builder

def startingAt (start : TokenId) : Builder := ⟨#[], #[], #[], #[], [], start, start⟩

def openNode? (builder : Builder) : Option NodeId :=
  builder.opened.findSome? fun
    | .node id _ => some id
    | .list _ _ => none

def attachNode (id : NodeId) : List Opened → Except BuildFault (List Opened)
  | .node parent children :: outer => .ok (.node parent (children.push (.node id)) :: outer)
  | .list list items :: outer =>
      match items.pushElement (.present id) with
      | .ok items => .ok (.list list items :: outer)
      | .error fault => .error (.misplacedItem fault)
  | [] => .ok []

/-- Adds a token to what is open: as a child of a node, as a separator of a list. -/
def attachToken (index : TokenId) : List Opened → Except BuildFault (List Opened)
  | .node node children :: outer => .ok (.node node (children.push (.token index)) :: outer)
  | .list list items :: outer =>
      match items.pushSeparator index with
      | .ok items => .ok (.list list items :: outer)
      | .error fault => .error (.misplacedItem fault)
  | [] => .error .tokenOutsideNode

/-! ## Steps

Indices are stored by `store`: as they are, or cut to a number of bits. -/

section Steps

variable (store : Nat → Nat) (builder : Builder)

def startNode (kind : Kind) : Except BuildFault Builder :=
  let id := store builder.nodes.size
  let parent := builder.openNode?
  if parent.isNone && !builder.nodes.isEmpty then .error .secondRoot
  else
    match attachNode id builder.opened with
    | .error fault => .error fault
    | .ok opened =>
        .ok { builder with
          nodes := builder.nodes.push ⟨kind, parent, 0, 0, builder.nextToken, builder.nextToken⟩
          opened := .node id #[] :: opened }

def finishNode : Except BuildFault Builder :=
  match builder.opened with
  | .node id children :: outer =>
      let childTable := builder.childTable ++ children
      if id < builder.nodes.size then
        .ok { builder with
          nodes := builder.nodes.modify id fun entry =>
            { entry with
              firstChild := store builder.childTable.size
              endChild := store childTable.size
              endToken := builder.nextToken }
          childTable := childTable
          opened := outer }
      else .error (.outOfBounds builder.nodes.size id)
  | _ => .error .noOpenNode

def startList : Except BuildFault Builder :=
  match builder.openNode? with
  | none => .error .listOutsideNode
  | some parent =>
      match builder.opened with
      | .node node children :: outer =>
          let id := store builder.lists.size
          .ok { builder with
            lists := builder.lists.push ⟨parent, .empty⟩
            opened := .list id .empty :: .node node (children.push (.list id)) :: outer }
      | _ => .error .listInsideList

def elision : Except BuildFault Builder :=
  match builder.opened with
  | .list id items :: outer =>
      match items.pushElement .absent with
      | .ok items => .ok { builder with opened := .list id items :: outer }
      | .error fault => .error (.misplacedItem fault)
  | _ => .error .elisionOutsideList

def finishList : Except BuildFault Builder :=
  match builder.opened with
  | .list id items :: outer =>
      if id < builder.lists.size then
        .ok { builder with
          lists := builder.lists.modify id fun entry => { entry with items := items.finish }
          opened := outer }
      else .error (.outOfBounds builder.lists.size id)
  | _ => .error .noOpenList

def token (index : TokenId) : Except BuildFault Builder :=
  let index := store index
  if index ≠ builder.nextToken then .error .tokenOutOfOrder
  else
    match builder.openNode? with
    | none => .error .tokenOutsideNode
    | some parent =>
        match attachToken index builder.opened with
        | .error fault => .error fault
        | .ok opened =>
            if store (index + 1) ≠ index + 1 then .error .lastToken
            else
              .ok { builder with
                tokenParents := builder.tokenParents.push parent
                opened := opened
                nextToken := index + 1 }

def stepBy : BuildStep → Except BuildFault Builder
  | .startNode kind => builder.startNode store kind
  | .finishNode => builder.finishNode store
  | .token index => builder.token store index
  | .startList => builder.startList store
  | .elision => builder.elision
  | .finishList => builder.finishList

def runBy (builder : Builder) : List BuildStep → Except BuildFault Builder
  | [] => .ok builder
  | first :: rest =>
      match builder.stepBy store first with
      | .ok next => next.runBy rest
      | .error fault => .error fault

end Steps

/-- A step that stores indices as they are. -/
def step (builder : Builder) : BuildStep → Except BuildFault Builder := builder.stepBy id

def run (builder : Builder) : List BuildStep → Except BuildFault Builder := builder.runBy id

@[simp] theorem run_nil (builder : Builder) : builder.run [] = .ok builder := rfl

theorem run_cons (builder : Builder) (first : BuildStep) (rest : List BuildStep) :
    builder.run (first :: rest) =
      match builder.step first with
      | .ok next => next.run rest
      | .error fault => .error fault := rfl

/-- The finished tree. Everything has to be closed, and there has to be a root. -/
def finish (builder : Builder) (stream : TokenStream) : Except BuildFault SyntaxTree :=
  if !builder.opened.isEmpty then .error .unfinished
  else if builder.nodes.isEmpty then .error .emptyTree
  else .ok ⟨stream, builder.nodes, builder.childTable, builder.lists, builder.tokenParents,
    builder.firstToken, builder.nextToken⟩

/-- A construction may be given up only while nothing is open. -/
def drop (builder : Builder) : Except BuildFault Unit :=
  if builder.opened.isEmpty then .ok () else .error .dropped

end Builder

/-- The tree that a sequence of steps builds over a stream from a token on. -/
def SyntaxTree.ofSteps (stream : TokenStream) (start : TokenId) (steps : List BuildStep) :
    Except BuildFault SyntaxTree :=
  match (Builder.startingAt start).run steps with
  | .ok builder => builder.finish stream
  | .error fault => .error fault

end ScriptTree
