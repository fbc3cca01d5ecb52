import ScriptTree.Tree.Outline
import ScriptTree.Typed.View

/-! # Reading typed nodes

The parts of a typed node are read by accessors. An accessor says where in the node a part stands and as
what it is seen; a part that is not there, or is of another kind, reads as absent. -/
set_option autoImplicit false
namespace ScriptTree

inductive Accessor where
  /-- The first direct child node that the view admits. -/
  | child (view : View)
  /-- The direct child node at an index, if the view admits it. -/
  | nthNode (index : Nat) (view : View)
  /-- The first child node that the view admits after the first token of a kind. -/
  | nodeAfter (kind : Kind) (view : View)
  /-- The first child node behind so many semicolons, before the closing parenthesis. -/
  | clause (semicolons : Nat) (view : View)
  /-- The direct child nodes that the view admits. -/
  | children (view : View)
  /-- The first list, with its elements seen through the view. -/
  | list (view : View)
  /-- The first direct child token of a kind. -/
  | token (kind : Kind)
  | tokenAmong (kinds : List Kind)
  | tokensAmong (kinds : List Kind)
  /-- The first direct child token. -/
  | operator
  /-- The first token the node covers. -/
  | firstToken
  | firstTokenIs (kind : Kind)
  | hasToken (kind : Kind)
  | isKind (kind : Kind)
  /-- The text without the trivia around it. -/
  | trimmedText
  | literalKind
  deriving DecidableEq, Repr, Inhabited

def Wrapper.accessors : Wrapper → List (String × Accessor)
  | .script => [
      ("statements", .children (.category .statement)), ("eof_token", .token .eof)]
  | .block => [
      ("statements", .children (.category .statement))]
  | .variableStatement => [
      ("declaration", .child (.wrapper .variableDeclaration))]
  | .variableDeclaration => [
      ("keyword", .tokenAmong [.varKw, .letKw, .constKw]),
      ("declarations", .list (.category .bindingElement))]
  | .emptyStatement => []
  | .expressionStatement => [
      ("expression", .child (.category .expression))]
  | .ifStatement => [
      ("condition", .nodeAfter .leftParen (.category .expression)),
      ("consequent", .nodeAfter .rightParen (.category .statement)),
      ("else_clause", .child (.wrapper .elseClause))]
  | .elseClause => [
      ("statement", .child (.category .statement))]
  | .doWhileStatement => [
      ("body", .child (.category .statement)),
      ("condition", .nodeAfter .leftParen (.category .expression))]
  | .whileStatement => [
      ("condition", .nodeAfter .leftParen (.category .expression)),
      ("body", .nodeAfter .rightParen (.category .statement))]
  | .forStatement => [
      ("initializer", .clause 0 (.category .forBinding)),
      ("test", .clause 1 (.category .expression)), ("update", .clause 2 (.category .expression)),
      ("body", .nodeAfter .rightParen (.category .statement))]
  | .forInStatement => [
      ("left", .nthNode 0 (.category .forBinding)),
      ("right", .nodeAfter .inKw (.category .expression)),
      ("body", .nodeAfter .rightParen (.category .statement))]
  | .forOfStatement => [
      ("is_await", .hasToken .awaitKw), ("left", .nthNode 0 (.category .forBinding)),
      ("right", .nodeAfter .ofKw (.category .expression)),
      ("body", .nodeAfter .rightParen (.category .statement))]
  | .continueStatement => [
      ("label", .child (.wrapper .label))]
  | .breakStatement => [
      ("label", .child (.wrapper .label))]
  | .returnStatement => [
      ("argument", .child (.category .expression))]
  | .withStatement => [
      ("object", .nodeAfter .leftParen (.category .expression)),
      ("body", .nodeAfter .rightParen (.category .statement))]
  | .switchStatement => [
      ("discriminant", .nodeAfter .leftParen (.category .expression)),
      ("clauses", .children (.category .switchClause))]
  | .caseClause => [
      ("test", .nthNode 0 (.category .expression)),
      ("consequent", .children (.category .statement))]
  | .defaultClause => [
      ("consequent", .children (.category .statement))]
  | .labelledStatement => [
      ("label", .child (.wrapper .label)), ("body", .child (.category .statement))]
  | .label => [
      ("name", .firstToken)]
  | .throwStatement => [
      ("argument", .child (.category .expression))]
  | .tryStatement => [
      ("block", .child (.wrapper .block)), ("handler", .child (.wrapper .catchClause)),
      ("finalizer", .child (.wrapper .finallyClause))]
  | .catchClause => [
      ("parameter", .child (.category .bindingTarget)), ("body", .child (.wrapper .block))]
  | .finallyClause => [
      ("body", .child (.wrapper .block))]
  | .debuggerStatement => []
  | .functionDeclaration => [
      ("is_async", .hasToken .asyncKw), ("is_generator", .isKind .generatorDeclaration),
      ("name", .child (.wrapper .bindingIdentifier)),
      ("parameters", .child (.wrapper .formalParameters)),
      ("body", .child (.wrapper .functionBody))]
  | .functionExpression => [
      ("is_async", .hasToken .asyncKw), ("is_generator", .isKind .generatorExpression),
      ("name", .child (.wrapper .bindingIdentifier)),
      ("parameters", .child (.wrapper .formalParameters)),
      ("body", .child (.wrapper .functionBody))]
  | .arrowFunction => [
      ("is_async", .hasToken .asyncKw), ("parameters", .nthNode 0 (.category .arrowParameters)),
      ("body", .nodeAfter .fatArrow (.category .arrowBody))]
  | .formalParameters => [
      ("items", .list (.category .parameter)), ("open_paren_token", .token .leftParen),
      ("close_paren_token", .token .rightParen)]
  | .functionBody => [
      ("statements", .children (.category .statement))]
  | .classDeclaration => [
      ("name", .child (.wrapper .bindingIdentifier)),
      ("extends", .child (.wrapper .extendsClause)), ("body", .child (.wrapper .classBody))]
  | .classExpression => [
      ("name", .child (.wrapper .bindingIdentifier)),
      ("extends", .child (.wrapper .extendsClause)), ("body", .child (.wrapper .classBody))]
  | .extendsClause => [
      ("superclass", .child (.category .expression))]
  | .classBody => [
      ("members", .children (.category .classMember))]
  | .method => [
      ("is_static", .hasToken .staticKw), ("is_async", .hasToken .asyncKw),
      ("is_generator", .isKind .generatorMethod), ("key", .child (.category .propertyKey)),
      ("parameters", .child (.wrapper .formalParameters)),
      ("body", .child (.wrapper .functionBody))]
  | .getter => [
      ("is_static", .hasToken .staticKw), ("key", .child (.category .propertyKey)),
      ("body", .child (.wrapper .functionBody))]
  | .setter => [
      ("is_static", .hasToken .staticKw), ("key", .child (.category .propertyKey)),
      ("parameters", .child (.wrapper .formalParameters)),
      ("body", .child (.wrapper .functionBody))]
  | .fieldDefinition => [
      ("is_static", .hasToken .staticKw), ("key", .child (.category .propertyKey)),
      ("initializer", .nodeAfter .eq (.category .expression)),
      ("semicolon_token", .token .semicolon)]
  | .bindingIdentifier => [
      ("name_token", .firstToken), ("name", .trimmedText)]
  | .arrayBindingPattern => [
      ("elements", .list (.category .arrayBindingElement)),
      ("open_bracket_token", .token .leftBracket), ("close_bracket_token", .token .rightBracket)]
  | .objectBindingPattern => [
      ("members", .list (.category .objectBindingMember)),
      ("open_brace_token", .token .leftBrace), ("close_brace_token", .token .rightBrace)]
  | .bindingProperty => [
      ("key", .nthNode 0 (.category .propertyKey)),
      ("value", .nodeAfter .colon (.category .bindingElement))]
  | .initializedBindingElement => [
      ("target", .nthNode 0 (.category .bindingTarget)),
      ("initializer", .nodeAfter .eq (.category .expression))]
  | .restElement => [
      ("target", .child (.category .bindingTarget))]
  | .identifierReference => [
      ("name", .trimmedText)]
  | .thisExpression => []
  | .superExpression => []
  | .literal => [
      ("token", .firstToken), ("kind", .literalKind)]
  | .templateLiteral => [

      ("quasis", .tokensAmong [.noSubstitutionTemplate, .templateHead, .templateMiddle, .templateTail]),
      ("substitutions", .children (.category .expression))]
  | .taggedTemplate => [
      ("tag", .nthNode 0 (.category .expression)),
      ("template", .nthNode 1 (.wrapper .templateLiteral))]
  | .arrayLiteral => [
      ("elements", .list (.category .arrayElement)), ("open_bracket_token", .token .leftBracket),
      ("close_bracket_token", .token .rightBracket)]
  | .spreadElement => [
      ("argument", .child (.category .expression))]
  | .objectLiteral => [
      ("members", .list (.category .property)), ("open_brace_token", .token .leftBrace),
      ("close_brace_token", .token .rightBrace)]
  | .propertyName => [
      ("token", .firstToken), ("is_private", .firstTokenIs .privateName)]
  | .computedPropertyName => [
      ("expression", .child (.category .expression))]
  | .pairProperty => [
      ("key", .nthNode 0 (.category .propertyKey)),
      ("value", .nodeAfter .colon (.category .expression))]
  | .shorthandProperty => [
      ("name", .child (.wrapper .identifierReference)),
      ("initializer", .nodeAfter .eq (.category .expression))]
  | .parenthesizedExpression => [
      ("expression", .child (.category .expression))]
  | .dotMemberExpression => [
      ("object", .nthNode 0 (.category .expression)), ("is_optional", .hasToken .questionDot),
      ("property", .nthNode 1 (.wrapper .propertyName))]
  | .bracketMemberExpression => [
      ("object", .nthNode 0 (.category .expression)), ("is_optional", .hasToken .questionDot),
      ("member", .nodeAfter .leftBracket (.category .expression))]
  | .callExpression => [
      ("callee", .nthNode 0 (.category .expression)), ("is_optional", .hasToken .questionDot),
      ("arguments", .child (.wrapper .arguments))]
  | .arguments => [
      ("items", .list (.category .arrayElement)), ("open_paren_token", .token .leftParen),
      ("close_paren_token", .token .rightParen)]
  | .newExpression => [
      ("callee", .child (.category .expression)), ("arguments", .child (.wrapper .arguments))]
  | .postfixExpression => [
      ("operand", .child (.category .expression)), ("operator", .operator)]
  | .unaryExpression => [
      ("operator", .operator), ("argument", .child (.category .expression))]
  | .awaitExpression => [
      ("argument", .child (.category .expression))]
  | .binaryExpression => [
      ("lhs", .nthNode 0 (.category .expression)), ("operator", .operator),
      ("rhs", .nthNode 1 (.category .expression))]
  | .conditionalExpression => [
      ("test", .nthNode 0 (.category .expression)),
      ("consequent", .nthNode 1 (.category .expression)),
      ("alternate", .nthNode 2 (.category .expression))]
  | .assignmentExpression => [
      ("target", .nthNode 0 (.category .expression)), ("operator", .operator),
      ("value", .nthNode 1 (.category .expression))]
  | .yieldExpression => [
      ("is_delegate", .hasToken .star), ("argument", .child (.category .expression))]
  | .sequenceExpression => [
      ("lhs", .nthNode 0 (.category .expression)), ("rhs", .nthNode 1 (.category .expression))]

/-! ## Readings -/

/-- A node with the cases of the categories it was seen through, outermost first. -/
structure TypedNode where
  cases : List String
  wrapper : Wrapper
  node : NodeId
  deriving DecidableEq, Repr, Inhabited

/-- What the token of a literal denotes. -/
inductive LiteralKind where
  | number | string | regex | boolean | null
  deriving DecidableEq, Repr

namespace LiteralKind

def ofKind? : Kind → Option LiteralKind
  | .number => some number
  | .string => some string
  | .regex => some regex
  | .trueKw | .falseKw => some boolean
  | .nullKw => some null
  | _ => none

def name : LiteralKind → String
  | number => "Number"
  | string => "String"
  | regex => "Regex"
  | boolean => "Boolean"
  | null => "Null"

end LiteralKind

structure TypedList where
  list : ListId
  view : View
  deriving DecidableEq, Repr

inductive Reading where
  | node (value : Option TypedNode)
  | nodes (values : List TypedNode)
  | list (value : Option TypedList)
  | token (value : Option TokenId)
  | tokens (values : List TokenId)
  | flag (value : Bool)
  | text (value : List Char)
  | literalKind (value : Option LiteralKind)
  deriving DecidableEq, Repr

namespace SyntaxTree

/-- A node seen through a view, if the view admits it. -/
def cast? (tree : SyntaxTree) (view : View) (node : NodeId) : Option TypedNode :=
  (view.cast? (tree.kind node)).map fun (cases, wrapper) => ⟨cases, wrapper, node⟩

def wrap? (tree : SyntaxTree) (node : NodeId) : Option TypedNode :=
  Wrapper.all.findSome? fun wrapper => tree.cast? (.wrapper wrapper) node

def directNodes (tree : SyntaxTree) (node : NodeId) : List NodeId :=
  (tree.children node).filterMap fun
    | .node id => some id
    | _ => none

/-- The direct child tokens, separators left out. -/
def directTokens (tree : SyntaxTree) (node : NodeId) : List TokenId :=
  (tree.children node).filterMap fun
    | .token id => some id
    | _ => none

def isTokenOf (tree : SyntaxTree) (kind : Kind) : Child → Bool
  | .token id => (tree.token id).kind == kind
  | _ => false

/-- The first child node that the view admits, from the first token of a kind on. -/
def nodeAfter? (tree : SyntaxTree) (kind : Kind) (view : View) (node : NodeId) : Option TypedNode :=
  ((tree.children node).dropWhile fun child => !tree.isTokenOf kind child).findSome? fun
    | .node id => tree.cast? view id
    | _ => none

def clauseNode? (tree : SyntaxTree) : Nat → List Child → Option NodeId
  | _, [] => none
  | semicolons, .token id :: rest =>
      if (tree.token id).kind = .rightParen then none
      else if (tree.token id).kind = .semicolon then
        match semicolons with
        | 0 => none
        | fewer + 1 => tree.clauseNode? fewer rest
      else tree.clauseNode? semicolons rest
  | semicolons, .node id :: rest => if semicolons = 0 then some id else tree.clauseNode? semicolons rest
  | semicolons, .list _ :: rest => tree.clauseNode? semicolons rest

def firstTokenKind? (tree : SyntaxTree) (node : NodeId) : Option Kind :=
  (tree.firstToken? node).map fun id => (tree.token id).kind

def read (tree : SyntaxTree) (node : NodeId) : Accessor → Reading
  | .child view => .node ((tree.directNodes node).findSome? (tree.cast? view))
  | .nthNode index view => .node ((tree.directNodes node)[index]?.bind (tree.cast? view))
  | .nodeAfter kind view => .node (tree.nodeAfter? kind view node)
  | .clause semicolons view =>
      .node ((tree.clauseNode? semicolons (tree.children node)).bind (tree.cast? view))
  | .children view => .nodes ((tree.directNodes node).filterMap (tree.cast? view))
  | .list view => .list ((tree.childLists node).head?.map fun list => ⟨list, view⟩)
  | .token kind => .token ((tree.directTokens node).find? fun id => (tree.token id).kind == kind)
  | .tokenAmong kinds =>
      .token ((tree.directTokens node).find? fun id => kinds.contains (tree.token id).kind)
  | .tokensAmong kinds =>
      .tokens ((tree.directTokens node).filter fun id => kinds.contains (tree.token id).kind)
  | .operator => .token (tree.directTokens node).head?
  | .firstToken => .token (tree.firstToken? node)
  | .firstTokenIs kind => .flag (tree.firstTokenKind? node == some kind)
  | .hasToken kind => .flag ((tree.directTokens node).any fun id => (tree.token id).kind == kind)
  | .isKind kind => .flag (tree.kind node == kind)
  | .trimmedText => .text (tree.trimmedText node)
  | .literalKind => .literalKind ((tree.firstTokenKind? node).bind LiteralKind.ofKind?)

def readings (tree : SyntaxTree) (typed : TypedNode) : List (String × Reading) :=
  typed.wrapper.accessors.map fun (name, accessor) => (name, tree.read typed.node accessor)

/-! ## Typed lists -/

/-- The elements of a typed list; a hole, or an element of a foreign kind, is absent. -/
def typedElements (tree : SyntaxTree) (typed : TypedList) : List (Slot TypedNode) :=
  (tree.listEntry typed.list).items.elements.toList.map fun slot =>
    slot.andThen (tree.cast? typed.view)

def typedPresent (tree : SyntaxTree) (typed : TypedList) : List TypedNode :=
  (tree.listEntry typed.list).items.elements.toList.filterMap fun slot =>
    slot.toOption.bind (tree.cast? typed.view)

/-! ## Showing typed nodes -/

def inspectTyped (tree : SyntaxTree) (typed : TypedNode) : String :=
  typed.cases.foldr (fun name inner => name ++ "(" ++ inner ++ ")")
    (typed.wrapper.name ++ "(" ++ tree.inspectNode typed.node ++ ")")

def inspectOption {α : Type} (inspect : α → String) : Option α → String
  | some value => "Some(" ++ inspect value ++ ")"
  | none => "None"

end SyntaxTree
end ScriptTree
