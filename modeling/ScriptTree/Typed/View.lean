import ScriptTree.Kind

/-! # Typed nodes

Each node kind belongs to one wrapper; two kinds that differ in a modifier alone share one. A category
gathers the wrappers, or other categories, that can stand in one place of the grammar, each as a case
with a name of its own. -/
set_option autoImplicit false
namespace ScriptTree

inductive Wrapper where
  | script | block | variableStatement | variableDeclaration | emptyStatement
  | expressionStatement | ifStatement | elseClause | doWhileStatement | whileStatement
  | forStatement | forInStatement | forOfStatement | continueStatement | breakStatement
  | returnStatement | withStatement | switchStatement | caseClause | defaultClause
  | labelledStatement | label | throwStatement | tryStatement | catchClause | finallyClause
  | debuggerStatement | functionDeclaration | functionExpression | arrowFunction
  | formalParameters | functionBody | classDeclaration | classExpression | extendsClause
  | classBody | method | getter | setter | fieldDefinition | bindingIdentifier
  | arrayBindingPattern | objectBindingPattern | bindingProperty | initializedBindingElement
  | restElement | identifierReference | thisExpression | superExpression | literal
  | templateLiteral | taggedTemplate | arrayLiteral | spreadElement | objectLiteral | propertyName
  | computedPropertyName | pairProperty | shorthandProperty | parenthesizedExpression
  | dotMemberExpression | bracketMemberExpression | callExpression | arguments | newExpression
  | postfixExpression | unaryExpression | awaitExpression | binaryExpression
  | conditionalExpression | assignmentExpression | yieldExpression | sequenceExpression
  deriving DecidableEq, Repr, Inhabited

inductive Category where
  | statement | expression | forBinding | switchClause | arrowParameters | arrowBody | parameter
  | classMember | bindingTarget | bindingElement | arrayBindingElement | objectBindingMember
  | arrayElement | property | propertyKey
  deriving DecidableEq, Repr, Inhabited

/-- What a node can be seen as. -/
inductive View where
  | wrapper (wrapper : Wrapper)
  | category (category : Category)
  deriving DecidableEq, Repr, Inhabited

namespace Wrapper

def all : List Wrapper := [
  .script, .block, .variableStatement, .variableDeclaration, .emptyStatement,
  .expressionStatement, .ifStatement, .elseClause, .doWhileStatement, .whileStatement,
  .forStatement, .forInStatement, .forOfStatement, .continueStatement, .breakStatement,
  .returnStatement, .withStatement, .switchStatement, .caseClause, .defaultClause,
  .labelledStatement, .label, .throwStatement, .tryStatement, .catchClause, .finallyClause,
  .debuggerStatement, .functionDeclaration, .functionExpression, .arrowFunction,
  .formalParameters, .functionBody, .classDeclaration, .classExpression, .extendsClause,
  .classBody, .method, .getter, .setter, .fieldDefinition, .bindingIdentifier,
  .arrayBindingPattern, .objectBindingPattern, .bindingProperty, .initializedBindingElement,
  .restElement, .identifierReference, .thisExpression, .superExpression, .literal,
  .templateLiteral, .taggedTemplate, .arrayLiteral, .spreadElement, .objectLiteral, .propertyName,
  .computedPropertyName, .pairProperty, .shorthandProperty, .parenthesizedExpression,
  .dotMemberExpression, .bracketMemberExpression, .callExpression, .arguments, .newExpression,
  .postfixExpression, .unaryExpression, .awaitExpression, .binaryExpression,
  .conditionalExpression, .assignmentExpression, .yieldExpression, .sequenceExpression]

def name : Wrapper → String
  | .script => "Script"
  | .block => "Block"
  | .variableStatement => "VariableStatement"
  | .variableDeclaration => "VariableDeclaration"
  | .emptyStatement => "EmptyStatement"
  | .expressionStatement => "ExpressionStatement"
  | .ifStatement => "IfStatement"
  | .elseClause => "ElseClause"
  | .doWhileStatement => "DoWhileStatement"
  | .whileStatement => "WhileStatement"
  | .forStatement => "ForStatement"
  | .forInStatement => "ForInStatement"
  | .forOfStatement => "ForOfStatement"
  | .continueStatement => "ContinueStatement"
  | .breakStatement => "BreakStatement"
  | .returnStatement => "ReturnStatement"
  | .withStatement => "WithStatement"
  | .switchStatement => "SwitchStatement"
  | .caseClause => "CaseClause"
  | .defaultClause => "DefaultClause"
  | .labelledStatement => "LabelledStatement"
  | .label => "Label"
  | .throwStatement => "ThrowStatement"
  | .tryStatement => "TryStatement"
  | .catchClause => "CatchClause"
  | .finallyClause => "FinallyClause"
  | .debuggerStatement => "DebuggerStatement"
  | .functionDeclaration => "FunctionDeclaration"
  | .functionExpression => "FunctionExpression"
  | .arrowFunction => "ArrowFunction"
  | .formalParameters => "FormalParameters"
  | .functionBody => "FunctionBody"
  | .classDeclaration => "ClassDeclaration"
  | .classExpression => "ClassExpression"
  | .extendsClause => "ExtendsClause"
  | .classBody => "ClassBody"
  | .method => "Method"
  | .getter => "Getter"
  | .setter => "Setter"
  | .fieldDefinition => "FieldDefinition"
  | .bindingIdentifier => "BindingIdentifier"
  | .arrayBindingPattern => "ArrayBindingPattern"
  | .objectBindingPattern => "ObjectBindingPattern"
  | .bindingProperty => "BindingProperty"
  | .initializedBindingElement => "InitializedBindingElement"
  | .restElement => "RestElement"
  | .identifierReference => "IdentifierReference"
  | .thisExpression => "ThisExpression"
  | .superExpression => "SuperExpression"
  | .literal => "Literal"
  | .templateLiteral => "TemplateLiteral"
  | .taggedTemplate => "TaggedTemplate"
  | .arrayLiteral => "ArrayLiteral"
  | .spreadElement => "SpreadElement"
  | .objectLiteral => "ObjectLiteral"
  | .propertyName => "PropertyName"
  | .computedPropertyName => "ComputedPropertyName"
  | .pairProperty => "PairProperty"
  | .shorthandProperty => "ShorthandProperty"
  | .parenthesizedExpression => "ParenthesizedExpression"
  | .dotMemberExpression => "DotMemberExpression"
  | .bracketMemberExpression => "BracketMemberExpression"
  | .callExpression => "CallExpression"
  | .arguments => "Arguments"
  | .newExpression => "NewExpression"
  | .postfixExpression => "PostfixExpression"
  | .unaryExpression => "UnaryExpression"
  | .awaitExpression => "AwaitExpression"
  | .binaryExpression => "BinaryExpression"
  | .conditionalExpression => "ConditionalExpression"
  | .assignmentExpression => "AssignmentExpression"
  | .yieldExpression => "YieldExpression"
  | .sequenceExpression => "SequenceExpression"

def kinds : Wrapper → List Kind
  | .script => [.script]
  | .block => [.block]
  | .variableStatement => [.variableStatement]
  | .variableDeclaration => [.variableDeclaration]
  | .emptyStatement => [.emptyStatement]
  | .expressionStatement => [.expressionStatement]
  | .ifStatement => [.ifStatement]
  | .elseClause => [.elseClause]
  | .doWhileStatement => [.doWhileStatement]
  | .whileStatement => [.whileStatement]
  | .forStatement => [.forStatement]
  | .forInStatement => [.forInStatement]
  | .forOfStatement => [.forOfStatement]
  | .continueStatement => [.continueStatement]
  | .breakStatement => [.breakStatement]
  | .returnStatement => [.returnStatement]
  | .withStatement => [.withStatement]
  | .switchStatement => [.switchStatement]
  | .caseClause => [.caseClause]
  | .defaultClause => [.defaultClause]
  | .labelledStatement => [.labelledStatement]
  | .label => [.label]
  | .throwStatement => [.throwStatement]
  | .tryStatement => [.tryStatement]
  | .catchClause => [.catchClause]
  | .finallyClause => [.finallyClause]
  | .debuggerStatement => [.debuggerStatement]
  | .functionDeclaration => [.functionDeclaration, .generatorDeclaration]
  | .functionExpression => [.functionExpression, .generatorExpression]
  | .arrowFunction => [.arrowFunction]
  | .formalParameters => [.formalParameters]
  | .functionBody => [.functionBody]
  | .classDeclaration => [.classDeclaration]
  | .classExpression => [.classExpression]
  | .extendsClause => [.extendsClause]
  | .classBody => [.classBody]
  | .method => [.method, .generatorMethod]
  | .getter => [.getter]
  | .setter => [.setter]
  | .fieldDefinition => [.fieldDefinition]
  | .bindingIdentifier => [.bindingIdentifier]
  | .arrayBindingPattern => [.arrayBindingPattern]
  | .objectBindingPattern => [.objectBindingPattern]
  | .bindingProperty => [.bindingProperty]
  | .initializedBindingElement => [.initializedBindingElement]
  | .restElement => [.restElement]
  | .identifierReference => [.identifierReference]
  | .thisExpression => [.thisExpression]
  | .superExpression => [.superExpression]
  | .literal => [.literal]
  | .templateLiteral => [.templateLiteral]
  | .taggedTemplate => [.taggedTemplate]
  | .arrayLiteral => [.arrayLiteral]
  | .spreadElement => [.spreadElement]
  | .objectLiteral => [.objectLiteral]
  | .propertyName => [.propertyName]
  | .computedPropertyName => [.computedPropertyName]
  | .pairProperty => [.pairProperty]
  | .shorthandProperty => [.shorthandProperty]
  | .parenthesizedExpression => [.parenthesizedExpression]
  | .dotMemberExpression => [.dotMemberExpression]
  | .bracketMemberExpression => [.bracketMemberExpression]
  | .callExpression => [.callExpression]
  | .arguments => [.arguments]
  | .newExpression => [.newExpression]
  | .postfixExpression => [.postfixExpression]
  | .unaryExpression => [.unaryExpression]
  | .awaitExpression => [.awaitExpression]
  | .binaryExpression => [.binaryExpression]
  | .conditionalExpression => [.conditionalExpression]
  | .assignmentExpression => [.assignmentExpression]
  | .yieldExpression => [.yieldExpression]
  | .sequenceExpression => [.sequenceExpression]

end Wrapper

namespace Category

def all : List Category := [
  .statement, .expression, .forBinding, .switchClause, .arrowParameters, .arrowBody, .parameter,
  .classMember, .bindingTarget, .bindingElement, .arrayBindingElement, .objectBindingMember,
  .arrayElement, .property, .propertyKey]

def name : Category → String
  | .statement => "Statement"
  | .expression => "Expression"
  | .forBinding => "ForBinding"
  | .switchClause => "SwitchClause"
  | .arrowParameters => "ArrowParameters"
  | .arrowBody => "ArrowBody"
  | .parameter => "Parameter"
  | .classMember => "ClassMember"
  | .bindingTarget => "BindingTarget"
  | .bindingElement => "BindingElement"
  | .arrayBindingElement => "ArrayBindingElement"
  | .objectBindingMember => "ObjectBindingMember"
  | .arrayElement => "ArrayElement"
  | .property => "Property"
  | .propertyKey => "PropertyKey"

/-- The cases of a category, in the order in which they are tried. -/
def cases : Category → List (String × View)
  | .statement => [
      ("Block", .wrapper .block), ("Variable", .wrapper .variableStatement),
      ("Empty", .wrapper .emptyStatement), ("Expression", .wrapper .expressionStatement),
      ("If", .wrapper .ifStatement), ("DoWhile", .wrapper .doWhileStatement),
      ("While", .wrapper .whileStatement), ("For", .wrapper .forStatement),
      ("ForIn", .wrapper .forInStatement), ("ForOf", .wrapper .forOfStatement),
      ("Continue", .wrapper .continueStatement), ("Break", .wrapper .breakStatement),
      ("Return", .wrapper .returnStatement), ("With", .wrapper .withStatement),
      ("Switch", .wrapper .switchStatement), ("Labelled", .wrapper .labelledStatement),
      ("Throw", .wrapper .throwStatement), ("Try", .wrapper .tryStatement),
      ("Debugger", .wrapper .debuggerStatement), ("Function", .wrapper .functionDeclaration),
      ("Class", .wrapper .classDeclaration)]
  | .expression => [
      ("Identifier", .wrapper .identifierReference), ("This", .wrapper .thisExpression),
      ("Super", .wrapper .superExpression), ("Literal", .wrapper .literal),
      ("Template", .wrapper .templateLiteral), ("TaggedTemplate", .wrapper .taggedTemplate),
      ("Array", .wrapper .arrayLiteral), ("Object", .wrapper .objectLiteral),
      ("Parenthesized", .wrapper .parenthesizedExpression),
      ("Function", .wrapper .functionExpression), ("Arrow", .wrapper .arrowFunction),
      ("Class", .wrapper .classExpression), ("DotMember", .wrapper .dotMemberExpression),
      ("BracketMember", .wrapper .bracketMemberExpression), ("Call", .wrapper .callExpression),
      ("New", .wrapper .newExpression), ("Postfix", .wrapper .postfixExpression),
      ("Unary", .wrapper .unaryExpression), ("Await", .wrapper .awaitExpression),
      ("Binary", .wrapper .binaryExpression), ("Conditional", .wrapper .conditionalExpression),
      ("Assignment", .wrapper .assignmentExpression), ("Yield", .wrapper .yieldExpression),
      ("Sequence", .wrapper .sequenceExpression)]
  | .forBinding => [
      ("Declaration", .wrapper .variableDeclaration), ("Target", .category .expression)]
  | .switchClause => [
      ("Case", .wrapper .caseClause), ("Default", .wrapper .defaultClause)]
  | .arrowParameters => [
      ("Single", .wrapper .bindingIdentifier), ("List", .wrapper .formalParameters)]
  | .arrowBody => [
      ("Block", .wrapper .functionBody), ("Expression", .category .expression)]
  | .parameter => [
      ("Rest", .wrapper .restElement), ("Binding", .category .bindingElement)]
  | .classMember => [
      ("Method", .wrapper .method), ("Getter", .wrapper .getter), ("Setter", .wrapper .setter),
      ("Field", .wrapper .fieldDefinition)]
  | .bindingTarget => [
      ("Identifier", .wrapper .bindingIdentifier), ("Array", .wrapper .arrayBindingPattern),
      ("Object", .wrapper .objectBindingPattern)]
  | .bindingElement => [
      ("Identifier", .wrapper .bindingIdentifier), ("Array", .wrapper .arrayBindingPattern),
      ("Object", .wrapper .objectBindingPattern),
      ("Initialized", .wrapper .initializedBindingElement)]
  | .arrayBindingElement => [
      ("Rest", .wrapper .restElement), ("Binding", .category .bindingElement)]
  | .objectBindingMember => [
      ("Property", .wrapper .bindingProperty), ("Rest", .wrapper .restElement),
      ("Shorthand", .category .bindingElement)]
  | .arrayElement => [
      ("Spread", .wrapper .spreadElement), ("Expression", .category .expression)]
  | .property => [
      ("Pair", .wrapper .pairProperty), ("Shorthand", .wrapper .shorthandProperty),
      ("Method", .wrapper .method), ("Getter", .wrapper .getter), ("Setter", .wrapper .setter),
      ("Spread", .wrapper .spreadElement)]
  | .propertyKey => [
      ("Name", .wrapper .propertyName), ("Computed", .wrapper .computedPropertyName)]

end Category

namespace View

def name : View → String
  | .wrapper only => only.name
  | .category whole => whole.name

/-- The cases that lead from a view to the wrapper of a kind, outermost first, and that wrapper, if the
view admits the kind; `depth` bounds the nesting of categories. -/
def castWithin : Nat → View → Kind → Option (List String × Wrapper)
  | 0, _, _ => none
  | _ + 1, .wrapper only, kind => if only.kinds.contains kind then some ([], only) else none
  | depth + 1, .category whole, kind =>
      whole.cases.findSome? fun (name, view) =>
        (castWithin depth view kind).map fun (names, found) => (name :: names, found)

/-- Categories nest at most two deep over the wrappers. -/
def cast? (view : View) (kind : Kind) : Option (List String × Wrapper) := castWithin 3 view kind

def admits (view : View) (kind : Kind) : Bool := (view.cast? kind).isSome

def all : List View := Wrapper.all.map View.wrapper ++ Category.all.map View.category

end View
end ScriptTree
