import ScriptTree.Grammar.Classes
import ScriptTree.Grammar.Expressions
import ScriptTree.Grammar.Patterns
import ScriptTree.Grammar.Statements

/-! # The grammar

The production of every nonterminal, and the rules: the nonterminals that can be matched on their
own. -/
set_option autoImplicit false
namespace ScriptTree

namespace ListShape

/-- The token that ends a list. Declarators have none; they end where a comma is missing. -/
def closing? : ListShape → Option Kind
  | arrayElements | arrayBindingElements => some .rightBracket
  | objectMembers | objectBindingMembers => some .rightBrace
  | arguments | parameters => some .rightParen
  | declarators => none

/-- Whether a comma may stand where an element is left out. -/
def allowsHoles : ListShape → Bool
  | arrayElements | arrayBindingElements => true
  | _ => false

/-- The kind of element that ends a list. -/
def last? : ListShape → Option Kind
  | parameters | arrayBindingElements | objectBindingMembers => some .restElement
  | _ => none

def element : ListShape → Nonterminal
  | arrayElements | arguments => .spreadOrAssignment
  | objectMembers => .objectMember
  | parameters => .parameter
  | arrayBindingElements => .arrayBindingElement
  | objectBindingMembers => .objectBindingMember
  | declarators => .bindingElement

end ListShape

namespace Grammar

open Production

/-- The items of a list up to its closing token, which is left for the caller. -/
def items (shape : ListShape) : Production :=
  let afterElement : Production :=
    .branch (.nextIs .comma) (.seq .take (.call (.items shape))) (.expected .comma)
  let element : Production :=
    .seq (.call shape.element)
      (match shape.last? with
        | some kind => .branch (.completed [kind]) .empty afterElement
        | none => afterElement)
  select
    ((shape.closing?.map fun kind => (Guard.nextIs kind, Production.empty)).toList ++
      if shape.allowsHoles then
        [(.nextIs .comma, series [.hole, .take, .call (.items shape)])]
      else [])
    element

end Grammar

def Nonterminal.production : Nonterminal → Production
  | script => Grammar.script
  | scriptItems => Grammar.scriptItems
  | statement => Grammar.statement
  | labelledOrExpressionStatement => Grammar.labelledOrExpressionStatement
  | expressionStatement => Grammar.expressionStatement
  | statementsUntilBrace => Grammar.statementsUntilBrace
  | block => Grammar.block
  | variableStatement => Grammar.variableStatement
  | variableDeclaration => Grammar.variableDeclaration
  | ifStatement => Grammar.ifStatement
  | doWhileStatement => Grammar.doWhileStatement
  | whileStatement => Grammar.whileStatement
  | forStatement => Grammar.forStatement
  | forInStatement => Grammar.forInStatement
  | forOfStatement => Grammar.forOfStatement
  | classicForStatement => Grammar.classicForStatement
  | forBinding => Grammar.forBinding
  | jumpStatement kind => Grammar.jumpStatement kind
  | returnStatement => Grammar.returnStatement
  | withStatement => Grammar.withStatement
  | switchStatement => Grammar.switchStatement
  | switchClauses => Grammar.switchClauses
  | caseClause => Grammar.caseClause
  | defaultClause => Grammar.defaultClause
  | clauseStatements => Grammar.clauseStatements
  | labelledStatement => Grammar.labelledStatement
  | throwStatement => Grammar.throwStatement
  | tryStatement => Grammar.tryStatement
  | catchClause => Grammar.catchClause
  | functionDeclaration => Grammar.functionDeclaration
  | functionExpression => Grammar.functionExpression
  | function form => Grammar.function form
  | formalParameters => Grammar.formalParameters
  | parameter => Grammar.parameter
  | functionBody => Grammar.functionBody
  | arrowFunction => Grammar.arrowFunction
  | arrow => Grammar.arrow
  | classDeclaration => Grammar.classDeclaration
  | classExpression => Grammar.classExpression
  | classBody => Grammar.classBody
  | classMembers => Grammar.classMembers
  | member owner => Grammar.member owner
  | bindingIdentifier => Grammar.bindingIdentifier
  | bindingTarget => Grammar.bindingTarget
  | bindingElement => Grammar.bindingElement
  | restElement => Grammar.restElement
  | arrayBindingElement => Grammar.arrayBindingElement
  | arrayBindingPattern => Grammar.arrayBindingPattern
  | objectBindingPattern => Grammar.objectBindingPattern
  | objectBindingMember => Grammar.objectBindingMember
  | bindingProperty => Grammar.bindingProperty
  | shorthandBinding => Grammar.shorthandBinding
  | expression => Grammar.expression
  | sequenceTail => Grammar.sequenceTail
  | assignment => Grammar.assignment
  | plainAssignment => Grammar.plainAssignment
  | yieldExpression => Grammar.yieldExpression
  | conditional => Grammar.conditional
  | binary minimum => Grammar.binary minimum
  | binaryTail minimum => Grammar.binaryTail minimum
  | unary => Grammar.unary
  | postfixed => Grammar.postfixed
  | leftHandSide => Grammar.leftHandSide
  | newExpression => Grammar.newExpression
  | memberTail calls => Grammar.memberTail calls
  | primary => Grammar.primary
  | parenthesized => Grammar.parenthesized
  | identifierReference => Grammar.identifierReference
  | arrayLiteral => Grammar.arrayLiteral
  | objectLiteral => Grammar.objectLiteral
  | objectMember => Grammar.objectMember
  | spreadOrAssignment => Grammar.spreadOrAssignment
  | spreadElement => Grammar.spreadElement
  | arguments => Grammar.arguments
  | templateLiteral => Grammar.templateLiteral
  | templateParts => Grammar.templateParts
  | items shape => Grammar.items shape

/-! ## Rules -/

inductive Rule where
  | script
  | statement
  | block
  | variableStatement
  | variableDeclaration
  | ifStatement
  | forStatement
  | switchStatement
  | tryStatement
  | functionDeclaration
  | functionExpression
  | arrowFunction
  | classDeclaration
  | classExpression
  | formalParameters
  | functionBody
  | bindingIdentifier
  | bindingElement
  | arrayBindingPattern
  | objectBindingPattern
  | expression
  | assignmentExpression
  | leftHandSideExpression
  | primaryExpression
  | arrayLiteral
  | objectLiteral
  | templateLiteral
  | arguments
  deriving DecidableEq, Repr, Inhabited

namespace Rule

def all : List Rule := [
  script, statement, block, variableStatement, variableDeclaration, ifStatement, forStatement,
  switchStatement, tryStatement, functionDeclaration, functionExpression, arrowFunction,
  classDeclaration, classExpression, formalParameters, functionBody, bindingIdentifier,
  bindingElement, arrayBindingPattern, objectBindingPattern, expression, assignmentExpression,
  leftHandSideExpression, primaryExpression, arrayLiteral, objectLiteral, templateLiteral,
  arguments]

/-- The words of a rule's name, each with a capital. -/
def caseName : Rule → String
  | script => "Script"
  | statement => "Statement"
  | block => "Block"
  | variableStatement => "VariableStatement"
  | variableDeclaration => "VariableDeclaration"
  | ifStatement => "IfStatement"
  | forStatement => "ForStatement"
  | switchStatement => "SwitchStatement"
  | tryStatement => "TryStatement"
  | functionDeclaration => "FunctionDeclaration"
  | functionExpression => "FunctionExpression"
  | arrowFunction => "ArrowFunction"
  | classDeclaration => "ClassDeclaration"
  | classExpression => "ClassExpression"
  | formalParameters => "FormalParameters"
  | functionBody => "FunctionBody"
  | bindingIdentifier => "BindingIdentifier"
  | bindingElement => "BindingElement"
  | arrayBindingPattern => "ArrayBindingPattern"
  | objectBindingPattern => "ObjectBindingPattern"
  | expression => "Expression"
  | assignmentExpression => "AssignmentExpression"
  | leftHandSideExpression => "LeftHandSideExpression"
  | primaryExpression => "PrimaryExpression"
  | arrayLiteral => "ArrayLiteral"
  | objectLiteral => "ObjectLiteral"
  | templateLiteral => "TemplateLiteral"
  | arguments => "Arguments"

def name : Rule → String
  | script => "script"
  | statement => "statement"
  | block => "block"
  | variableStatement => "variable-statement"
  | variableDeclaration => "variable-declaration"
  | ifStatement => "if-statement"
  | forStatement => "for-statement"
  | switchStatement => "switch-statement"
  | tryStatement => "try-statement"
  | functionDeclaration => "function-declaration"
  | functionExpression => "function-expression"
  | arrowFunction => "arrow-function"
  | classDeclaration => "class-declaration"
  | classExpression => "class-expression"
  | formalParameters => "formal-parameters"
  | functionBody => "function-body"
  | bindingIdentifier => "binding-identifier"
  | bindingElement => "binding-element"
  | arrayBindingPattern => "array-binding-pattern"
  | objectBindingPattern => "object-binding-pattern"
  | expression => "expression"
  | assignmentExpression => "assignment-expression"
  | leftHandSideExpression => "left-hand-side-expression"
  | primaryExpression => "primary-expression"
  | arrayLiteral => "array-literal"
  | objectLiteral => "object-literal"
  | templateLiteral => "template-literal"
  | arguments => "arguments"

def nonterminal : Rule → Nonterminal
  | script => .script
  | statement => .statement
  | block => .block
  | variableStatement => .variableStatement
  | variableDeclaration => .variableDeclaration
  | ifStatement => .ifStatement
  | forStatement => .forStatement
  | switchStatement => .switchStatement
  | tryStatement => .tryStatement
  | functionDeclaration => .functionDeclaration
  | functionExpression => .functionExpression
  | arrowFunction => .arrowFunction
  | classDeclaration => .classDeclaration
  | classExpression => .classExpression
  | formalParameters => .formalParameters
  | functionBody => .functionBody
  | bindingIdentifier => .bindingIdentifier
  | bindingElement => .bindingElement
  | arrayBindingPattern => .arrayBindingPattern
  | objectBindingPattern => .objectBindingPattern
  | expression => .expression
  | assignmentExpression => .assignment
  | leftHandSideExpression => .leftHandSide
  | primaryExpression => .primary
  | arrayLiteral => .arrayLiteral
  | objectLiteral => .objectLiteral
  | templateLiteral => .templateLiteral
  | arguments => .arguments

def ofName? (word : String) : Option Rule := all.find? fun rule => rule.name == word

end Rule

structure UnknownRule where
  name : String
  deriving DecidableEq, Repr

def UnknownRule.message (error : UnknownRule) : String := "unknown rule `" ++ error.name ++ "`"

def Rule.ofName (word : String) : Except UnknownRule Rule :=
  match Rule.ofName? word with
  | some rule => .ok rule
  | none => .error ⟨word⟩

end ScriptTree
