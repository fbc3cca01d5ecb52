import ScriptTree.Kind

/-! # The language of productions

A grammar is data: each nonterminal has a production, made of a few constructors that say what is
taken, what is expected, which node or list it becomes and which alternative is tried next. What a
production does is defined apart from it, by recursion on its form. -/
set_option autoImplicit false
namespace ScriptTree

/-! ## Nonterminals -/

inductive ListShape where
  | arrayElements
  | objectMembers
  | arguments
  | parameters
  | arrayBindingElements
  | objectBindingMembers
  | declarators
  deriving DecidableEq, Repr

/-- The forms of functions introduced by `function`. -/
structure FunctionForm where
  isExpression : Bool
  isAsync : Bool
  isGenerator : Bool
  deriving DecidableEq, Repr

/-- Where a member stands; object literals have neither `static` nor private names nor fields. -/
inductive MemberOwner where
  | classBody
  | objectLiteral
  deriving DecidableEq, Repr

/-- Strength by which an operator binds its operands, loosest first. -/
abbrev Precedence := Fin 13

inductive Nonterminal where
  | script
  | scriptItems
  -- statements
  | statement
  | labelledOrExpressionStatement
  | expressionStatement
  | statementsUntilBrace
  | block
  | variableStatement
  | variableDeclaration
  | ifStatement
  | doWhileStatement
  | whileStatement
  | forStatement
  | forInStatement
  | forOfStatement
  | classicForStatement
  | forBinding
  | jumpStatement (kind : Kind)
  | returnStatement
  | withStatement
  | switchStatement
  | switchClauses
  | caseClause
  | defaultClause
  | clauseStatements
  | labelledStatement
  | throwStatement
  | tryStatement
  | catchClause
  -- functions
  | functionDeclaration
  | functionExpression
  | function (form : FunctionForm)
  | formalParameters
  | parameter
  | functionBody
  | arrowFunction
  | arrow
  -- classes
  | classDeclaration
  | classExpression
  | classBody
  | classMembers
  | member (owner : MemberOwner)
  -- patterns
  | bindingIdentifier
  | bindingTarget
  | bindingElement
  | restElement
  | arrayBindingElement
  | arrayBindingPattern
  | objectBindingPattern
  | objectBindingMember
  | bindingProperty
  | shorthandBinding
  -- expressions
  | expression
  | sequenceTail
  | assignment
  | plainAssignment
  | yieldExpression
  | conditional
  | binary (minimum : Precedence)
  | binaryTail (minimum : Precedence)
  | unary
  | postfixed
  | leftHandSide
  | newExpression
  | memberTail (calls : Bool)
  | primary
  | parenthesized
  | identifierReference
  | arrayLiteral
  | objectLiteral
  | objectMember
  | spreadOrAssignment
  | spreadElement
  | arguments
  | templateLiteral
  | templateParts
  -- lists
  | items (shape : ListShape)
  deriving DecidableEq, Repr

/-! ## Scopes -/

/-- Which contextual words act as operators. -/
structure Scope where
  yieldOperator : Bool
  awaitOperator : Bool
  deriving DecidableEq, Repr

def Scope.outermost : Scope := ⟨false, false⟩

inductive ScopeChange where
  /-- A function, method or initializer has a scope of its own. -/
  | enter (scope : Scope)
  /-- The parameters of an arrow keep the scope around it; those of an async one add `await`. -/
  | arrowParameters (isAsync : Bool)
  deriving DecidableEq, Repr

def ScopeChange.apply : ScopeChange → Scope → Scope
  | .enter scope, _ => scope
  | .arrowParameters isAsync, scope =>
      ⟨scope.yieldOperator, isAsync || scope.awaitOperator⟩

/-! ## Guards -/

/-- What a production looks at before it goes on: tokens ahead, the scope, and the node completed
last. -/
inductive Guard where
  /-- The token at an offset is of one of the kinds. -/
  | next (offset : Nat) (kinds : List Kind)
  /-- A line terminator precedes the token at an offset. -/
  | lineBreak (offset : Nat)
  /-- The token at an offset can be used as an identifier in the scope at hand. -/
  | identifier (offset : Nat)
  | yieldOperator
  | awaitOperator
  /-- The node completed last is of one of the kinds. -/
  | completed (kinds : List Kind)
  /-- The node completed last is a parenthesized expression that may be assigned to. -/
  | completedTarget
  | not (guard : Guard)
  | and (first second : Guard)
  | or (first second : Guard)
  deriving DecidableEq, Repr

/-! ## Productions -/

inductive Production where
  | empty
  | refuse
  /-- Takes the next token, whatever it is. -/
  | take
  /-- Records a kind as acceptable here. -/
  | expected (kind : Kind)
  /-- Records a construct as acceptable here. -/
  | expectedConstruct (name : String)
  | call (nonterminal : Nonterminal)
  | seq (first second : Production)
  | branch (guard : Guard) (yes no : Production)
  /-- A node around what the body takes; if the body fails, nothing is taken. -/
  | node (kind : Kind) (body : Production)
  /-- A node of which the kind is decided, together with the rest, once its head is complete. -/
  | fork (head : Production) (guard : Guard) (kindYes : Kind) (yes : Production) (kindNo : Kind)
      (no : Production)
  /-- A node around the node completed last and what the body takes after it. -/
  | wrap (kind : Kind) (body : Production)
  /-- Ordered choice: the second is tried where the first was, if the first fails. -/
  | orElse (first second : Production)
  /-- Ordered choice in which a failure of the first is remembered for its position and scope, so
  that it is not tried there again. -/
  | onceOrElse (first second : Production)
  | inScope (change : ScopeChange) (body : Production)
  /-- A list around what the body takes; if the body fails, nothing is taken. -/
  | list (body : Production)
  /-- An element of a list that is left out. -/
  | hole
  /-- Marks the parentheses around the node completed last as something to assign to. -/
  | markTarget
  deriving DecidableEq, Repr

namespace Guard

abbrev nextIs (kind : Kind) : Guard := .next 0 [kind]

end Guard

namespace Production

def series : List Production → Production
  | [] => .empty
  | [only] => only
  | first :: rest => .seq first (series rest)

def select : List (Guard × Production) → Production → Production
  | [], otherwise => otherwise
  | (guard, body) :: rest, otherwise => .branch guard body (select rest otherwise)

def firstOf : List Production → Production
  | [] => .refuse
  | first :: rest => .orElse first (firstOf rest)

def optional (body : Production) : Production := .orElse body .empty

/-- Takes a token of the kind if it comes next, and records it as expected otherwise. -/
def eat (kind : Kind) : Production := .branch (.nextIs kind) .take (.expected kind)

def expect (kind : Kind) : Production :=
  .branch (.nextIs kind) .take (.seq (.expected kind) .refuse)

def refuseConstruct (name : String) : Production := .seq (.expectedConstruct name) .refuse

def expectOneOf (kinds : List Kind) (name : String) : Production :=
  .branch (.next 0 kinds) .take (refuseConstruct name)

/-- The end of a statement: a semicolon, which may be left out before a closing brace, at the end of
the text and after a line break. -/
def semicolon : Production :=
  .branch (.nextIs .semicolon) .take
    (.seq (.expected .semicolon)
      (.branch (.or (.next 0 [.rightBrace, .eof]) (.lineBreak 0)) .empty .refuse))

/-- An identifier, words that are no keywords in the scope at hand included. -/
def identifier : Production := .branch (.identifier 0) .take (.seq (.expected .ident) .refuse)

/-! ## Property keys -/

def keywords : List Kind := Kind.all.filter Kind.isKeyword

/-- The tokens that name a property; reserved words do, and private names in classes. -/
def propertyNameKinds (allowPrivate : Bool) : List Kind :=
  (if allowPrivate then [Kind.privateName] else []) ++ [.ident, .string, .number] ++ keywords

def propertyKeyAt (offset : Nat) (allowPrivate : Bool) : Guard :=
  .next offset (.leftBracket :: propertyNameKinds allowPrivate)

/-- A literal name, or an expression between brackets. -/
def propertyKey (allowPrivate : Bool) : Production :=
  .branch (.nextIs .leftBracket)
    (.node .computedPropertyName (series [.take, .call .assignment, expect .rightBracket]))
    (.node .propertyName (expectOneOf (propertyNameKinds allowPrivate) "property name"))

end Production
end ScriptTree
