import ScriptTree.Grammar.Production

/-! # Expressions -/
set_option autoImplicit false
namespace ScriptTree.Grammar

open Production

def assignmentOperators : List Kind := [
  .eq, .plusEq, .minusEq, .starEq, .star2Eq, .slashEq, .percentEq, .shlEq, .shrEq, .ushrEq, .ampEq,
  .pipeEq, .caretEq, .amp2Eq, .pipe2Eq, .question2Eq]

/-- The expressions that can be assigned to by themselves. -/
def simpleTargets : List Kind := [.identifierReference, .dotMemberExpression, .bracketMemberExpression]

/-- Whether the expression completed last may be assigned to with the operator at hand. Literals are
read again as patterns for a plain `=` alone. -/
def isAssignmentTarget : Guard :=
  .or (.completed simpleTargets)
    (.or (.and (.completed [.arrayLiteral, .objectLiteral]) (.nextIs .eq)) .completedTarget)

/-! ## Sequences and assignments -/

/-- `a, b, c`, nesting to the left. -/
def expression : Production := .seq (.call .assignment) (.call .sequenceTail)

def sequenceTail : Production :=
  .branch (.nextIs .comma)
    (.seq (.wrap .sequenceExpression (.seq .take (.call .assignment))) (.call .sequenceTail))
    .empty

def atArrowStart : Guard :=
  .or (.nextIs .leftParen)
    (.or
      (.and (.nextIs .asyncKw)
        (.and (.not (.lineBreak 1)) (.or (.next 1 [.leftParen]) (.identifier 1))))
      (.and (.identifier 0) (.next 1 [.fatArrow])))

/-- A parenthesized expression and the parameters of an arrow look alike until the `=>`, so an arrow
is tried first. -/
def assignment : Production :=
  .branch (.and (.nextIs .yieldKw) .yieldOperator) (.call .yieldExpression)
    (.branch atArrowStart (.onceOrElse (.call .arrow) (.call .plainAssignment))
      (.call .plainAssignment))

def plainAssignment : Production :=
  .seq (.call .conditional)
    (.branch (.and (.next 0 assignmentOperators) isAssignmentTarget)
      (.wrap .assignmentExpression (.seq .take (.call .assignment)))
      .empty)

def yieldExpression : Production :=
  .node .yieldExpression
    (.seq (expect .yieldKw)
      (.branch (.lineBreak 0) .empty
        (.branch (.nextIs .star) (.seq .take (.call .assignment)) (optional (.call .assignment)))))

def conditional : Production :=
  .seq (.call (.binary 1))
    (.branch (.nextIs .question)
      (.wrap .conditionalExpression
        (series [.take, .call .assignment, expect .colon, .call .assignment]))
      .empty)

/-! ## Operators -/

/-- The binary operators of one precedence. -/
structure OperatorLevel where
  precedence : Precedence
  operators : List Kind
  nestsRight : Bool
  deriving DecidableEq, Repr

def operatorLevels : List OperatorLevel := [
  ⟨1, [.question2], false⟩,
  ⟨2, [.pipe2], false⟩,
  ⟨3, [.amp2], false⟩,
  ⟨4, [.pipe], false⟩,
  ⟨5, [.caret], false⟩,
  ⟨6, [.amp], false⟩,
  ⟨7, [.eq2, .neq, .eq3, .neq2], false⟩,
  ⟨8, [.lt, .gt, .lteq, .gteq, .instanceofKw, .inKw], false⟩,
  ⟨9, [.shl, .shr, .ushr], false⟩,
  ⟨10, [.plus, .minus], false⟩,
  ⟨11, [.star, .slash, .percent], false⟩,
  ⟨12, [.star2], true⟩]

/-- The least precedence in the right operand of an operator of the level. -/
def OperatorLevel.rightMinimum (level : OperatorLevel) : Precedence :=
  if level.nestsRight then level.precedence else level.precedence + 1

/-- Operands joined by operators of at least the given precedence. -/
def binary (minimum : Precedence) : Production :=
  .seq (.call .unary) (.call (.binaryTail minimum))

def binaryTail (minimum : Precedence) : Production :=
  select
    ((operatorLevels.filter fun level => minimum ≤ level.precedence).map fun level =>
      (.next 0 level.operators,
        .seq (.wrap .binaryExpression (.seq .take (.call (.binary level.rightMinimum))))
          (.call (.binaryTail minimum))))
    .empty

def unaryOperators : List Kind := [
  .deleteKw, .voidKw, .typeofKw, .plus, .minus, .tilde, .bang, .plus2, .minus2]

def unary : Production :=
  .branch (.next 0 unaryOperators) (.node .unaryExpression (.seq .take (.call .unary)))
    (.branch (.and (.nextIs .awaitKw) .awaitOperator)
      (.node .awaitExpression (.seq .take (.call .unary)))
      (.call .postfixed))

def postfixed : Production :=
  .seq (.call .leftHandSide)
    (.branch (.and (.next 0 [.plus2, .minus2]) (.not (.lineBreak 0)))
      (.wrap .postfixExpression .take)
      .empty)

/-! ## Member accesses and calls -/

def newOrPrimary : Production := .branch (.nextIs .newKw) (.call .newExpression) (.call .primary)

/-- Member accesses, calls and `new` over a primary expression. -/
def leftHandSide : Production := .seq newOrPrimary (.call (.memberTail true))

def newExpression : Production :=
  .node .newExpression
    (series [expect .newKw, newOrPrimary, .call (.memberTail false),
      .branch (.nextIs .leftParen) (.call .arguments) .empty])

/-- The name after a point: any word, or a private name. -/
def memberName : Production :=
  .node .propertyName
    (.branch (.next 0 ([.ident, .privateName] ++ keywords)) .take (.seq (.expected .ident) .refuse))

/-- One link of an optional chain, at the `?.`. -/
def optionalLink : Production :=
  .branch (.next 1 [.leftBracket])
    (.wrap .bracketMemberExpression
      (series [.take, .take, .call .expression, expect .rightBracket]))
    (.branch (.next 1 [.leftParen])
      (.wrap .callExpression (.seq .take (.call .arguments)))
      (.wrap .dotMemberExpression (.seq .take memberName)))

/-- What follows a member expression; the callee of `new` has neither calls nor optional links. -/
def memberTail (calls : Bool) : Production :=
  let link (body : Production) : Production := .seq body (.call (.memberTail calls))
  select
    ([(.nextIs .dot, link (.wrap .dotMemberExpression (.seq .take memberName))),
      (.nextIs .leftBracket,
        link (.wrap .bracketMemberExpression
          (series [.take, .call .expression, expect .rightBracket]))),
      (.next 0 [.noSubstitutionTemplate, .templateHead],
        link (.wrap .taggedTemplate (.call .templateLiteral)))] ++
      if calls then
        [(.nextIs .leftParen, link (.wrap .callExpression (.call .arguments))),
          (.nextIs .questionDot, link optionalLink)]
      else [])
    .empty

def arguments : Production :=
  .node .arguments
    (series [expect .leftParen, .list (.call (.items .arguments)), expect .rightParen])

def spreadElement : Production := .node .spreadElement (.seq (expect .dot3) (.call .assignment))

def spreadOrAssignment : Production :=
  .branch (.nextIs .dot3) (.call .spreadElement) (.call .assignment)

/-! ## Primary expressions -/

def primary : Production :=
  select [
    (.nextIs .thisKw, .node .thisExpression .take),
    (.nextIs .superKw, .node .superExpression .take),
    (.next 0 [.nullKw, .trueKw, .falseKw, .number, .string, .regex], .node .literal .take),
    (.next 0 [.noSubstitutionTemplate, .templateHead], .call .templateLiteral),
    (.nextIs .leftBracket, .call .arrayLiteral),
    (.nextIs .leftBrace, .call .objectLiteral),
    (.nextIs .leftParen, .call .parenthesized),
    (.nextIs .functionKw, .call .functionExpression),
    (.and (.nextIs .asyncKw) (.and (.next 1 [.functionKw]) (.not (.lineBreak 1))),
      .call .functionExpression),
    (.nextIs .classKw, .call .classExpression),
    (.identifier 0, .call .identifierReference)]
    (refuseConstruct "expression")

def identifierReference : Production := .node .identifierReference identifier

def templateLiteral : Production :=
  .node .templateLiteral
    (.branch (.nextIs .noSubstitutionTemplate) .take
      (.branch (.nextIs .templateHead) (.seq .take (.call .templateParts))
        (refuseConstruct "template literal")))

def templateParts : Production :=
  .seq (.call .expression)
    (.branch (.nextIs .templateMiddle) (.seq .take (.call .templateParts))
      (.branch (.nextIs .templateTail) .take (refuseConstruct "template continuation")))

def arrayLiteral : Production :=
  .node .arrayLiteral
    (series [expect .leftBracket, .list (.call (.items .arrayElements)), expect .rightBracket])

def objectLiteral : Production :=
  .node .objectLiteral
    (series [expect .leftBrace, .list (.call (.items .objectMembers)), expect .rightBrace])

/-- A name, with a value when the literal is later read as a pattern. -/
def shorthandProperty : Production :=
  .node .shorthandProperty
    (.seq (.call .identifierReference)
      (.branch (.nextIs .eq) (.seq .take (.call .assignment)) .empty))

def objectMember : Production :=
  .branch (.nextIs .dot3) (.call .spreadElement)
    (.branch (.and (.identifier 0) (.next 1 [.comma, .rightBrace, .eq])) shorthandProperty
      (.call (.member .objectLiteral)))

def parenthesized : Production :=
  .node .parenthesizedExpression
    (series [expect .leftParen, .call .expression, expect .rightParen,
      .branch (.or (.completed simpleTargets) .completedTarget) .markTarget .empty])

end ScriptTree.Grammar
