import ScriptTree.Grammar.Production

/-! # Statements -/
set_option autoImplicit false
namespace ScriptTree.Grammar

open Production

/-! ## Scripts and blocks -/

def script : Production := .node .script (.call .scriptItems)

def scriptItems : Production :=
  .branch (.nextIs .eof) .take
    (series [.expected .eof, .call .statement, .call .scriptItems])

/-- Statements up to and with the brace that closes them. -/
def statementsUntilBrace : Production :=
  .branch (.nextIs .rightBrace) .take
    (.seq (.expected .rightBrace)
      (.branch (.nextIs .eof) .refuse (.seq (.call .statement) (.call .statementsUntilBrace))))

def block : Production := .node .block (.seq (expect .leftBrace) (.call .statementsUntilBrace))

/-! ## The choice of a statement -/

def statement : Production :=
  select [
    (.nextIs .leftBrace, .call .block),
    (.next 0 [.varKw, .constKw], .call .variableStatement),
    (.nextIs .letKw, firstOf [.call .variableStatement, .call .expressionStatement]),
    (.nextIs .semicolon, .node .emptyStatement (expect .semicolon)),
    (.nextIs .ifKw, .call .ifStatement),
    (.nextIs .doKw, .call .doWhileStatement),
    (.nextIs .whileKw, .call .whileStatement),
    (.nextIs .forKw, .call .forStatement),
    (.nextIs .continueKw, .call (.jumpStatement .continueStatement)),
    (.nextIs .breakKw, .call (.jumpStatement .breakStatement)),
    (.nextIs .returnKw, .call .returnStatement),
    (.nextIs .withKw, .call .withStatement),
    (.nextIs .switchKw, .call .switchStatement),
    (.nextIs .throwKw, .call .throwStatement),
    (.nextIs .tryKw, .call .tryStatement),
    (.nextIs .debuggerKw, .node .debuggerStatement (.seq (expect .debuggerKw) semicolon)),
    (.nextIs .functionKw, .call .functionDeclaration),
    (.nextIs .classKw, .call .classDeclaration),
    (.nextIs .asyncKw, firstOf [.call .functionDeclaration, .call .labelledOrExpressionStatement])]
    (.call .labelledOrExpressionStatement)

def labelledOrExpressionStatement : Production :=
  .branch (.and (.identifier 0) (.next 1 [.colon])) (.call .labelledStatement)
    (.call .expressionStatement)

/-- An expression statement may not start like a block, a declaration or a `let [` binding. -/
def startsLikeDeclaration : Guard :=
  .or (.next 0 [.leftBrace, .functionKw, .classKw])
    (.or (.and (.nextIs .letKw) (.next 1 [.leftBracket]))
      (.and (.nextIs .asyncKw) (.and (.next 1 [.functionKw]) (.not (.lineBreak 1)))))

def expressionStatement : Production :=
  .branch startsLikeDeclaration (refuseConstruct "statement")
    (.node .expressionStatement (.seq (.call .expression) semicolon))

/-! ## Declarations -/

def declarationKeywords : List Kind := [.varKw, .letKw, .constKw]

def variableStatement : Production :=
  .node .variableStatement (.seq (.call .variableDeclaration) semicolon)

/-- A keyword and at least one binding, without the end of the statement. -/
def variableDeclaration : Production :=
  .node .variableDeclaration
    (.seq (expectOneOf declarationKeywords "declaration") (.list (.call (.items .declarators))))

/-! ## Conditions and loops -/

def parenthesizedHead : Production :=
  series [expect .leftParen, .call .expression, expect .rightParen]

def ifStatement : Production :=
  .node .ifStatement
    (series [expect .ifKw, parenthesizedHead, .call .statement,
      .branch (.nextIs .elseKw) (.node .elseClause (.seq .take (.call .statement)))
        (.expected .elseKw)])

def doWhileStatement : Production :=
  .node .doWhileStatement
    (series [expect .doKw, .call .statement, expect .whileKw, parenthesizedHead, eat .semicolon])

def whileStatement : Production :=
  .node .whileStatement (series [expect .whileKw, parenthesizedHead, .call .statement])

/-- The head decides which of the three forms it is. -/
def forStatement : Production :=
  firstOf [.call .forInStatement, .call .forOfStatement, .call .classicForStatement]

/-- The left side of a `for` head over an object or an iterable. -/
def forBinding : Production :=
  .branch (.next 0 declarationKeywords)
    (firstOf [.call .variableDeclaration, .call .leftHandSide])
    (.call .leftHandSide)

def forInStatement : Production :=
  .node .forInStatement
    (series [expect .forKw, expect .leftParen, .call .forBinding, expect .inKw, .call .expression,
      expect .rightParen, .call .statement])

def forOfStatement : Production :=
  .node .forOfStatement
    (series [expect .forKw, .branch .awaitOperator (eat .awaitKw) .empty, expect .leftParen,
      .call .forBinding, expect .ofKw, .call .assignment, expect .rightParen, .call .statement])

/-- An expression that may be left out before the token that ends it. -/
def clauseBefore (closing : Kind) : Production :=
  .branch (.nextIs closing) .empty (.call .expression)

def classicForStatement : Production :=
  .node .forStatement
    (series [expect .forKw, expect .leftParen,
      .branch (.nextIs .semicolon) .empty
        (.branch (.next 0 declarationKeywords)
          (firstOf [.call .variableDeclaration, .call .expression])
          (.call .expression)),
      expect .semicolon, clauseBefore .semicolon, expect .semicolon, clauseBefore .rightParen,
      expect .rightParen, .call .statement])

/-! ## Jumps -/

def label : Production := .node .label identifier

def jumpStatement (kind : Kind) : Production :=
  .node kind
    (series [.take, .branch (.and (.not (.lineBreak 0)) (.identifier 0)) label .empty, semicolon])

def returnStatement : Production :=
  .node .returnStatement
    (series [expect .returnKw,
      .branch (.or (.next 0 [.semicolon, .rightBrace, .eof]) (.lineBreak 0)) .empty
        (.call .expression),
      semicolon])

def throwStatement : Production :=
  .node .throwStatement
    (series [expect .throwKw, .branch (.lineBreak 0) (refuseConstruct "expression") .empty,
      .call .expression, semicolon])

/-! ## Compound statements -/

def withStatement : Production :=
  .node .withStatement (series [expect .withKw, parenthesizedHead, .call .statement])

def switchStatement : Production :=
  .node .switchStatement
    (series [expect .switchKw, parenthesizedHead, expect .leftBrace, .call .switchClauses])

def switchClauses : Production :=
  select [
    (.nextIs .rightBrace, .take),
    (.nextIs .caseKw, .seq (.call .caseClause) (.call .switchClauses)),
    (.nextIs .defaultKw, .seq (.call .defaultClause) (.call .switchClauses))]
    (series [.expected .caseKw, .expected .defaultKw, .expected .rightBrace, .refuse])

def clauseStatements : Production :=
  .branch (.next 0 [.caseKw, .defaultKw, .rightBrace, .eof]) .empty
    (.seq (.call .statement) (.call .clauseStatements))

def caseClause : Production :=
  .node .caseClause
    (series [expect .caseKw, .call .expression, expect .colon, .call .clauseStatements])

def defaultClause : Production :=
  .node .defaultClause (series [expect .defaultKw, expect .colon, .call .clauseStatements])

def labelledStatement : Production :=
  .node .labelledStatement (series [label, expect .colon, .call .statement])

def finallyClause : Production := .node .finallyClause (.seq .take (.call .block))

def tryStatement : Production :=
  .node .tryStatement
    (series [expect .tryKw, .call .block,
      .branch (.nextIs .catchKw)
        (.seq (.call .catchClause) (.branch (.nextIs .finallyKw) finallyClause .empty))
        (.branch (.nextIs .finallyKw) finallyClause
          (series [.expected .catchKw, .expected .finallyKw, .refuse]))])

def catchClause : Production :=
  .node .catchClause
    (series [expect .catchKw,
      .branch (.nextIs .leftParen)
        (series [.take, .call .bindingTarget, expect .rightParen]) .empty,
      .call .block])

end ScriptTree.Grammar
