import ScriptTree.Grammar.Production

/-! # Functions -/
set_option autoImplicit false
namespace ScriptTree

namespace FunctionForm

def scope (form : FunctionForm) : Scope := ⟨form.isGenerator, form.isAsync⟩

def kind (form : FunctionForm) : Kind :=
  match form.isExpression, form.isGenerator with
  | false, false => .functionDeclaration
  | false, true => .generatorDeclaration
  | true, false => .functionExpression
  | true, true => .generatorExpression

end FunctionForm

namespace Grammar

open Production

def announcedFunction (isExpression : Bool) : Production :=
  let form (isAsync isGenerator : Bool) : Production :=
    firstOf [.call (.function ⟨isExpression, isAsync, isGenerator⟩)]
  select [
    (.and (.nextIs .asyncKw) (.and (.next 1 [.functionKw]) (.next 2 [.star])), form true true),
    (.and (.nextIs .asyncKw) (.next 1 [.functionKw]), form true false),
    (.and (.nextIs .functionKw) (.next 1 [.star]), form false true),
    (.nextIs .functionKw, form false false)]
    (series [.expected .asyncKw, .expected .functionKw, .refuse])

def functionDeclaration : Production := announcedFunction false

def functionExpression : Production := announcedFunction true

/-- A declaration binds its name in the scope around it, an expression in its own. -/
def functionName (form : FunctionForm) : Production :=
  if form.isExpression then
    .inScope (.enter form.scope) (.branch (.identifier 0) (.call .bindingIdentifier) .empty)
  else .call .bindingIdentifier

/-- The parameters and the body, in a scope of their own. -/
def functionTail (scope : Scope) : Production :=
  .inScope (.enter scope) (.seq (.call .formalParameters) (.call .functionBody))

def function (form : FunctionForm) : Production :=
  .node form.kind
    (series [
      if form.isAsync then .seq (expect .asyncKw) (.branch (.lineBreak 0) .refuse .empty) else .empty,
      expect .functionKw,
      if form.isGenerator then expect .star else .empty,
      functionName form,
      functionTail form.scope])

def parameter : Production :=
  .branch (.nextIs .dot3) (.call .restElement) (.call .bindingElement)

def formalParameters : Production :=
  .node .formalParameters
    (series [expect .leftParen, .list (.call (.items .parameters)), expect .rightParen])

def functionBody : Production :=
  .node .functionBody (.seq (expect .leftBrace) (.call .statementsUntilBrace))

def arrowFunction : Production := .onceOrElse (.call .arrow) .refuse

/-- `async` modifies an arrow unless it is its only parameter. -/
def atAsyncArrow : Guard :=
  .and (.nextIs .asyncKw) (.and (.not (.lineBreak 1)) (.not (.next 1 [.fatArrow])))

def arrowTail (isAsync : Bool) : Production :=
  series [
    .inScope (.arrowParameters isAsync)
      (.branch (.nextIs .leftParen) (.call .formalParameters) (.call .bindingIdentifier)),
    .branch (.lineBreak 0) .refuse (expect .fatArrow),
    .inScope (.enter ⟨false, isAsync⟩)
      (.branch (.nextIs .leftBrace) (.call .functionBody) (.call .assignment))]

def arrow : Production :=
  .node .arrowFunction
    (.branch atAsyncArrow (.seq .take (arrowTail true)) (arrowTail false))

end Grammar
end ScriptTree
