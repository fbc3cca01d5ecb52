import ScriptTree.Grammar.Functions

/-! # Classes and members -/
set_option autoImplicit false
namespace ScriptTree.Grammar

open Production

def classTail : Production :=
  .seq
    (.branch (.nextIs .extendsKw)
      (.node .extendsClause (.seq .take (.call .leftHandSide)))
      (.expected .extendsKw))
    (.call .classBody)

def classDeclaration : Production :=
  .node .classDeclaration (series [expect .classKw, .call .bindingIdentifier, classTail])

def classExpression : Production :=
  .node .classExpression
    (series [expect .classKw, .branch (.identifier 0) (.call .bindingIdentifier) .empty, classTail])

def classBody : Production := .node .classBody (.seq (expect .leftBrace) (.call .classMembers))

def classMembers : Production :=
  .branch (.nextIs .rightBrace) .take
    (.seq (.expected .rightBrace)
      (.branch (.nextIs .semicolon) (.seq .take (.call .classMembers))
        (series [.expected .semicolon, .call (.member .classBody), .call .classMembers])))

/-! ## Members -/

def allowsPrivate : MemberOwner → Bool
  | .classBody => true
  | .objectLiteral => false

/-- `static` modifies a member unless it names it. -/
def atStaticModifier : Guard :=
  .and (.nextIs .staticKw) (.not (.next 1 [.leftParen, .eq, .semicolon, .rightBrace]))

/-- What follows the key of a member that is no method. -/
def valueTail : MemberOwner → Production
  | .objectLiteral => .seq (expect .colon) (.call .assignment)
  | .classBody =>
      .seq
        (.branch (.nextIs .eq)
          (.seq .take (.inScope (.enter .outermost) (.call .assignment)))
          (.expected .eq))
        semicolon

def valueKind : MemberOwner → Kind
  | .objectLiteral => .pairProperty
  | .classBody => .fieldDefinition

/-- A member from its modifier on, which takes `offset` tokens. Words such as `get` and `async` are told
apart from names by what follows them, so the key is read once, and the token after it decides
between a method and a value. -/
def memberAfter (owner : MemberOwner) (modifier : Production) (offset : Nat) : Production :=
  let key : Production := propertyKey (allowsPrivate owner)
  let keyAt (place : Nat) : Guard := propertyKeyAt place (allowsPrivate owner)
  let accessor : Production := series [modifier, .take, key, functionTail .outermost]
  select [
    (.and (.next offset [.getKw]) (keyAt (offset + 1)), .node .getter accessor),
    (.and (.next offset [.setKw]) (keyAt (offset + 1)), .node .setter accessor),
    (.and (.next offset [.asyncKw]) (.and (.not (.lineBreak (offset + 1))) (.next (offset + 1) [.star])),
      .node .generatorMethod (series [modifier, .take, .take, key, functionTail ⟨true, true⟩])),
    (.and (.next offset [.asyncKw]) (.and (.not (.lineBreak (offset + 1))) (keyAt (offset + 1))),
      .node .method (series [modifier, .take, key, functionTail ⟨false, true⟩])),
    (.next offset [.star],
      .node .generatorMethod (series [modifier, .take, key, functionTail ⟨true, false⟩]))]
    (.fork (.seq modifier key) (.nextIs .leftParen) .method (functionTail .outermost)
      (valueKind owner) (.seq (.expected .leftParen) (valueTail owner)))

def member : MemberOwner → Production
  | .classBody =>
      .branch atStaticModifier (memberAfter .classBody .take 1) (memberAfter .classBody .empty 0)
  | .objectLiteral => memberAfter .objectLiteral .empty 0

end ScriptTree.Grammar
