import ScriptTree.Proofs.Forest
import ScriptTree.Grammar.Production

/-! # Binding patterns

Binding elements apart from any text: their tokens in order, and the forest they are in a tree. -/
set_option autoImplicit false
namespace ScriptTree

open Production

/-! ## Elements -/

/-- A key of a member: a name or a literal, or an identifier in brackets. -/
inductive PatternKey where
  | named (kind : Kind) (isName : kind ∈ propertyNameKinds false)
  | computed

mutual

inductive BindingTarget where
  | name
  | array (items : ArrayBindings)
  | object (members : ObjectBindings)

/-- A target, with a name for its default or without. -/
inductive BindingElement where
  | element (target : BindingTarget) (hasDefault : Bool)

/-- The items of an array pattern. A hole is told apart by the comma behind it, and a comma may follow the
last element. -/
inductive ArrayBindings where
  | none
  | rest (target : BindingTarget)
  | last (element : BindingElement)
  | hole (others : ArrayBindings)
  | more (element : BindingElement) (others : ArrayBindings)

/-- The members of an object pattern. A comma may follow the last one. -/
inductive ObjectBindings where
  | none
  | rest (target : BindingTarget)
  | last (member : ObjectBinding)
  | more (member : ObjectBinding) (others : ObjectBindings)

inductive ObjectBinding where
  | property (key : PatternKey) (element : BindingElement)
  | shorthand (hasDefault : Bool)

end

/-! ## Printing -/

def defaultTokens : Bool → List Kind
  | true => [.eq, .ident]
  | false => []

def PatternKey.tokens : PatternKey → List Kind
  | named kind _ => [kind]
  | computed => [.leftBracket, .ident, .rightBracket]

mutual

def BindingTarget.tokens : BindingTarget → List Kind
  | .name => [.ident]
  | .array items => .leftBracket :: (items.tokens ++ [.rightBracket])
  | .object members => .leftBrace :: (members.tokens ++ [.rightBrace])

def BindingElement.tokens : BindingElement → List Kind
  | .element target hasDefault => target.tokens ++ defaultTokens hasDefault

def ArrayBindings.tokens : ArrayBindings → List Kind
  | .none => []
  | .rest target => .dot3 :: target.tokens
  | .last element => element.tokens
  | .hole others => .comma :: others.tokens
  | .more element others => element.tokens ++ .comma :: others.tokens

def ObjectBindings.tokens : ObjectBindings → List Kind
  | .none => []
  | .rest target => .dot3 :: target.tokens
  | .last member => member.tokens
  | .more member others => member.tokens ++ .comma :: others.tokens

def ObjectBinding.tokens : ObjectBinding → List Kind
  | .property key element => key.tokens ++ .colon :: element.tokens
  | .shorthand hasDefault => .ident :: defaultTokens hasDefault

end

/-! ## Forests -/

def initializedKind (target : Kind) : Bool → Kind
  | true => .initializedBindingElement
  | false => target

def initializedChildren (target : Kind) (children : Forest) (behind : Nat) : Bool → Forest
  | true => ((Forest.empty.node target children).token behind .eq).node .identifierReference
      (Forest.empty.token (behind + 1) .ident)
  | false => children

namespace PatternKey

def kind : PatternKey → Kind
  | named _ _ => .propertyName
  | computed => .computedPropertyName

def children : PatternKey → Nat → Forest
  | named kind _, start => Forest.empty.token start kind
  | computed, start =>
      ((Forest.empty.token start .leftBracket).node .identifierReference
        (Forest.empty.token (start + 1) .ident)).token (start + 2) .rightBracket

end PatternKey

def BindingTarget.kind : BindingTarget → Kind
  | name => .bindingIdentifier
  | array _ => .arrayBindingPattern
  | object _ => .objectBindingPattern

def BindingElement.kind : BindingElement → Kind
  | element target hasDefault => initializedKind target.kind hasDefault

def ObjectBinding.kind : ObjectBinding → Kind
  | property _ _ => .bindingProperty
  | shorthand hasDefault => initializedKind .bindingIdentifier hasDefault

mutual

def BindingTarget.children : BindingTarget → Nat → Forest
  | .name, start => Forest.empty.token start .ident
  | .array items, start =>
      ((Forest.empty.token start .leftBracket).list (items.items .empty (start + 1))).token
        (start + 1 + items.tokens.length) .rightBracket
  | .object members, start =>
      ((Forest.empty.token start .leftBrace).list (members.items .empty (start + 1))).token
        (start + 1 + members.tokens.length) .rightBrace

def BindingElement.children : BindingElement → Nat → Forest
  | .element target hasDefault, start =>
      initializedChildren target.kind (target.children start) (start + target.tokens.length) hasDefault

def ArrayBindings.items : ArrayBindings → Forest → Nat → Forest
  | .none, before, _ => before
  | .rest target, before, start =>
      before.node .restElement
        ((Forest.empty.token start .dot3).node target.kind (target.children (start + 1)))
  | .last element, before, start => before.node element.kind (element.children start)
  | .hole others, before, start => others.items (before.hole.token start .comma) (start + 1)
  | .more element others, before, start =>
      let comma := start + element.tokens.length
      others.items ((before.node element.kind (element.children start)).token comma .comma) (comma + 1)

def ObjectBindings.items : ObjectBindings → Forest → Nat → Forest
  | .none, before, _ => before
  | .rest target, before, start =>
      before.node .restElement
        ((Forest.empty.token start .dot3).node target.kind (target.children (start + 1)))
  | .last member, before, start => before.node member.kind (member.children start)
  | .more member others, before, start =>
      let comma := start + member.tokens.length
      others.items ((before.node member.kind (member.children start)).token comma .comma) (comma + 1)

def ObjectBinding.children : ObjectBinding → Nat → Forest
  | .property key element, start =>
      let colon := start + key.tokens.length
      ((Forest.empty.node key.kind (key.children start)).token colon .colon).node element.kind
        (element.children (colon + 1))
  | .shorthand hasDefault, start =>
      initializedChildren .bindingIdentifier (Forest.empty.token start .ident) (start + 1) hasDefault

end

end ScriptTree
