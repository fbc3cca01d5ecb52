import ScriptTree.Grammar.Production

/-! # Binding patterns -/
set_option autoImplicit false
namespace ScriptTree.Grammar

open Production

def bindingIdentifier : Production := .node .bindingIdentifier identifier

def bindingTarget : Production :=
  select [
    (.nextIs .leftBracket, .call .arrayBindingPattern),
    (.nextIs .leftBrace, .call .objectBindingPattern)]
    (.call .bindingIdentifier)

/-- The default of a target that was just completed, if it has one. -/
def initializer : Production :=
  .branch (.nextIs .eq)
    (.wrap .initializedBindingElement (.seq .take (.call .assignment)))
    (.expected .eq)

def bindingElement : Production := .seq (.call .bindingTarget) initializer

def restElement : Production := .node .restElement (.seq (expect .dot3) (.call .bindingTarget))

def arrayBindingElement : Production :=
  .branch (.nextIs .dot3) (.call .restElement) (.call .bindingElement)

def arrayBindingPattern : Production :=
  .node .arrayBindingPattern
    (series [expect .leftBracket, .list (.call (.items .arrayBindingElements)),
      expect .rightBracket])

def bindingProperty : Production :=
  .node .bindingProperty (series [propertyKey false, expect .colon, .call .bindingElement])

def shorthandBinding : Production := .seq (.call .bindingIdentifier) initializer

def objectBindingMember : Production :=
  .branch (.nextIs .dot3) (.call .restElement)
    (firstOf [.call .bindingProperty, .call .shorthandBinding])

def objectBindingPattern : Production :=
  .node .objectBindingPattern
    (series [expect .leftBrace, .list (.call (.items .objectBindingMembers)),
      expect .rightBrace])

end ScriptTree.Grammar
