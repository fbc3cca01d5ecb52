import ScriptTree.Kind
import ScriptTree.Text.Bytes
import ScriptTree.Token.Trivia

/-! # Tokens -/
set_option autoImplicit false
namespace ScriptTree

structure Token where
  leading : Trivia
  kind : Kind
  span : Span
  trailing : Trivia
  deriving DecidableEq, Repr, Inhabited

namespace Token

def fullSpan (token : Token) : Span :=
  ⟨token.span.start - token.leading.length, token.span.stop + token.trailing.length⟩

def hasLineBreakBefore (token : Token) : Bool := token.leading.hasLineBreak

end Token
end ScriptTree
