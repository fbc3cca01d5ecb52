import ScriptTree.KindSet
import ScriptTree.Text.Bytes
import ScriptTree.Diagnostic

/-! # Syntax errors

A syntax error stands at the furthest token that any attempt reached, with everything that would have
been accepted there. -/
set_option autoImplicit false
namespace ScriptTree

structure SyntaxError where
  /-- Index of the offending token. -/
  position : Nat
  /-- Its span without trivia. -/
  span : Span
  found : Kind
  expected : KindSet
  constructs : List String
  deriving DecidableEq, Inhabited

namespace SyntaxError

/-- The constructs and then the kinds that would have been accepted. -/
def alternatives (error : SyntaxError) : List String :=
  error.constructs ++ error.expected.toList.map Kind.describe

/-- Alternatives in running text: commas between them, and `or` before the last. -/
def disjunction : List String → String
  | [] => ""
  | [only] => only
  | [first, last] => first ++ " or " ++ last
  | first :: rest => first ++ ", " ++ disjunction rest

def message (error : SyntaxError) : String :=
  if error.alternatives.isEmpty then "unexpected " ++ error.found.describe
  else
    "expected " ++ disjunction error.alternatives ++ ", found " ++ error.found.describe

def label (error : SyntaxError) : String :=
  if error.found = .eof then "input ends here" else "unexpected " ++ error.found.describe

def diagnostic (error : SyntaxError) : Diagnostic := ⟨error.message, error.span, error.label⟩

end SyntaxError
end ScriptTree
