import ScriptTree.Kind
import ScriptTree.Token.Scan

/-! # Punctuators

The kind of a punctuator is decided character by character: each choice takes a character if it comes
next, and a kind stands where nothing is left to choose. -/
set_option autoImplicit false
namespace ScriptTree

/-- Nested choices of a kind. `eat` goes on behind its character if that comes next, and otherwise where it
stands. -/
inductive Decision where
  | is (kind : Kind)
  | eat (char : Char) (behind otherwise : Decision)

namespace Decision

/-- What is decided at the start of a text, with what is taken of it. -/
def run : Decision → List Char → Kind × Split
  | is kind, text => (kind, ⟨[], text⟩)
  | eat char behind otherwise, text =>
      if text.head? = some char then
        let (kind, split) := behind.run text.tail
        (kind, split.after [char])
      else otherwise.run text

/-- `+`, `++` and `+=`, behind the first character, and the same for `-`. -/
def repeatedOrAssign (char : Char) (single double assign : Kind) : Decision :=
  eat char (is double) (eat '=' (is assign) (is single))

/-- `&`, `&=`, `&&` and `&&=`, behind the first character, and the same for `|`. -/
def logical (char : Char) (single singleAssign double doubleAssign : Kind) : Decision :=
  eat char (eat '=' (is doubleAssign) (is double)) (eat '=' (is singleAssign) (is single))

def division : Decision := eat '=' (is .slashEq) (is .slash)

def questionMark : Decision := eat '?' (eat '=' (is .question2Eq) (is .question2)) (is .question)

/-- What is left to decide behind a first character that starts nothing else. -/
def after : Char → Decision
  | '(' => is .leftParen
  | ')' => is .rightParen
  | '[' => is .leftBracket
  | ']' => is .rightBracket
  | ';' => is .semicolon
  | ',' => is .comma
  | ':' => is .colon
  | '~' => is .tilde
  | '=' => eat '=' (eat '=' (is .eq3) (is .eq2)) (eat '>' (is .fatArrow) (is .eq))
  | '!' => eat '=' (eat '=' (is .neq2) (is .neq)) (is .bang)
  | '<' => eat '<' (eat '=' (is .shlEq) (is .shl)) (eat '=' (is .lteq) (is .lt))
  | '>' =>
      eat '>' (eat '>' (eat '=' (is .ushrEq) (is .ushr)) (eat '=' (is .shrEq) (is .shr)))
        (eat '=' (is .gteq) (is .gt))
  | '+' => repeatedOrAssign '+' .plus .plus2 .plusEq
  | '-' => repeatedOrAssign '-' .minus .minus2 .minusEq
  | '*' => eat '*' (eat '=' (is .star2Eq) (is .star2)) (eat '=' (is .starEq) (is .star))
  | '%' => eat '=' (is .percentEq) (is .percent)
  | '^' => eat '=' (is .caretEq) (is .caret)
  | '&' => logical '&' .amp .ampEq .amp2 .amp2Eq
  | '|' => logical '|' .pipe .pipeEq .pipe2 .pipe2Eq
  | _ => is .unknown

end Decision

/-- A decision behind a character that is taken in any case. -/
def decideAfter (first : Char) (decision : Decision) (rest : List Char) : Kind × Split :=
  let (kind, split) := decision.run rest
  (kind, split.after [first])

/-- Two more points behind a point are taken together. -/
def scanPoints : List Char → Kind × Split
  | '.' :: '.' :: rest => (.dot3, ⟨['.', '.', '.'], rest⟩)
  | rest => (.dot, ⟨['.'], rest⟩)

/-- Whether a question mark is followed by a number that starts with a point: then `?.` is no
punctuator. -/
def beforePointedNumber : List Char → Bool
  | '.' :: digit :: _ => Text.isDecimalDigit digit
  | _ => false

def scanQuestionMark (rest : List Char) : Kind × Split :=
  if rest.head? = some '.' ∧ !beforePointedNumber rest then
    (.questionDot, ⟨['?', '.'], rest.tail⟩)
  else decideAfter '?' .questionMark rest

end ScriptTree
