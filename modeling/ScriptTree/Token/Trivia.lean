/-! # Trivia

White space, line breaks and comments. They belong to the token they stand beside. -/
set_option autoImplicit false
namespace ScriptTree

inductive TriviaKind where
  | whitespace
  | newline
  | singleLineComment
  | multiLineComment (hasNewline : Bool)
  deriving DecidableEq, Repr, Inhabited

namespace TriviaKind

/-- Whether the grammar sees a line terminator here. -/
def isLineBreak : TriviaKind → Bool
  | newline | multiLineComment true => true
  | _ => false

def isComment : TriviaKind → Bool
  | singleLineComment | multiLineComment _ => true
  | _ => false

def inspect : TriviaKind → String
  | whitespace => "Whitespace"
  | newline => "Newline"
  | singleLineComment => "SingleLineComment"
  | multiLineComment hasNewline =>
      "MultiLineComment \x7b has_newline: " ++ toString hasNewline ++ " \x7d"

end TriviaKind

/-- A stretch of trivia of one kind; the length counts bytes. -/
structure TriviaPiece where
  kind : TriviaKind
  length : Nat
  deriving DecidableEq, Repr, Inhabited

structure Trivia where
  pieces : List TriviaPiece
  deriving DecidableEq, Repr, Inhabited

namespace Trivia

def empty : Trivia := ⟨[]⟩

def isEmpty (trivia : Trivia) : Bool := trivia.pieces.isEmpty

def length (trivia : Trivia) : Nat := trivia.pieces.foldr (fun piece total => piece.length + total) 0

/-- Lengths are words of 32 bits; this is the first number that is none. -/
def lengthLimit : Nat := 4294967296

/-- Whether the pieces are longer together than a length can be. -/
def overflows (trivia : Trivia) : Bool := lengthLimit ≤ trivia.length

def hasLineBreak (trivia : Trivia) : Bool := trivia.pieces.any fun piece => piece.kind.isLineBreak

end Trivia
end ScriptTree
