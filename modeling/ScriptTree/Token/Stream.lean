import ScriptTree.Token.Basic

/-! # Token streams

A stream is a text with the tokens that cover it: they lie side by side from the first byte to the
last, start and end between characters, and end with one empty `eof`. `TokenStream.ofTokens` checks
this and says what is wrong otherwise. -/
set_option autoImplicit false
namespace ScriptTree

inductive MalformedStream where
  | missingEof
  | eofNotLast (index : Nat)
  | nonEmptyEof (index : Nat)
  | notATokenKind (index : Nat) (kind : Kind)
  | gap (index expected found : Nat)
  | outOfBounds (index : Nat)
  | notCharBoundary (index : Nat)
  | incomplete (covered length : Nat)
  deriving DecidableEq, Repr

namespace MalformedStream

def message : MalformedStream → String
  | missingEof => "token stream does not end with an EOF token"
  | eofNotLast index => s!"EOF token at index {index} is followed by more tokens"
  | nonEmptyEof index => s!"EOF token at index {index} has non-empty text"
  | notATokenKind index kind => "token " ++ toString index ++ " has node kind " ++ kind.name
  | gap index expected found => s!"token {index} starts at {found}, expected {expected}"
  | outOfBounds index => s!"token {index} extends outside of the text"
  | notCharBoundary index => s!"token {index} does not fall on char boundaries"
  | incomplete covered length => s!"tokens cover {covered} of {length} bytes"

def caseName : MalformedStream → String
  | missingEof => "MissingEof"
  | eofNotLast _ => "EofNotLast"
  | nonEmptyEof _ => "NonEmptyEof"
  | notATokenKind _ _ => "NotATokenKind"
  | gap _ _ _ => "Gap"
  | outOfBounds _ => "OutOfBounds"
  | notCharBoundary _ => "NotCharBoundary"
  | incomplete _ _ => "Incomplete"

end MalformedStream

/-- Why tokens make no stream: they break the contract, or the trivia beside a token is longer than
lengths can be. -/
inductive StreamError where
  | malformed (cause : MalformedStream)
  | lengthOverflow
  deriving DecidableEq, Repr

def StreamError.message : StreamError → String
  | .malformed cause => cause.message
  | .lengthOverflow => "attempt to add with overflow"

structure TokenStream where
  text : List Char
  tokens : Array Token
  deriving DecidableEq, Inhabited

namespace TokenStream

/-- What is wrong with the token at `index` of a stream, if it has to start at `offset`. -/
def tokenFault (text : List Char) (last index offset : Nat) (token : Token) :
    Option StreamError :=
  if !token.kind.isToken then some (.malformed (.notATokenKind index token.kind))
  else if token.leading.overflows then some .lengthOverflow
  else if token.span.start < token.leading.length then some (.malformed (.outOfBounds index))
  else if token.fullSpan.start ≠ offset then
    some (.malformed (.gap index offset token.fullSpan.start))
  else if token.trailing.overflows then some .lengthOverflow
  else if Text.byteLength text < token.fullSpan.stop then some (.malformed (.outOfBounds index))
  else if !([token.span.start, token.span.stop, token.fullSpan.stop].all
      fun boundary => Text.isBoundary boundary text) then some (.malformed (.notCharBoundary index))
  else if token.kind = .eof ∧ index ≠ last then some (.malformed (.eofNotLast index))
  else if token.kind = .eof ∧ !token.span.isEmpty then some (.malformed (.nonEmptyEof index))
  else none

/-- Checks tokens from `index` on, the first of which has to start at `offset`; gives the offset where
the last one ends. -/
def checkFrom (text : List Char) (last : Nat) : Nat → Nat → List Token → Except StreamError Nat
  | _, offset, [] => .ok offset
  | index, offset, token :: rest =>
      match tokenFault text last index offset token with
      | some fault => .error fault
      | none => checkFrom text last (index + 1) token.fullSpan.stop rest

def fault? (text : List Char) (tokens : List Token) : Option StreamError :=
  match tokens.getLast? with
  | none => some (.malformed .missingEof)
  | some final =>
      match checkFrom text (tokens.length - 1) 0 0 tokens with
      | .error fault => some fault
      | .ok covered =>
          if final.kind ≠ .eof then some (.malformed .missingEof)
          else if covered ≠ Text.byteLength text then
            some (.malformed (.incomplete covered (Text.byteLength text)))
          else none

def ofTokens (text : List Char) (tokens : Array Token) : Except StreamError TokenStream :=
  match fault? text tokens.toList with
  | some fault => .error fault
  | none => .ok ⟨text, tokens⟩

def size (stream : TokenStream) : Nat := stream.tokens.size

def isEmpty (stream : TokenStream) : Bool := stream.tokens.isEmpty

def eofIndex (stream : TokenStream) : Nat := stream.tokens.size - 1

def tokenText (stream : TokenStream) (token : Token) : List Char := token.span.sliceOf stream.text

end TokenStream
end ScriptTree
