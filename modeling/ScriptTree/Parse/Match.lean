import ScriptTree.Parse.Assembly
import ScriptTree.Parse.Run
import ScriptTree.Parse.SyntaxError
import ScriptTree.Token.Tokenizer
import ScriptTree.Tree.Outline

/-! # Matching and parsing

A rule is matched at a cursor and gives the tree of what it took together with the cursor behind it. To
parse is to match at the start and to take everything. -/
set_option autoImplicit false
namespace ScriptTree

/-! ## Cursors -/

structure Cursor where
  stream : TokenStream
  position : Nat
  deriving DecidableEq

namespace Cursor

def atToken (stream : TokenStream) (position : Nat) : Cursor :=
  ⟨stream, min position stream.eofIndex⟩

def start (stream : TokenStream) : Cursor := atToken stream 0

def current? (cursor : Cursor) : Option Token := cursor.stream.tokens[cursor.position]?

def isAtEnd (cursor : Cursor) : Bool :=
  match cursor.current? with
  | some token => token.kind == .eof
  | none => true

def inspect (cursor : Cursor) : String :=
  let kind := match cursor.current? with
    | some token => "Some(" ++ token.kind.name ++ ")"
    | none => "None"
  "TokenCursor \x7b position: " ++ toString cursor.position ++ ", kind: " ++ kind ++ " \x7d"

end Cursor

/-! ## Matching -/

/-- Why a match gives no tree. Only the first cause depends on the text. -/
inductive MatchFailure where
  | noMatch
  | outOfFuel
  | assembly (fault : AssemblyFault)
  deriving DecidableEq, Repr

def MatchFailure.message : MatchFailure → String
  | .noMatch => "no production matched"
  | .outOfFuel => "calls are nested too deeply"
  | .assembly .brokenLink => "internal error: entered unreachable code"
  | .assembly (.refused fault) => fault.message

/-- The tree of what was matched from `start` on, and the cursor behind it. -/
def Outcome.toMatch (stream : TokenStream) (start : TokenId) : Outcome → Except MatchFailure (SyntaxTree × Cursor)
  | .outOfFuel => .error .outOfFuel
  | .refused _ => .error .noMatch
  | .matched state =>
      match SyntaxTree.ofLog stream start state.log with
      | .ok tree => .ok (tree, .atToken stream state.position)
      | .error fault => .error (.assembly fault)

def matchRule (rule : Rule) (cursor : Cursor) : Except MatchFailure (SyntaxTree × Cursor) :=
  (rule.nonterminal.runFrom cursor.stream.tokens cursor.position).toMatch cursor.stream cursor.position

/-! ## Parsing -/

inductive ParseFailure where
  | syntaxError (error : SyntaxError)
  | stream (error : StreamError)
  | outOfFuel
  | assembly (fault : AssemblyFault)
  deriving DecidableEq

namespace ParseFailure

/-- The failure in words, as it is reported for tokens that come from elsewhere. -/
def message : ParseFailure → String
  | .syntaxError error => error.message
  | .stream (.malformed cause) => "malformed token stream: " ++ cause.message
  | .stream .lengthOverflow => StreamError.lengthOverflow.message
  | .outOfFuel => MatchFailure.outOfFuel.message
  | .assembly fault => (MatchFailure.assembly fault).message

end ParseFailure

def TokenStream.syntaxError (stream : TokenStream) (furthest : Furthest) : SyntaxError :=
  let position := min furthest.position stream.eofIndex
  let token := stream.tokens.getD position default
  ⟨position, token.span, token.kind, furthest.expected, furthest.constructs⟩

/-- The tree of what was matched, if that is the whole stream. What is left over is an error: the end was
expected there. -/
def Outcome.toParse (stream : TokenStream) : Outcome → Except ParseFailure SyntaxTree
  | .outOfFuel => .error .outOfFuel
  | .refused state => .error (.syntaxError (stream.syntaxError state.furthest))
  | .matched state =>
      if stream.eofIndex ≤ state.position then
        match SyntaxTree.ofLog stream 0 state.log with
        | .ok tree => .ok tree
        | .error fault => .error (.assembly fault)
      else .error (.syntaxError (stream.syntaxError (state.expect .eof).furthest))

def parseStream (rule : Rule) (stream : TokenStream) : Except ParseFailure SyntaxTree :=
  (rule.nonterminal.run stream.tokens).toParse stream

def parseText (rule : Rule) (text : List Char) : Except ParseFailure SyntaxTree :=
  parseStream rule (tokenize text)

/-- Parses tokens that come from elsewhere, once they are checked. -/
def parseTokens (rule : Rule) (text : List Char) (tokens : Array Token) :
    Except ParseFailure SyntaxTree :=
  match TokenStream.ofTokens text tokens with
  | .ok stream => parseStream rule stream
  | .error error => .error (.stream error)

def matchesText (rule : Rule) (text : List Char) : Bool :=
  match parseText rule text with
  | .ok _ => true
  | .error _ => false

end ScriptTree
