import ScriptTree.Token.Punctuator
import ScriptTree.Token.Stream

/-! # The tokenizer

A tokenizer is a position in a text with what it has to remember: the kind of the last token, which
decides whether a slash divides, and the braces and templates that are open. Every text becomes
tokens; what is not a token of the language becomes `unknown`. -/
set_option autoImplicit false
namespace ScriptTree

open Text

/-! ## Trivia -/

/-- The piece of trivia at the start of a text, if there is one. Trailing trivia ends before a line
break, and before a comment that contains one. A comment that never ends is no trivia. -/
def triviaPiece? (trailing : Bool) (offset : Nat) : List Char → Option (TriviaKind × Split)
  | '#' :: '!' :: rest =>
      if offset = 0 then some (.singleLineComment, Scan.lineComment ('#' :: '!' :: rest)) else none
  | '/' :: '/' :: rest => some (.singleLineComment, Scan.lineComment ('/' :: '/' :: rest))
  | '/' :: '*' :: rest =>
      match Scan.blockComment rest with
      | none => none
      | some comment =>
          let hasNewline := comment.taken.any isLineTerminator
          if trailing && hasNewline then none
          else some (.multiLineComment hasNewline, comment.after ['/', '*'])
  | '\r' :: '\n' :: rest => if trailing then none else some (.newline, ⟨['\r', '\n'], rest⟩)
  | char :: rest =>
      if isLineTerminator char then
        if trailing then none else some (.newline, ⟨[char], rest⟩)
      else if isWhitespace char then some (.whitespace, Split.run isWhitespace (char :: rest))
      else none
  | [] => none

/-- The trivia at the start of a text, the offset behind it and the text that follows. There are no
more pieces than `budget` has characters. -/
def triviaWithin (trailing : Bool) :
    List Char → Nat → List Char → List TriviaPiece × Nat × List Char
  | [], offset, text => ([], offset, text)
  | _ :: budget, offset, text =>
      match triviaPiece? trailing offset text with
      | none => ([], offset, text)
      | some (kind, split) =>
          let length := byteLength split.taken
          let (pieces, stop, rest) := triviaWithin trailing budget (offset + length) split.rest
          (⟨kind, length⟩ :: pieces, stop, rest)

/-- Every piece has a character at least, so the text itself is budget enough. -/
def takeTrivia (trailing : Bool) (offset : Nat) (text : List Char) : Trivia × Nat × List Char :=
  let (pieces, stop, rest) := triviaWithin trailing text offset text
  (⟨pieces⟩, stop, rest)

/-! ## Token kinds -/

/-- A slash divides after a token that ends a value, and starts a regular expression elsewhere. -/
def slashStartsRegex : Option Kind → Bool
  | none => true
  | some previous =>
      if previous.isContextualKeyword then previous == .yieldKw || previous == .awaitKw
      else !([.ident, .privateName, .number, .string, .regex, .noSubstitutionTemplate, .templateTail,
        .rightParen, .rightBracket, .plus2, .minus2, .trueKw, .falseKw, .nullKw, .thisKw,
        .superKw].contains previous)

/-- What a tokenizer remembers between two tokens: the kind of the last one, the number of open braces,
and that number at each open substitution of a template, innermost first. -/
structure Memory where
  previous : Option Kind
  braceDepth : Nat
  substitutions : List Nat
  deriving DecidableEq, Repr, Inhabited

namespace Memory

def initial : Memory := ⟨none, 0, []⟩

def template (memory : Memory) (first : Char) (rest : List Char) (closed continued : Kind) :
    Kind × Split × Memory :=
  match Scan.template rest with
  | none => (.unknown, Split.whole (first :: rest), memory)
  | some (false, chunk) => (closed, chunk.after [first], memory)
  | some (true, chunk) =>
      (continued, chunk.after [first],
        { memory with substitutions := memory.braceDepth :: memory.substitutions })

/-- A closing brace ends the innermost substitution if no brace was opened in it since. -/
def closingBrace (memory : Memory) (rest : List Char) : Kind × Split × Memory :=
  match memory.substitutions with
  | depth :: outer =>
      if depth = memory.braceDepth then
        { memory with substitutions := outer }.template '\x7d' rest .templateTail .templateMiddle
      else (.rightBrace, ⟨['\x7d'], rest⟩, { memory with braceDepth := memory.braceDepth - 1 })
  | [] => (.rightBrace, ⟨['\x7d'], rest⟩, { memory with braceDepth := memory.braceDepth - 1 })

end Memory

def scanWord (first : Char) (rest : List Char) : Kind × Split :=
  let (escaped, more) := Scan.identifierRest rest
  let word := more.after [first]
  match Kind.ofKeyword? (String.ofList word.taken) with
  | some keyword => (if escaped then .ident else keyword, word)
  | none => (.ident, word)

def closedOrUnknown (kind : Kind) (text first : List Char) : Option Split → Kind × Split
  | some split => (kind, split.after first)
  | none => (.unknown, Split.whole text)

def scanSlash (previous : Option Kind) (rest : List Char) : Kind × Split :=
  match rest with
  | '*' :: _ => (.unknown, Split.whole ('/' :: rest))
  | _ =>
      if slashStartsRegex previous then closedOrUnknown .regex ('/' :: rest) ['/'] (Scan.regex rest)
      else decideAfter '/' .division rest

def scanPrivateName (rest : List Char) : Kind × Split :=
  match Scan.identifierStart rest with
  | (false, start) => (.unknown, start.after ['#'])
  | (true, start) =>
      (.privateName, (start.andThen fun text => (Scan.identifierRest text).2).after ['#'])

def scanEscapedWord (rest : List Char) : Kind × Split :=
  match Scan.unicodeEscape rest with
  | (false, escape) => (.unknown, escape.after ['\\'])
  | (true, escape) =>
      (.ident, (escape.andThen fun text => (Scan.identifierRest text).2).after ['\\'])

/-- A token that only its kind is remembered of. -/
def Memory.keep (memory : Memory) (scanned : Kind × Split) : Kind × Split × Memory :=
  (scanned.1, scanned.2, memory)

/-- A token that starts with neither a letter nor a digit, and is no number with a point in front. -/
def scanMark (memory : Memory) (first : Char) (rest : List Char) : Kind × Split × Memory :=
  match first with
  | '\x22' => memory.keep (closedOrUnknown .string (first :: rest) [first] (Scan.string first rest))
  | '\x27' => memory.keep (closedOrUnknown .string (first :: rest) [first] (Scan.string first rest))
  | '\x60' => memory.template first rest .noSubstitutionTemplate .templateHead
  | '\\' => memory.keep (scanEscapedWord rest)
  | '#' => memory.keep (scanPrivateName rest)
  | '/' => memory.keep (scanSlash memory.previous rest)
  | '\x7b' => (.leftBrace, ⟨[first], rest⟩, { memory with braceDepth := memory.braceDepth + 1 })
  | '\x7d' => memory.closingBrace rest
  | '.' => memory.keep (scanPoints rest)
  | '?' => memory.keep (scanQuestionMark rest)
  | _ => memory.keep (decideAfter first (.after first) rest)

/-- Whether a point and what follows are a number. -/
def startsPointedNumber (first : Char) (rest : List Char) : Bool :=
  first == '.' && (rest.head?.map isDecimalDigit).getD false

/-- The token at the start of a text that does not start with trivia. -/
def scanToken (memory : Memory) : List Char → Kind × Split × Memory
  | [] => (.eof, ⟨[], []⟩, memory)
  | first :: rest =>
      if isIdentifierStart first then memory.keep (scanWord first rest)
      else if isDecimalDigit first || startsPointedNumber first rest then
        memory.keep (.number, (Scan.number first rest).after [first])
      else scanMark memory first rest

/-- The characters with a branch of their own in `scanMark`. -/
def markStarts : List Char := ['\x22', '\x27', '\x60', '\\', '#', '/', '\x7b', '\x7d', '.', '?']

theorem not_start_of_mem_markStarts {first : Char} (listed : first ∈ markStarts) :
    isIdentifierStart first = false ∧ isDecimalDigit first = false := by
  have all : markStarts.all fun first => !isIdentifierStart first && !isDecimalDigit first := by
    decide +kernel
  simpa using List.all_eq_true.mp all first listed

theorem scanToken_of_mem_markStarts (memory : Memory) {first : Char} {rest : List Char}
    (listed : first ∈ markStarts) (noNumber : startsPointedNumber first rest = false) :
    scanToken memory (first :: rest) = scanMark memory first rest := by
  simp [scanToken, not_start_of_mem_markStarts listed, noNumber]

theorem scanMark_of_notMem (memory : Memory) {first : Char} (other : first ∉ markStarts)
    (rest : List Char) :
    scanMark memory first rest = memory.keep (decideAfter first (.after first) rest) := by
  unfold scanMark
  split
  case h_11 => rfl
  all_goals exact absurd (by decide) other

/-! ## Tokens -/

structure Tokenizer where
  rest : List Char
  offset : Nat
  memory : Memory
  deriving DecidableEq, Repr, Inhabited

namespace Tokenizer

def ofText (text : List Char) : Tokenizer := ⟨text, 0, .initial⟩

def nextToken (tokenizer : Tokenizer) : Token × Tokenizer :=
  let (leading, start, text) := takeTrivia false tokenizer.offset tokenizer.rest
  let (kind, split, memory) := scanToken tokenizer.memory text
  let stop := start + byteLength split.taken
  let memory := { memory with previous := some kind }
  if kind = .eof then (⟨leading, kind, ⟨start, stop⟩, .empty⟩, ⟨split.rest, stop, memory⟩)
  else
    let (trailing, finish, rest) := takeTrivia true stop split.rest
    (⟨leading, kind, ⟨start, stop⟩, trailing⟩, ⟨rest, finish, memory⟩)

def isDone (tokenizer : Tokenizer) : Bool := tokenizer.memory.previous == some .eof

def tokensWithin : Nat → Tokenizer → List Token
  | 0, _ => []
  | budget + 1, tokenizer =>
      if tokenizer.isDone then []
      else
        let (token, next) := tokenizer.nextToken
        token :: tokensWithin budget next

/-- The tokens that are left, `eof` included; none once `eof` was given out. -/
def remaining (tokenizer : Tokenizer) : List Token :=
  tokensWithin (tokenizer.rest.length + 1) tokenizer

end Tokenizer

/-- The tokens of a text. There is no failure. -/
def tokenize (text : List Char) : TokenStream :=
  ⟨text, (Tokenizer.ofText text).remaining.toArray⟩

end ScriptTree
