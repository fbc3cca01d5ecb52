import ScriptTree.Text.Character

/-! # Scanning words, numbers and literals

Each scanner splits a text into what it takes and the rest, or refuses it. Nothing is lost: what is
taken followed by the rest is the text. -/
set_option autoImplicit false
namespace ScriptTree

/-- A text that was cut in two. -/
structure Split where
  taken : List Char
  rest : List Char
  deriving DecidableEq, Repr, Inhabited

namespace Split

/-- Puts characters before what was taken. -/
def after (first : List Char) (split : Split) : Split := ⟨first ++ split.taken, split.rest⟩

def run (accepts : Char → Bool) (text : List Char) : Split :=
  ⟨text.takeWhile accepts, text.dropWhile accepts⟩

def andThen (split : Split) (scan : List Char → Split) : Split := (scan split.rest).after split.taken

def optional (char : Char) : List Char → Split
  | [] => ⟨[], []⟩
  | next :: rest => if next = char then ⟨[next], rest⟩ else ⟨[], next :: rest⟩

def whole (text : List Char) : Split := ⟨text, []⟩

end Split

namespace Scan

open Text

/-! ## Comments -/

/-- A comment after its `/*`, up to and with the first `*/`. -/
def blockComment : List Char → Option Split
  | [] => none
  | '*' :: '/' :: rest => some ⟨['*', '/'], rest⟩
  | char :: rest => (blockComment rest).map (Split.after [char])

def lineComment (text : List Char) : Split := Split.run (fun char => !isLineTerminator char) text

/-! ## Literals -/

/-- A string after its opening quote. A backslash takes the next character with it, and a `\r\n`
together; any other line feed or carriage return leaves the string open. -/
def string (quote : Char) : List Char → Option Split
  | [] => none
  | '\\' :: '\r' :: '\n' :: rest => (string quote rest).map (Split.after ['\\', '\r', '\n'])
  | '\\' :: char :: rest => (string quote rest).map (Split.after ['\\', char])
  | char :: rest =>
      if char = quote then some ⟨[char], rest⟩
      else if char = '\n' ∨ char = '\r' then none
      else (string quote rest).map (Split.after [char])

/-- A template chunk after the character that opens it, and whether a substitution follows. -/
def template : List Char → Option (Bool × Split)
  | [] => none
  | '\x60' :: rest => some (false, ⟨['\x60'], rest⟩)
  | '$' :: '\x7b' :: rest => some (true, ⟨['$', '\x7b'], rest⟩)
  | '\\' :: char :: rest =>
      (template rest).map fun (continued, split) => (continued, split.after ['\\', char])
  | char :: rest => (template rest).map fun (continued, split) => (continued, split.after [char])

/-- The body of a regular expression up to the `/` that ends it; between brackets a `/` is an
ordinary character. A line terminator leaves the expression open, escaped or not. -/
def regexBody : Bool → List Char → Option Split
  | _, [] => none
  | inClass, '\\' :: char :: rest =>
      if isLineTerminator char then none
      else (regexBody inClass rest).map (Split.after ['\\', char])
  | inClass, char :: rest =>
      if isLineTerminator char then none
      else if char = '/' ∧ inClass = false then some ⟨[char], rest⟩
      else
        let inside := if char = '[' then true else if char = ']' then false else inClass
        (regexBody inside rest).map (Split.after [char])

def regex (text : List Char) : Option Split :=
  (regexBody false text).map fun body => body.andThen (Split.run isIdentifierPart)

/-! ## Identifiers -/

def hexDigits : Nat → List Char → Split
  | 0, text => ⟨[], text⟩
  | _ + 1, [] => ⟨[], []⟩
  | count + 1, char :: rest =>
      if isHexDigit char then (hexDigits count rest).after [char] else ⟨[], char :: rest⟩

/-- A character escape after its backslash, and whether it is complete. An incomplete one takes what
it could. -/
def unicodeEscape : List Char → Bool × Split
  | 'u' :: '\x7b' :: rest =>
      let digits := (Split.run isHexDigit rest).after ['u', '\x7b']
      match digits.rest with
      | '\x7d' :: more => (true, ⟨digits.taken ++ ['\x7d'], more⟩)
      | _ => (false, digits)
  | 'u' :: rest =>
      let digits := hexDigits 4 rest
      (digits.taken.length == 4, digits.after ['u'])
  | text => (false, ⟨[], text⟩)

/-- The rest of an identifier, and whether it has a complete escape. The word ends at an incomplete
escape, which stays part of it. Characters and escapes together are no more than `budget` has
characters. -/
def identifierWithin : List Char → List Char → Bool × Split
  | [], text => (false, ⟨[], text⟩)
  | _ :: _, [] => (false, ⟨[], []⟩)
  | _ :: budget, '\\' :: rest =>
      match unicodeEscape rest with
      | (false, escape) => (false, escape.after ['\\'])
      | (true, escape) =>
          let (_, more) := identifierWithin budget escape.rest
          (true, (more.after escape.taken).after ['\\'])
  | _ :: budget, char :: rest =>
      if isIdentifierPart char then
        let (escaped, more) := identifierWithin budget rest
        (escaped, more.after [char])
      else (false, ⟨[], char :: rest⟩)

/-- Every character and every escape is a character long at least, so the text itself is budget
enough. -/
def identifierRest (text : List Char) : Bool × Split := identifierWithin text text

/-- The first character of an identifier, or the escape that stands for it, and whether it is
there. -/
def identifierStart : List Char → Bool × Split
  | '\\' :: rest =>
      let (complete, escape) := unicodeEscape rest
      (complete, escape.after ['\\'])
  | char :: rest => if isIdentifierStart char then (true, ⟨[char], rest⟩) else (false, ⟨[], char :: rest⟩)
  | [] => (false, ⟨[], []⟩)

/-! ## Numbers -/

def isDigitOrSeparator (char : Char) : Bool := isDecimalDigit char || char == '_'

def digits (text : List Char) : Split := Split.run isDigitOrSeparator text

/-- The exponent of a number; without a digit after the mark and the sign there is none. -/
def exponent : List Char → Split
  | mark :: sign :: digit :: rest =>
      if mark = 'e' ∨ mark = 'E' then
        if isDecimalDigit sign then (digits (sign :: digit :: rest)).after [mark]
        else if (sign = '+' ∨ sign = '-') ∧ isDecimalDigit digit then
          (digits (digit :: rest)).after [mark, sign]
        else ⟨[], mark :: sign :: digit :: rest⟩
      else ⟨[], mark :: sign :: digit :: rest⟩
  | [mark, digit] =>
      if (mark = 'e' ∨ mark = 'E') ∧ isDecimalDigit digit then ⟨[mark, digit], []⟩
      else ⟨[], [mark, digit]⟩
  | text => ⟨[], text⟩

def fraction : List Char → Split
  | '.' :: rest => (digits rest).after ['.']
  | text => ⟨[], text⟩

def isRadixMark (char : Char) : Bool :=
  char == 'x' || char == 'X' || char == 'o' || char == 'O' || char == 'b' || char == 'B'

/-- The rest of a number after its first character. Every radix takes hexadecimal digits. -/
def number (first : Char) (text : List Char) : Split :=
  match text with
  | mark :: rest =>
      if first = '0' ∧ isRadixMark mark then
        ((Split.run (fun char => isHexDigit char || char == '_') rest).after [mark]).andThen
          (Split.optional 'n')
      else decimal first text
  | [] => decimal first text
where
  /-- Digits, fraction and exponent, and the mark of a big integer. -/
  decimal (first : Char) (text : List Char) : Split :=
    let whole := digits text
    let upToFraction := if first = '.' then whole else whole.andThen fraction
    (upToFraction.andThen exponent).andThen (Split.optional 'n')

end Scan
end ScriptTree
