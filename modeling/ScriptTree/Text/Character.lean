import ScriptTree.Text.Alphabetic
import ScriptTree.Text.Numeric
import ScriptTree.Text.Extending
import ScriptTree.Text.Unprintable

/-! # Classes of characters

The classes that tokens and trivia are made of, and the two that decide how a character is written
inside quotes. -/
set_option autoImplicit false
namespace ScriptTree.Text

/-- Whether a code point lies in one of the ranges, both ends included. The ranges stand in ascending
order, so the search ends at the first one that starts beyond it. -/
def inRanges (point : Nat) : List (Nat × Nat) → Bool
  | [] => false
  | (first, last) :: rest =>
      if point < first then false else if point ≤ last then true else inRanges point rest

def isLineTerminator (char : Char) : Bool :=
  char == '\n' || char == '\r' || char == '\u2028' || char == '\u2029'

/-- Code points with the property `White_Space`. -/
def whiteSpaceRanges : List (Nat × Nat) := [
  (0x9, 0xD), (0x20, 0x20), (0x85, 0x85), (0xA0, 0xA0), (0x1680, 0x1680), (0x2000, 0x200A),
  (0x2028, 0x2029), (0x202F, 0x202F), (0x205F, 0x205F), (0x3000, 0x3000)]

/-- White space other than line terminators. The byte order mark counts. -/
def isWhitespace (char : Char) : Bool :=
  char == '\ufeff' || inRanges char.toNat whiteSpaceRanges && !isLineTerminator char

def isAlphabetic (char : Char) : Bool := inRanges char.toNat alphabeticRanges

def isNumeric (char : Char) : Bool := inRanges char.toNat numericRanges

def isIdentifierStart (char : Char) : Bool := char == '$' || char == '_' || isAlphabetic char

/-- The two joiners continue an identifier as letters and numbers do. -/
def isIdentifierPart (char : Char) : Bool :=
  isIdentifierStart char || isNumeric char || char == '\u200c' || char == '\u200d'

def isDecimalDigit (char : Char) : Bool := '0' ≤ char && char ≤ '9'

def isHexDigit (char : Char) : Bool :=
  isDecimalDigit char || 'a' ≤ char && char ≤ 'f' || 'A' ≤ char && char ≤ 'F'

/-- Whether a character combines with the one before it. -/
def isExtending (char : Char) : Bool := inRanges char.toNat extendingRanges

def isPrintable (char : Char) : Bool := !inRanges char.toNat unprintableRanges

end ScriptTree.Text
