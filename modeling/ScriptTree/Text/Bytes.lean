/-! # Byte offsets into a text

A text is a list of characters, and offsets count the bytes of its UTF-8 form. An offset is a boundary
when no character straddles it; between two boundaries there is a slice. -/
set_option autoImplicit false
namespace ScriptTree.Text

def byteLength : List Char → Nat
  | [] => 0
  | char :: rest => char.utf8Size + byteLength rest

def dropBytes : Nat → List Char → List Char
  | 0, text => text
  | _ + 1, [] => []
  | offset + 1, char :: rest => dropBytes (offset + 1 - char.utf8Size) rest

def takeBytes : Nat → List Char → List Char
  | 0, _ => []
  | _ + 1, [] => []
  | offset + 1, char :: rest => char :: takeBytes (offset + 1 - char.utf8Size) rest

def isBoundary : Nat → List Char → Bool
  | 0, _ => true
  | _ + 1, [] => false
  | offset + 1, char :: rest =>
      char.utf8Size ≤ offset + 1 && isBoundary (offset + 1 - char.utf8Size) rest

def slice (text : List Char) (start stop : Nat) : List Char :=
  takeBytes (stop - start) (dropBytes start text)

@[simp] theorem byteLength_append (left right : List Char) :
    byteLength (left ++ right) = byteLength left + byteLength right := by
  induction left with
  | nil => simp [byteLength]
  | cons char rest ih => simp [byteLength, ih, Nat.add_assoc]

end ScriptTree.Text

namespace ScriptTree

structure Span where
  start : Nat
  stop : Nat
  deriving DecidableEq, Repr, Inhabited

namespace Span

def isEmpty (span : Span) : Bool := span.start == span.stop

def emptyAt (offset : Nat) : Span := ⟨offset, offset⟩

/-- Whether an offset lies in the range or at its end. -/
def touches (span : Span) (offset : Nat) : Bool := span.start ≤ offset && offset ≤ span.stop

def inspect (span : Span) : String := toString span.start ++ ".." ++ toString span.stop

def sliceOf (span : Span) (text : List Char) : List Char := Text.slice text span.start span.stop

end Span
end ScriptTree
