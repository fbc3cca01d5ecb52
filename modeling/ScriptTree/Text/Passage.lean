import ScriptTree.Text.Bytes

/-! # Passages

The whole lines that a range of a text lies on. Only `\n` ends a line here; a `\r` before it belongs to
the end of the line. -/
set_option autoImplicit false
namespace ScriptTree.Text

/-- The lines of a text without their ends; `line` holds the characters of the first one that were
read already, last first. Behind a last line break there is no line. -/
def linesFrom (line : List Char) : List Char → List (List Char)
  | [] => if line.isEmpty then [] else [line.reverse]
  | '\r' :: '\n' :: rest => line.reverse :: linesFrom [] rest
  | char :: rest =>
      if char = '\n' then line.reverse :: linesFrom [] rest else linesFrom (char :: line) rest

def lines (text : List Char) : List (List Char) := linesFrom [] text

/-- Some lines of a longer text: the number of the first one, counted from one, the offset where it
starts, and their text up to the `\n` that ends the last one. -/
structure Passage where
  number : Nat
  start : Nat
  text : List Char
  deriving DecidableEq, Repr

/-- The lines that a range touches, from the one on which it starts to the one on which it ends. -/
def passage (text : List Char) (span : Span) : Passage :=
  let before := takeBytes span.start text
  let start := byteLength before - byteLength (before.reverse.takeWhile fun char => char != '\n')
  let later := dropBytes start text
  let upTo := takeBytes (span.stop - start) later
  let behind := dropBytes (span.stop - start) later
  ⟨before.count '\n' + 1, start, upTo ++ behind.takeWhile fun char => char != '\n'⟩

end ScriptTree.Text
