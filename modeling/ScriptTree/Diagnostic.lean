import ScriptTree.Text.Character
import ScriptTree.Text.Passage
import ScriptTree.Diagnostic.Margin

/-! # Diagnostics

A message about a range of a text, shown as the line the range starts on with carets below it. -/
set_option autoImplicit false
namespace ScriptTree

structure Diagnostic where
  message : String
  span : Span
  label : String
  deriving DecidableEq, Repr

namespace Text

/-- A text as it is shown: a tab is four blanks. -/
def expandTabs (text : List Char) : List Char :=
  text.flatMap fun char => if char = '\t' then [' ', ' ', ' ', ' '] else [char]

/-- Number of columns that a character takes when marks are placed under a text. Control characters
take none. -/
def columnsOf (char : Char) : Nat :=
  if char = '\t' then 4
  else if char.toNat < 32 ∨ 127 ≤ char.toNat ∧ char.toNat < 160 then 0
  else 1

def columns (text : List Char) : Nat := text.foldr (fun char total => columnsOf char + total) 0

def isBlank (char : Char) : Bool := inRanges char.toNat whiteSpaceRanges

/-- The indentation of a line; a line of blanks alone has none. -/
def indent? (line : List Char) : Option Nat :=
  if line.all isBlank then none else some (expandTabs (line.takeWhile isBlank)).length

/-- A line with a text written over it from a column on, behind blanks if the line is shorter. -/
def overwrite (line : List Char) (column : Nat) (text : List Char) : List Char :=
  if text.isEmpty then line
  else
    line.take column ++ List.replicate (column - line.length) ' ' ++ text ++
      line.drop (column + text.length)

end Text

namespace Diagnostic

open Text

def error (message : String) (span : Span) : Diagnostic := ⟨message, span, "here"⟩

def totalWidth : Nat := 140

def ellipsis : List Char := ['.', '.', '.']

/-- The columns under which carets stand; there is one at least. -/
def marked (diagnostic : Diagnostic) (start : Nat) (line : List Char) : Nat × Nat :=
  let first := columns (takeBytes (diagnostic.span.start - start) line)
  let behind := columns (takeBytes (diagnostic.span.stop - start) line)
  (first, if behind = first then first + 1 else behind)

/-- The margin of the lines of a passage, of which the first one is marked. Room is kept for the number
of the line behind the passage. -/
def margin (diagnostic : Diagnostic) (passage : Passage) (first : List Char)
    (others : List (List Char)) : Margin :=
  let all := first :: others
  let (firstMarked, behindMarked) := diagnostic.marked passage.start first
  .ofLayout {
    indent := (all.filterMap indent?).min?
    firstMarked := firstMarked
    behindMarked := behindMarked
    behindLabel := behindMarked + diagnostic.label.utf8ByteSize + 1
    longest := (all.map byteLength).foldr max 0
    width := totalWidth - (3 + (toString (passage.number + all.length)).length) }

def sourceLine (margin : Margin) (number : Nat) (line : List Char) : List Char :=
  let front := (toString number).toList ++ [' ', '|']
  let text := expandTabs line
  let start := margin.start (byteLength text)
  let rest := text.drop start
  let shown := rest.take (margin.stop (byteLength text) - start)
  let plain := overwrite front (front.length + 1) shown
  let cut := if margin.cutsLeft then overwrite plain (front.length + 1) ellipsis else plain
  if shown.length < rest.length then
    overwrite cut (front.length + 1 + shown.length - ellipsis.length) ellipsis
  else cut

def markLine (diagnostic : Diagnostic) (margin : Margin) (front : List Char) (start : Nat)
    (line : List Char) : List Char :=
  let (first, behind) := diagnostic.marked start line
  let hidden := margin.start (byteLength (expandTabs line))
  let labelled := overwrite front (front.length + 1 + (behind + 1 - hidden)) diagnostic.label.toList
  (List.range (behind - first)).foldl
    (fun marks index => overwrite marks (front.length + 1 + first + index - hidden) ['^']) labelled

/-- The message, the place of the range under the path that the text goes by, and the line on which the
range starts. A range that starts behind the last line, or on an empty one, has no line to show and
gets the start of the text for a place. -/
def render (diagnostic : Diagnostic) (path : String) (text : List Char) : String :=
  let passage := Text.passage text diagnostic.span
  let title := "error" ++ if diagnostic.message.isEmpty then "" else ": " ++ diagnostic.message
  let origin := if path.isEmpty then "-->" else "--> " ++ path
  match lines passage.text with
  | [] => "\n".intercalate [title, origin ++ ":1:1", " |", " |"]
  | first :: others =>
      let margin := diagnostic.margin passage first others
      let row := passage.number
      let column := (takeBytes (diagnostic.span.start - passage.start) first).length + 1
      let width := (toString row).length
      let front := List.replicate (width + 1) ' ' ++ ['|']
      "\n".intercalate [
        title,
        "".pushn ' ' width ++ origin ++ s!":{row}:{column}",
        String.ofList front,
        String.ofList (sourceLine margin row first),
        String.ofList (diagnostic.markLine margin front passage.start first),
        String.ofList front]

end Diagnostic
end ScriptTree
