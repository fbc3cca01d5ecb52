/-! # Margins

An excerpt has a limited width. Which columns of its lines are shown depends on how far the lines are
indented, on the columns that are marked and on the label behind the marks. -/
set_option autoImplicit false
namespace ScriptTree

/-- What is known of an excerpt when its margin is chosen: the least indentation of the lines that hold
more than blanks, the marked columns, the column behind the label, the length of the longest line and
the width there is for text. -/
structure ExcerptLayout where
  indent : Option Nat
  firstMarked : Nat
  behindMarked : Nat
  behindLabel : Nat
  longest : Nat
  width : Nat
  deriving DecidableEq, Repr

/-- The columns that are shown: those from `left` on, and of a line that is too wide only those before
`right`. Lines of blanks alone have no `left`; nothing of them is shown. -/
structure Margin where
  left : Option Nat
  right : Nat
  width : Nat
  deriving DecidableEq, Repr

namespace Margin

def slack : Nat := 6

/-- An indentation up to this is shown. -/
def longIndent : Nat := 20

/-- What is left of a longer one. -/
def shownIndent : Nat := 16

/-- Long indentation is cut. If a line is still too wide, the columns shown are those behind all
indentation, or around marks and label, or around the marks, whichever of them first has room for what
it has to show. -/
def ofLayout (layout : ExcerptLayout) : Margin :=
  match layout.indent with
  | none => ⟨none, 0, layout.width⟩
  | some whole =>
      let indent := whole - slack
      let first := layout.firstMarked - slack
      let marked := layout.behindMarked + slack - first
      let labelled := layout.behindLabel + slack - first
      let cut := if longIndent < indent then indent - shownIndent else 0
      let placedAt (left : Nat) : Margin := ⟨some left, left + layout.width, layout.width⟩
      if max layout.longest cut - cut ≤ layout.width then
        ⟨some cut, max layout.longest cut, layout.width⟩
      else if layout.behindLabel + slack - indent ≤ layout.width then placedAt indent
      else if labelled ≤ layout.width then placedAt (first - (layout.width - labelled) / 2)
      else if marked ≤ layout.width then placedAt (first - (layout.width - marked) / 5 * 2)
      else ⟨some first, layout.behindMarked + slack, layout.width⟩

def cutsLeft (margin : Margin) : Bool := margin.left != some 0

def start (margin : Margin) (length : Nat) : Nat := min (margin.left.getD length) length

def stop (margin : Margin) (length : Nat) : Nat :=
  if length - margin.left.getD length ≤ margin.width then length else min length margin.right

end Margin
end ScriptTree
