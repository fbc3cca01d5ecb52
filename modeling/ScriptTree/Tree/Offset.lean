import ScriptTree.Tree.Basic

/-! # The token at an offset

Tokens lie side by side, so at most two touch an offset. They are found by bisection over the ends of
the tokens of a node. -/
set_option autoImplicit false
namespace ScriptTree

inductive TokenAtOffset (α : Type) where
  | none
  | single (token : α)
  | between (left right : α)
  deriving DecidableEq, Repr

namespace TokenAtOffset

variable {α β : Type}

def map (f : α → β) : TokenAtOffset α → TokenAtOffset β
  | none => none
  | single token => single (f token)
  | between left right => between (f left) (f right)

def toList : TokenAtOffset α → List α
  | none => []
  | single token => [token]
  | between left right => [left, right]

def left? : TokenAtOffset α → Option α
  | none => Option.none
  | single token => some token
  | between left _ => some left

def right? : TokenAtOffset α → Option α
  | none => Option.none
  | single token => some token
  | between _ right => some right

def caseName : TokenAtOffset α → String
  | none => "None"
  | single _ => "Single"
  | between _ _ => "Between"

def inspect (f : α → String) : TokenAtOffset α → String
  | none => "None"
  | single token => "Single(" ++ f token ++ ")"
  | between left right => "Between(" ++ f left ++ ", " ++ f right ++ ")"

end TokenAtOffset

/-- The first index from `low` up to `high` at which `holds` fails, found by bisection; `budget` bounds
the number of halvings. -/
def partitionPoint (holds : Nat → Bool) : Nat → Nat → Nat → Nat
  | 0, low, _ => low
  | budget + 1, low, high =>
      if high ≤ low then low
      else
        let middle := (low + high) / 2
        if holds middle then partitionPoint holds budget (middle + 1) high
        else partitionPoint holds budget low middle

namespace SyntaxTree

/-- The tokens of a node that touch an offset. -/
def tokenAtOffset (tree : SyntaxTree) (node : NodeId) (offset : Nat) : TokenAtOffset TokenId :=
  if !(tree.span node).touches offset then .none
  else
    let first := (tree.entry node).firstToken
    let stop := (tree.entry node).endToken
    let index := partitionPoint (fun id => (tree.token id).fullSpan.stop < offset)
      (stop - first) first stop
    if stop ≤ index then .none
    else if index + 1 < stop ∧ (tree.token index).fullSpan.stop = offset then
      .between index (index + 1)
    else .single index

end SyntaxTree
end ScriptTree
