/-! # Lists with their separators

Elements and separators alternate, starting with an element. They are kept apart and interleaved again
by position, from either end. -/
set_option autoImplicit false
namespace ScriptTree

inductive ListItem (α σ : Type) where
  | element (value : α)
  | separator (value : σ)
  deriving DecidableEq, Repr

namespace ListItem

variable {α β σ τ : Type}

def map (f : α → β) (g : σ → τ) : ListItem α σ → ListItem β τ
  | element value => element (f value)
  | separator value => separator (g value)

def inspect (ofElement : α → String) (ofSeparator : σ → String) : ListItem α σ → String
  | element value => "Element(" ++ ofElement value ++ ")"
  | separator value => "Separator(" ++ ofSeparator value ++ ")"

end ListItem

structure SeparatedList (α σ : Type) where
  elements : Array α
  separators : Array σ
  deriving DecidableEq, Inhabited

namespace SeparatedList

variable {α σ : Type}

def empty : SeparatedList α σ := ⟨#[], #[]⟩

def size (list : SeparatedList α σ) : Nat := list.elements.size

def isEmpty (list : SeparatedList α σ) : Bool := list.elements.isEmpty

def hasTrailingSeparator (list : SeparatedList α σ) : Bool :=
  !list.elements.isEmpty && list.separators.size == list.elements.size

/-- The separator that follows the element at an index, as a list of at most one item. -/
def separatorAfter (list : SeparatedList α σ) (index : Nat) : List (ListItem α σ) :=
  (list.separators[index]?.map .separator).toList

def items (list : SeparatedList α σ) : List (ListItem α σ) :=
  list.elements.toList.zipIdx.flatMap fun (value, index) =>
    .element value :: list.separatorAfter index

def itemsBack (list : SeparatedList α σ) : List (ListItem α σ) :=
  list.elements.toList.zipIdx.reverse.flatMap fun (value, index) =>
    list.separatorAfter index ++ [.element value]

def positions (list : SeparatedList α σ) : Nat := list.elements.size + list.separators.size

end SeparatedList

/-- What may not be appended to a list that is being built. -/
inductive ListFault where
  | adjacentElements
  | leadingSeparator
  deriving DecidableEq, Repr

def ListFault.message : ListFault → String
  | .adjacentElements => "two list elements without a separator between them"
  | .leadingSeparator => "separator without a preceding element"

/-- A list under construction: it grows at the end and keeps elements and separators alternating. -/
structure SeparatedListBuilder (α σ : Type) where
  elements : Array α
  separators : Array σ
  deriving DecidableEq, Inhabited

namespace SeparatedListBuilder

variable {α σ : Type}

def empty : SeparatedListBuilder α σ := ⟨#[], #[]⟩

def expectsElement (builder : SeparatedListBuilder α σ) : Bool :=
  builder.elements.size == builder.separators.size

def pushElement (builder : SeparatedListBuilder α σ) (value : α) :
    Except ListFault (SeparatedListBuilder α σ) :=
  if builder.expectsElement then
    .ok ⟨builder.elements.push value, builder.separators⟩
  else
    .error .adjacentElements

def pushSeparator (builder : SeparatedListBuilder α σ) (value : σ) :
    Except ListFault (SeparatedListBuilder α σ) :=
  if builder.expectsElement then
    .error .leadingSeparator
  else
    .ok ⟨builder.elements, builder.separators.push value⟩

def finish (builder : SeparatedListBuilder α σ) : SeparatedList α σ :=
  ⟨builder.elements, builder.separators⟩

end SeparatedListBuilder
end ScriptTree
