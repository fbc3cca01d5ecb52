/-! # Positions that may be left out

The hole in `[a, , b]` is a position of its list: an absent element and not a missing one. -/
set_option autoImplicit false
namespace ScriptTree

inductive Slot (α : Type) where
  | present (value : α)
  | absent
  deriving DecidableEq, Repr, Inhabited

namespace Slot

variable {α β : Type}

def isPresent : Slot α → Bool
  | present _ => true
  | absent => false

def isAbsent : Slot α → Bool
  | present _ => false
  | absent => true

def toOption : Slot α → Option α
  | present value => some value
  | absent => none

def ofOption : Option α → Slot α
  | some value => present value
  | none => absent

def map (f : α → β) : Slot α → Slot β
  | present value => present (f value)
  | absent => absent

/-- Maps a present value; the position becomes absent when `f` refuses the value. -/
def andThen (slot : Slot α) (f : α → Option β) : Slot β := ofOption (slot.toOption.bind f)

def inspect (element : α → String) : Slot α → String
  | present value => "Present(" ++ element value ++ ")"
  | absent => "Absent"

@[simp] theorem toOption_ofOption (value : Option α) : (ofOption value).toOption = value := by
  cases value <;> rfl

@[simp] theorem ofOption_toOption (slot : Slot α) : ofOption slot.toOption = slot := by
  cases slot <;> rfl

end Slot
end ScriptTree
