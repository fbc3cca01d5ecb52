import ScriptTree.SeparatedList

/-! # Alternating lists

What is pushed on a list under construction comes back in order: a list whose items alternate has them
as its interleaved view. -/
set_option autoImplicit false
namespace ScriptTree

variable {α σ : Type}

namespace ListItem

def element? : ListItem α σ → Option α
  | element value => some value
  | separator _ => none

def separator? : ListItem α σ → Option σ
  | element _ => none
  | separator value => some value

end ListItem

namespace SeparatedListBuilder

def ofItems (items : List (ListItem α σ)) : SeparatedListBuilder α σ :=
  ⟨(items.filterMap ListItem.element?).toArray, (items.filterMap ListItem.separator?).toArray⟩

@[simp] theorem ofItems_nil : ofItems ([] : List (ListItem α σ)) = empty := rfl

@[simp] theorem ofItems_element (items : List (ListItem α σ)) (value : α) :
    ofItems (items ++ [.element value]) =
      ⟨(ofItems items).elements.push value, (ofItems items).separators⟩ := by
  simp [ofItems, List.filterMap_cons, ListItem.element?, ListItem.separator?]

@[simp] theorem ofItems_separator (items : List (ListItem α σ)) (value : σ) :
    ofItems (items ++ [.separator value]) =
      ⟨(ofItems items).elements, (ofItems items).separators.push value⟩ := by
  simp [ofItems, List.filterMap_cons, ListItem.element?, ListItem.separator?]

theorem pushElement_ofItems {items : List (ListItem α σ)}
    (even : (ofItems items).elements.size = (ofItems items).separators.size) (value : α) :
    (ofItems items).pushElement value = .ok (ofItems (items ++ [.element value])) := by
  simp [pushElement, expectsElement, even]

theorem pushSeparator_ofItems {items : List (ListItem α σ)}
    (odd : (ofItems items).elements.size = (ofItems items).separators.size + 1) (value : σ) :
    (ofItems items).pushSeparator value = .ok (ofItems (items ++ [.separator value])) := by
  simp [pushSeparator, expectsElement, odd]

end SeparatedListBuilder

namespace SeparatedList

theorem items_pushElement {elements : Array α} {separators : Array σ}
    (even : elements.size = separators.size) (value : α) :
    (⟨elements.push value, separators⟩ : SeparatedList α σ).items =
      (⟨elements, separators⟩ : SeparatedList α σ).items ++ [.element value] := by
  simp [items, separatorAfter, List.zipIdx_append, even]

theorem items_pushSeparator {elements : Array α} {separators : Array σ}
    (odd : elements.size = separators.size + 1) (value : σ) :
    (⟨elements, separators.push value⟩ : SeparatedList α σ).items =
      (⟨elements, separators⟩ : SeparatedList α σ).items ++ [.separator value] := by
  obtain ⟨before, last, same⟩ : ∃ before last, elements.toList = before ++ [last] := by
    rw [← Array.length_toList] at odd
    exact ⟨_, _, (List.dropLast_concat_getLast (List.ne_nil_of_length_eq_add_one odd)).symm⟩
  have length : before.length = separators.size := by
    rw [← Array.length_toList, same, List.length_append, List.length_singleton] at odd
    omega
  -- Each element but the last one has the separator it had before.
  have kept : before.zipIdx.flatMap (fun pair => ListItem.element pair.1 ::
        separatorAfter (⟨elements, separators.push value⟩ : SeparatedList α σ) pair.2) =
      before.zipIdx.flatMap (fun pair => ListItem.element pair.1 ::
        separatorAfter (⟨elements, separators⟩ : SeparatedList α σ) pair.2) := by
    rw [List.flatMap_def, List.flatMap_def]
    congr 1
    apply List.map_congr_left
    intro pair member
    obtain ⟨element, index⟩ := pair
    have bound := (List.mem_zipIdx member).2.1
    simp only [Nat.zero_add] at bound
    simp only [separatorAfter]
    rw [Array.getElem?_push_lt (by omega), Array.getElem?_eq_getElem (by omega)]
  simp only [items, same, List.zipIdx_append, List.flatMap_append, kept]
  simp [separatorAfter, length]

end SeparatedList
end ScriptTree
