import Mathlib.Data.List.Induction
import ScriptTree.Proofs.Alternation

/-! # Items that are pushed one by one

A builder takes an item exactly if it continues an alternation that starts with an element; otherwise it
stays as it is. The list that it finishes shows the items that were taken, from either end. -/
set_option autoImplicit false
namespace ScriptTree

variable {α σ : Type}

namespace ListItem

def isElement : ListItem α σ → Bool
  | element _ => true
  | separator _ => false

/-- What is wrong with an item that comes out of turn. -/
def outOfTurn : ListItem α σ → ListFault
  | element _ => .adjacentElements
  | separator _ => .leadingSeparator

/-- Elements stand at the even positions and separators at the odd ones. -/
def Alternating (items : List (ListItem α σ)) : Prop :=
  ∀ index item, items[index]? = some item → (item.isElement = true ↔ index % 2 = 0)

variable {items : List (ListItem α σ)} {item : ListItem α σ}

theorem alternating_nil : Alternating ([] : List (ListItem α σ)) := by
  intro index item found
  cases found

theorem alternating_concat :
    Alternating (items ++ [item]) ↔
      Alternating items ∧ (item.isElement = true ↔ items.length % 2 = 0) := by
  constructor
  · intro alternating
    refine ⟨fun index other found => alternating index other ?_, alternating _ item (by simp)⟩
    rw [List.getElem?_append_left (List.getElem?_eq_some_iff.mp found).1, found]
  · rintro ⟨alternating, turn⟩ index other found
    rcases Nat.lt_or_ge index items.length with inside | behind
    · rw [List.getElem?_append_left inside] at found
      exact alternating index other found
    · rw [List.getElem?_append_right behind, List.getElem?_singleton] at found
      split at found
      · cases found
        obtain rfl : index = items.length := by omega
        exact turn
      · cases found

end ListItem

/-! ## From the end -/

theorem SeparatedList.itemsBack_eq (list : SeparatedList α σ) : list.itemsBack = list.items.reverse := by
  have single : ∀ index, (list.separatorAfter index).reverse = list.separatorAfter index := by
    intro index
    rw [separatorAfter]
    cases list.separators[index]? <;> rfl
  rw [itemsBack, items, List.reverse_flatMap]
  congr 1
  funext placed
  obtain ⟨value, index⟩ := placed
  rw [Function.comp_apply, List.reverse_cons, single]

namespace SeparatedListBuilder

variable {items : List (ListItem α σ)}

/-! ## One item -/

def push (builder : SeparatedListBuilder α σ) :
    ListItem α σ → Except ListFault (SeparatedListBuilder α σ)
  | .element value => builder.pushElement value
  | .separator value => builder.pushSeparator value

/-- Of the items of an alternation every other one is an element, from the first one on. -/
theorem sizes_of_alternating (alternating : ListItem.Alternating items) :
    (ofItems items).elements.size = (items.length + 1) / 2 ∧
      (ofItems items).separators.size = items.length / 2 := by
  induction items using List.reverseRecOn with
  | nil => simp [ofItems]
  | append_singleton items item ih =>
      obtain ⟨earlier, turn⟩ := ListItem.alternating_concat.mp alternating
      obtain ⟨elements, separators⟩ := ih earlier
      rw [List.length_append, List.length_singleton]
      cases item with
      | element value =>
          have even : items.length % 2 = 0 := turn.mp rfl
          rw [ofItems_element, Array.size_push, elements, separators]
          omega
      | separator value =>
          have odd : ¬items.length % 2 = 0 := fun even => Bool.false_ne_true (turn.mpr even)
          rw [ofItems_separator, Array.size_push, elements, separators]
          omega

theorem expectsElement_ofItems (alternating : ListItem.Alternating items) :
    (ofItems items).expectsElement = true ↔ items.length % 2 = 0 := by
  obtain ⟨elements, separators⟩ := sizes_of_alternating alternating
  rw [expectsElement, elements, separators, beq_iff_eq]
  omega

/-- An item is taken where it continues the alternation, and is the next one of the builder then. -/
theorem push_ofItems_of_alternating {item : ListItem α σ}
    (alternating : ListItem.Alternating (items ++ [item])) :
    (ofItems items).push item = .ok (ofItems (items ++ [item])) := by
  obtain ⟨earlier, turn⟩ := ListItem.alternating_concat.mp alternating
  have expects := expectsElement_ofItems earlier
  cases item with
  | element value =>
      rw [push, pushElement, if_pos (expects.mpr (turn.mp rfl)), ofItems_element]
  | separator value =>
      have other : ¬(ofItems items).expectsElement = true :=
        fun even => Bool.false_ne_true (turn.mpr (expects.mp even))
      rw [push, pushSeparator, if_neg other, ofItems_separator]

theorem push_ofItems_of_not_alternating {item : ListItem α σ} (earlier : ListItem.Alternating items)
    (breaks : ¬ListItem.Alternating (items ++ [item])) :
    (ofItems items).push item = .error item.outOfTurn := by
  have turn : ¬(item.isElement = true ↔ items.length % 2 = 0) :=
    fun turn => breaks (ListItem.alternating_concat.mpr ⟨earlier, turn⟩)
  have expects := expectsElement_ofItems earlier
  cases item with
  | element value =>
      have other : ¬(ofItems items).expectsElement = true :=
        fun even => turn ⟨fun _ => expects.mp even, fun _ => rfl⟩
      rw [push, pushElement, if_neg other, ListItem.outOfTurn]
  | separator value =>
      have element : (ofItems items).expectsElement = true :=
        expects.mpr (Decidable.byContradiction fun odd => turn
          ⟨fun element => absurd element Bool.false_ne_true, fun even => absurd even odd⟩)
      rw [push, pushSeparator, if_pos element, ListItem.outOfTurn]

/-! ## The finished list -/

theorem items_finish_ofItems (alternating : ListItem.Alternating items) :
    (ofItems items).finish.items = items := by
  induction items using List.reverseRecOn with
  | nil => rfl
  | append_singleton items item ih =>
      obtain ⟨earlier, turn⟩ := ListItem.alternating_concat.mp alternating
      obtain ⟨elements, separators⟩ := sizes_of_alternating earlier
      have kept : (⟨(ofItems items).elements, (ofItems items).separators⟩ : SeparatedList α σ).items =
        items := ih earlier
      cases item with
      | element value =>
          have even : items.length % 2 = 0 := turn.mp rfl
          have sizes : (ofItems items).elements.size = (ofItems items).separators.size := by omega
          rw [ofItems_element, finish, SeparatedList.items_pushElement sizes, kept]
      | separator value =>
          have odd : ¬items.length % 2 = 0 := fun even => Bool.false_ne_true (turn.mpr even)
          have sizes : (ofItems items).elements.size = (ofItems items).separators.size + 1 := by omega
          rw [ofItems_separator, finish, SeparatedList.items_pushSeparator sizes, kept]

theorem exists_separator_iff (alternating : ListItem.Alternating items) :
    (∃ value, items.getLast? = some (.separator value)) ↔ items ≠ [] ∧ items.length % 2 = 0 := by
  cases items using List.reverseRecOn with
  | nil => simp
  | append_singleton items item =>
      obtain ⟨-, turn⟩ := ListItem.alternating_concat.mp alternating
      rw [List.getLast?_concat, List.length_append, List.length_singleton]
      cases item with
      | element value =>
          have even : items.length % 2 = 0 := turn.mp rfl
          simp
          omega
      | separator value =>
          have odd : ¬items.length % 2 = 0 := fun even => Bool.false_ne_true (turn.mpr even)
          simp
          omega

theorem hasTrailingSeparator_ofItems (alternating : ListItem.Alternating items) :
    (ofItems items).finish.hasTrailingSeparator = true ↔
      ∃ value, items.getLast? = some (.separator value) := by
  obtain ⟨elements, separators⟩ := sizes_of_alternating alternating
  have some : (ofItems items).elements.isEmpty = false ↔ items ≠ [] := by
    rw [← List.length_pos_iff, ← Bool.not_eq_true, Array.isEmpty_iff_size_eq_zero, elements]
    omega
  rw [exists_separator_iff alternating, SeparatedList.hasTrailingSeparator, finish, Bool.and_eq_true,
    Bool.not_eq_true', some, beq_iff_eq, elements, separators]
  refine and_congr_right fun _ => ?_
  omega

theorem size_ofItems (items : List (ListItem α σ)) :
    (ofItems items).finish.size = items.countP ListItem.isElement := by
  have same : (fun item : ListItem α σ => item.element?.isSome) = ListItem.isElement := by
    funext item
    cases item <;> rfl
  rw [SeparatedList.size, finish, ofItems, List.size_toArray, List.length_filterMap_eq_countP, same]

/-! ## Sequences of calls -/

structure Progress (α σ : Type) where
  builder : SeparatedListBuilder α σ
  taken : List (ListItem α σ)

def Progress.call (progress : Progress α σ) (item : ListItem α σ) : Progress α σ :=
  match progress.builder.push item with
  | .ok next => ⟨next, progress.taken ++ [item]⟩
  | .error _ => progress

def afterCalls (calls : List (ListItem α σ)) : Progress α σ := calls.foldl Progress.call ⟨empty, []⟩

theorem afterCalls_concat (calls : List (ListItem α σ)) (item : ListItem α σ) :
    afterCalls (calls ++ [item]) = (afterCalls calls).call item := by
  rw [afterCalls, List.foldl_append, List.foldl_cons, List.foldl_nil, afterCalls]

/-- After any calls the builder holds the items that were taken, and these alternate. -/
theorem afterCalls_holds (calls : List (ListItem α σ)) :
    (afterCalls calls).builder = ofItems (afterCalls calls).taken ∧
      ListItem.Alternating (afterCalls calls).taken := by
  induction calls using List.reverseRecOn with
  | nil => exact ⟨ofItems_nil.symm, ListItem.alternating_nil⟩
  | append_singleton calls item ih =>
      obtain ⟨holds, alternating⟩ := ih
      rw [afterCalls_concat, Progress.call, holds]
      by_cases goesOn : ListItem.Alternating ((afterCalls calls).taken ++ [item])
      · rw [push_ofItems_of_alternating goesOn]
        exact ⟨rfl, goesOn⟩
      · rw [push_ofItems_of_not_alternating alternating goesOn]
        exact ⟨holds, alternating⟩

/-- Whatever is pushed on a new builder, the items that it took alternate and start with an element. It
takes one more exactly if they still alternate with it, and stays as it is otherwise. The finished list
shows these items in order, and in the opposite order from its end; it counts the elements among them,
it has as many separators or one less, and a trailing separator exactly if the last item is one. -/
theorem finish_afterCalls (calls : List (ListItem α σ)) :
    let builder := (afterCalls calls).builder
    let taken := (afterCalls calls).taken
    let list := builder.finish
    ListItem.Alternating taken ∧
    (∀ item : ListItem α σ,
      (ListItem.Alternating (taken ++ [item]) ∧ ∃ next, builder.push item = .ok next ∧
          afterCalls (calls ++ [item]) = ⟨next, taken ++ [item]⟩) ∨
        (¬ListItem.Alternating (taken ++ [item]) ∧ builder.push item = .error item.outOfTurn ∧
          afterCalls (calls ++ [item]) = ⟨builder, taken⟩)) ∧
    list.items = taken ∧ list.itemsBack = taken.reverse ∧
    list.size = taken.countP ListItem.isElement ∧
    (list.separators.size = list.size ∨ list.separators.size + 1 = list.size) ∧
    (list.hasTrailingSeparator = true ↔ ∃ value, taken.getLast? = some (.separator value)) := by
  intro builder taken list
  obtain ⟨holds, alternating⟩ := afterCalls_holds calls
  have finished : list = (ofItems taken).finish := congrArg finish holds
  have shown : list.items = taken := finished ▸ items_finish_ofItems alternating
  obtain ⟨elements, separators⟩ := sizes_of_alternating alternating
  refine ⟨alternating, fun item => ?_, shown, ?_, ?_, ?_, ?_⟩
  · by_cases goesOn : ListItem.Alternating (taken ++ [item])
    · have pushed : builder.push item = .ok (ofItems (taken ++ [item])) :=
        (congrArg (push · item) holds).trans (push_ofItems_of_alternating goesOn)
      exact .inl ⟨goesOn, _, pushed, by rw [afterCalls_concat, Progress.call, pushed]⟩
    · have refused : builder.push item = .error item.outOfTurn :=
        (congrArg (push · item) holds).trans (push_ofItems_of_not_alternating alternating goesOn)
      exact .inr ⟨goesOn, refused, by rw [afterCalls_concat, Progress.call, refused]⟩
  · rw [list.itemsBack_eq, shown]
  · rw [finished, size_ofItems]
  · rw [finished, SeparatedList.size, finish, elements, separators]
    omega
  · rw [finished]
    exact hasTrailingSeparator_ofItems alternating

/-- A second element and a second separator are refused, each without a trace. -/
example :
    (afterCalls [.separator ',', .element 1, .element 2, .separator ';', .separator '!', .element 3]).taken =
      [.element 1, .separator ';', .element 3] := rfl

end SeparatedListBuilder
end ScriptTree
