import ScriptTree.Proofs.OperatorWords

/-! # Elements and separators

A list of a tree has one separator less than elements, or as many where a trailing separator is allowed.
A hole has a separator behind it, so a comma behind a present element never makes another position, and
a rest element comes last. One production builds the items of all lists, as the shape of the list tells
it. -/
set_option autoImplicit false
set_option maxRecDepth 4000
namespace ScriptTree

/-! ## Lists of a tree -/

def trailingSeparatorKinds : List Kind := [
  .arrayLiteral, .objectLiteral, .arguments, .arrayBindingPattern, .objectBindingPattern,
  .formalParameters]

def holeKinds : List Kind := [.arrayLiteral, .arrayBindingPattern]

/-- What the kind of the node around a list tells about its elements and separators. -/
structure SyntaxTree.Separates (tree : SyntaxTree) (owner : Kind)
    (list : SeparatedList (Slot NodeId) TokenId) : Prop where
  count : list.separators.size + 1 = list.elements.size ∨
    list.separators.size = 0 ∧ list.elements.size = 0 ∨
    list.separators.size = list.elements.size ∧ owner ∈ trailingSeparatorKinds
  holes : ∀ index, list.elements[index]? = some .absent →
    owner ∈ holeKinds ∧ ∃ separator, list.separatorAfter index = [.separator separator]
  declares : owner = .variableDeclaration → list.isEmpty = false
  rest : ∀ index node, list.elements[index]? = some (.present node) →
    tree.kind node = .restElement →
      index + 1 = list.elements.size ∧ list.separatorAfter index = []

/-- Every list stands in the node that owns it, and its elements and separators are as the kind of that
node tells. -/
def SyntaxTree.SeparatesLists (tree : SyntaxTree) : Prop :=
  ∀ list < tree.lists.size,
    Child.list list ∈ tree.children (tree.listEntry list).parent ∧
    tree.Separates (tree.kind (tree.listEntry list).parent) (tree.listEntry list).items

/-! ## Items of a shape -/

def ListShape.owner : ListShape → Kind
  | arrayElements => .arrayLiteral
  | objectMembers => .objectLiteral
  | arguments => .arguments
  | parameters => .formalParameters
  | arrayBindingElements => .arrayBindingPattern
  | objectBindingMembers => .objectBindingPattern
  | declarators => .variableDeclaration

namespace Forest

/-- Items behind which another element may come. -/
def IsOpen (shape : ListShape) : Forest → Prop
  | empty => True
  | token (node before kind _) _ _ => before.IsOpen shape ∧ kind ≠ .restElement
  | token (hole before) _ _ => before.IsOpen shape ∧ shape.allowsHoles = true
  | _ => False

/-- Items of a list that is complete. Without a closing token a list has to end in an element. -/
def IsComplete (shape : ListShape) : Forest → Prop
  | node before _ _ => before.IsOpen shape
  | forest => forest.IsOpen shape ∧ shape.closing?.isSome = true

theorem IsOpen.isComplete {shape : ListShape} {forest : Forest} (isOpen : forest.IsOpen shape)
    (closes : shape.closing?.isSome = true) : forest.IsComplete shape := by
  cases forest with
  | node before kind children => exact isOpen.elim
  | empty | token before position kind | hole before | list before items => exact ⟨isOpen, closes⟩

/-- The lists of a forest are complete lists of the shapes that belong to the nodes around them; the
forest itself stands in a node of kind `parent`. -/
def HasLists (parent : Kind) : Forest → Prop
  | empty => True
  | token before _ _ => before.HasLists parent
  | hole before => before.HasLists parent
  | node before kind children => before.HasLists parent ∧ children.HasLists kind
  | list before items =>
      before.HasLists parent ∧ items.HasLists parent ∧
        ∃ shape : ListShape, parent = shape.owner ∧ items.IsComplete shape

end Forest

/-! ## The tables of a list -/

/-- An element of a list of the shape that another one may follow. -/
def SyntaxTree.Continues (tree : SyntaxTree) (shape : ListShape) : Slot NodeId → Prop
  | .present node => tree.kind node ≠ .restElement
  | .absent => shape.allowsHoles = true

section Tables

variable {tree : SyntaxTree} {parent : Option NodeId} {shape : ListShape} {numbering : Numbering}

theorem SyntaxTree.Holds.continues_of_isOpen {forest : Forest}
    (holds : tree.Holds parent numbering forest) (isOpen : forest.IsOpen shape) :
    let list := SeparatedListBuilder.ofItems (forest.itemsFrom numbering)
    list.separators.size = list.elements.size ∧ ∀ slot ∈ list.elements, tree.Continues shape slot := by
  fun_induction Forest.IsOpen shape forest with
  | case1 => simp [Forest.itemsFrom, SeparatedListBuilder.empty]
  | case2 before kind children position separator ih =>
      obtain ⟨nodeHolds, _⟩ : tree.Holds parent numbering (before ++ Forest.empty.node kind children) ∧
          tree.Holds parent _ (Forest.empty.token position separator) := Holds.append holds
      obtain ⟨beforeHolds, lastHolds⟩ := nodeHolds.append
      obtain ⟨same, continues⟩ := ih beforeHolds isOpen.1
      have last : tree.Continues shape (.present (before.after numbering).node) := by
        rw [Continues, lastHolds.node.1]
        exact isOpen.2
      simp only [Forest.itemsFrom, SeparatedListBuilder.ofItems_element,
        SeparatedListBuilder.ofItems_separator, Array.size_push, same, Array.mem_push]
      refine ⟨trivial, ?_⟩
      rintro slot (earlier | rfl)
      · exact continues slot earlier
      · exact last
  | case3 before position separator ih =>
      obtain ⟨holeHolds, _⟩ : tree.Holds parent numbering before.hole ∧
          tree.Holds parent _ (Forest.empty.token position separator) := Holds.append holds
      obtain ⟨same, continues⟩ :=
        ih holeHolds.hole isOpen.1
      simp only [Forest.itemsFrom, SeparatedListBuilder.ofItems_element,
        SeparatedListBuilder.ofItems_separator, Array.size_push, same, Array.mem_push]
      refine ⟨trivial, ?_⟩
      rintro slot (earlier | rfl)
      · exact continues slot earlier
      · exact isOpen.2
  | case4 => exact False.elim isOpen

theorem ListShape.owner_mem_holeKinds (holes : shape.allowsHoles = true) : shape.owner ∈ holeKinds := by
  cases shape <;> first | decide | cases holes

theorem ListShape.owner_mem_trailingSeparatorKinds (closes : shape.closing?.isSome = true) :
    shape.owner ∈ trailingSeparatorKinds := by
  cases shape <;> first | decide | cases closes

theorem ListShape.owner_ne_variableDeclaration (closes : shape.closing?.isSome = true) :
    shape.owner ≠ .variableDeclaration := by
  cases shape <;> first | decide | cases closes

theorem SeparatedList.separatorAfter_of_lt {α σ : Type} {list : SeparatedList α σ} {index : Nat}
    (inside : index < list.separators.size) :
    ∃ separator, list.separatorAfter index = [.separator separator] := by
  refine ⟨list.separators[index], ?_⟩
  rw [separatorAfter, Array.getElem?_eq_getElem inside]
  rfl

/-- A hole among elements that others may follow has a separator of its own. -/
theorem SeparatedList.separatorAfter_of_absent {list : SeparatedList (Slot NodeId) TokenId}
    {elements : Array (Slot NodeId)} (same : list.separators.size = elements.size)
    (continues : ∀ slot ∈ elements, tree.Continues shape slot) {index : Nat}
    (absent : elements[index]? = some .absent) :
    shape.owner ∈ holeKinds ∧ ∃ separator, list.separatorAfter index = [.separator separator] := by
  have holes : shape.allowsHoles = true := continues _ (Array.mem_of_getElem? absent)
  have inside := (Array.getElem?_eq_some_iff.mp absent).1
  exact ⟨ListShape.owner_mem_holeKinds holes,
    separatorAfter_of_lt (Nat.lt_of_lt_of_eq inside same.symm)⟩

theorem SyntaxTree.Holds.separates_of_isOpen {forest : Forest}
    (holds : tree.Holds parent numbering forest) (isOpen : forest.IsOpen shape)
    (closes : shape.closing?.isSome = true) :
    tree.Separates shape.owner (SeparatedListBuilder.ofItems (forest.itemsFrom numbering)).finish := by
  obtain ⟨same, continues⟩ := holds.continues_of_isOpen isOpen
  refine ⟨.inr (.inr ⟨same, ListShape.owner_mem_trailingSeparatorKinds closes⟩), ?_, ?_, ?_⟩
  · intro index absent
    exact SeparatedList.separatorAfter_of_absent same continues absent
  · intro declares
    exact absurd declares (ListShape.owner_ne_variableDeclaration closes)
  · intro index node present isRest
    exact absurd isRest (continues _ (Array.mem_of_getElem? present))

theorem SyntaxTree.Holds.separates_of_node {before children : Forest} {kind : Kind}
    (holds : tree.Holds parent numbering (before.node kind children)) (isOpen : before.IsOpen shape) :
    tree.Separates shape.owner
      (SeparatedListBuilder.ofItems ((before.node kind children).itemsFrom numbering)).finish := by
  obtain ⟨beforeHolds, _⟩ : _ ∧ tree.Holds parent _ (Forest.empty.node kind children) := Holds.append holds
  obtain ⟨same, continues⟩ := beforeHolds.continues_of_isOpen isOpen
  simp only [Forest.itemsFrom, SeparatedListBuilder.ofItems_element, SeparatedListBuilder.finish]
  refine ⟨.inl (by simp [same]), ?_, fun _ => by simp [SeparatedList.isEmpty], ?_⟩
  · intro index absent
    rw [Array.getElem?_push] at absent
    split at absent
    · cases absent
    · exact SeparatedList.separatorAfter_of_absent same continues absent
  · intro index node present isRest
    rw [Array.getElem?_push] at present
    split at present
    · rename_i last
      subst last
      refine ⟨by simp, ?_⟩
      simp [SeparatedList.separatorAfter, same]
    · exact absurd isRest (continues _ (Array.mem_of_getElem? present))

theorem SyntaxTree.Holds.separates {forest : Forest} (holds : tree.Holds parent numbering forest)
    (complete : forest.IsComplete shape) :
    tree.Separates shape.owner (SeparatedListBuilder.ofItems (forest.itemsFrom numbering)).finish := by
  cases forest with
  | node before kind children => exact holds.separates_of_node complete
  | empty | token before position kind | hole before | list before items =>
      exact holds.separates_of_isOpen complete.1 complete.2

theorem SyntaxTree.Holds.separatesLists (forest : Forest) (node : NodeId) (numbering : Numbering)
    (inList : Bool) (holds : tree.Holds (some node) numbering forest) (built : forest.WellBuilt inList)
    (held : inList = false → ∀ child ∈ forest.childrenFrom numbering, child ∈ tree.children node)
    (lists : forest.HasLists (tree.kind node)) :
    ∀ list, numbering.list ≤ list → list < (forest.after numbering).list →
      Child.list list ∈ tree.children (tree.listEntry list).parent ∧
      tree.Separates (tree.kind (tree.listEntry list).parent) (tree.listEntry list).items := by
  induction forest generalizing node numbering inList with
  | empty =>
      intro list earlier later
      exact absurd later (Nat.not_lt.mpr earlier)
  | token before position kind ih =>
      obtain ⟨beforeHolds, _⟩ : _ ∧ tree.Holds (some node) _ (Forest.empty.token position kind) :=
        Holds.append holds
      refine ih node numbering inList beforeHolds built (fun free child member => ?_) lists
      exact held free child (List.mem_append_left _ member)
  | hole before ih =>
      exact ih node numbering inList holds.hole built.2
        held lists
  | node before kind children ih childrenIh =>
      obtain ⟨beforeHolds, nodeHolds⟩ : _ ∧ tree.Holds (some node) _ (Forest.empty.node kind children) :=
        Holds.append holds
      obtain ⟨sameKind, inside, childrenHold⟩ := nodeHolds.node
      intro list earlier later
      by_cases within : list < (before.after numbering).list
      · refine ih node numbering inList beforeHolds built.1 (fun free child member => ?_) lists.1 list
          earlier within
        exact held free child (List.mem_append_left _ member)
      · refine childrenIh _ _ false childrenHold built.2.2 (fun _ child member => ?_) ?_ list
          (Nat.not_lt.mp within) later
        · rw [inside]
          exact member
        · rw [sameKind]
          exact lists.2
  | list before items ih itemsIh =>
      obtain ⟨beforeHolds, listHolds⟩ : _ ∧ tree.Holds (some node) _ (Forest.empty.list items) :=
        Holds.append holds
      obtain ⟨entry, itemsHold⟩ := listHolds.list
      obtain ⟨free, beforeBuilt, itemsBuilt, _⟩ := built
      obtain ⟨beforeLists, itemsLists, shape, owner, complete⟩ := lists
      intro list earlier later
      rcases Nat.lt_trichotomy list (before.after numbering).list with within | rfl | beyond
      · refine ih node numbering inList beforeHolds beforeBuilt (fun free child member => ?_) beforeLists
          list earlier within
        exact held free child (List.mem_append_left _ member)
      · have parent : (tree.listEntry (before.after numbering).list).parent = node := by
          rw [listHolds.listEntry]
          rfl
        rw [parent, entry, owner]
        refine ⟨held free _ ?_, itemsHold.separates complete⟩
        simp [Forest.childrenFrom]
      · exact itemsIh node _ true itemsHold itemsBuilt (fun no => Bool.noConfusion no) itemsLists list
          beyond later

end Tables

/-! ## Forests with lists -/

namespace Forest

variable {parent : Kind} {left right : Forest}

theorem HasLists.append (leftLists : left.HasLists parent) (rightLists : right.HasLists parent) :
    (left ++ right).HasLists parent := by
  induction right with
  | empty => exact leftLists
  | token before position kind ih => exact ih rightLists
  | hole before ih => exact ih rightLists
  | node before kind children ih _ => exact ⟨ih rightLists.1, rightLists.2⟩
  | list before items ih _ => exact ⟨ih rightLists.1, rightLists.2⟩

theorem HasLists.wrapLast {kind : Kind} {forest rest : Forest} (lists : forest.HasLists parent)
    (inside : rest.HasLists kind) : (forest.wrapLast kind rest).HasLists parent := by
  cases forest with
  | node before inner children => exact ⟨lists.1, HasLists.append ⟨trivial, lists.2⟩ inside⟩
  | empty | token before position inner | hole before | list before items => exact lists

def hasRest : Forest → Bool
  | empty => false
  | token before _ _ | hole before | list before _ => before.hasRest
  | node before kind _ => kind == .restElement || before.hasRest

theorem hasRest_wrapLast {kind : Kind} {forest : Forest} (none : forest.hasRest = false)
    (other : kind ≠ .restElement) (rest : Forest) : (forest.wrapLast kind rest).hasRest = false := by
  cases forest with
  | node before inner children =>
      rw [hasRest, Bool.or_eq_false_iff] at none
      rw [wrapLast_node, hasRest, none.2, Bool.or_false]
      exact beq_false_of_ne other
  | empty | token before position inner | hole before | list before items => exact none

theorem hasRest_of_isOpen {shape : ListShape} {forest : Forest} (isOpen : forest.IsOpen shape) :
    forest.hasRest = false := by
  fun_induction IsOpen shape forest with
  | case1 => rfl
  | case2 before kind children position separator ih =>
      rw [hasRest, hasRest, ih isOpen.1, Bool.or_false]
      exact beq_false_of_ne isOpen.2
  | case3 before position separator ih => exact ih isOpen.1
  | case4 => exact False.elim isOpen

end Forest

/-! ## Nonterminals -/

namespace Nonterminal

/-- The nonterminals that may add a rest element where they are called. -/
def addsRest : Nonterminal → Bool
  | restElement | parameter | arrayBindingElement | objectBindingMember | items _ => true
  | _ => false

/-- What a nonterminal keeps: the lists are complete, no rest element is added unless it may be, and
open items are completed. -/
def Lists (terminals : Terminals) (nonterminal : Nonterminal) (scope : Scope) (before after : Place) :
    Prop :=
  nonterminal.Scopes terminals scope before after ∧
  (nonterminal.isProper = true →
    (∀ parent, before.forest.HasLists parent → after.forest.HasLists parent) ∧
    (nonterminal.addsRest = false → before.forest.hasRest = false → after.forest.hasRest = false) ∧
    ∀ shape, nonterminal = .items shape → before.forest.IsOpen shape → after.forest.IsComplete shape)

end Nonterminal

namespace Production

/-- The shape of the list whose items a production is. -/
def itemsShape? : Production → Option ListShape
  | .call (.items shape) => some shape
  | _ => none

theorem eq_items_of_itemsShape? {production : Production} {shape : ListShape}
    (found : production.itemsShape? = some shape) : production = .call (.items shape) := by
  unfold itemsShape? at found
  split at found
  · cases found
    rfl
  · cases found

/-- Whether the lists of a production have the shapes that belong to the nodes around them; the node
around the production itself is given if a list stands directly in it. -/
def listsIn : Production → Option Kind → Bool
  | .call nonterminal, _ => nonterminal.isProper
  | .seq first second, parent | .branch _ first second, parent | .orElse first second, parent
  | .onceOrElse first second, parent => first.listsIn parent && second.listsIn parent
  | .node kind body, _ | .wrap kind body, _ => body.listsIn (some kind)
  | .fork head _ _ yes _ no, _ => head.listsIn none && yes.listsIn none && no.listsIn none
  | .inScope _ body, parent => body.listsIn parent
  | .list body, parent => body.itemsShape?.any fun shape => parent = some shape.owner
  | _, _ => true

def addsNoRest : Production → Bool
  | .call nonterminal => nonterminal.isProper && !nonterminal.addsRest
  | .seq first second | .branch _ first second | .orElse first second | .onceOrElse first second =>
      first.addsNoRest && second.addsNoRest
  | .node kind _ | .wrap kind _ => kind != .restElement
  | .fork _ _ kindYes _ kindNo _ => kindYes != .restElement && kindNo != .restElement
  | .inScope _ body => body.addsNoRest
  | _ => true

end Production

theorem Nonterminal.listsIn_production (nonterminal : Nonterminal)
    (proper : nonterminal.isProper = true) : nonterminal.production.listsIn none = true := by
  have passes : ∀ other ∈ listed, other.production.listsIn none = true := by decide +kernel
  exact passes nonterminal (mem_listed proper)

theorem Nonterminal.addsNoRest_production (nonterminal : Nonterminal)
    (proper : nonterminal.isProper = true) (none : nonterminal.addsRest = false) :
    nonterminal.production.addsNoRest = true := by
  have passes : ∀ other ∈ listed, other.addsRest = false → other.production.addsNoRest = true := by
    decide +kernel
  exact passes nonterminal (mem_listed proper) none

section Derives

variable {terminals : Terminals} {scope : Scope} {before after : Place}

theorem Production.hasLists_of_derives (production : Production) :
    ∀ (kind : Option Kind) (parent : Kind) (scope : Scope) (before after : Place),
      production.listsIn kind = true → (kind = none ∨ kind = some parent) →
      production.Derives terminals (Nonterminal.Lists terminals) scope before after →
      before.forest.HasLists parent → after.forest.HasLists parent := by
  induction production with
  | empty | expected kind | expectedConstruct name | take | hole | markTarget =>
      intro kind parent scope before after _ _ derives lists
      cases derives
      exact lists
  | refuse =>
      intro kind parent scope before after _ _ derives
      exact derives.elim
  | call nonterminal =>
      intro kind parent scope before after proper _ derives lists
      exact (derives.2 proper).1 parent lists
  | seq first second firstIh secondIh =>
      intro kind parent scope before after listsIn fits derives lists
      obtain ⟨firstLists, secondLists⟩ := Bool.and_eq_true_iff.mp listsIn
      obtain ⟨middle, earlier, later⟩ := derives
      exact secondIh _ _ _ _ _ secondLists fits later
        (firstIh _ _ _ _ _ firstLists fits earlier lists)
  | branch guard yes no yesIh noIh =>
      intro kind parent scope before after listsIn fits derives lists
      obtain ⟨yesLists, noLists⟩ := Bool.and_eq_true_iff.mp listsIn
      obtain ⟨_, ⟨_, derives⟩ | ⟨_, derives⟩⟩ := derives
      · exact yesIh _ _ _ _ _ yesLists fits derives lists
      · exact noIh _ _ _ _ _ noLists fits derives lists
  | node kind body ih =>
      intro _ parent scope before after listsIn _ derives lists
      obtain ⟨inner, derives, rfl⟩ := derives
      exact ⟨lists, ih _ _ _ _ _ listsIn (.inr rfl) derives trivial⟩
  | fork head guard kindYes yes kindNo no headIh yesIh noIh =>
      intro _ parent scope before after listsIn _ derives lists
      simp only [Production.listsIn, Bool.and_eq_true] at listsIn
      obtain ⟨⟨headLists, yesLists⟩, noLists⟩ := listsIn
      obtain ⟨middle, inner, _, headDerives, ⟨_, derives, rfl⟩ | ⟨_, derives, rfl⟩⟩ := derives
      · exact ⟨lists, yesIh _ _ _ _ _ yesLists (.inl rfl) derives
          (headIh _ _ _ _ _ headLists (.inl rfl) headDerives trivial)⟩
      · exact ⟨lists, noIh _ _ _ _ _ noLists (.inl rfl) derives
          (headIh _ _ _ _ _ headLists (.inl rfl) headDerives trivial)⟩
  | wrap kind body ih =>
      intro _ parent scope before after listsIn _ derives lists
      obtain ⟨_, first, inner, _, derives, rfl⟩ := derives
      exact lists.wrapLast (ih _ _ _ before.inside _ listsIn (.inr rfl) derives trivial)
  | orElse first second firstIh secondIh | onceOrElse first second firstIh secondIh =>
      intro kind parent scope before after listsIn fits derives lists
      obtain ⟨firstLists, secondLists⟩ := Bool.and_eq_true_iff.mp listsIn
      rcases derives with derives | derives
      · exact firstIh _ _ _ _ _ firstLists fits derives lists
      · exact secondIh _ _ _ _ _ secondLists fits derives lists
  | inScope change body ih =>
      intro kind parent scope before after listsIn fits derives lists
      exact ih _ _ _ _ _ listsIn fits derives lists
  | list body _ =>
      intro kind parent scope before after listsIn fits derives lists
      obtain ⟨inner, derives, rfl⟩ := derives
      simp only [Production.listsIn, Option.any_eq_true, decide_eq_true_eq] at listsIn
      obtain ⟨shape, found, owner⟩ := listsIn
      cases Production.eq_items_of_itemsShape? found
      obtain ⟨_, itemsLists, _, completes⟩ : _ ∧ _ ∧ _ ∧ _ := ⟨derives.1, derives.2 rfl⟩
      have sameOwner : parent = shape.owner := by
        rcases fits with rfl | rfl
        · cases owner
        · exact Option.some.inj owner
      exact ⟨lists, itemsLists parent trivial, shape, sameOwner, completes shape rfl trivial⟩

theorem Production.hasRest_of_derives (production : Production) :
    ∀ (scope : Scope) (before after : Place), production.addsNoRest = true →
      production.Derives terminals (Nonterminal.Lists terminals) scope before after →
      before.forest.hasRest = false → after.forest.hasRest = false := by
  induction production with
  | empty | expected kind | expectedConstruct name | take | hole | markTarget =>
      intro scope before after _ derives none
      cases derives
      exact none
  | refuse =>
      intro scope before after _ derives
      exact derives.elim
  | call nonterminal =>
      intro scope before after addsNoRest derives none
      obtain ⟨proper, other⟩ := Bool.and_eq_true_iff.mp addsNoRest
      exact (derives.2 proper).2.1 (by simpa using other) none
  | seq first second firstIh secondIh =>
      intro scope before after addsNoRest derives none
      obtain ⟨firstNone, secondNone⟩ := Bool.and_eq_true_iff.mp addsNoRest
      obtain ⟨middle, earlier, later⟩ := derives
      exact secondIh _ _ _ secondNone later (firstIh _ _ _ firstNone earlier none)
  | branch guard yes no yesIh noIh =>
      intro scope before after addsNoRest derives none
      obtain ⟨yesNone, noNone⟩ := Bool.and_eq_true_iff.mp addsNoRest
      obtain ⟨_, ⟨_, derives⟩ | ⟨_, derives⟩⟩ := derives
      · exact yesIh _ _ _ yesNone derives none
      · exact noIh _ _ _ noNone derives none
  | node kind body _ =>
      intro scope before after addsNoRest derives none
      obtain ⟨inner, _, rfl⟩ := derives
      exact Bool.or_eq_false_iff.mpr ⟨beq_false_of_ne (bne_iff_ne.mp addsNoRest), none⟩
  | fork head guard kindYes yes kindNo no _ _ _ =>
      intro scope before after addsNoRest derives none
      obtain ⟨yesOther, noOther⟩ := Bool.and_eq_true_iff.mp addsNoRest
      obtain ⟨middle, inner, _, _, ⟨_, _, rfl⟩ | ⟨_, _, rfl⟩⟩ := derives
      · exact Bool.or_eq_false_iff.mpr ⟨beq_false_of_ne (bne_iff_ne.mp yesOther), none⟩
      · exact Bool.or_eq_false_iff.mpr ⟨beq_false_of_ne (bne_iff_ne.mp noOther), none⟩
  | wrap kind body _ =>
      intro scope before after addsNoRest derives none
      obtain ⟨_, first, inner, _, _, rfl⟩ := derives
      exact Forest.hasRest_wrapLast none (bne_iff_ne.mp addsNoRest) inner.forest
  | orElse first second firstIh secondIh | onceOrElse first second firstIh secondIh =>
      intro scope before after addsNoRest derives none
      obtain ⟨firstNone, secondNone⟩ := Bool.and_eq_true_iff.mp addsNoRest
      rcases derives with derives | derives
      · exact firstIh _ _ _ firstNone derives none
      · exact secondIh _ _ _ secondNone derives none
  | inScope change body ih =>
      intro scope before after addsNoRest derives none
      exact ih _ _ _ addsNoRest derives none
  | list body _ =>
      intro scope before after _ derives none
      obtain ⟨inner, _, rfl⟩ := derives
      exact none

/-! ## The items of a list -/

/-- An element stands behind open items; if it is a rest element, the shape lets it end the list. -/
theorem Nonterminal.Lists.element {shape : ListShape}
    (element : shape.element.Lists terminals scope before after)
    (isOpen : before.forest.IsOpen shape) :
    ∃ kind children, after.forest = before.forest.node kind children ∧
      after.completed = some (kind, before.position) ∧
      (kind = .restElement → shape.last? = some .restElement) := by
  have isNode : shape.element.role = .node := by cases shape <;> rfl
  have proper : shape.element.isProper = true := by cases shape <;> rfl
  obtain ⟨kind, children, added, _⟩ := element.1.exists_node isNode proper
    (by cases shape <;> rfl) (by cases shape <;> intro same <;> cases same)
  refine ⟨kind, children, added.forest, added.completed, ?_⟩
  rintro rfl
  by_cases addsRest : shape.element.addsRest = true
  · cases shape <;> first | rfl | cases addsRest
  · have none := (element.2 proper).2.1 (by simpa using addsRest) (Forest.hasRest_of_isOpen isOpen)
    rw [added.forest] at none
    cases none

/-- The items go on behind a separator, or the list is complete. -/
theorem Grammar.isComplete_items {shape : ListShape}
    (derives : (Grammar.items shape).Derives terminals (Nonterminal.Lists terminals) scope before after)
    (isOpen : before.forest.IsOpen shape) : after.forest.IsComplete shape := by
  have goesOn : ∀ {place : Place}, (Nonterminal.items shape).Lists terminals scope place after →
      place.forest.IsOpen shape → after.forest.IsComplete shape :=
    fun further placeOpen => (further.2 rfl).2.2 shape rfl placeOpen
  rcases Production.derives_select derives with ⟨entry, listed, _, _, body⟩ | ⟨_, middle, called, rest⟩
  · rcases List.mem_append.mp listed with closing | hole
    · obtain ⟨kind, closes, rfl⟩ : ∃ kind, shape.closing? = some kind ∧
          (Guard.nextIs kind, Production.empty) = entry := by simpa using closing
      cases body
      exact isOpen.isComplete (by simp [closes])
    · by_cases allowed : shape.allowsHoles = true
      · rw [if_pos allowed, List.mem_singleton] at hole
        subst hole
        obtain ⟨_, rfl, _, rfl, further⟩ := body
        exact goesOn further ⟨isOpen, allowed⟩
      · rw [if_neg allowed] at hole
        cases hole
  · obtain ⟨kind, children, forest, completed, isLast⟩ := Nonterminal.Lists.element called isOpen
    have behind : kind ≠ .restElement →
        Production.Derives terminals (Nonterminal.Lists terminals)
          (.branch (.nextIs .comma) (.seq .take (.call (.items shape))) (.expected .comma)) scope middle
          after →
        after.forest.IsComplete shape := by
      rintro other ⟨_, ⟨_, _, rfl, further⟩ | ⟨_, rfl⟩⟩
      · refine goesOn further ?_
        rw [Place.take, forest]
        exact ⟨isOpen, other⟩
      · rw [forest]
        exact isOpen
    cases last : shape.last? with
    | none =>
        rw [last] at rest isLast
        exact behind (fun isRest => absurd (isLast isRest) (by simp)) rest
    | some final =>
        rw [last] at rest isLast
        obtain ⟨targets, ⟨_, rfl⟩ | ⟨rejected, further⟩⟩ := rest
        · rw [forest]
          exact isOpen
        · refine behind (fun isRest => ?_) further
          cases isLast isRest
          simp [Guard.admits, completed, isRest] at rejected

end Derives

/-! ## Trees -/

theorem Nonterminal.nestWith_lists (terminals : Terminals) (fuel : Nat) :
    CallsSatisfy (nestWith production terminals fuel) (Lists terminals) := by
  induction fuel with
  | zero =>
      intro nonterminal scope before after history later matched
      cases matched
  | succ fuel ih =>
      intro nonterminal scope before after history later matched
      have derives := nonterminal.production.derives_of_nest ih scope before after history later matched
      refine ⟨nestWith_scopes terminals (fuel + 1) _ _ _ _ _ _ matched, fun proper => ⟨?_, ?_, ?_⟩⟩
      · intro parent
        exact nonterminal.production.hasLists_of_derives none parent scope before after
          (nonterminal.listsIn_production proper) (.inl rfl) derives
      · intro none
        exact nonterminal.production.hasRest_of_derives scope before after
          (nonterminal.addsNoRest_production proper none) derives
      · rintro shape rfl
        exact Grammar.isComplete_items derives

theorem Rule.Matched.separatesLists {stream : TokenStream} (accepts : stream.Accepts) {rule : Rule}
    {start : Nat} (before : start ≤ stream.eofIndex) {state : ParseState} {kind : Kind}
    {children : Forest}
    (matched : rule.Matched (.ofTokens (stream.tokens.toList.drop start)) (stream.eofIndex - start)
      state kind children) :
    ((Forest.empty.node kind children).tree stream start).SeparatesLists := by
  obtain ⟨place, later, parsed, forest, _⟩ := matched.nested
  have lists := ((Nonterminal.nestWith_lists _ _ _ _ _ _ _ _ parsed).2 rule.isProper_nonterminal).1
    .script trivial
  rw [forest] at lists
  have holds := Forest.holds_tree matched.consecutive.1 (matched.liesOn accepts before)
  obtain ⟨sameKind, inside, childrenHold⟩ := holds.node
  intro list bound
  refine childrenHold.separatesLists children _ _ false matched.built.2.2 (fun _ child member => ?_) ?_
    list (Nat.zero_le _) ?_
  · rw [inside]
    exact member
  · rw [sameKind]
    exact lists.2
  · have count : ((Forest.empty.node kind children).tree stream start).lists.size =
        children.listCount := by
      simp [Forest.tree, Forest.length_listEntries, Forest.listCount]
    rw [count] at bound
    rw [Forest.after_eq]
    exact Nat.lt_of_lt_of_le bound (Nat.le_add_left _ _)

/-- In every tree of a match or a parse, each list has one separator less than elements, or as many
where its node allows a trailing one; holes and rest elements stand only where their lists allow
them. -/
theorem matchRule_separates_lists {text : List Char} {tokens : Array Token} {stream : TokenStream}
    (accepted : TokenStream.ofTokens text tokens = .ok stream) (rule : Rule) :
    (∀ (position : Nat) (tree : SyntaxTree) (next : Cursor),
      matchRule rule (.atToken stream position) = .ok (tree, next) → tree.SeparatesLists) ∧
    ∀ tree : SyntaxTree, parseStream rule stream = .ok tree → tree.SeparatesLists := by
  obtain ⟨-, accepts⟩ := TokenStream.accepts_of_ofTokens accepted
  exact accepts.holds_of_matched rule fun _ before _ _ _ matched =>
    matched.separatesLists accepts before

/-- A pattern with a hole and a rest element. -/
theorem matchRule_separates_pattern :
    let text := ['[', 'a', ',', ',', '.', '.', '.', 'b', ']']
    let stream := tokenize text
    TokenStream.ofTokens text stream.tokens = .ok stream ∧
    ∃ tree, parseStream .arrayBindingPattern stream = .ok tree ∧
      (tree.listEntry 0).items.elements.size = 3 ∧ (tree.listEntry 0).items.separators.size = 2 ∧
      tree.SeparatesLists := by
  intro text stream
  have accepted : TokenStream.ofTokens text stream.tokens = .ok stream := rfl
  have parsed : (parseStream .arrayBindingPattern stream).toOption.map (fun tree =>
      ((tree.listEntry 0).items.elements.size, (tree.listEntry 0).items.separators.size)) =
        some (3, 2) := by decide +kernel
  refine ⟨accepted, ?_⟩
  cases result : parseStream .arrayBindingPattern stream with
  | error failure =>
      rw [result] at parsed
      cases parsed
  | ok tree =>
      rw [result] at parsed
      obtain ⟨elements, separators⟩ := Prod.mk.inj (Option.some.inj parsed)
      exact ⟨tree, rfl, elements, separators,
        (matchRule_separates_lists accepted .arrayBindingPattern).2 tree result⟩

end ScriptTree
