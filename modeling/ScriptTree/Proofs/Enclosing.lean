import ScriptTree.Proofs.Accessors
import ScriptTree.Proofs.OperatorWords

/-! # Functions around operators

From a `yield` up, the nearest generator is reached through its parameters or its body, and so is the
nearest `async` function from an `await`. On the way down a word becomes an operator at these parts alone:
whatever the scope of a node makes an operator acts on a function around the node. -/
set_option autoImplicit false
namespace ScriptTree

/-! ## Ways up -/

namespace SyntaxTree

section Ways

variable (tree : SyntaxTree)

def isGenerator (node : NodeId) : Bool :=
  [Kind.generatorDeclaration, .generatorExpression, .generatorMethod].contains (tree.kind node)

def isAsync (node : NodeId) : Bool :=
  (Kind.arrowFunction :: functionKinds).contains (tree.kind node) &&
    (tree.children node).any (tree.isTokenOf .asyncKw)

/-- The first function of a sort on a way up, behind the part through which the way leads into it. A method
does not enclose its computed key. -/
def enclosingOn? (owns : NodeId → Bool) : List NodeId → Option (NodeId × NodeId)
  | part :: function :: rest =>
      if owns function && tree.kind part ≠ .computedPropertyName then some (part, function)
      else enclosingOn? owns (function :: rest)
  | _ => none

def enclosing? (owns : NodeId → Bool) (node : NodeId) : Option (NodeId × NodeId) :=
  tree.enclosingOn? owns (tree.ancestors node)

/-- A node stands in the parameters or in the body of the nearest function of a sort. The body of an arrow
may be an expression, the last of its children. -/
def IsWithin (owns : NodeId → Bool) (node : NodeId) : Prop :=
  ∃ part function, tree.enclosing? owns node = some (part, function) ∧
    (tree.kind part ∈ [Kind.formalParameters, .functionBody] ∨
      tree.kind function = .arrowFunction ∧ (tree.children function).getLast? = some (.node part))

/-- Every `yield` stands in a generator and every `await` in an `async` function, in its parameters or its
body. -/
structure EnclosesOperators : Prop where
  yields : ∀ node < tree.nodes.size, tree.kind node = .yieldExpression → tree.IsWithin tree.isGenerator node
  awaits : ∀ node < tree.nodes.size, tree.kind node = .awaitExpression → tree.IsWithin tree.isAsync node

end Ways

theorem mem_functionKinds_of_isGenerator {tree : SyntaxTree} {node : NodeId}
    (isGenerator : tree.isGenerator node = true) : tree.kind node ∈ functionKinds := by
  have among : [Kind.generatorDeclaration, .generatorExpression, .generatorMethod] ⊆ functionKinds := by
    decide
  exact among (List.contains_iff_mem.mp isGenerator)

namespace Represents

variable {tree : SyntaxTree} {kind : Kind} {children : Forest} {node parent : NodeId}
  (represents : tree.Represents kind children)
include represents

theorem enclosing?_of_parent? (owns : NodeId → Bool) (inside : node < tree.nodes.size)
    (below : tree.parent? node = some parent) : tree.enclosing? owns node =
      if owns parent && tree.kind node ≠ .computedPropertyName then some (node, parent)
      else tree.enclosing? owns parent := by
  have parentInside := (represents.of_parent? inside below).1
  obtain ⟨rest, way⟩ : ∃ rest, tree.ancestors parent = parent :: rest := by
    obtain ⟨size, counted⟩ := Nat.exists_eq_succ_of_ne_zero (Nat.ne_of_gt (Nat.zero_lt_of_lt parentInside))
    exact ⟨_, by rw [ancestors, counted, ancestorsWithin]⟩
  rw [enclosing?, represents.ancestors_of_parent? inside below, way, enclosingOn?, enclosing?, way]

theorem isWithin_of_owns {owns : NodeId → Bool} (inside : node < tree.nodes.size)
    (below : tree.parent? node = some parent) (isFunction : owns parent = true)
    (noKey : tree.kind node ≠ .computedPropertyName)
    (isPart : tree.kind node ∈ [Kind.formalParameters, .functionBody] ∨
      tree.kind parent = .arrowFunction ∧ (tree.children parent).getLast? = some (.node node)) :
    tree.IsWithin owns node := by
  refine ⟨node, parent, ?_, isPart⟩
  rw [represents.enclosing?_of_parent? owns inside below, if_pos (by simp [isFunction, noKey])]

theorem isWithin_of_parent? {owns : NodeId → Bool} (inside : node < tree.nodes.size)
    (below : tree.parent? node = some parent)
    (passes : owns parent = true → tree.kind node = .computedPropertyName)
    (within : tree.IsWithin owns parent) : tree.IsWithin owns node := by
  obtain ⟨part, function, found, isPart⟩ := within
  refine ⟨part, function, ?_, isPart⟩
  rw [represents.enclosing?_of_parent? owns inside below, if_neg (by simpa using passes), found]

end Represents
end SyntaxTree

/-! ## Parts of functions -/

/-- Names and keys that are words hold no nodes. -/
def leafKinds : List Kind := [.bindingIdentifier, .propertyName]

namespace SyntaxTree

/-- What the words of a scope act on stands around a node. -/
structure Admits (tree : SyntaxTree) (scope : Scope) (node : NodeId) : Prop where
  yields : scope.yieldOperator = true → tree.IsWithin tree.isGenerator node
  awaits : scope.awaitOperator = true → tree.IsWithin tree.isAsync node

theorem admits_outermost (tree : SyntaxTree) (node : NodeId) : tree.Admits .outermost node where
  yields := fun on => absurd on Bool.false_ne_true
  awaits := fun on => absurd on Bool.false_ne_true

/-- A node stands behind `before` in another one that holds `held`, where a part of its kind may. -/
structure IsPart (tree : SyntaxTree) (parent node : NodeId) (held before : Forest) : Prop where
  above : tree.parent? node = some parent
  async : (tree.children parent).any (tree.isTokenOf .asyncKw) = held.hasToken .asyncKw
  ofFunction : tree.kind parent ∈ functionKinds →
    tree.kind node ∈ leafKinds ++ [.computedPropertyName, .formalParameters, .functionBody]
  front : tree.kind parent = .arrowFunction → before.hasToken .fatArrow = false →
    tree.kind node ∈ [Kind.bindingIdentifier, .formalParameters]
  body : tree.kind parent = .arrowFunction → before.hasToken .fatArrow = true →
    tree.kind node ≠ .computedPropertyName ∧ (tree.children parent).getLast? = some (.node node)

namespace IsPart

variable {tree : SyntaxTree} {kind : Kind} {children held before : Forest} {parent node : NodeId}
  {scope : Scope} (isPart : tree.IsPart parent node held before)
  (represents : tree.Represents kind children) (inside : node < tree.nodes.size)
include isPart represents inside

/-- Where the node above is no function, the same functions are around both. -/
theorem admits_outer (noFunction : tree.kind parent ∉ functionKinds)
    (noArrow : tree.kind parent ≠ .arrowFunction) (admits : tree.Admits scope parent) :
    tree.Admits scope node where
  yields := by
    intro on
    refine represents.isWithin_of_parent? inside isPart.above (fun owns => ?_) (admits.yields on)
    exact absurd (mem_functionKinds_of_isGenerator owns) noFunction
  awaits := by
    intro on
    refine represents.isWithin_of_parent? inside isPart.above (fun owns => ?_) (admits.awaits on)
    simp [isAsync, noArrow, noFunction] at owns

/-- The parts of a function that have its scope are in it. A method hands the scope around it on to its
computed key. -/
theorem admits_function (isFunction : tree.kind parent ∈ functionKinds) (noLeaf : tree.kind node ∉ leafKinds)
    (admits : tree.Admits scope parent) :
    tree.Admits (Forest.partScope (tree.kind parent) held before (tree.kind node) scope) node := by
  have listed := (List.mem_append.mp (isPart.ofFunction isFunction)).resolve_left noLeaf
  rw [Forest.partScope, if_pos isFunction]
  split
  · rename_i inScope
    have isOwn : tree.kind node ∈ [Kind.formalParameters, .functionBody] := by
      refine (List.mem_cons.mp listed).resolve_left fun isKey => ?_
      rw [isKey, scopedParts] at inScope
      split at inScope <;> simp at inScope
    have noKey : tree.kind node ≠ .computedPropertyName := by
      intro isKey
      simp [isKey] at isOwn
    constructor
    · exact fun on => represents.isWithin_of_owns inside isPart.above on noKey (.inl isOwn)
    · intro on
      refine represents.isWithin_of_owns inside isPart.above ?_ noKey (.inl isOwn)
      rw [isAsync, isPart.async, List.contains_iff_mem.mpr (List.mem_cons_of_mem _ isFunction)]
      exact on
  · rename_i outer
    have isKey : tree.kind node = .computedPropertyName := by
      refine (List.mem_cons.mp listed).resolve_right fun isOwn => outer ?_
      rw [scopedParts]
      split
      · exact List.mem_cons_of_mem _ isOwn
      · exact isOwn
    constructor
    · exact fun on => represents.isWithin_of_parent? inside isPart.above (fun _ => isKey) (admits.yields on)
    · exact fun on => represents.isWithin_of_parent? inside isPart.above (fun _ => isKey) (admits.awaits on)

/-- An arrow is no generator: its parameters are in the functions around it, and besides in an `async`
arrow; its body is in the arrow alone. -/
theorem admits_arrow (isArrow : tree.kind parent = .arrowFunction) (noLeaf : tree.kind node ∉ leafKinds)
    (admits : tree.Admits scope parent) :
    tree.Admits (Forest.partScope (tree.kind parent) held before (tree.kind node) scope) node := by
  have isAsync_eq : tree.isAsync parent = held.hasToken .asyncKw := by
    rw [isAsync, isPart.async, isArrow]
    rfl
  rw [Forest.partScope, isArrow, if_neg (by decide), if_pos rfl]
  cases behind : before.hasToken .fatArrow with
  | true =>
      obtain ⟨noKey, last⟩ := isPart.body isArrow behind
      constructor
      · exact fun on => absurd on Bool.false_ne_true
      · exact fun on => represents.isWithin_of_owns inside isPart.above (isAsync_eq.trans on) noKey
          (.inr ⟨isArrow, last⟩)
  | false =>
      have isParameters : tree.kind node = .formalParameters := by
        rcases List.mem_cons.mp (isPart.front isArrow behind) with isName | isOwn
        · exact absurd (by rw [isName]; decide) noLeaf
        · exact List.mem_singleton.mp isOwn
      constructor
      · intro on
        refine represents.isWithin_of_parent? inside isPart.above (fun isGenerator => ?_) (admits.yields on)
        rw [SyntaxTree.isGenerator, isArrow] at isGenerator
        cases isGenerator
      · intro on
        cases isAsync : tree.isAsync parent with
        | true =>
            exact represents.isWithin_of_owns inside isPart.above isAsync (by rw [isParameters]; decide)
              (.inl (by rw [isParameters]; decide))
        | false =>
            refine represents.isWithin_of_parent? inside isPart.above (fun owns => ?_) (admits.awaits ?_)
            · rw [isAsync] at owns
              cases owns
            · rw [← isAsync_eq, isAsync] at on
              exact on

theorem admits_part (noLeaf : tree.kind node ∉ leafKinds) (admits : tree.Admits scope parent) :
    tree.Admits (Forest.partScope (tree.kind parent) held before (tree.kind node) scope) node := by
  by_cases isFunction : tree.kind parent ∈ functionKinds
  · exact isPart.admits_function represents inside isFunction noLeaf admits
  by_cases isArrow : tree.kind parent = .arrowFunction
  · exact isPart.admits_arrow represents inside isArrow noLeaf admits
  rw [Forest.partScope, if_neg isFunction, if_neg isArrow]
  split
  · exact tree.admits_outermost node
  · exact isPart.admits_outer represents inside isFunction isArrow admits

end IsPart
end SyntaxTree

/-! ## Nodes and what stands in front of them -/

/-- A forest gives a node to its owner: the numbers that are given out when it starts, what stands in front
of it where it stands, its kind and what it holds. -/
inductive Forest.Gives (place : Numbering) (before : Forest) (kind : Kind) (inside : Forest) :
    Numbering → Forest → Prop where
  | here {numbering : Numbering} (starts : before.after numbering = place) :
      Gives place before kind inside numbering (before.node kind inside)
  | token {numbering : Numbering} {front : Forest} {position : Nat} {word : Kind}
      (earlier : Gives place before kind inside numbering front) :
      Gives place before kind inside numbering (front.token position word)
  | hole {numbering : Numbering} {front : Forest} (earlier : Gives place before kind inside numbering front) :
      Gives place before kind inside numbering front.hole
  | node {numbering : Numbering} {front children : Forest} {last : Kind}
      (earlier : Gives place before kind inside numbering front) :
      Gives place before kind inside numbering (front.node last children)
  | list {numbering : Numbering} {front items : Forest}
      (earlier : Gives place before kind inside numbering front) :
      Gives place before kind inside numbering (front.list items)
  | item {numbering : Numbering} {front items : Forest}
      (within : Gives place before kind inside (front.after numbering).nextList items) :
      Gives place before kind inside numbering (front.list items)

theorem Forest.exists_gives {numbering : Numbering} {forest : Forest} {id : NodeId}
    (member : .node id ∈ forest.ownedFrom numbering) :
    ∃ place before kind inside, place.node = id ∧ Gives place before kind inside numbering forest := by
  induction forest generalizing numbering with
  | empty => cases member
  | token front position word ih =>
      rcases List.mem_append.mp member with earlier | last
      · obtain ⟨place, before, kind, inside, same, gives⟩ := ih earlier
        exact ⟨place, before, kind, inside, same, gives.token⟩
      · cases List.mem_singleton.mp last
  | hole front ih =>
      obtain ⟨place, before, kind, inside, same, gives⟩ := ih member
      exact ⟨place, before, kind, inside, same, gives.hole⟩
  | node front last children ih _ =>
      rcases List.mem_append.mp member with earlier | here
      · obtain ⟨place, before, kind, inside, same, gives⟩ := ih earlier
        exact ⟨place, before, kind, inside, same, gives.node⟩
      · cases List.mem_singleton.mp here
        exact ⟨_, front, last, children, rfl, .here rfl⟩
  | list front items ih itemsIh =>
      rcases List.mem_append.mp member with earlier | last
      · obtain ⟨place, before, kind, inside, same, gives⟩ := ih earlier
        exact ⟨place, before, kind, inside, same, gives.list⟩
      · obtain ⟨place, before, kind, inside, same, gives⟩ :=
          itemsIh ((List.mem_cons.mp last).resolve_left nofun)
        exact ⟨place, before, kind, inside, same, gives.item⟩

namespace Forest.Gives

variable {place numbering : Numbering} {before inside forest : Forest} {kind : Kind}
  (gives : Gives place before kind inside numbering forest)
include gives

theorem inside_scoped {scope : Scope} {parent : Kind} {children : Forest}
    (fits : forest.Scoped scope parent children) :
    inside.Scoped (partScope parent children before kind scope) kind inside := by
  induction gives with
  | here => exact fits.2
  | token _ ih => exact ih fits.1
  | hole _ ih => exact ih fits
  | node _ ih => exact ih fits.1
  | list _ ih => exact ih fits.1
  | item _ ih => exact ih fits.2

theorem node_allNodes {holds : Kind → Forest → Prop} (all : forest.AllNodes holds) :
    (empty.node kind inside).AllNodes holds := by
  induction gives with
  | here => exact allNodes_node.mpr ⟨allNodes_empty, (allNodes_node.mp all).2⟩
  | token _ ih => exact ih all
  | hole _ ih => exact ih all
  | node _ ih => exact ih (allNodes_node.mp all).1
  | list _ ih => exact ih (allNodes_list.mp all).1
  | item _ ih => exact ih (allNodes_list.mp all).2

theorem inside_placed {inList : Bool} (placed : forest.Placed inList) : inside.Placed false := by
  induction gives generalizing inList with
  | here => exact placed.2
  | token _ ih => exact ih placed
  | hole _ ih => exact ih placed.2
  | node _ ih => exact ih placed.1
  | list _ ih => exact ih placed.2.1
  | item _ ih => exact ih placed.2.2.1

theorem stores {tree : SyntaxTree} {parent : Option NodeId} (stores : tree.Stores parent numbering forest) :
    tree.Stores parent place (empty.node kind inside) := by
  induction gives with
  | here starts =>
      obtain ⟨-, nodeStores⟩ : _ ∧ tree.Stores _ _ (empty.node kind inside) :=
        SyntaxTree.Stores.append stores
      exact starts ▸ nodeStores
  | @token _ front position word _ ih =>
      obtain ⟨frontStores, -⟩ : _ ∧ tree.Stores _ _ (empty.token position word) :=
        SyntaxTree.Stores.append stores
      exact ih frontStores
  | hole _ ih =>
      exact ih stores.hole
  | @node _ front children last _ ih =>
      obtain ⟨frontStores, -⟩ : _ ∧ tree.Stores _ _ (empty.node last children) :=
        SyntaxTree.Stores.append stores
      exact ih frontStores
  | @list _ front items _ ih =>
      obtain ⟨frontStores, -⟩ : _ ∧ tree.Stores _ _ (empty.list items) := SyntaxTree.Stores.append stores
      exact ih frontStores
  | @item _ front items _ ih =>
      obtain ⟨-, listStores⟩ : _ ∧ tree.Stores _ _ (empty.list items) := SyntaxTree.Stores.append stores
      exact ih listStores.list

theorem scatters {tokens nodes : List Kind} (scatters : forest.Scatters tokens nodes) :
    before.Scatters tokens nodes ∧ kind ∈ nodes := by
  induction gives with
  | here => exact scatters
  | token _ ih => exact ih scatters.1
  | hole _ ih => exact ih scatters
  | node _ ih => exact ih scatters.1
  | list => exact scatters.elim
  | item => exact scatters.elim

end Forest.Gives

/-! ## Tokens at the top -/

namespace Forest

variable {kind parent : Kind} {forest left right : Forest} {tokens nodes : List Kind}

theorem hasToken_append : (left ++ right).hasToken kind = (left.hasToken kind || right.hasToken kind) := by
  induction right with
  | empty => simp [hasToken]
  | token before position word ih => simp [hasToken, ih, Bool.or_assoc]
  | hole before ih => simpa [hasToken] using ih
  | node before last children ih _ => simpa [hasToken] using ih
  | list before items ih _ => simpa [hasToken] using ih

theorem Scatters.hasToken_eq_false (scatters : forest.Scatters tokens nodes) (other : kind ∉ tokens) :
    forest.hasToken kind = false := by
  induction forest with
  | empty => rfl
  | token before position word ih =>
      have noWord : word ≠ kind := fun same => other (same ▸ scatters.2)
      rw [hasToken, ih scatters.1, Bool.false_or]
      exact beq_false_of_ne noWord
  | hole before ih => exact ih scatters
  | node before last children ih _ => exact ih scatters.1
  | list before items => exact scatters.elim

theorem Fits.hasToken {terminals : Terminals} {parts : List Part} (fits : forest.Fits terminals parts)
    (some : parts.any (Part.isTokenOf kind) = true) : forest.hasToken kind = true := by
  induction parts generalizing forest with
  | nil => cases some
  | cons part parts ih =>
      obtain ⟨before, piece, rfl, last, rest⟩ := fits
      rw [hasToken_append]
      rcases Bool.or_eq_true_iff.mp some with isToken | earlier
      · cases part with
        | token kinds joined =>
            obtain ⟨position, word, among, rfl, -⟩ := last
            cases of_decide_eq_true isToken
            cases List.mem_singleton.mp among
            simp [Forest.hasToken]
        | node | list | several => cases isToken
      · rw [ih rest earlier, Bool.true_or]

/-- A token at the top of what fits a scope fits it where it stands. -/
theorem Scoped.exists_fitsScope {scope : Scope} {children : Forest}
    (fits : forest.Scoped scope parent children) (other : parent ≠ .propertyName)
    (some : forest.hasToken kind = true) : ∃ before, FitsScope scope parent children before kind := by
  induction forest with
  | empty => cases some
  | token before position word ih =>
      rcases Bool.or_eq_true_iff.mp some with earlier | last
      · exact ih fits.1 earlier
      · exact ⟨before, beq_iff_eq.mp last ▸ fits.2 other⟩
  | hole before ih => exact ih fits some
  | node before last inside ih _ => exact ih fits.1 some
  | list before items ih _ => exact ih fits.1 some

end Forest

theorem SyntaxTree.Holds.any_isTokenOf {tree : SyntaxTree} {parent : Option NodeId} {numbering : Numbering}
    {forest : Forest} (holds : tree.Holds parent numbering forest) (kind : Kind) :
    (forest.childrenFrom numbering).any (tree.isTokenOf kind) = forest.hasToken kind := by
  induction forest with
  | empty => rfl
  | token before position word ih =>
      obtain ⟨beforeHolds, tokenHolds⟩ : _ ∧ tree.Holds parent _ (Forest.empty.token position word) :=
        Holds.append holds
      simp [Forest.childrenFrom, Forest.hasToken, ih beforeHolds, isTokenOf, tokenHolds.token.2]
  | hole before ih => exact ih holds.hole
  | node before last children ih _ =>
      obtain ⟨beforeHolds, -⟩ : _ ∧ tree.Holds parent _ (Forest.empty.node last children) :=
        Holds.append holds
      simp [Forest.childrenFrom, Forest.hasToken, ih beforeHolds, isTokenOf]
  | list before items ih _ =>
      obtain ⟨beforeHolds, -⟩ : _ ∧ tree.Holds parent _ (Forest.empty.list items) := Holds.append holds
      simp [Forest.childrenFrom, Forest.hasToken, ih beforeHolds, isTokenOf]

/-! ## The parts of functions and operators -/

def operators : List (Kind × Kind) := [(.yieldExpression, .yieldKw), (.awaitExpression, .awaitKw)]

/-- What a node of a kind holds, as far as the scope of the words depends on it. -/
structure Forest.HasParts (kind : Kind) (held : Forest) : Prop where
  leaf : kind ∈ leafKinds → held.Scatters Kind.all []
  function : kind ∈ functionKinds →
    held.Scatters Kind.all (leafKinds ++ [.computedPropertyName, .formalParameters, .functionBody])
  arrow : kind = .arrowFunction → ∃ (front inside : Forest) (position : Nat) (body : Kind),
    held = (front.token position .fatArrow).node body inside ∧ body ≠ .computedPropertyName ∧
      front.Scatters [.asyncKw] [.bindingIdentifier, .formalParameters]
  operator : ∀ word, (kind, word) ∈ operators → held.hasToken word = true

def Part.areArrow : List Part → Bool
  | node kinds _ :: token [.fatArrow] _ :: rest =>
      .computedPropertyName ∉ kinds && rest.all (isAmong [.asyncKw] [.bindingIdentifier, .formalParameters])
  | _ => false

def Sketch.hasParts (kind : Kind) (sketch : Sketch) : Bool :=
  (kind ∉ leafKinds || sketch.parts.all (Part.isAmong Kind.all [])) &&
  (kind ∉ functionKinds || sketch.parts.all
    (Part.isAmong Kind.all (leafKinds ++ [.computedPropertyName, .formalParameters, .functionBody]))) &&
  (kind ≠ .arrowFunction || Part.areArrow sketch.parts) &&
  operators.all fun operator => kind ≠ operator.1 || sketch.parts.any (Part.isTokenOf operator.2)

theorem Nonterminal.isSketched_hasParts :
    ∀ nonterminal ∈ listed, nonterminal.isSketched Sketch.hasParts = true := by
  decide +kernel

theorem Forest.Drawn.hasParts {terminals : Terminals} {kind : Kind} {held : Forest}
    (drawn : held.Drawn Sketch.hasParts terminals kind) : held.HasParts kind := by
  obtain ⟨⟨parts, _⟩, -, -, passed, fits, -⟩ := drawn.sketched
  simp only [Sketch.hasParts, Bool.and_eq_true, Bool.or_eq_true, decide_eq_true_eq] at passed
  obtain ⟨⟨⟨leaf, function⟩, arrow⟩, words⟩ := passed
  constructor
  · exact fun isLeaf => fits.scatters (leaf.resolve_left (· isLeaf))
  · exact fun isFunction => fits.scatters (function.resolve_left (· isFunction))
  · intro isArrow
    have areArrow := arrow.resolve_left (· isArrow)
    rw [Part.areArrow.eq_def] at areArrow
    split at areArrow
    · obtain ⟨noKey, inFront⟩ := Bool.and_eq_true_iff.mp areArrow
      obtain ⟨_, _, rfl, ⟨kind, isBody, body, rfl, -⟩, front, _, rfl, ⟨position, sign, isSign, rfl, -⟩,
        frontFits⟩ := fits
      cases List.mem_singleton.mp isSign
      exact ⟨front, body, position, kind, rfl, fun isKey => of_decide_eq_true noKey (isKey ▸ isBody),
        frontFits.scatters inFront⟩
    · cases areArrow
  · intro word isOperator
    have told := List.all_eq_true.mp words _ isOperator
    simp only [ne_eq, not_true_eq_false, decide_false, Bool.false_or] at told
    exact fits.hasToken told

/-- A node of an arrow is in front of the sign, a parameter, or behind it and the last one. -/
theorem Forest.Gives.of_arrow {place numbering : Numbering} {before inside held : Forest} {kind : Kind}
    (gives : Gives place before kind inside numbering held) (parts : held.HasParts .arrowFunction) :
    before.hasToken .fatArrow = false ∧ kind ∈ [Kind.bindingIdentifier, .formalParameters] ∨
      before.hasToken .fatArrow = true ∧ kind ≠ .computedPropertyName ∧
        (held.childrenFrom numbering).getLast? = some (.node place.node) := by
  obtain ⟨front, content, position, body, rfl, noKey, inFront⟩ := parts.arrow rfl
  cases gives with
  | here starts =>
      refine .inr ⟨by simp [hasToken], noKey, ?_⟩
      rw [childrenFrom, starts, List.getLast?_concat]
  | node earlier =>
      cases earlier with
      | token earlier =>
          obtain ⟨scatters, isPart⟩ := Forest.Gives.scatters earlier inFront
          exact .inl ⟨scatters.hasToken_eq_false (by decide), isPart⟩

/-! ## The scope of every node -/

/-- A node is stored with what it holds, the words in it fit a scope, and what this scope makes operators acts
on functions around the node. -/
structure SyntaxTree.Stands (tree : SyntaxTree) (scope : Scope) (kind : Kind) (held : Forest)
    (here : Numbering) : Prop where
  stored : ∃ above, tree.Stores above here (Forest.empty.node kind held)
  placed : held.Placed false
  parts : (Forest.empty.node kind held).AllNodes Forest.HasParts
  fits : held.Scoped scope kind held
  admits : kind ∉ leafKinds → tree.Admits scope here.node

namespace SyntaxTree.Stands

variable {tree : SyntaxTree} {scope : Scope} {kind part root word : Kind}
  {held children before inside : Forest} {here place : Numbering} {node : NodeId}
  (stands : tree.Stands scope kind held here)
include stands

theorem kind_eq : tree.kind here.node = kind := by
  obtain ⟨_, stores⟩ := stands.stored
  exact stores.toHolds.node.1

theorem hasParts : held.HasParts kind := (Forest.allNodes_node.mp stands.parts).2.1

theorem isPart (gives : Forest.Gives place before part inside here.nextNode held)
    (below : tree.parent? place.node = some here.node) : tree.IsPart here.node place.node held before := by
  obtain ⟨above, stores⟩ := stands.stored
  obtain ⟨rfl, held_eq, holds⟩ := stores.toHolds.node
  obtain rfl : tree.kind place.node = part := (gives.stores stores.node).toHolds.node.1
  refine ⟨below, ?_, ?_, ?_, ?_⟩
  · rw [held_eq, holds.any_isTokenOf]
  · exact fun isFunction => (gives.scatters (stands.hasParts.function isFunction)).2
  · intro isArrow front
    rcases gives.of_arrow (isArrow ▸ stands.hasParts) with ⟨-, isParameter⟩ | ⟨behind, -⟩
    · exact isParameter
    · rw [front] at behind
      cases behind
  · intro isArrow behind
    rcases gives.of_arrow (isArrow ▸ stands.hasParts) with ⟨front, -⟩ | ⟨-, isBody⟩
    · rw [front] at behind
      cases behind
    · exact held_eq ▸ isBody

/-- One step down: what a node owns stands in the scope that the node hands on to it. -/
theorem exists_child (represents : tree.Represents root children) (above : here.node < tree.nodes.size)
    (inTree : node < tree.nodes.size) (owned : .node node ∈ tree.owned here.node) :
    ∃ inner found content behind, behind.node = node ∧ tree.Stands inner found content behind := by
  obtain ⟨_, stores⟩ := stands.stored
  have below : tree.parent? node = some here.node := represents.childParent?_of_mem above owned
  rw [stores.owned_eq stands.placed] at owned
  obtain ⟨place, before, part, inside, rfl, gives⟩ := Forest.exists_gives owned
  have nodeStores := gives.stores stores.node
  have samePart : tree.kind place.node = part := nodeStores.toHolds.node.1
  have noLeaf : kind ∉ leafKinds := fun isLeaf =>
    List.not_mem_nil (gives.scatters (stands.hasParts.leaf isLeaf)).2
  refine ⟨Forest.partScope kind held before part scope, part, inside, place, rfl, ?_⟩
  refine ⟨⟨some here.node, nodeStores⟩, gives.inside_placed stands.placed,
    gives.node_allNodes (Forest.allNodes_node.mp stands.parts).2.2, gives.inside_scoped stands.fits, ?_⟩
  intro noLeafPart
  have admits := (stands.isPart gives below).admits_part represents inTree (samePart.symm ▸ noLeafPart)
    (stands.admits noLeaf)
  rwa [stands.kind_eq, samePart] at admits

theorem exists_fitsScope (isOperator : (kind, word) ∈ operators) :
    ∃ before, Forest.FitsScope scope kind held before word := by
  refine stands.fits.exists_fitsScope ?_ (stands.hasParts.operator word isOperator)
  rintro rfl
  simp [operators] at isOperator

theorem isWithin_generator (isYield : kind = .yieldExpression) :
    tree.IsWithin tree.isGenerator here.node := by
  subst isYield
  obtain ⟨before, word⟩ := stands.exists_fitsScope (.head _)
  rw [Forest.FitsScope] at word
  split at word
  · rename_i on
    exact (stands.admits (by decide)).yields on
  · exact absurd word.1 (by decide)

theorem isWithin_async (isAwait : kind = .awaitExpression) : tree.IsWithin tree.isAsync here.node := by
  subst isAwait
  obtain ⟨before, word⟩ := stands.exists_fitsScope (.tail _ (.head _))
  rw [Forest.FitsScope] at word
  split at word
  · rename_i on
    exact (stands.admits (by decide)).awaits on
  · exact absurd word.1 (by decide)

end SyntaxTree.Stands

namespace SyntaxTree.Represents

variable {tree : SyntaxTree} {kind : Kind} {children : Forest} {node : NodeId}
  (represents : tree.Represents kind children)
  (parts : (Forest.empty.node kind children).AllNodes Forest.HasParts)
  (fits : children.Scoped .outermost kind children)
include represents parts fits

/-- All the way down, by the numbers of the nodes. -/
theorem exists_stands (inside : node < tree.nodes.size) :
    ∃ scope found held here, here.node = node ∧ tree.Stands scope found held here := by
  induction node using Nat.strongRecOn with
  | ind node ih =>
      by_cases isRoot : node = root
      · refine ⟨.outermost, kind, children, .startingAt tree.firstToken, isRoot.symm, ?_⟩
        exact ⟨⟨none, represents.stores⟩, represents.placed, parts, fits,
          fun _ => tree.admits_outermost _⟩
      · have has : tree.Has (.node node) := ⟨isRoot, inside⟩
        obtain ⟨parent, parentInside, -, owns⟩ := represents.owner has
        have owned := (owns parent parentInside).mpr rfl
        obtain ⟨scope, found, held, here, rfl, stands⟩ :=
          ih parent (represents.parent_lt parentInside owned) parentInside
        exact stands.exists_child represents parentInside inside owned

theorem enclosesOperators : tree.EnclosesOperators where
  yields := by
    intro node inside isYield
    obtain ⟨scope, found, held, here, rfl, stands⟩ := represents.exists_stands parts fits inside
    exact stands.isWithin_generator (stands.kind_eq.symm.trans isYield)
  awaits := by
    intro node inside isAwait
    obtain ⟨scope, found, held, here, rfl, stands⟩ := represents.exists_stands parts fits inside
    exact stands.isWithin_async (stands.kind_eq.symm.trans isAwait)

end SyntaxTree.Represents

/-! ## Every match -/

theorem Rule.Matched.enclosesOperators {stream : TokenStream} (accepts : stream.Accepts) {rule : Rule}
    {start : Nat} (before : start ≤ stream.eofIndex) {state : ParseState} {kind : Kind}
    {children : Forest}
    (matched : rule.Matched (.ofTokens (stream.tokens.toList.drop start)) (stream.eofIndex - start)
      state kind children) :
    ((Forest.empty.node kind children).tree stream start).EnclosesOperators := by
  have drawn := matched.drawn Nonterminal.isSketched_hasParts
  exact (matched.represents accepts before).enclosesOperators
    (fun node member => (drawn node member).hasParts) matched.children_scoped

/-- In every tree of a match or a parse, `yield` and `await` stand in the parameters or the body of the nearest
generator and the nearest `async` function. -/
theorem matchRule_encloses_operators {text : List Char} {tokens : Array Token} {stream : TokenStream}
    (accepted : TokenStream.ofTokens text tokens = .ok stream) (rule : Rule) :
    (∀ (position : Nat) (tree : SyntaxTree) (next : Cursor),
      matchRule rule (.atToken stream position) = .ok (tree, next) → tree.EnclosesOperators) ∧
    ∀ tree : SyntaxTree, parseStream rule stream = .ok tree → tree.EnclosesOperators := by
  obtain ⟨-, accepts⟩ := TokenStream.accepts_of_ofTokens accepted
  exact accepts.holds_of_matched rule fun _ before _ _ _ matched => matched.enclosesOperators accepts before

/-- An `async` generator: the default of its parameter is an `await`, and its body a `yield`. -/
theorem matchRule_encloses_operators_of_generator :
    let text := ['a', 's', 'y', 'n', 'c', ' ', 'f', 'u', 'n', 'c', 't', 'i', 'o', 'n', '*', 'g', '(', 'a',
      '=', 'a', 'w', 'a', 'i', 't', ' ', 'b', ')', '\x7b', 'y', 'i', 'e', 'l', 'd', '\x7d']
    let stream := tokenize text
    TokenStream.ofTokens text stream.tokens = .ok stream ∧
    ∃ tree, parseStream .script stream = .ok tree ∧ tree.EnclosesOperators ∧
      tree.kind 6 = .awaitExpression ∧ tree.kind 10 = .yieldExpression := by
  intro text stream
  have accepted : TokenStream.ofTokens text stream.tokens = .ok stream := rfl
  have parsed : (parseStream .script stream).toOption.map (fun tree => (tree.kind 6, tree.kind 10)) =
      some (.awaitExpression, .yieldExpression) := by decide +kernel
  refine ⟨accepted, ?_⟩
  cases result : parseStream .script stream with
  | error failure =>
      rw [result] at parsed
      cases parsed
  | ok tree =>
      rw [result] at parsed
      obtain ⟨isAwait, isYield⟩ := Prod.mk.inj (Option.some.inj parsed)
      exact ⟨tree, rfl, (matchRule_encloses_operators accepted .script).2 tree result, isAwait, isYield⟩

/-- A default of a parameter of a generator is a `yield`: no body of a function is around it. In the computed
key of a generator method, a `yield` is that of the generator around. -/
theorem parseStream_yields_in_parameters :
    let text := ['f', 'u', 'n', 'c', 't', 'i', 'o', 'n', '*', ' ', 'g', '(', 'a', ' ', '=', ' ', 'y', 'i',
      'e', 'l', 'd', ')', ' ', '\x7b', '\x7d']
    let key := ['f', 'u', 'n', 'c', 't', 'i', 'o', 'n', '*', 'g', '(', ')', '\x7b', '(', '\x7b', '*', '[',
      'y', 'i', 'e', 'l', 'd', ']', '(', ')', '\x7b', '\x7d', '\x7d', ')', '\x7d']
    let stream := tokenize text
    TokenStream.ofTokens text stream.tokens = .ok stream ∧
    (∃ tree, parseStream .script stream = .ok tree ∧
      (tree.ancestors 6).map tree.kind = [.yieldExpression, .initializedBindingElement, .formalParameters,
        .generatorDeclaration, .script] ∧
      ¬∃ part function, tree.enclosing? tree.isGenerator 6 = some (part, function) ∧
        tree.kind part = .functionBody) ∧
    (parseStream .script (tokenize key)).toOption.map (fun tree => (tree.ancestors 10).map tree.kind) =
      some [.yieldExpression, .computedPropertyName, .generatorMethod, .objectLiteral,
        .parenthesizedExpression, .expressionStatement, .functionBody, .generatorDeclaration, .script] := by
  intro text key stream
  have accepted : TokenStream.ofTokens text stream.tokens = .ok stream := rfl
  have parsed : (parseStream .script stream).toOption.map (fun tree =>
      ((tree.ancestors 6).map tree.kind, (tree.enclosing? tree.isGenerator 6).map (tree.kind ·.1))) =
      some ([.yieldExpression, .initializedBindingElement, .formalParameters, .generatorDeclaration,
        .script], some .formalParameters) := by decide +kernel
  refine ⟨accepted, ?_, by decide +kernel⟩
  cases result : parseStream .script stream with
  | error failure =>
      rw [result] at parsed
      cases parsed
  | ok tree =>
      rw [result] at parsed
      obtain ⟨way, through⟩ := Prod.mk.inj (Option.some.inj parsed)
      refine ⟨tree, rfl, way, ?_⟩
      rintro ⟨part, function, found, isBody⟩
      rw [found] at through
      cases isBody.symm.trans (Option.some.inj through)

end ScriptTree
