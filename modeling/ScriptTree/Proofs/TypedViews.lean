import Mathlib.Data.List.Flatten
import Mathlib.Data.List.Nodup
import Mathlib.Data.List.Pairwise
import ScriptTree.Proofs.Accessors

/-! # Typed views of matches

The typed view of a tree that a rule matched loses nothing and invents nothing: one wrapper casts each node,
an accessor gives its part unless the part may be left out, and each child is returned by one accessor. -/
set_option autoImplicit false
namespace ScriptTree

def optionalParts : Kind → List String
  | .ifStatement => ["else_clause"]
  | .forStatement => ["initializer", "test", "update"]
  | .continueStatement | .breakStatement => ["label"]
  | .returnStatement | .yieldExpression => ["argument"]
  | .tryStatement => ["handler", "finalizer"]
  | .catchClause => ["parameter"]
  | .functionExpression | .generatorExpression => ["name"]
  | .classDeclaration => ["extends"]
  | .classExpression => ["name", "extends"]
  | .fieldDefinition => ["initializer", "semicolon_token"]
  | .shorthandProperty => ["initializer"]
  | .newExpression => ["arguments"]
  | _ => []

namespace SyntaxTree

/-- A child that has no accessor: a getter gives no access to its parameters, which are none. -/
def IsHidden (tree : SyntaxTree) (node child : NodeId) : Prop :=
  tree.kind node = .getter ∧ tree.kind child = .formalParameters

/-- What a wrapper shows of a node is the node. -/
structure IsShownBy (tree : SyntaxTree) (node : NodeId) (wrapper : Wrapper) : Prop where
  required : ∀ entry ∈ wrapper.accessors, entry.1 ∉ optionalParts (tree.kind node) →
    (tree.read node entry.2).isPresent = true
  returned : ∀ child ∈ tree.childNodes node, ¬ tree.IsHidden node child →
    ∃! entry, entry ∈ wrapper.accessors ∧ child ∈ (tree.read node entry.2).returned tree
  children : ∀ entry ∈ wrapper.accessors, ∀ child ∈ (tree.read node entry.2).returned tree,
    child ∈ tree.childNodes node
  /-- No element of a list is dropped: absent are the holes alone. -/
  lists : ∀ entry ∈ wrapper.accessors, ∀ list, tree.read node entry.2 = .list (some list) →
    (tree.typedElements list).length = (tree.listEntry list.list).items.size ∧
    ∀ index : Nat, (tree.typedElements list)[index]? = some .absent ↔
      (tree.listEntry list.list).items.elements[index]? = some .absent

def IsTyped (tree : SyntaxTree) (node : NodeId) : Prop :=
  ∃ wrapper : Wrapper, tree.cast? (.wrapper wrapper) node = some ⟨[], wrapper, node⟩ ∧
    (∀ other : Wrapper, (tree.cast? (.wrapper other) node).isSome = true → other = wrapper) ∧
    tree.IsShownBy node wrapper

end SyntaxTree

/-! ## The check of a sketch -/

def Wrapper.ofKind? (kind : Kind) : Option Wrapper := all.find? fun wrapper => wrapper.kinds.contains kind

namespace Accessor

def isTotal : Accessor → Bool
  | .children _ | .tokensAmong _ | .firstTokenIs _ | .hasToken _ | .isKind _ | .trimmedText => true
  | _ => false

/-- Whether an accessor gives its part wherever the children are runs of the parts. -/
def isSure (parts : List Part) : Accessor → Bool
  | .token kind => parts.any (Part.isTokenOf kind)
  | .tokenAmong kinds => parts.any fun
      | .token known _ => known ⊆ kinds
      | _ => false
  | .operator => parts.any fun
      | .token _ _ => true
      | _ => false
  | .firstToken => true
  | .literalKind =>
      match parts with
      | [.token kinds _] => kinds.all fun kind => (LiteralKind.ofKind? kind).isSome
      | _ => false
  | accessor => accessor.isTotal || (accessor.find parts.zipIdx).any (· ≠ [])

end Accessor

namespace Wrapper

/-- The parts that accessors give the nodes of, if that is known of all of them. -/
def findAll? (parts : Indexed) : List (String × Accessor) → Option (List Nat)
  | [] => some []
  | (_, accessor) :: rest =>
      match accessor.find parts, findAll? parts rest with
      | some found, some others => some (found ++ others)
      | _, _ => none

end Wrapper

namespace Part

def isShown (kind : Kind) : Part → Bool
  | token _ _ => false
  | node kinds _ => kind ≠ .getter || kinds ≠ [.formalParameters]
  | list _ | several _ _ => true

end Part

def Sketch.isShown (kind : Kind) (sketch : Sketch) : Bool :=
  match Wrapper.ofKind? kind with
  | none => false
  | some wrapper =>
      let parts := sketch.parts.reverse
      (wrapper.accessors.all fun entry => entry.1 ∈ optionalParts kind || entry.2.isSure parts) &&
      match Wrapper.findAll? parts.zipIdx wrapper.accessors with
      | none => false
      | some found =>
          found.isPerm ((parts.zipIdx.filter fun entry => entry.1.isShown kind).map Prod.snd)

set_option maxRecDepth 4000 in
theorem Nonterminal.isSketched_isShown :
    ∀ nonterminal ∈ listed, nonterminal.isSketched Sketch.isShown = true := by
  decide +kernel

/-! ## Wrappers of kinds -/

theorem Wrapper.mem_all (wrapper : Wrapper) : wrapper ∈ all := by
  cases wrapper <;> decide

theorem Wrapper.eq_of_mem_kinds {kind : Kind} {one other : Wrapper} (inOne : kind ∈ one.kinds)
    (inOther : kind ∈ other.kinds) : one = other := by
  have disjoint : ∀ one ∈ all, ∀ other ∈ all, ∀ kind ∈ one.kinds, kind ∈ other.kinds → one = other := by
    decide +kernel
  exact disjoint one one.mem_all other other.mem_all kind inOne inOther

namespace SyntaxTree

variable {tree : SyntaxTree} {node : NodeId} {wrapper : Wrapper}

theorem cast?_wrapper (tree : SyntaxTree) (wrapper : Wrapper) (node : NodeId) :
    tree.cast? (.wrapper wrapper) node =
      if tree.kind node ∈ wrapper.kinds then some ⟨[], wrapper, node⟩ else none := by
  by_cases member : tree.kind node ∈ wrapper.kinds <;>
    simp [cast?, View.cast?, View.castWithin, member]

/-- The wrapper that is found for the kind of a node casts it, and no other one does. -/
theorem casts_of_ofKind? (found : Wrapper.ofKind? (tree.kind node) = some wrapper) :
    tree.cast? (.wrapper wrapper) node = some ⟨[], wrapper, node⟩ ∧
      ∀ other : Wrapper, (tree.cast? (.wrapper other) node).isSome = true → other = wrapper := by
  have contains : wrapper.kinds.contains (tree.kind node) = true := by
    simpa using List.find?_some found
  have member := List.contains_iff_mem.mp contains
  refine ⟨by rw [cast?_wrapper, if_pos member], fun other casts => ?_⟩
  rw [cast?_wrapper] at casts
  split at casts
  · rename_i inOther
    exact Wrapper.eq_of_mem_kinds inOther member
  · cases casts

/-! ## Child nodes -/

/-- The nodes among the items of a list are the elements that are there. -/
theorem filterMap_listed (list : ListId) :
    (tree.listed list).filterMap Element.toNode? =
      (tree.listEntry list).items.elements.toList.filterMap Slot.toOption := by
  have one (entry : Slot NodeId × Nat) : (.element entry.1 ::
        (tree.listEntry list).items.separatorAfter entry.2).filterMap
          (fun item => (ListItem.toElement? item).bind Element.toNode?) = entry.1.toOption.toList := by
    have separators : ((tree.listEntry list).items.separatorAfter entry.2).filterMap
        (fun item => (ListItem.toElement? item).bind Element.toNode?) = [] := by
      rw [SeparatedList.separatorAfter]
      cases (tree.listEntry list).items.separators[entry.2]? <;> rfl
    rw [List.filterMap_cons, separators]
    cases entry.1 <;> rfl
  rw [listed, List.filterMap_filterMap, SeparatedList.items, List.filterMap_flatMap]
  simp only [one]
  rw [← List.flatMap_map Prod.fst (fun slot : Slot NodeId => slot.toOption.toList), List.zipIdx_map_fst,
    ← List.filterMap_eq_flatMap_toList]

theorem filterMap_flatten (child : Child) :
    (tree.flatten child).filterMap Element.toNode? = tree.childNodesOf child := by
  cases child with
  | token id => rfl
  | node id => rfl
  | list id => exact tree.filterMap_listed id

theorem Shows.exists_run {parts : List Part} (shows : tree.Shows parts node) :
    ∃ run : Nat → List Child, tree.Runs run parts.zipIdx ∧
      tree.children node = parts.zipIdx.flatMap fun entry => run entry.2 := by
  obtain ⟨runs, tell, same⟩ := shows
  refine ⟨fun index => runs.getD index [], ?_, ?_⟩
  · intro entry member
    obtain ⟨bound, part⟩ := List.mem_zipIdx' member
    have inside : entry.2 < runs.length := tell.length_eq ▸ bound
    rw [part]
    dsimp only
    rw [List.getD_eq_getElem?_getD, List.getElem?_eq_getElem inside]
    exact tell.get bound inside
  · have each : parts.zipIdx.map (fun entry => runs.getD entry.2 []) = runs := by
      apply List.ext_getElem
      · simp [tell.length_eq]
      · intro index _ bound
        simp [bound]
    rw [same, List.flatMap_def, each]

section Represents

variable {kind : Kind} {held : Forest} (represents : tree.Represents kind held)
  (inside : node < tree.nodes.size)
include represents inside

theorem Represents.childNodes_eq : tree.childNodes node = tree.nodesOf (tree.children node) := by
  obtain ⟨above, here, inner, held, rfl, stores, placed, -⟩ := represents.exists_node inside
  rw [childNodes, stores.elements_eq_flatMap placed, List.filterMap_flatMap, nodesOf]
  simp only [filterMap_flatten]

theorem Represents.nodup_childNodes : (tree.childNodes node).Nodup := by
  obtain ⟨above, here, inner, held, rfl, stores, placed, -⟩ := represents.exists_node inside
  have once : (tree.owned here.node).Nodup := by
    rw [stores.owned_eq placed]
    exact held.nodup_ownedFrom _
  have nodes (child : Child) : child.toElement?.bind Element.toNode? = nodeOf? child := by
    cases child <;> rfl
  rw [childNodes, stores.elements_eq_flatMap placed, ← filterMap_owned, List.filterMap_filterMap]
  simp only [nodes]
  refine once.filterMap fun one other id isOne isOther => ?_
  rw [eq_node_of_nodeOf? isOne, eq_node_of_nodeOf? isOther]

end Represents

/-! ## What the accessors of a wrapper give -/

variable {run : Nat → List Child} {parts : Indexed} {found : List Nat}

theorem returned_of_findAll? {entries : List (String × Accessor)}
    (found_eq : Wrapper.findAll? parts entries = some found)
    (children_eq : tree.children node = parts.flatMap fun entry => run entry.2)
    (runs : tree.Runs run parts) :
    (entries.flatMap fun entry => (tree.read node entry.2).returned tree) =
      found.flatMap fun index => tree.nodesOf (run index) := by
  induction entries generalizing found with
  | nil =>
      cases found_eq
      rfl
  | cons entry rest ih =>
      rw [Wrapper.findAll?] at found_eq
      split at found_eq
      · rename_i first others firstFound othersFound
        cases found_eq
        rw [List.flatMap_cons, List.flatMap_append, ih othersFound,
          (Accessor.returned_of_find entry.2 firstFound children_eq runs).1]
      · cases found_eq

/-- A part that is not shown brings no node, but the parameters of a getter. -/
theorem isHidden_of_isShown {part : Part} {children : List Child} {child : NodeId}
    (tells : part.Tells tree children) (notShown : part.isShown (tree.kind node) = false)
    (member : child ∈ tree.nodesOf children) : tree.IsHidden node child := by
  cases part with
  | token kinds joined =>
      obtain ⟨id, rfl, -⟩ := tells
      cases member
  | node kinds joined =>
      obtain ⟨id, rfl, among, -⟩ := tells
      obtain ⟨isGetter, isParameters⟩ := Bool.or_eq_false_iff.mp notShown
      have same : kinds = [.formalParameters] := by simpa using isParameters
      cases List.mem_singleton.mp member
      rw [same] at among
      exact ⟨by simpa using isGetter, List.mem_singleton.mp among⟩
  | list kinds => cases notShown
  | several tokens nodes => cases notShown

variable {kind : Kind} {held : Forest} {sketch : Sketch} {terminals : Terminals}

theorem mem_nodesOf {children : List (Part × Nat)} {child : NodeId} :
    child ∈ tree.nodesOf (children.flatMap fun entry => run entry.2) ↔
      ∃ entry ∈ children, child ∈ tree.nodesOf (run entry.2) := by
  simp only [nodesOf, List.flatMap_assoc, List.mem_flatMap]

/-- Of what accessors give, every node that is not hidden is given by one of them. -/
theorem Represents.existsUnique_returned (represents : tree.Represents kind held)
    (inside : node < tree.nodes.size) {entries : List (String × Accessor)}
    (found_eq : Wrapper.findAll? parts entries = some found)
    (children_eq : tree.children node = parts.flatMap fun entry => run entry.2)
    (runs : tree.Runs run parts)
    (shown : found.isPerm ((parts.filter fun entry => entry.1.isShown (tree.kind node)).map Prod.snd) =
      true) :
    (∀ child ∈ tree.childNodes node, ¬ tree.IsHidden node child →
      ∃! entry, entry ∈ entries ∧ child ∈ (tree.read node entry.2).returned tree) ∧
    ∀ entry ∈ entries, ∀ child ∈ (tree.read node entry.2).returned tree, child ∈ tree.childNodes node := by
  have nodes := represents.childNodes_eq inside
  have once := represents.nodup_childNodes inside
  rw [nodes, children_eq] at once
  have given : (entries.flatMap fun entry => (tree.read node entry.2).returned tree).Perm
      (((parts.filter fun entry => entry.1.isShown (tree.kind node)).map Prod.snd).flatMap fun index =>
        tree.nodesOf (run index)) := by
    rw [returned_of_findAll? found_eq children_eq runs]
    exact (List.isPerm_iff.mp shown).flatMap_right _
  have sublist : (((parts.filter fun entry => entry.1.isShown (tree.kind node)).map Prod.snd).flatMap
      fun index => tree.nodesOf (run index)).Sublist
        (tree.nodesOf (parts.flatMap fun entry => run entry.2)) := by
    rw [List.flatMap_map, nodesOf, List.flatMap_assoc]
    exact List.filter_sublist.flatMap _
  have apart := List.nodup_flatMap.mp (given.nodup_iff.mpr (once.sublist sublist))
  refine ⟨fun child member notHidden => ?_, fun entry listed child member => ?_⟩
  · rw [nodes, children_eq] at member
    obtain ⟨part, inParts, inRun⟩ := mem_nodesOf.mp member
    have isShown : part.1.isShown (tree.kind node) = true := by
      by_contra notShown
      exact notHidden (isHidden_of_isShown (runs part inParts) (by simpa using notShown) inRun)
    have returned : child ∈ entries.flatMap fun entry => (tree.read node entry.2).returned tree := by
      rw [given.mem_iff, List.flatMap_map]
      exact List.mem_flatMap.mpr ⟨part, List.mem_filter.mpr ⟨inParts, isShown⟩, inRun⟩
    obtain ⟨entry, listed, gives⟩ := List.mem_flatMap.mp returned
    refine ⟨entry, ⟨listed, gives⟩, ?_⟩
    rintro other ⟨otherListed, otherGives⟩
    by_contra differ
    have symmetric : Std.Symm (Function.onFun List.Disjoint
        fun entry : String × Accessor => (tree.read node entry.2).returned tree) := 
      ⟨fun _ _ apart _ inOne inOther => apart inOther inOne⟩
    exact apart.2.forall otherListed listed differ otherGives gives
  · rw [nodes, children_eq]
    exact sublist.subset (given.subset (List.mem_flatMap.mpr ⟨entry, listed, member⟩))

/-! ## Parts that are there -/

section Present

variable {parts : List Part}

theorem mem_directTokens {id : TokenId} : id ∈ tree.directTokens node ↔ .token id ∈ tree.children node := by
  rw [directTokens, List.mem_filterMap]
  constructor
  · rintro ⟨child, member, isToken⟩
    cases child <;> cases isToken
    exact member
  · exact fun member => ⟨_, member, rfl⟩

theorem exists_directToken {kinds : List Kind} {joined : Bool} (member : .token kinds joined ∈ parts)
    (children_eq : tree.children node = parts.zipIdx.flatMap fun entry => run entry.2)
    (runs : tree.Runs run parts.zipIdx) :
    ∃ id ∈ tree.directTokens node, (tree.token id).kind ∈ kinds := by
  obtain ⟨index, here⟩ := List.mem_iff_getElem?.mp member
  have listed : (Part.token kinds joined, index) ∈ parts.zipIdx := List.mk_mem_zipIdx_iff_getElem?.mpr here
  obtain ⟨id, same, among, -⟩ := runs _ listed
  refine ⟨id, mem_directTokens.mpr ?_, among⟩
  rw [children_eq]
  exact List.mem_flatMap.mpr ⟨_, listed, by rw [same]; exact List.mem_singleton_self _⟩

/-- A literal is its token alone. -/
theorem Represents.firstTokenKind?_of_single {kinds : List Kind} {joined : Bool}
    (represents : tree.Represents kind held) (inside : node < tree.nodes.size)
    (shows : tree.Shows [.token kinds joined] node) :
    ∃ known ∈ kinds, tree.firstTokenKind? node = some known := by
  obtain ⟨runs, tell, children_eq⟩ := shows
  obtain ⟨first, rest, ⟨id, rfl, among, -⟩, last, rfl⟩ := List.forall₂_cons_left_iff.mp tell
  cases last
  obtain ⟨starts, ends⟩ := represents.range_of_children inside children_eq
  refine ⟨_, among, ?_⟩
  rw [firstTokenKind?, firstToken?, starts, ends rfl, if_pos (Nat.lt_succ_self id), Option.map_some]

theorem Represents.isPresent_of_isSure (represents : tree.Represents kind held)
    (inside : node < tree.nodes.size) (like : tree.IsLike terminals sketch node)
    (children_eq : tree.children node = sketch.parts.reverse.zipIdx.flatMap fun entry => run entry.2)
    (runs : tree.Runs run sketch.parts.reverse.zipIdx) (accessor : Accessor)
    (sure : accessor.isSure sketch.parts.reverse = true) :
    (tree.read node accessor).isPresent = true := by
  have found (isFound : (accessor.find sketch.parts.reverse.zipIdx).any (· ≠ []) = true) :
      (tree.read node accessor).isPresent = true := by
    cases found_eq : accessor.find sketch.parts.reverse.zipIdx with
    | none =>
        rw [found_eq] at isFound
        cases isFound
    | some found =>
        rw [found_eq] at isFound
        exact (accessor.returned_of_find found_eq children_eq runs).2 (of_decide_eq_true isFound)
  cases accessor with
  | token wanted =>
      obtain ⟨part, member, isToken⟩ := List.any_eq_true.mp sure
      cases part with
      | token kinds joined =>
          cases of_decide_eq_true isToken
          obtain ⟨id, listed, among⟩ := exists_directToken member children_eq runs
          exact List.find?_isSome.mpr ⟨id, listed, by simpa using List.mem_singleton.mp among⟩
      | node | list | several => cases isToken
  | tokenAmong wanted =>
      obtain ⟨part, member, isAmong⟩ := List.any_eq_true.mp sure
      cases part with
      | token kinds joined =>
          obtain ⟨id, listed, among⟩ := exists_directToken member children_eq runs
          exact List.find?_isSome.mpr
            ⟨id, listed, List.contains_iff_mem.mpr (of_decide_eq_true isAmong among)⟩
      | node | list | several => cases isAmong
  | operator =>
      obtain ⟨part, member, isToken⟩ := List.any_eq_true.mp sure
      cases part with
      | token kinds joined =>
          obtain ⟨id, listed, -⟩ := exists_directToken member children_eq runs
          exact List.isSome_head?.mpr (List.ne_nil_of_mem listed)
      | node | list | several => cases isToken
  | firstToken =>
      change (tree.firstToken? node).isSome = true
      rw [firstToken?, if_pos like.some]
      rfl
  | literalKind =>
      have shows := like.shows
      rw [Accessor.isSure.eq_def] at sure
      dsimp only at sure
      split at sure
      · rename_i kinds joined single
        rw [single] at shows
        obtain ⟨known, among, first⟩ := represents.firstTokenKind?_of_single inside shows
        rw [read, first]
        exact List.all_eq_true.mp sure known among
      · cases sure
  | child view | nthNode index view | nodeAfter wanted view | clause semicolons view | list view =>
      exact found sure
  | children | tokensAmong | firstTokenIs | hasToken | isKind | trimmedText => rfl

end Present

/-! ## Typed lists -/

theorem Wrapper.find_of_findAll? {entries : List (String × Accessor)} {entry : String × Accessor}
    (found_eq : Wrapper.findAll? parts entries = some found) (member : entry ∈ entries) :
    ∃ here, entry.2.find parts = some here := by
  induction entries generalizing found with
  | nil => cases member
  | cons first rest ih =>
      rw [Wrapper.findAll?] at found_eq
      split at found_eq
      · rename_i here others hereFound othersFound
        rcases List.mem_cons.mp member with rfl | later
        · exact ⟨here, hereFound⟩
        · exact ih othersFound later
      · cases found_eq

/-- A view that admits all elements of a list drops none of them. -/
theorem typedElements_of_admits {id : ListId} {view : View} (admitted : ∀ element,
    .present element ∈ (tree.listEntry id).items.elements.toList → view.admits (tree.kind element) = true) :
    (tree.typedElements ⟨id, view⟩).length = (tree.listEntry id).items.size ∧
    ∀ index : Nat, (tree.typedElements ⟨id, view⟩)[index]? = some .absent ↔
      (tree.listEntry id).items.elements[index]? = some .absent := by
  refine ⟨by simp [typedElements, SeparatedList.size], fun index => ?_⟩
  rw [typedElements, List.getElem?_map, Array.getElem?_toList]
  cases here : (tree.listEntry id).items.elements[index]? with
  | none => simp
  | some slot =>
      cases slot with
      | absent => simp [Slot.andThen, Slot.toOption, Slot.ofOption]
      | present element =>
          have member : .present element ∈ (tree.listEntry id).items.elements.toList :=
            List.mem_iff_getElem?.mpr ⟨index, by rw [Array.getElem?_toList, here]⟩
          obtain ⟨typed, cast, -⟩ := exists_cast? (admitted element member)
          simp [Slot.andThen, Slot.toOption, Slot.ofOption, cast]

theorem typedElements_of_findList {accessor : Accessor} {here : List Nat} {list : TypedList}
    (found_eq : accessor.find parts = some here)
    (children_eq : tree.children node = parts.flatMap fun entry => run entry.2)
    (runs : tree.Runs run parts) (gives : tree.read node accessor = .list (some list)) :
    (tree.typedElements list).length = (tree.listEntry list.list).items.size ∧
    ∀ index : Nat, (tree.typedElements list)[index]? = some .absent ↔
      (tree.listEntry list.list).items.elements[index]? = some .absent := by
  cases accessor with
  | list view =>
      rw [read, Accessor.childLists_eq, children_eq] at gives
      rcases Accessor.exists_list_of_findList found_eq runs with ⟨-, none⟩ | ⟨index, id, -, -, first, admitted⟩
      · rw [none] at gives
        cases gives
      · rw [first] at gives
        cases gives
        exact typedElements_of_admits admitted
  | _ => cases gives

/-! ## Every node is typed -/

theorem Represents.isTyped (represents : tree.Represents kind held) (inside : node < tree.nodes.size)
    (like : tree.IsLike terminals sketch node) (passed : sketch.isShown (tree.kind node) = true) :
    tree.IsTyped node := by
  rw [Sketch.isShown] at passed
  split at passed
  · cases passed
  · rename_i wrapper known
    obtain ⟨sure, shown⟩ := Bool.and_eq_true_iff.mp passed
    obtain ⟨run, runs, children_eq⟩ := like.shows.exists_run
    obtain ⟨casts, others⟩ := casts_of_ofKind? known
    split at shown
    · cases shown
    · rename_i found found_eq
      obtain ⟨returned, children⟩ :=
        represents.existsUnique_returned inside found_eq children_eq runs shown
      refine ⟨wrapper, casts, others, ?_, returned, children, ?_⟩
      · intro entry listed isRequired
        have isSure := List.all_eq_true.mp sure entry listed
        simp only [isRequired, decide_false, Bool.false_or] at isSure
        exact represents.isPresent_of_isSure inside like children_eq runs entry.2 isSure
      · intro entry listed list gives
        obtain ⟨here, here_eq⟩ := Wrapper.find_of_findAll? found_eq listed
        exact typedElements_of_findList here_eq children_eq runs gives

end SyntaxTree

theorem Rule.Matched.isTyped {stream : TokenStream} {start : Nat} {rule : Rule} {state : ParseState}
    {kind : Kind} {children : Forest} (accepts : stream.Accepts) (before : start ≤ stream.eofIndex)
    (matched : rule.Matched (.ofTokens (stream.tokens.toList.drop start)) (stream.eofIndex - start)
      state kind children) :
    ∀ node < ((Forest.empty.node kind children).tree stream start).nodes.size,
      ((Forest.empty.node kind children).tree stream start).IsTyped node := by
  intro node inside
  obtain ⟨sketch, passed, like⟩ :=
    matched.exists_sketch accepts before Nonterminal.isSketched_isShown inside
  exact (matched.represents accepts before).isTyped inside like passed

/-- The typed view of a tree of a match or a parse shows each node as what it is, neither more nor less. -/
theorem matchRule_shows_typed_nodes {text : List Char} {tokens : Array Token} {stream : TokenStream}
    (accepted : TokenStream.ofTokens text tokens = .ok stream) (rule : Rule) :
    (∀ (position : Nat) (tree : SyntaxTree) (next : Cursor),
      matchRule rule (.atToken stream position) = .ok (tree, next) →
        ∀ node < tree.nodes.size, tree.IsTyped node) ∧
    ∀ tree : SyntaxTree, parseStream rule stream = .ok tree →
      ∀ node < tree.nodes.size, tree.IsTyped node := by
  obtain ⟨-, accepts⟩ := TokenStream.accepts_of_ofTokens accepted
  exact accepts.holds_of_matched rule fun _ before _ _ _ matched =>
    matched.isTyped accepts before

/-- A loop with an update alone, over a list with a hole. -/
theorem matchRule_shows_typed_nodes_of_loop :
    let text := ['f', 'o', 'r', '(', ';', ';', 'a', ')', '[', ',', 'b', ']']
    let stream := tokenize text
    TokenStream.ofTokens text stream.tokens = .ok stream ∧
    ∃ tree, parseStream .statement stream = .ok tree ∧ tree.kind 0 = .forStatement ∧
      ∀ node < tree.nodes.size, tree.IsTyped node := by
  intro text stream
  have accepted : TokenStream.ofTokens text stream.tokens = .ok stream := rfl
  have parsed : (parseStream .statement stream).toOption.map (fun tree => tree.kind 0) =
      some .forStatement := by decide +kernel
  refine ⟨accepted, ?_⟩
  cases result : parseStream .statement stream with
  | error failure =>
      rw [result] at parsed
      cases parsed
  | ok tree =>
      rw [result] at parsed
      exact ⟨tree, rfl, Option.some.inj parsed,
        (matchRule_shows_typed_nodes accepted .statement).2 tree result⟩

end ScriptTree
