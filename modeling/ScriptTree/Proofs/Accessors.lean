import ScriptTree.Proofs.SketchedChildren
import ScriptTree.Typed.Reading

/-! # What accessors find

An accessor goes through the children of a node. What it finds is known from the parts that the children are
runs of, as long as the view of the accessor admits all kinds of node that a part can have, or none. -/
set_option autoImplicit false
namespace ScriptTree

/-! ## Nodes in runs -/

namespace SyntaxTree

/-- The nodes that a child brings: itself, or the elements of a list that are there. -/
def childNodesOf (tree : SyntaxTree) : Child → List NodeId
  | .token _ => []
  | .node id => [id]
  | .list id => (tree.listEntry id).items.elements.toList.filterMap Slot.toOption

def nodesOf (tree : SyntaxTree) (run : List Child) : List NodeId := run.flatMap tree.childNodesOf

def castChild? (tree : SyntaxTree) (view : View) : Child → Option TypedNode
  | .node id => tree.cast? view id
  | .token _ | .list _ => none

variable {tree : SyntaxTree} {view : View} {node id : NodeId} {typed : TypedNode}

theorem node_of_cast? (cast : tree.cast? view id = some typed) : typed.node = id := by
  obtain ⟨found, -, rfl⟩ := Option.map_eq_some_iff.mp cast
  rfl

theorem isSome_cast? : (tree.cast? view id).isSome = view.admits (tree.kind id) := by
  simp [cast?, View.admits]

theorem exists_cast? (admitted : view.admits (tree.kind id) = true) :
    ∃ typed, tree.cast? view id = some typed ∧ typed.node = id := by
  obtain ⟨typed, cast⟩ := Option.isSome_iff_exists.mp (isSome_cast?.trans admitted)
  exact ⟨typed, cast, node_of_cast? cast⟩

theorem cast?_eq_none (foreign : view.admits (tree.kind id) = false) : tree.cast? view id = none :=
  Option.not_isSome_iff_eq_none.mp (by rw [isSome_cast?, foreign]; simp)

def nodeOf? : Child → Option NodeId
  | .node id => some id
  | .token _ | .list _ => none

theorem eq_node_of_nodeOf? {child : Child} (same : nodeOf? child = some id) : child = .node id := by
  cases child <;> cases same
  rfl

theorem directNodes_eq (node : NodeId) :
    tree.directNodes node = (tree.children node).filterMap nodeOf? := by
  rw [directNodes]
  congr 1
  funext child
  cases child <;> rfl

theorem findSome?_nodeOf? (children : List Child) :
    (children.filterMap nodeOf?).findSome? (tree.cast? view) =
      children.findSome? (tree.castChild? view) := by
  induction children with
  | nil => rfl
  | cons child children ih =>
      cases child with
      | node id =>
          rw [List.filterMap_cons_some (by rfl), List.findSome?_cons, List.findSome?_cons, ih]
          rfl
      | token id => exact ih
      | list id => exact ih

theorem bind_nodeOf? (child : Child) : (nodeOf? child).bind (tree.cast? view) = tree.castChild? view child := by
  cases child <;> rfl

end SyntaxTree

/-! ## Parts and views -/

namespace Part

def isForeignTo (view : View) : Part → Bool
  | node kinds _ => kinds.all (!view.admits ·)
  | several _ nodes => nodes.all (!view.admits ·)
  | token _ _ | list _ => true

def isNodeOf (view : View) : Part → Bool
  | node kinds _ => kinds.all view.admits
  | token _ _ | list _ | several _ _ => false

def areNodesOf (view : View) : Part → Bool
  | several _ nodes => nodes.all view.admits
  | part => part.isNodeOf view

def lacks (kind : Kind) : Part → Bool
  | token kinds _ => kind ∉ kinds
  | several tokens _ => kind ∉ tokens
  | node _ _ | list _ => true

def isTokenOf (kind : Kind) : Part → Bool
  | token kinds _ => kinds = [kind]
  | node _ _ | list _ | several _ _ => false

def isNode : Part → Bool
  | node _ _ => true
  | token _ _ | list _ | several _ _ => false

def bringsNoNode : Part → Bool
  | node _ _ => false
  | several _ nodes => nodes = []
  | token _ _ | list _ => true

def isList : Part → Bool
  | list _ => true
  | token _ _ | node _ _ | several _ _ => false

def hasElementsOf (view : View) : Part → Bool
  | list kinds => kinds.all view.admits
  | token _ _ | node _ _ | several _ _ => false

end Part

/-! ## What an accessor finds among parts -/

/-- Parts in the order of the text, each with its index. -/
abbrev Indexed := List (Part × Nat)

namespace Accessor

def findFirst (view : View) : Indexed → Option (List Nat)
  | [] => some []
  | (part, index) :: rest =>
      if part.isForeignTo view then findFirst view rest
      else if part.isNodeOf view then some [index]
      else none

/-- A part that is asked for by its place: it is found, or the view does not admit it. -/
def findHere (view : View) (part : Part) (index : Nat) : Option (List Nat) :=
  if part.isNodeOf view then some [index] else if part.isForeignTo view then some [] else none

def findNth (view : View) : Nat → Indexed → Option (List Nat)
  | _, [] => some []
  | count, (part, index) :: rest =>
      if part.bringsNoNode then findNth view count rest
      else if part.isNode then
        match count with
        | 0 => findHere view part index
        | fewer + 1 => findNth view fewer rest
      else none

def findAfter (kind : Kind) (view : View) : Indexed → Option (List Nat)
  | [] => some []
  | (part, _) :: rest =>
      if part.isTokenOf kind then findFirst view rest
      else if part.lacks kind then findAfter kind view rest
      else none

def findClause (view : View) : Nat → Indexed → Option (List Nat)
  | _, [] => some []
  | semicolons, (part, index) :: rest =>
      if part.isTokenOf .rightParen then some []
      else if part.isTokenOf .semicolon then
        match semicolons with
        | 0 => some []
        | fewer + 1 => findClause view fewer rest
      else if part.lacks .rightParen && part.lacks .semicolon then
        if part.bringsNoNode then findClause view semicolons rest
        else if part.isNode then
          if semicolons = 0 then findHere view part index else findClause view semicolons rest
        else none
      else none

def findAll (view : View) : Indexed → Option (List Nat)
  | [] => some []
  | (part, index) :: rest =>
      if part.isForeignTo view then findAll view rest
      else if part.areNodesOf view then (findAll view rest).map (index :: ·)
      else none

def findList (view : View) : Indexed → Option (List Nat)
  | [] => some []
  | (part, index) :: rest =>
      if part.isList then if part.hasElementsOf view then some [index] else none
      else findList view rest

def find (parts : Indexed) : Accessor → Option (List Nat)
  | .child view => findFirst view parts
  | .nthNode index view => findNth view index parts
  | .nodeAfter kind view => findAfter kind view parts
  | .clause semicolons view => findClause view semicolons parts
  | .children view => findAll view parts
  | .list view => findList view parts
  | .token _ | .tokenAmong _ | .tokensAmong _ | .operator | .firstToken | .firstTokenIs _ | .hasToken _
  | .isKind _ | .trimmedText | .literalKind => some []

end Accessor

/-! ## What a reading gives -/

namespace Reading

/-- The nodes that a reading gives; of a list, the elements that its view admits. -/
def returned (tree : SyntaxTree) : Reading → List NodeId
  | .node value => value.toList.map TypedNode.node
  | .nodes values => values.map TypedNode.node
  | .list value => value.toList.flatMap fun typed => (tree.typedPresent typed).map TypedNode.node
  | .token _ | .tokens _ | .flag _ | .text _ | .literalKind _ => []

def isPresent : Reading → Bool
  | .node value => value.isSome
  | .list value => value.isSome
  | .token value => value.isSome
  | .literalKind value => value.isSome
  | .nodes _ | .tokens _ | .flag _ | .text _ => true

end Reading

section Soundness

variable {tree : SyntaxTree} {view : View} {run : Nat → List Child} {parts : Indexed} {part : Part}
  {children : List Child} {found : List Nat} {kind : Kind}

def SyntaxTree.Runs (tree : SyntaxTree) (run : Nat → List Child) (parts : Indexed) : Prop :=
  ∀ entry ∈ parts, entry.1.Tells tree (run entry.2)

namespace Part.Tells

variable {children : List Child}

theorem cast?_of_isForeignTo (tells : part.Tells tree children) (foreign : part.isForeignTo view = true) :
    ∀ child ∈ children, tree.castChild? view child = none := by
  intro child member
  cases part with
  | token kinds joined =>
      obtain ⟨id, rfl, -⟩ := tells
      cases List.mem_singleton.mp member
      rfl
  | node kinds joined =>
      obtain ⟨id, rfl, among, -⟩ := tells
      cases List.mem_singleton.mp member
      exact SyntaxTree.cast?_eq_none (by simpa using List.all_eq_true.mp foreign _ among)
  | list kinds =>
      obtain ⟨id, rfl, -⟩ := tells
      cases List.mem_singleton.mp member
      rfl
  | several tokens nodes =>
      rcases tells child member with ⟨id, rfl, -⟩ | ⟨id, rfl, among⟩
      · rfl
      · exact SyntaxTree.cast?_eq_none (by simpa using List.all_eq_true.mp foreign _ among)

theorem exists_of_isNodeOf (tells : part.Tells tree children) (isNode : part.isNodeOf view = true) :
    ∃ id typed, children = [.node id] ∧ tree.cast? view id = some typed ∧ typed.node = id := by
  cases part with
  | node kinds joined =>
      obtain ⟨id, rfl, among, -⟩ := tells
      obtain ⟨typed, cast⟩ := SyntaxTree.exists_cast? (List.all_eq_true.mp isNode _ among)
      exact ⟨id, typed, rfl, cast⟩
  | token | list | several => cases isNode

theorem exists_of_isTokenOf (tells : part.Tells tree children) (isToken : part.isTokenOf kind = true) :
    ∃ id, children = [.token id] ∧ (tree.token id).kind = kind := by
  cases part with
  | token kinds joined =>
      obtain ⟨id, rfl, among, -⟩ := tells
      cases of_decide_eq_true isToken
      exact ⟨id, rfl, List.mem_singleton.mp among⟩
  | node | list | several => cases isToken

theorem isTokenOf_of_lacks (tells : part.Tells tree children) (lacks : part.lacks kind = true) :
    ∀ child ∈ children, tree.isTokenOf kind child = false := by
  intro child member
  cases part with
  | token kinds joined =>
      obtain ⟨id, rfl, among, -⟩ := tells
      cases List.mem_singleton.mp member
      have other : kind ∉ kinds := of_decide_eq_true lacks
      simp only [SyntaxTree.isTokenOf, beq_eq_false_iff_ne]
      rintro rfl
      exact other among
  | node kinds joined =>
      obtain ⟨id, rfl, -⟩ := tells
      cases List.mem_singleton.mp member
      rfl
  | list kinds =>
      obtain ⟨id, rfl, -⟩ := tells
      cases List.mem_singleton.mp member
      rfl
  | several tokens nodes =>
      rcases tells child member with ⟨id, rfl, among⟩ | ⟨id, rfl, -⟩
      · have other : kind ∉ tokens := of_decide_eq_true lacks
        simp only [SyntaxTree.isTokenOf, beq_eq_false_iff_ne]
        rintro rfl
        exact other among
      · rfl

theorem ne_node_of_bringsNoNode (tells : part.Tells tree children) (none : part.bringsNoNode = true)
    (id : NodeId) : .node id ∉ children := by
  intro member
  cases part with
  | token kinds joined =>
      obtain ⟨_, rfl, -⟩ := tells
      cases List.mem_singleton.mp member
  | node kinds joined => cases none
  | list kinds =>
      obtain ⟨_, rfl, -⟩ := tells
      cases List.mem_singleton.mp member
  | several tokens nodes =>
      cases of_decide_eq_true none
      rcases tells _ member with ⟨_, same, -⟩ | ⟨_, -, among⟩
      · cases same
      · cases among

theorem exists_of_isNode (tells : part.Tells tree children) (isNode : part.isNode = true) :
    ∃ id, children = [.node id] := by
  cases part with
  | node kinds joined =>
      obtain ⟨id, rfl, -⟩ := tells
      exact ⟨id, rfl⟩
  | token | list | several => cases isNode

end Part.Tells

/-! ## One node -/

/-- An accessor for one node gives that of the parts that were found, if any were. -/
structure Accessor.Yields (tree : SyntaxTree) (run : Nat → List Child) (found : List Nat)
    (value : Option TypedNode) : Prop where
  nodes : value.toList.map TypedNode.node = found.flatMap fun index => tree.nodesOf (run index)
  present : found ≠ [] → value.isSome = true

namespace Accessor

theorem Yields.absent : Yields tree run [] none := ⟨rfl, fun some => absurd rfl some⟩

theorem Yields.single {index : Nat} {id : NodeId} {typed : TypedNode} (same : run index = [.node id])
    (isNode : typed.node = id) : Yields tree run [index] (some typed) := by
  refine ⟨?_, fun _ => rfl⟩
  simp [same, SyntaxTree.nodesOf, SyntaxTree.childNodesOf, isNode]

theorem yields_findFirst (found_eq : findFirst view parts = some found) (runs : tree.Runs run parts) :
    Yields tree run found ((parts.flatMap fun entry => run entry.2).findSome? (tree.castChild? view)) := by
  induction parts with
  | nil =>
      cases found_eq
      exact .absent
  | cons entry rest ih =>
      obtain ⟨tells, others⟩ := List.forall_mem_cons.mp runs
      rw [List.flatMap_cons, List.findSome?_append]
      rw [findFirst] at found_eq
      split at found_eq
      · rename_i foreign
        rw [List.findSome?_eq_none_iff.mpr (tells.cast?_of_isForeignTo foreign), Option.none_or]
        exact ih found_eq others
      · split at found_eq
        · rename_i isNode
          cases found_eq
          obtain ⟨id, typed, same, cast, isTyped⟩ := tells.exists_of_isNodeOf isNode
          have first : (run entry.2).findSome? (tree.castChild? view) = some typed := by
            rw [same, List.findSome?_singleton]
            exact cast
          rw [first, Option.some_or]
          exact .single same isTyped
        · cases found_eq

theorem yields_findHere {index : Nat} (found_eq : findHere view part index = some found)
    (tells : part.Tells tree (run index)) {id : NodeId} (same : run index = [.node id]) :
    Yields tree run found (tree.cast? view id) := by
  rw [findHere] at found_eq
  split at found_eq
  · rename_i isNode
    cases found_eq
    obtain ⟨other, typed, single, cast, isTyped⟩ := tells.exists_of_isNodeOf isNode
    cases same.symm.trans single
    exact cast ▸ .single same isTyped
  · split at found_eq
    · rename_i foreign
      cases found_eq
      have unseen : tree.cast? view id = none :=
        tells.cast?_of_isForeignTo foreign (.node id) (by rw [same]; exact List.mem_singleton_self _)
      exact unseen ▸ .absent
    · cases found_eq

theorem filterMap_nodeOf? {children : List Child} (none : ∀ id, .node id ∉ children) :
    children.filterMap SyntaxTree.nodeOf? = [] := by
  rw [List.filterMap_eq_nil_iff]
  intro child member
  cases child with
  | node id => exact absurd member (none id)
  | token | list => rfl

theorem yields_findNth {count : Nat} (found_eq : findNth view count parts = some found)
    (runs : tree.Runs run parts) :
    Yields tree run found
      (((parts.flatMap fun entry => run entry.2).filterMap SyntaxTree.nodeOf?)[count]?.bind
        (tree.cast? view)) := by
  induction parts generalizing count with
  | nil =>
      cases found_eq
      exact .absent
  | cons entry rest ih =>
      obtain ⟨tells, others⟩ := List.forall_mem_cons.mp runs
      rw [List.flatMap_cons, List.filterMap_append]
      rw [findNth.eq_def] at found_eq
      dsimp only at found_eq
      split at found_eq
      · rename_i none
        rw [filterMap_nodeOf? (tells.ne_node_of_bringsNoNode none), List.nil_append]
        exact ih found_eq others
      · split at found_eq
        · rename_i isNode
          obtain ⟨id, same⟩ := tells.exists_of_isNode isNode
          have single : (run entry.2).filterMap SyntaxTree.nodeOf? = [id] := by
            rw [same]
            rfl
          rw [single]
          cases count with
          | zero => exact yields_findHere found_eq tells same
          | succ fewer => exact ih found_eq others
        · cases found_eq

theorem yields_findAfter (found_eq : findAfter kind view parts = some found)
    (runs : tree.Runs run parts) :
    Yields tree run found
      (((parts.flatMap fun entry => run entry.2).dropWhile fun child =>
        !tree.isTokenOf kind child).findSome? (tree.castChild? view)) := by
  induction parts with
  | nil =>
      cases found_eq
      exact .absent
  | cons entry rest ih =>
      obtain ⟨tells, others⟩ := List.forall_mem_cons.mp runs
      rw [List.flatMap_cons]
      rw [findAfter] at found_eq
      split at found_eq
      · rename_i isToken
        obtain ⟨id, same, isKind⟩ := tells.exists_of_isTokenOf isToken
        have first : tree.isTokenOf kind (.token id) = true := by simp [SyntaxTree.isTokenOf, isKind]
        rw [same, List.singleton_append, List.dropWhile_cons_of_neg (by simp [first]),
          List.findSome?_cons_of_isNone (by rfl)]
        exact yields_findFirst found_eq others
      · split at found_eq
        · rename_i lacks
          rw [List.dropWhile_append_of_pos fun child member => by
            rw [tells.isTokenOf_of_lacks lacks child member]; rfl]
          exact ih found_eq others
        · cases found_eq

theorem clauseNode?_token (semicolons : Nat) (id : TokenId) (rest : List Child) :
    tree.clauseNode? semicolons (.token id :: rest) =
      if (tree.token id).kind = .rightParen then none
      else if (tree.token id).kind = .semicolon then
        match semicolons with
        | 0 => none
        | fewer + 1 => tree.clauseNode? fewer rest
      else tree.clauseNode? semicolons rest := by
  cases semicolons <;> rfl

/-- Children that are neither nodes nor the tokens that end a clause are passed over. -/
theorem clauseNode?_append {children rest : List Child} {semicolons : Nat}
    (noNode : ∀ id, .node id ∉ children)
    (noParen : ∀ child ∈ children, tree.isTokenOf .rightParen child = false)
    (noSemicolon : ∀ child ∈ children, tree.isTokenOf .semicolon child = false) :
    tree.clauseNode? semicolons (children ++ rest) = tree.clauseNode? semicolons rest := by
  induction children with
  | nil => rfl
  | cons child children ih =>
      obtain ⟨paren, noParen⟩ := List.forall_mem_cons.mp noParen
      obtain ⟨semicolon, noSemicolon⟩ := List.forall_mem_cons.mp noSemicolon
      have further := ih (fun id member => noNode id (List.mem_cons_of_mem _ member)) noParen noSemicolon
      cases child with
      | node id => exact absurd List.mem_cons_self (noNode id)
      | list id =>
          rw [List.cons_append, SyntaxTree.clauseNode?]
          exact further
      | token id =>
          simp only [SyntaxTree.isTokenOf, beq_eq_false_iff_ne] at paren semicolon
          rw [List.cons_append, clauseNode?_token, if_neg paren, if_neg semicolon]
          exact further

theorem yields_findClause {semicolons : Nat} (found_eq : findClause view semicolons parts = some found)
    (runs : tree.Runs run parts) :
    Yields tree run found
      ((tree.clauseNode? semicolons (parts.flatMap fun entry => run entry.2)).bind (tree.cast? view)) := by
  induction parts generalizing semicolons with
  | nil =>
      cases found_eq
      rw [List.flatMap_nil, SyntaxTree.clauseNode?]
      exact .absent
  | cons entry rest ih =>
      obtain ⟨tells, others⟩ := List.forall_mem_cons.mp runs
      rw [List.flatMap_cons]
      rw [findClause.eq_def] at found_eq
      dsimp only at found_eq
      split at found_eq
      · rename_i isParen
        cases found_eq
        obtain ⟨id, same, isKind⟩ := tells.exists_of_isTokenOf isParen
        rw [same, List.singleton_append, clauseNode?_token, if_pos isKind]
        exact .absent
      · split at found_eq
        · rename_i isSemicolon
          obtain ⟨id, same, isKind⟩ := tells.exists_of_isTokenOf isSemicolon
          rw [same, List.singleton_append, clauseNode?_token, if_neg (by rw [isKind]; decide),
            if_pos isKind]
          cases semicolons with
          | zero =>
              cases found_eq
              exact .absent
          | succ fewer => exact ih found_eq others
        · split at found_eq
          · rename_i lacks
            obtain ⟨noParen, noSemicolon⟩ := Bool.and_eq_true_iff.mp lacks
            split at found_eq
            · rename_i none
              rw [clauseNode?_append (tells.ne_node_of_bringsNoNode none)
                (tells.isTokenOf_of_lacks noParen) (tells.isTokenOf_of_lacks noSemicolon)]
              exact ih found_eq others
            · split at found_eq
              · rename_i isNode
                obtain ⟨id, same⟩ := tells.exists_of_isNode isNode
                rw [same, List.singleton_append, SyntaxTree.clauseNode?]
                split at found_eq
                · rename_i first
                  rw [if_pos first]
                  exact yields_findHere found_eq tells same
                · rename_i later
                  rw [if_neg later]
                  exact ih found_eq others
              · cases found_eq
          · cases found_eq

/-! ## Several nodes -/

theorem map_filterMap_castChild? {children : List Child} (tells : part.Tells tree children)
    (areNodes : part.areNodesOf view = true) :
    (children.filterMap (tree.castChild? view)).map TypedNode.node = tree.nodesOf children := by
  cases part with
  | node kinds joined =>
      obtain ⟨id, typed, rfl, cast, isTyped⟩ := Part.Tells.exists_of_isNodeOf tells areNodes
      have seen : tree.castChild? view (.node id) = some typed := cast
      simp [SyntaxTree.nodesOf, SyntaxTree.childNodesOf, seen, isTyped]
  | token kinds joined => cases areNodes
  | list kinds => cases areNodes
  | several tokens nodes =>
      induction children with
      | nil => rfl
      | cons child children ih =>
          obtain ⟨first, others⟩ := List.forall_mem_cons.mp tells
          have further := ih others
          rw [SyntaxTree.nodesOf, List.flatMap_cons, ← SyntaxTree.nodesOf, ← further]
          rcases first with ⟨id, rfl, -⟩ | ⟨id, rfl, among⟩
          · rfl
          · obtain ⟨typed, cast, isTyped⟩ :=
              SyntaxTree.exists_cast? (List.all_eq_true.mp areNodes _ among)
            have seen : tree.castChild? view (.node id) = some typed := cast
            rw [List.filterMap_cons_some seen, List.map_cons, isTyped]
            rfl

theorem returned_findAll (found_eq : findAll view parts = some found) (runs : tree.Runs run parts) :
    ((parts.flatMap fun entry => run entry.2).filterMap (tree.castChild? view)).map TypedNode.node =
      found.flatMap fun index => tree.nodesOf (run index) := by
  induction parts generalizing found with
  | nil =>
      cases found_eq
      rfl
  | cons entry rest ih =>
      obtain ⟨tells, others⟩ := List.forall_mem_cons.mp runs
      rw [List.flatMap_cons, List.filterMap_append, List.map_append]
      rw [findAll] at found_eq
      split at found_eq
      · rename_i foreign
        rw [List.filterMap_eq_nil_iff.mpr (tells.cast?_of_isForeignTo foreign), List.map_nil,
          List.nil_append]
        exact ih found_eq others
      · split at found_eq
        · rename_i areNodes
          obtain ⟨further, foundRest, rfl⟩ := Option.map_eq_some_iff.mp found_eq
          rw [ih foundRest others, map_filterMap_castChild? tells areNodes, List.flatMap_cons]
        · cases found_eq

/-! ## Lists -/

def listOf? : Child → Option ListId
  | .list id => some id
  | .token _ | .node _ => none

theorem childLists_eq (node : NodeId) : tree.childLists node = (tree.children node).filterMap listOf? := by
  rw [SyntaxTree.childLists]
  congr 1
  funext child
  cases child <;> rfl

theorem filterMap_listOf? {children : List Child} (tells : part.Tells tree children)
    (noList : part.isList = false) : children.filterMap listOf? = [] := by
  rw [List.filterMap_eq_nil_iff]
  intro child member
  cases part with
  | token kinds joined =>
      obtain ⟨_, rfl, -⟩ := tells
      cases List.mem_singleton.mp member
      rfl
  | node kinds joined =>
      obtain ⟨_, rfl, -⟩ := tells
      cases List.mem_singleton.mp member
      rfl
  | list kinds => cases noList
  | several tokens nodes => rcases tells child member with ⟨_, rfl, -⟩ | ⟨_, rfl, -⟩ <;> rfl

theorem typedPresent_eq {id : ListId} (admitted : ∀ element,
    .present element ∈ (tree.listEntry id).items.elements.toList → view.admits (tree.kind element) = true) :
    (tree.typedPresent ⟨id, view⟩).map TypedNode.node = tree.nodesOf [.list id] := by
  simp only [SyntaxTree.nodesOf, SyntaxTree.childNodesOf, List.flatMap_singleton, SyntaxTree.typedPresent,
    List.map_filterMap]
  apply List.filterMap_congr
  intro slot member
  cases slot with
  | absent => rfl
  | present element =>
      obtain ⟨typed, cast, isTyped⟩ := SyntaxTree.exists_cast? (admitted element member)
      simp [Slot.toOption, cast, isTyped]

theorem exists_list_of_findList (found_eq : findList view parts = some found)
    (runs : tree.Runs run parts) :
    (found = [] ∧ (parts.flatMap fun entry => run entry.2).filterMap listOf? = []) ∨
    ∃ index id, found = [index] ∧ run index = [.list id] ∧
      ((parts.flatMap fun entry => run entry.2).filterMap listOf?).head? = some id ∧
      ∀ element, .present element ∈ (tree.listEntry id).items.elements.toList →
        view.admits (tree.kind element) = true := by
  induction parts with
  | nil =>
      cases found_eq
      exact .inl ⟨rfl, rfl⟩
  | cons entry rest ih =>
      obtain ⟨tells, others⟩ := List.forall_mem_cons.mp runs
      rw [List.flatMap_cons, List.filterMap_append]
      rw [findList] at found_eq
      split at found_eq
      · split at found_eq
        · rename_i elements
          cases found_eq
          obtain ⟨part, index⟩ := entry
          cases part with
          | list kinds =>
              obtain ⟨id, same, among⟩ := tells
              refine .inr ⟨index, id, rfl, same, ?_, fun element member => ?_⟩
              · rw [show run index = [.list id] from same]
                rfl
              · exact List.all_eq_true.mp elements _ (among element member)
          | token | node | several => cases elements
        · cases found_eq
      · rename_i noList
        rw [filterMap_listOf? tells (by simpa using noList), List.nil_append]
        exact ih found_eq others

/-! ## All accessors -/

/-- An accessor gives the nodes of the parts that it is found to give; if there are any, it is there. -/
theorem returned_of_find {node : NodeId} (accessor : Accessor) (found_eq : accessor.find parts = some found)
    (children_eq : tree.children node = parts.flatMap fun entry => run entry.2)
    (runs : tree.Runs run parts) :
    ((tree.read node accessor).returned tree = found.flatMap fun index => tree.nodesOf (run index)) ∧
      (found ≠ [] → (tree.read node accessor).isPresent = true) := by
  have single {value : Option TypedNode} (yields : Yields tree run found value) :
      ((Reading.node value).returned tree = found.flatMap fun index => tree.nodesOf (run index)) ∧
        (found ≠ [] → (Reading.node value).isPresent = true) := ⟨yields.nodes, yields.present⟩
  cases accessor with
  | child view =>
      apply single
      rw [SyntaxTree.directNodes_eq, SyntaxTree.findSome?_nodeOf?, children_eq]
      exact yields_findFirst found_eq runs
  | nthNode index view =>
      apply single
      rw [SyntaxTree.directNodes_eq, children_eq]
      exact yields_findNth found_eq runs
  | nodeAfter kind view =>
      apply single
      have same : tree.nodeAfter? kind view node = ((tree.children node).dropWhile fun child =>
          !tree.isTokenOf kind child).findSome? (tree.castChild? view) := by
        rw [SyntaxTree.nodeAfter?]
        congr 1
        funext child
        cases child <;> rfl
      rw [same, children_eq]
      exact yields_findAfter found_eq runs
  | clause semicolons view =>
      apply single
      rw [children_eq]
      exact yields_findClause found_eq runs
  | children view =>
      refine ⟨?_, fun _ => rfl⟩
      have returned := returned_findAll found_eq runs
      rw [← children_eq] at returned
      rw [← returned, SyntaxTree.read, Reading.returned, SyntaxTree.directNodes_eq, List.filterMap_filterMap]
      simp only [SyntaxTree.bind_nodeOf?]
  | list view =>
      rw [SyntaxTree.read, childLists_eq, children_eq]
      rcases exists_list_of_findList found_eq runs with ⟨rfl, none⟩ | ⟨index, id, rfl, same, first, admitted⟩
      · rw [none]
        exact ⟨rfl, fun some => absurd rfl some⟩
      · rw [first]
        refine ⟨?_, fun _ => rfl⟩
        simp only [Reading.returned, Option.map_some, Option.toList_some, List.flatMap_singleton]
        rw [same]
        exact typedPresent_eq admitted
  | token | tokenAmong | tokensAmong | operator | firstToken | firstTokenIs | hasToken | isKind
  | trimmedText | literalKind =>
      cases found_eq
      exact ⟨rfl, fun some => absurd rfl some⟩

end Accessor
end Soundness
end ScriptTree
