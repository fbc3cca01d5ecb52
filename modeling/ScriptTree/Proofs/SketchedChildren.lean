import Mathlib.Data.List.Forall2
import ScriptTree.Proofs.Consistency
import ScriptTree.Proofs.NodeSketches

/-! # Nodes and their sketches

A sketch that tells what a node of a match holds tells as well what the tree lists as its children: each
part stands for a run of them. What is known of the tokens behind the node is known of the stream. -/
set_option autoImplicit false
namespace ScriptTree

namespace SyntaxTree

/-- The first token of a child; separated lists are not asked for theirs. -/
def firstOf? (tree : SyntaxTree) : Child → Option TokenId
  | .token id => some id
  | .node id => tree.firstToken? id
  | .list _ => none

def IsJoined (tree : SyntaxTree) (child : Child) : Prop :=
  ∃ first ∈ tree.firstOf? child, (tree.token first).hasLineBreakBefore = false

end SyntaxTree

def Part.Tells (tree : SyntaxTree) : Part → List Child → Prop
  | token kinds joined, run => ∃ id, run = [.token id] ∧ (tree.token id).kind ∈ kinds ∧
      (joined = true → tree.IsJoined (.token id))
  | node kinds joined, run => ∃ id, run = [.node id] ∧ tree.kind id ∈ kinds ∧
      (joined = true → tree.IsJoined (.node id))
  | list kinds, run => ∃ id, run = [.list id] ∧
      ∀ element, .present element ∈ (tree.listEntry id).items.elements.toList → tree.kind element ∈ kinds
  | several tokens nodes, run => ∀ child ∈ run,
      (∃ id, child = .token id ∧ (tree.token id).kind ∈ tokens) ∨
        ∃ id, child = .node id ∧ tree.kind id ∈ nodes

/-- The children of a node are runs, one for each part. -/
def SyntaxTree.Shows (tree : SyntaxTree) (parts : List Part) (node : NodeId) : Prop :=
  ∃ runs, List.Forall₂ (Part.Tells tree) parts runs ∧ tree.children node = runs.flatten

/-! ## From forests to children -/

theorem Forest.childrenFrom_append (numbering : Numbering) (left right : Forest) :
    (left ++ right).childrenFrom numbering =
      left.childrenFrom numbering ++ right.childrenFrom (left.after numbering) := by
  induction right with
  | empty => simp [childrenFrom]
  | token before position kind ih => simp [childrenFrom, ih]
  | hole before ih => simp [childrenFrom, ih]
  | node before kind children ih _ => simp [childrenFrom, ih]
  | list before items ih _ => simp [childrenFrom, ih]

theorem Terminals.lineBreakAt_ofTokens (stream : TokenStream) (start position : Nat) :
    (ofTokens (stream.tokens.toList.drop start)).lineBreakAt position =
      (stream.tokens.getD (start + position) default).hasLineBreakBefore := by
  simp only [lineBreakAt, ofTokens, List.getElem?_toArray, List.getElem?_drop, Array.getElem?_toList,
    Array.getD_eq_getD_getElem?]
  cases stream.tokens[start + position]? <;> rfl

theorem Terminals.kindAt_ofTokens {stream : TokenStream} {index : Nat} {token : Token} (start : Nat)
    (here : stream.tokens[index]? = some token) (behind : start ≤ index) :
    (ofTokens (stream.tokens.toList.drop start)).kindAt (index - start) = token.kind := by
  simp only [kindAt, ofTokens, List.getElem?_toArray, List.getElem?_drop, Array.getElem?_toList,
    Nat.add_sub_cancel' behind, here]

section Tables

variable {tree : SyntaxTree} {parent : Option NodeId} {numbering : Numbering} {terminals : Terminals}
  {part : Part} {parts : List Part} {piece forest : Forest} {tokens nodes : List Kind}

/-- What scattered tokens and nodes give to their owner. -/
theorem Forest.Scatters.tells (scatters : forest.Scatters tokens nodes)
    (holds : tree.Holds parent numbering forest) :
    Part.Tells tree (.several tokens nodes) (forest.childrenFrom numbering) := by
  induction forest with
  | empty => simp [Part.Tells, childrenFrom]
  | token before position kind ih =>
      obtain ⟨beforeHolds, tokenHolds⟩ : _ ∧ tree.Holds parent _ (Forest.empty.token position kind) :=
        SyntaxTree.Holds.append holds
      intro child member
      rcases List.mem_append.mp member with earlier | last
      · exact ih scatters.1 beforeHolds child earlier
      · exact .inl ⟨_, List.mem_singleton.mp last, tokenHolds.token.2 ▸ scatters.2⟩
  | hole before ih => exact ih scatters holds.hole
  | node before kind children ih _ =>
      obtain ⟨beforeHolds, nodeHolds⟩ : _ ∧ tree.Holds parent _ (Forest.empty.node kind children) :=
        SyntaxTree.Holds.append holds
      intro child member
      rcases List.mem_append.mp member with earlier | last
      · exact ih scatters.1 beforeHolds child earlier
      · exact .inr ⟨_, List.mem_singleton.mp last, nodeHolds.node.1 ▸ scatters.2⟩
  | list before items => exact scatters.elim

theorem Forest.Scatters.kind_of_element {element : NodeId} (scatters : forest.Scatters tokens nodes)
    (holds : tree.Holds parent numbering forest)
    (member : .element (.present element) ∈ forest.itemsFrom numbering) : tree.kind element ∈ nodes := by
  induction forest with
  | empty => cases member
  | token before position kind ih =>
      obtain ⟨beforeHolds, -⟩ : _ ∧ tree.Holds parent _ (Forest.empty.token position kind) :=
        SyntaxTree.Holds.append holds
      exact ih scatters.1 beforeHolds (by simpa [itemsFrom] using member)
  | hole before ih =>
      exact ih scatters holds.hole (by simpa [itemsFrom] using member)
  | node before kind children ih _ =>
      obtain ⟨beforeHolds, nodeHolds⟩ : _ ∧ tree.Holds parent _ (Forest.empty.node kind children) :=
        SyntaxTree.Holds.append holds
      rcases List.mem_append.mp member with earlier | last
      · exact ih scatters.1 beforeHolds earlier
      · cases List.mem_singleton.mp last
        exact nodeHolds.node.1 ▸ scatters.2
  | list before items => exact scatters.elim

def SyntaxTree.SeenAs (tree : SyntaxTree) (terminals : Terminals) : Prop :=
  ∀ position, terminals.lineBreakAt position =
    (tree.token (tree.firstToken + position)).hasLineBreakBefore

theorem Part.Fits.tells (fits : part.Fits terminals piece) (stores : tree.Stores parent numbering piece)
    (seen : tree.SeenAs terminals) : part.Tells tree (piece.childrenFrom numbering) := by
  cases part with
  | token kinds joined =>
      obtain ⟨position, kind, member, rfl, free⟩ := fits
      obtain ⟨place, same⟩ := stores.toHolds.token
      refine ⟨_, rfl, same ▸ member, fun isJoined => ⟨_, rfl, ?_⟩⟩
      have clear := free isJoined
      rw [seen, ← place, Nat.add_sub_cancel' stores.starts] at clear
      exact clear
  | node kinds joined =>
      obtain ⟨kind, member, children, rfl, free⟩ := fits
      obtain ⟨same, -, held⟩ := stores.toHolds.node
      refine ⟨_, rfl, same ▸ member, fun isJoined => ?_⟩
      obtain ⟨leaf, leading, clear⟩ := free isJoined
      rw [held.leaves, List.head?_map, List.head?_range'] at leading
      split at leading
      · cases leading
      · rename_i some
        cases leading
        rw [Numbering.nextNode_token, seen, Nat.add_sub_cancel' stores.starts] at clear
        refine ⟨numbering.token, ?_, clear⟩
        change tree.firstToken? numbering.node = _
        rw [SyntaxTree.firstToken?, stores.entry, Forest.after_eq, Numbering.nextNode_token,
          if_pos (Nat.lt_add_of_pos_right (Nat.pos_of_ne_zero some))]
  | list kinds =>
      obtain ⟨items, rfl, scatters⟩ := fits
      obtain ⟨entry, held⟩ := stores.toHolds.list
      refine ⟨_, rfl, fun element member => ?_⟩
      rw [Forest.after, entry] at member
      simp only [SeparatedListBuilder.finish, SeparatedListBuilder.ofItems, List.mem_filterMap] at member
      obtain ⟨item, listed, same⟩ := member
      cases item with
      | element value =>
          cases same
          exact scatters.kind_of_element held listed
      | separator value => cases same
  | several tokens nodes => exact Forest.Scatters.tells fits stores.toHolds

theorem Forest.Fits.tells (fits : forest.Fits terminals parts)
    (stores : tree.Stores parent numbering forest) (seen : tree.SeenAs terminals) :
    ∃ runs, List.Forall₂ (Part.Tells tree) parts.reverse runs ∧
      forest.childrenFrom numbering = runs.flatten := by
  induction parts generalizing forest with
  | nil =>
      cases fits
      exact ⟨[], .nil, rfl⟩
  | cons part parts ih =>
      obtain ⟨before, piece, rfl, last, rest⟩ := fits
      obtain ⟨beforeStores, pieceStores⟩ := stores.append
      obtain ⟨runs, tell, same⟩ := ih rest beforeStores
      refine ⟨runs ++ [piece.childrenFrom (before.after numbering)], ?_, ?_⟩
      · rw [List.reverse_cons]
        exact List.rel_append tell (.cons (last.tells pieceStores seen) .nil)
      · rw [childrenFrom_append, same, List.flatten_append, List.flatten_singleton]

end Tables

/-! ## Where children stand -/

namespace SyntaxTree.Represents

variable {tree : SyntaxTree} {kind : Kind} {held : Forest} {node : NodeId} {id : TokenId} {after : List Child}
  (represents : tree.Represents kind held) (inside : node < tree.nodes.size)
include represents inside

theorem tiles_children : Tiles (tree.entry node).firstToken (tree.entry node).endToken
    (((tree.children node).flatMap tree.flatten).map tree.tokenRange) := by
  obtain ⟨above, here, inner, held, rfl, stores, placed, -⟩ := represents.exists_node inside
  rw [← stores.elements_eq_flatMap placed]
  exact represents.tiles inside

/-- A node starts with its first child, if that is a token, and ends there if there is no other. -/
theorem range_of_children (children_eq : tree.children node = .token id :: after) :
    (tree.entry node).firstToken = id ∧ (after = [] → (tree.entry node).endToken = id + 1) := by
  have tiles := represents.tiles_children inside
  rw [children_eq] at tiles
  obtain ⟨begins, -, rest⟩ := tiles
  refine ⟨begins.symm, ?_⟩
  rintro rfl
  exact rest.symm

end SyntaxTree.Represents

/-! ## Every node shows a sketch -/

/-- A node of a tree covers tokens, and a sketch tells its children; what is known behind it is known where
it ends. -/
structure SyntaxTree.IsLike (tree : SyntaxTree) (terminals : Terminals) (sketch : Sketch) (node : NodeId) :
    Prop where
  shows : tree.Shows sketch.parts.reverse node
  facts : terminals.Confirms ((tree.entry node).endToken - tree.firstToken) sketch.facts
  some : (tree.entry node).firstToken < (tree.entry node).endToken
  starts : tree.firstToken ≤ (tree.entry node).firstToken
  inside : tree.kind node ≠ .script → (tree.entry node).endToken < tree.stream.size

/-- The last leaf of what a node holds is the token before its end. -/
theorem SyntaxTree.Stores.endToken_eq {tree : SyntaxTree} {parent : Option NodeId} {numbering : Numbering}
    {kind : Kind} {children : Forest} {terminals : Terminals} {start stop : Nat}
    (stores : tree.Stores parent numbering (Forest.empty.node kind children)) (moved : start < stop)
    (leaves : children.leaves = terminals.leaves start stop) :
    (tree.entry numbering.node).firstToken = tree.firstToken + start ∧
      (tree.entry numbering.node).endToken = tree.firstToken + stop := by
  have places := stores.toHolds.node.2.2.leaves
  have starts := stores.starts
  have count : children.leaves.length = stop - start := by simp [leaves, Terminals.leaves]
  have first : numbering.token - tree.firstToken = start := by
    rw [count, leaves, Terminals.leaves] at places
    have heads := congrArg List.head? places
    rw [List.head?_map, List.head?_map, List.head?_range', List.head?_range', if_neg (by omega),
      if_neg (by omega)] at heads
    exact (congrArg Prod.fst (Option.some.inj heads)).symm
  have begins : numbering.token = tree.firstToken + start := by
    rw [← first, Nat.add_sub_cancel' starts]
  rw [stores.entry, Forest.after_eq]
  refine ⟨begins, ?_⟩
  rw [count, Numbering.nextNode_token, begins, Nat.add_assoc, Nat.add_sub_cancel' (Nat.le_of_lt moved)]

section Matched

variable {stream : TokenStream} {start : Nat} {rule : Rule} {state : ParseState} {kind : Kind}
  {children : Forest} {check : Kind → Sketch → Bool}

/-- The nodes of a match show sketches that pass a check, if all sketches of the grammar do. -/
theorem Rule.Matched.exists_sketch (accepts : stream.Accepts) (before : start ≤ stream.eofIndex)
    (matched : rule.Matched (.ofTokens (stream.tokens.toList.drop start)) (stream.eofIndex - start)
      state kind children)
    (passes : ∀ nonterminal ∈ Nonterminal.listed, nonterminal.isSketched check = true) {node : NodeId}
    (inside : node < ((Forest.empty.node kind children).tree stream start).nodes.size) :
    ∃ sketch, check (((Forest.empty.node kind children).tree stream start).kind node) sketch = true ∧
      ((Forest.empty.node kind children).tree stream start).IsLike
        (.ofTokens (stream.tokens.toList.drop start)) sketch node := by
  have represents := matched.represents accepts before
  obtain ⟨above, here, inner, held, rfl, stores, -, listed⟩ := represents.exists_node inside
  have drawn := (matched.drawn passes).of_mem listed
  obtain ⟨sketch, first, stop, passed, fits, facts, moved, leaves⟩ := drawn.sketched
  obtain ⟨begins, ends⟩ := stores.endToken_eq moved leaves
  obtain ⟨runs, tell, held_eq⟩ := fits.tells stores.node (Terminals.lineBreakAt_ofTokens stream start)
  have sameKind := stores.toHolds.node.1
  refine ⟨sketch, sameKind ▸ passed, ⟨runs, tell, ?_⟩, ?_, ?_, ?_, ?_⟩
  · rw [stores.toHolds.node.2.1, held_eq]
  · rw [ends, Nat.add_sub_cancel_left]
    exact facts
  · rw [begins, ends]
    exact Nat.add_lt_add_left moved _
  · exact begins ▸ Nat.le_add_right _ _
  · intro isInner
    rw [sameKind] at isInner
    -- The last token of the node is not the end, so there is one behind it.
    have last : (stop - 1, Terminals.kindAt (.ofTokens (stream.tokens.toList.drop start)) (stop - 1)) ∈
        held.leaves := by
      rw [leaves]
      exact List.mem_map.mpr ⟨stop - 1, List.mem_range'_1.mpr ⟨by omega, by omega⟩, rfl⟩
    have notEnd := drawn.noEnd isInner _ last
    have size := accepts.size_eq
    rw [ends]
    change start + stop < stream.tokens.size
    have ends := accepts.terminals_endsAt before (stop - 1)
    have bound : ¬ stream.eofIndex - start ≤ stop - 1 := fun behind => notEnd (ends.mpr behind)
    omega

end Matched
end ScriptTree
