import ScriptTree.Proofs.Matching
import ScriptTree.Proofs.Preorder

/-! # Consistent trees

The tables of a tree that a builder finishes agree with each other: nodes are numbered in preorder, each
of them, each list and each token has one owner and names it, and what a node holds lies side by side on
what the node covers, in tokens and in text. -/
set_option autoImplicit false
namespace ScriptTree

/-! ## Side by side -/

/-- Ranges that lie side by side from one number to another. -/
def Tiles : Nat → Nat → List (Nat × Nat) → Prop
  | start, stop, [] => start = stop
  | start, stop, (first, last) :: rest => first = start ∧ first ≤ last ∧ Tiles last stop rest

namespace Tiles

variable {start middle stop : Nat} {ranges more : List (Nat × Nat)}

theorem append (earlier : Tiles start middle ranges) (later : Tiles middle stop more) :
    Tiles start stop (ranges ++ more) := by
  induction ranges generalizing start with
  | nil =>
      cases earlier
      exact later
  | cons range rest ih =>
      obtain ⟨first, ordered, further⟩ := earlier
      exact ⟨first, ordered, ih further⟩

theorem single (ordered : start ≤ stop) : Tiles start stop [(start, stop)] := ⟨rfl, ordered, rfl⟩

theorem le (tiles : Tiles start stop ranges) : start ≤ stop := by
  induction ranges generalizing start with
  | nil => exact Nat.le_of_eq tiles
  | cons range rest ih =>
      obtain ⟨rfl, ordered, further⟩ := tiles
      exact Nat.le_trans ordered (ih further)

theorem le_of_mem {range : Nat × Nat} (tiles : Tiles start stop ranges) (member : range ∈ ranges) :
    start ≤ range.1 ∧ range.1 ≤ range.2 ∧ range.2 ≤ stop := by
  induction ranges generalizing start with
  | nil => cases member
  | cons head rest ih =>
      obtain ⟨rfl, ordered, further⟩ := tiles
      rcases List.mem_cons.mp member with rfl | inside
      · exact ⟨Nat.le_refl _, ordered, further.le⟩
      · obtain ⟨behind, within⟩ := ih further inside
        exact ⟨Nat.le_trans ordered behind, within⟩

theorem map {place : Nat → Nat} (tiles : Tiles start stop ranges)
    (monotone : ∀ {first last}, first ≤ last → place first ≤ place last) :
    Tiles (place start) (place stop) (ranges.map fun range => (place range.1, place range.2)) := by
  induction ranges generalizing start with
  | nil => exact congrArg place tiles
  | cons range rest ih =>
      obtain ⟨first, ordered, further⟩ := tiles
      exact ⟨congrArg place first, monotone ordered, ih further⟩

end Tiles

/-! ## Tokens that an element covers -/

theorem Forest.token_le_after (numbering : Numbering) (forest : Forest) :
    numbering.token ≤ (forest.after numbering).token := by
  rw [after_eq]
  exact Nat.le_add_right _ _

namespace SyntaxTree

/-- The tokens of an element, from the first one up to the one behind the last. -/
def tokenRange (tree : SyntaxTree) : Element → Nat × Nat
  | .node id => ((tree.entry id).firstToken, (tree.entry id).endToken)
  | .token id => (id, id + 1)

/-- What a forest gives to its owner lies side by side on the tokens of the forest. -/
theorem Holds.tiles {tree : SyntaxTree} {parent : Option NodeId} {numbering : Numbering}
    {forest : Forest} (holds : tree.Holds parent numbering forest) :
    Tiles numbering.token (forest.after numbering).token
      ((forest.elementsFrom numbering).map tree.tokenRange) := by
  induction forest generalizing parent numbering with
  | empty => exact rfl
  | token before position kind ih =>
      obtain ⟨beforeHolds, -⟩ : _ ∧ tree.Holds parent _ (Forest.empty.token position kind) :=
        Holds.append holds
      rw [Forest.elementsFrom_token, List.map_append]
      exact (ih beforeHolds).append (.single (Nat.le_succ _))
  | hole before ih => exact ih holds.hole
  | node before kind children ih _ =>
      obtain ⟨beforeHolds, nodeHolds⟩ : _ ∧ tree.Holds parent _ (Forest.empty.node kind children) :=
        Holds.append holds
      rw [Forest.elementsFrom_node, List.map_append]
      refine (ih beforeHolds).append ?_
      rw [List.map_singleton, tokenRange, nodeHolds.entry]
      exact Tiles.single (children.token_le_after (before.after numbering).nextNode)
  | list before items ih itemsIh =>
      obtain ⟨beforeHolds, listHolds⟩ : _ ∧ tree.Holds parent _ (Forest.empty.list items) :=
        Holds.append holds
      rw [Forest.elementsFrom_list, List.map_append]
      exact (ih beforeHolds).append (itemsIh listHolds.list.2)

end SyntaxTree

/-! ## Stretches of the table of children -/

namespace Forest

theorem child_le_after (numbering : Numbering) (forest : Forest) :
    numbering.child ≤ (forest.after numbering).child := by
  rw [after_eq]
  exact Nat.le_add_right _ _

end Forest

namespace SyntaxTree

namespace Holds

variable {tree : SyntaxTree} {parent : Option NodeId} {numbering : Numbering} {forest : Forest}

/-- The nodes of a forest have entries that were filled while the forest was built. -/
theorem stretch_within {id : NodeId} (holds : tree.Holds parent numbering forest)
    (behind : numbering.node ≤ id) (ahead : id < (forest.after numbering).node) :
    numbering.child ≤ (tree.entry id).firstChild ∧
      (tree.entry id).firstChild ≤ (tree.entry id).endChild ∧
      (tree.entry id).endChild ≤ (forest.after numbering).child := by
  induction forest generalizing parent numbering with
  | empty => exact absurd ahead (Nat.not_lt_of_le behind)
  | token before position kind ih =>
      obtain ⟨beforeHolds, -⟩ : _ ∧ tree.Holds parent _ (Forest.empty.token position kind) :=
        Holds.append holds
      exact ih beforeHolds behind ahead
  | hole before ih => exact ih holds.hole behind ahead
  | node before kind children ih childrenIh =>
      obtain ⟨beforeHolds, nodeHolds⟩ : _ ∧ tree.Holds parent _ (Forest.empty.node kind children) :=
        Holds.append holds
      have starts := before.child_le_after numbering
      have inner := children.child_le_after (before.after numbering).nextNode
      rw [Numbering.nextNode_child] at inner
      rcases Nat.lt_or_ge id (before.after numbering).node with earlier | later
      · obtain ⟨first, ordered, last⟩ := ih beforeHolds behind earlier
        exact ⟨first, ordered, Nat.le_trans last (Nat.le_trans inner (Nat.le_add_right _ _))⟩
      · rcases Nat.eq_or_lt_of_le later with rfl | further
        · rw [nodeHolds.entry]
          exact ⟨Nat.le_trans starts inner, Nat.le_add_right _ _, Nat.le_refl _⟩
        · obtain ⟨first, ordered, last⟩ := childrenIh nodeHolds.node.2.2 further ahead
          exact ⟨Nat.le_trans starts first, ordered, Nat.le_trans last (Nat.le_add_right _ _)⟩
  | list before items ih itemsIh =>
      obtain ⟨beforeHolds, listHolds⟩ : _ ∧ tree.Holds parent _ (Forest.empty.list items) :=
        Holds.append holds
      rcases Nat.lt_or_ge id (before.after numbering).node with earlier | later
      · obtain ⟨first, ordered, last⟩ := ih beforeHolds behind earlier
        exact ⟨first, ordered, Nat.le_trans last (items.child_le_after (before.after numbering).nextList)⟩
      · obtain ⟨first, ordered, last⟩ := itemsIh listHolds.list.2 later ahead
        exact ⟨Nat.le_trans (before.child_le_after numbering) first, ordered, last⟩

end Holds
end SyntaxTree

/-! ## Text that an element covers -/

namespace TokenStream

/-- Where a token starts in the text with its trivia; the end of the text behind the last token. -/
def offset (stream : TokenStream) (index : Nat) : Nat :=
  match stream.tokens[index]? with
  | some token => token.fullSpan.start
  | none => Text.byteLength stream.text

namespace Accepts

variable {stream : TokenStream}

theorem fullSpan_stop (accepts : stream.Accepts) {index : Nat} {token : Token}
    (here : stream.tokens[index]? = some token) :
    token.fullSpan.stop = stream.offset (index + 1) := by
  rw [← Array.getElem?_toList] at here
  obtain ⟨inside, rfl⟩ := List.getElem?_eq_some_iff.mp here
  have checked := accepts.checked
  have split : stream.tokens.toList = stream.tokens.toList.take index ++
      stream.tokens.toList[index] :: stream.tokens.toList.drop (index + 1) := by
    rw [List.getElem_cons_drop, List.take_append_drop]
  rw [split] at checked
  obtain ⟨offset, _, rest⟩ := checkFrom_append_eq_ok.mp checked
  have further := (checkFrom_cons_eq_ok.mp rest).2
  have next : stream.tokens[index + 1]? = (stream.tokens.toList.drop (index + 1))[0]? := by
    rw [List.getElem?_drop, Nat.add_zero, Array.getElem?_toList]
  rw [TokenStream.offset, next]
  cases behind : stream.tokens.toList.drop (index + 1) with
  | nil =>
      rw [behind] at further
      exact Except.ok.inj further
  | cons following more =>
      rw [behind] at further
      exact (checkFrom_start further).symm

variable (accepts : stream.Accepts)
  (ranges : ∀ token ∈ stream.tokens, token.span.start ≤ token.span.stop)
include accepts ranges

theorem offset_le_succ (index : Nat) : stream.offset index ≤ stream.offset (index + 1) := by
  cases here : stream.tokens[index]? with
  | none =>
      have outside : stream.tokens[index + 1]? = none := by
        rw [Array.getElem?_eq_none_iff] at here ⊢
        omega
      have same : stream.offset index = stream.offset (index + 1) := by
        rw [offset, offset, here, outside]
      exact Nat.le_of_eq same
  | some token =>
      have ordered := ranges token (Array.mem_of_getElem? here)
      rw [← accepts.fullSpan_stop here, offset, here]
      simp only [Token.fullSpan]
      omega

theorem offset_mono {first last : Nat} (ordered : first ≤ last) :
    stream.offset first ≤ stream.offset last := by
  induction last with
  | zero =>
      cases Nat.le_zero.mp ordered
      exact Nat.le_refl _
  | succ last ih =>
      rcases Nat.le_succ_iff.mp ordered with earlier | rfl
      · exact Nat.le_trans (ih earlier) (offset_le_succ accepts ranges last)
      · exact Nat.le_refl _

end Accepts
end TokenStream

namespace SyntaxTree

/-- Tokens that a stream has span the text between where the first one starts and where the one behind
them does. -/
theorem tokensSpan_eq {tree : SyntaxTree} (accepts : tree.stream.Accepts) {first stop : Nat}
    (ordered : first ≤ stop) (inside : first < stop → stop ≤ tree.stream.size) :
    tree.tokensSpan first stop = ⟨tree.stream.offset first, tree.stream.offset stop⟩ := by
  by_cases same : first = stop
  · subst same
    rw [tokensSpan, if_pos rfl]
    rfl
  · have shorter : first < stop := Nat.lt_of_le_of_ne ordered same
    have within : stop ≤ tree.stream.tokens.size := inside shorter
    obtain ⟨last, rfl⟩ : ∃ last, stop = last + 1 := ⟨stop - 1, (Nat.sub_add_cancel (by omega)).symm⟩
    have begins : tree.stream.tokens[first]? = some (tree.token first) := by
      rw [token, Array.getD_eq_getD_getElem?, Array.getElem?_eq_getElem (by omega)]
      rfl
    have ends : tree.stream.tokens[last]? = some (tree.token last) := by
      rw [token, Array.getD_eq_getD_getElem?, Array.getElem?_eq_getElem (by omega)]
      rfl
    have starts : tree.stream.offset first = (tree.token first).fullSpan.start := by
      rw [TokenStream.offset, begins]
    rw [tokensSpan, if_neg same, Nat.add_sub_cancel, accepts.fullSpan_stop ends, starts]

end SyntaxTree

/-! ## Consistent tables -/

namespace SyntaxTree

def Has (tree : SyntaxTree) : Child → Prop
  | .token id => tree.firstToken ≤ id ∧ id < tree.endToken
  | .node id => id ≠ root ∧ id < tree.nodes.size
  | .list id => id < tree.lists.size

namespace Stores

theorem in_room {first here id count size : Nat} (starts : first ≤ here) (behind : here ≤ id)
    (ahead : id < here + count) (room : count ≤ size - (here - first)) :
    first ≤ id ∧ id < first + size := by
  omega

variable {tree : SyntaxTree} {parent : Option NodeId} {numbering : Numbering} {kind : Kind}
  {children : Forest}

theorem has_of_mem (stores : tree.Stores parent numbering (Forest.empty.node kind children))
    (ends : tree.endToken = tree.firstToken + tree.tokenParents.size) {child : Child}
    (member : child ∈ children.ownedFrom numbering.nextNode) : tree.Has child := by
  obtain ⟨behind, notAhead⟩ := Forest.between_of_mem_ownedFrom member
  rw [Forest.after_eq] at notAhead
  cases child with
  | token id =>
      have room := stores.node.tokenParents.length_le
      rw [Forest.length_tokenParents, List.length_drop] at room
      rw [Has, ends]
      exact in_room stores.starts behind (Nat.lt_of_not_le notAhead) room
  | node id =>
      have room := stores.node.nodes.length_le
      rw [Forest.length_nodeEntries, List.length_drop] at room
      obtain ⟨-, inside⟩ := in_room (Nat.zero_le _) behind (Nat.lt_of_not_le notAhead) room
      rw [Nat.zero_add] at inside
      exact ⟨Nat.ne_of_gt (Nat.lt_of_lt_of_le (Nat.succ_pos _) behind), inside⟩
  | list id =>
      have room := stores.node.lists.length_le
      rw [Forest.length_listEntries, List.length_drop] at room
      obtain ⟨-, inside⟩ := in_room (Nat.zero_le _) behind (Nat.lt_of_not_le notAhead) room
      rwa [Nat.zero_add] at inside

theorem endToken_le (stores : tree.Stores parent numbering (Forest.empty.node kind children))
    (some : (tree.entry numbering.node).firstToken < (tree.entry numbering.node).endToken) :
    tree.firstToken ≤ (tree.entry numbering.node).firstToken ∧
      (tree.entry numbering.node).endToken ≤ tree.firstToken + tree.tokenParents.size := by
  have room := stores.node.tokenParents.length_le
  rw [Forest.length_tokenParents, List.length_drop] at room
  rw [stores.entry, Forest.after_eq] at some ⊢
  refine ⟨stores.starts, ?_⟩
  have last : numbering.token + children.leaves.length - 1 < tree.firstToken + tree.tokenParents.size :=
    (in_room stores.starts (Nat.le_sub_one_of_lt some) (Nat.sub_one_lt_of_lt some) room).2
  exact Nat.le_of_pred_lt last

end Stores

structure Represents (tree : SyntaxTree) (kind : Kind) (children : Forest) : Prop where
  placed : children.Placed false
  stores : tree.Stores none (.startingAt tree.firstToken) (Forest.empty.node kind children)
  nodeCount : tree.nodes.size = children.nodes.length + 1
  childCount : tree.childTable.size = children.heldCount + children.childCount
  listCount : tree.lists.size = children.listCount
  tokenCount : tree.tokenParents.size = children.leaves.length
  endToken : tree.endToken = tree.firstToken + children.leaves.length

namespace Represents

variable {tree : SyntaxTree} {kind : Kind} {children : Forest}
  (represents : tree.Represents kind children)
include represents

theorem root_placed : (Forest.empty.node kind children).Placed false := ⟨trivial, represents.placed⟩

theorem exists_node {node : NodeId} (inside : node < tree.nodes.size) :
    ∃ above here inner held, here.node = node ∧
      tree.Stores above here (Forest.empty.node inner held) ∧ held.Placed false ∧
      (inner, held) ∈ (Forest.empty.node kind children).nodes := by
  apply represents.stores.exists_node represents.root_placed
  refine ⟨Nat.zero_le _, ?_⟩
  rw [Forest.after_eq]
  apply Nat.not_le_of_lt
  simpa [Forest.nodes, Numbering.startingAt, represents.nodeCount] using inside

theorem between_of_has {child : Child} (has : tree.Has child) :
    (Numbering.startingAt tree.firstToken).Between
      ((Forest.empty.node kind children).after (.startingAt tree.firstToken)) child := by
  rw [Forest.after_eq]
  cases child with
  | token id =>
      rw [Has, represents.endToken] at has
      exact ⟨has.1, Nat.not_le_of_lt has.2⟩
  | node id =>
      refine ⟨Nat.zero_le _, Nat.not_le_of_lt ?_⟩
      simpa [Forest.nodes, Numbering.startingAt, represents.nodeCount] using has.2
  | list id =>
      refine ⟨Nat.zero_le _, Nat.not_le_of_lt ?_⟩
      simpa [Has, Forest.listCount, Numbering.startingAt, represents.listCount] using has

theorem parent_root : root < tree.nodes.size ∧ tree.parent? root = none := by
  have entry := represents.stores.entry
  rw [Numbering.startingAt] at entry
  refine ⟨represents.nodeCount ▸ Nat.succ_pos _, ?_⟩
  rw [parent?, root, entry]

theorem childParent?_of_mem {node : NodeId} {child : Child} (inside : node < tree.nodes.size)
    (member : child ∈ tree.owned node) : tree.childParent? child = some node := by
  obtain ⟨above, here, inner, held, rfl, stores, placed, -⟩ := represents.exists_node inside
  rw [stores.owned_eq placed] at member
  exact stores.node.childParent?_of_mem member

theorem parent_lt {node child : NodeId} (inside : node < tree.nodes.size)
    (member : .node child ∈ tree.owned node) : node < child := by
  obtain ⟨above, here, inner, held, rfl, stores, placed, -⟩ := represents.exists_node inside
  rw [stores.owned_eq placed] at member
  exact (Forest.between_of_mem_ownedFrom member).1

theorem owner {child : Child} (has : tree.Has child) : ∃ parent < tree.nodes.size,
    tree.childParent? child = some parent ∧
      ∀ node < tree.nodes.size, child ∈ tree.owned node ↔ node = parent := by
  rcases represents.stores.exists_owner represents.root_placed (represents.between_of_has has) with
    member | ⟨parent, between, member⟩
  · cases List.mem_singleton.mp member
    exact absurd rfl has.1
  · have inside : parent < tree.nodes.size := by
      have notBehind := between.2
      rw [Forest.after_eq] at notBehind
      have ahead := Nat.lt_of_not_le notBehind
      simpa [Forest.nodes, Numbering.startingAt, represents.nodeCount] using ahead
    refine ⟨parent, inside, represents.childParent?_of_mem inside member, ?_⟩
    intro node nodeInside
    constructor
    · intro owned
      have named := represents.childParent?_of_mem nodeInside owned
      rw [represents.childParent?_of_mem inside member] at named
      exact (Option.some.inj named).symm
    · rintro rfl
      exact member

theorem stretch {node : NodeId} (inside : node < tree.nodes.size) :
    (tree.entry node).firstChild ≤ (tree.entry node).endChild ∧
      (tree.entry node).endChild ≤ tree.childTable.size := by
  obtain ⟨-, ordered, within⟩ := represents.stores.toHolds.stretch_within (Nat.zero_le node) (by
    rw [Forest.after_eq]
    simpa [Forest.nodes, Numbering.startingAt, represents.nodeCount] using inside)
  rw [Forest.after_eq] at within
  refine ⟨ordered, ?_⟩
  simpa [Forest.heldCount, Numbering.startingAt, represents.childCount] using within

theorem of_parent? {node parent : NodeId} (inside : node < tree.nodes.size)
    (below : tree.parent? node = some parent) :
    parent < tree.nodes.size ∧ .node node ∈ tree.owned parent := by
  have notRoot : node ≠ root := by
    rintro rfl
    rw [represents.parent_root.2] at below
    cases below
  have has : tree.Has (.node node) := ⟨notRoot, inside⟩
  obtain ⟨owner, ownerInside, named, owns⟩ := represents.owner has
  cases Option.some.inj (below.symm.trans named)
  exact ⟨ownerInside, (owns parent ownerInside).mpr rfl⟩

/-- The budget of a way up does not matter, if it exceeds the number of the node. -/
theorem ancestorsWithin_eq {budget more : Nat} {node : NodeId} (inside : node < tree.nodes.size)
    (enough : node < budget) (other : node < more) :
    tree.ancestorsWithin budget node = tree.ancestorsWithin more node := by
  induction budget generalizing node more with
  | zero => exact absurd enough (Nat.not_lt_zero _)
  | succ budget ih =>
      obtain ⟨more, rfl⟩ := Nat.exists_eq_succ_of_ne_zero (Nat.ne_of_gt (Nat.zero_lt_of_lt other))
      rw [ancestorsWithin, ancestorsWithin]
      cases below : tree.parent? node with
      | none => rfl
      | some parent =>
          obtain ⟨parentInside, owned⟩ := represents.of_parent? inside below
          have smaller := represents.parent_lt parentInside owned
          exact congrArg (node :: ·) (ih parentInside (Nat.lt_of_lt_of_le smaller (Nat.le_of_lt_succ enough))
            (Nat.lt_of_lt_of_le smaller (Nat.le_of_lt_succ other)))

theorem ancestors_of_parent? {node parent : NodeId} (inside : node < tree.nodes.size)
    (below : tree.parent? node = some parent) :
    tree.ancestors node = node :: tree.ancestors parent := by
  obtain ⟨parentInside, owned⟩ := represents.of_parent? inside below
  have smaller := represents.parent_lt parentInside owned
  obtain ⟨size, counted⟩ := Nat.exists_eq_succ_of_ne_zero (Nat.ne_of_gt (Nat.zero_lt_of_lt inside))
  have enough : parent < size := Nat.lt_of_lt_of_le smaller (Nat.le_of_lt_succ (counted ▸ inside))
  have unrolled : tree.ancestors node = node :: tree.ancestorsWithin size parent := by
    rw [ancestors, counted, ancestorsWithin, below]
  rw [unrolled, represents.ancestorsWithin_eq parentInside enough parentInside, ancestors]

theorem tiles {node : NodeId} (inside : node < tree.nodes.size) :
    Tiles (tree.entry node).firstToken (tree.entry node).endToken
      ((tree.elements node).map tree.tokenRange) := by
  obtain ⟨above, here, inner, held, rfl, stores, placed, -⟩ := represents.exists_node inside
  rw [stores.elements_eq placed, stores.entry]
  exact stores.node.toHolds.tiles

section Text

variable (accepts : tree.stream.Accepts)
  (ranges : ∀ token ∈ tree.stream.tokens, token.span.start ≤ token.span.stop)
  (inStream : tree.firstToken < tree.endToken → tree.endToken ≤ tree.stream.size)
include inStream

theorem entry_le_size {node : NodeId} (inside : node < tree.nodes.size)
    (covers : (tree.entry node).firstToken < (tree.entry node).endToken) :
    (tree.entry node).endToken ≤ tree.stream.size := by
  obtain ⟨above, here, inner, held, rfl, stores, -, -⟩ := represents.exists_node inside
  obtain ⟨behind, within⟩ := stores.endToken_le covers
  rw [represents.tokenCount, ← represents.endToken] at within
  refine Nat.le_trans within (inStream ?_)
  exact Nat.lt_of_le_of_lt behind (Nat.lt_of_lt_of_le covers within)

include accepts

/-- Tokens that a node covers span the text from the first of them to the one behind the last. -/
theorem tokensSpan_eq {node : NodeId} (inside : node < tree.nodes.size) {first stop : Nat}
    (begins : (tree.entry node).firstToken ≤ first) (ordered : first ≤ stop)
    (ends : stop ≤ (tree.entry node).endToken) :
    tree.tokensSpan first stop = ⟨tree.stream.offset first, tree.stream.offset stop⟩ := by
  apply SyntaxTree.tokensSpan_eq accepts ordered
  intro some
  have covers := Nat.lt_of_le_of_lt begins (Nat.lt_of_lt_of_le some ends)
  exact Nat.le_trans ends (represents.entry_le_size inStream inside covers)

include ranges

theorem spans {node : NodeId} (inside : node < tree.nodes.size) :
    Tiles (tree.span node).start (tree.span node).stop
      ((tree.elements node).map fun element =>
        ((tree.elementSpan element).start, (tree.elementSpan element).stop)) := by
  have tiles := represents.tiles inside
  have placed : ((tree.elements node).map fun element =>
        ((tree.elementSpan element).start, (tree.elementSpan element).stop)) =
      ((tree.elements node).map tree.tokenRange).map fun range =>
        (tree.stream.offset range.1, tree.stream.offset range.2) := by
    rw [List.map_map]
    apply List.map_congr_left
    intro element member
    obtain ⟨behind, ordered, within⟩ := tiles.le_of_mem (List.mem_map_of_mem member)
    have covers : tree.elementSpan element =
        tree.tokensSpan (tree.tokenRange element).1 (tree.tokenRange element).2 := by
      cases element with
      | node id => rfl
      | token id => rw [tokenRange, tokensSpan, if_neg (Nat.ne_of_lt (Nat.lt_succ_self id))]; rfl
    rw [covers, represents.tokensSpan_eq accepts inStream inside behind ordered within]
    rfl
  rw [placed, span, represents.tokensSpan_eq accepts inStream inside (Nat.le_refl _) tiles.le
    (Nat.le_refl _)]
  exact tiles.map fun ordered => accepts.offset_mono ranges ordered

end Text
end Represents
end SyntaxTree

theorem Forest.Builds.represents {stream : TokenStream} {start : TokenId} {kind : Kind}
    {children : Forest} (builds : Builds stream start kind children) :
    ((empty.node kind children).tree stream start).Represents kind children where
  placed := builds.placed
  stores := ⟨holds_tree builds.consecutive builds.lies, Nat.le_refl _, by
    simp only [Numbering.startingAt, Nat.sub_self, List.drop_zero]
    exact List.prefix_refl _⟩
  nodeCount := by simp [tree, length_nodeEntries, nodes]
  childCount := by simp [tree, length_childTable, heldCount]
  listCount := by simp [tree, length_listEntries, listCount]
  tokenCount := by simp [tree, length_tokenParents, leaves]
  endToken := by simp [tree, after_eq, leaves, Numbering.startingAt]

theorem Rule.Matched.represents {stream : TokenStream} {start : Nat} {rule : Rule} {state : ParseState}
    {kind : Kind} {children : Forest} (accepts : stream.Accepts) (before : start ≤ stream.eofIndex)
    (matched : rule.Matched (.ofTokens (stream.tokens.toList.drop start)) (stream.eofIndex - start)
      state kind children) :
    ((Forest.empty.node kind children).tree stream start).Represents kind children :=
  Forest.Builds.represents
    ⟨matched.built.2.2.placed, matched.consecutive.1, matched.liesOn accepts before⟩

theorem Forest.token_mem_steps {start : TokenId} {forest : Forest} {leaf : Nat × Kind}
    (member : leaf ∈ forest.leaves) : .token (start + leaf.1) ∈ forest.steps start := by
  induction forest with
  | empty => cases member
  | token before position kind ih =>
      rcases List.mem_append.mp member with earlier | last
      · exact List.mem_append_left _ (ih earlier)
      · cases List.mem_singleton.mp last
        simp [steps]
  | hole before ih => exact List.mem_append_left _ (ih member)
  | node before kind children ih childrenIh =>
      rcases List.mem_append.mp member with earlier | inside
      · exact List.mem_append_left _ (ih earlier)
      · simp [steps, childrenIh inside]
  | list before items ih itemsIh =>
      rcases List.mem_append.mp member with earlier | inside
      · exact List.mem_append_left _ (ih earlier)
      · simp [steps, itemsIh inside]

theorem Forest.Builds.endToken_le_size {stream : TokenStream} {start : TokenId} {kind : Kind}
    {children : Forest} (builds : Builds stream start kind children)
    (inStream : ∀ index, .token index ∈ (empty.node kind children).steps start → index < stream.size)
    (some : start < ((empty.node kind children).tree stream start).endToken) :
    ((empty.node kind children).tree stream start).endToken ≤ stream.size := by
  -- The last token is added in one of the steps, and so it is one of the stream.
  have ends : ((empty.node kind children).tree stream start).endToken = start + children.leaves.length :=
    builds.represents.endToken
  rw [ends] at some ⊢
  obtain ⟨count, counted⟩ : ∃ count, children.leaves.length = count + 1 :=
    Nat.exists_eq_succ_of_ne_zero (Nat.ne_of_gt (Nat.lt_add_right_iff_pos.mp some))
  have numbers := builds.consecutive
  have last : count ∈ (Forest.empty.node kind children).leaves.map Prod.fst := by
    rw [numbers]
    simp [Forest.leaves, counted]
  obtain ⟨leaf, member, rfl⟩ := List.mem_map.mp last
  rw [counted]
  exact inStream _ (Forest.token_mem_steps member)

end ScriptTree
