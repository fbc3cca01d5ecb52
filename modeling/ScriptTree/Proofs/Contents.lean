import ScriptTree.Proofs.Consistency
import ScriptTree.Proofs.Lookahead
import ScriptTree.Proofs.Scoping

/-! # What nodes hold

A name holds one token that can be an identifier, and the name of a property one token that is known. All
other nodes hold neither unknown tokens nor the words that are reserved for later versions of the
language. -/
set_option autoImplicit false
namespace ScriptTree

/-- The words that no production but the name of a property takes. -/
def reservedKinds : List Kind := [.enumKw, .exportKw, .importKw]

def Kind.IsMixed (kind : Kind) : Prop := kind ≠ .unknown ∧ kind ∉ reservedKinds

instance (kind : Kind) : Decidable kind.IsMixed := inferInstanceAs (Decidable (_ ∧ _))

/-- What a node holds so far, and may hold. -/
inductive Content where
  /-- Tokens that are neither unknown nor reserved, nodes and lists. -/
  | mixed
  /-- One token of some kinds and nothing else. -/
  | single (kinds : List Kind) (taken : Bool)
  deriving DecidableEq

namespace Content

def inside (kind : Kind) : Content :=
  if kind ∈ nameKinds then .single identifierKinds false
  else if kind = .propertyName then .single (Kind.all.filter (· ≠ .unknown)) false
  else .mixed

def complete : Content → Content
  | mixed => mixed
  | single kinds _ => single kinds true

def take : Content → List Kind → Option Content
  | mixed, known => if ∀ kind ∈ known, kind.IsMixed then some mixed else none
  | single kinds false, known =>
      if known ⊆ kinds ∧ .unknown ∉ known then some (single kinds true) else none
  | single _ true, _ => none

theorem take_cases {content taken : Content} {known : List Kind} (takes : content.take known = some taken) :
    (content = mixed ∧ taken = mixed ∧ ∀ kind ∈ known, kind.IsMixed) ∨
    ∃ kinds, content = single kinds false ∧ taken = single kinds true ∧ known ⊆ kinds ∧
      .unknown ∉ known := by
  unfold take at takes
  split at takes
  · split at takes
    · rename_i mixed
      cases takes
      exact .inl ⟨rfl, rfl, mixed⟩
    · cases takes
  · split at takes
    · rename_i may
      cases takes
      exact .inr ⟨_, rfl, rfl, may⟩
    · cases takes
  · cases takes

theorem unknown_notMem_of_take {content taken : Content} {known : List Kind}
    (takes : content.take known = some taken) : .unknown ∉ known := by
  rcases take_cases takes with ⟨-, -, mixed⟩ | ⟨_, -, -, -, notUnknown⟩
  · exact fun unknown => (mixed _ unknown).1 rfl
  · exact notUnknown

end Content

/-- Goes through a production with what the innermost open node holds. -/
def contentWatch : Watch Content where
  take := Content.take
  isOpen content := content = .mixed
  inside := Content.inside
  closes kind content := content = (Content.inside kind).complete
  entry _ := .mixed
  exit := .mixed
  call _ content := if content = .mixed then some .mixed else none

theorem contentWatch_passes : ∀ nonterminal ∈ Nonterminal.listed,
    contentWatch.passes nonterminal = true := by
  decide +kernel

/-! ## Forests -/

namespace Forest

/-- The kinds of the tokens that the owner of a forest holds, those in its lists included. -/
def ownKinds : Forest → List Kind
  | empty => []
  | token before _ kind => before.ownKinds ++ [kind]
  | hole before => before.ownKinds
  | node before _ _ => before.ownKinds
  | list before items => before.ownKinds ++ items.ownKinds

theorem ownKinds_append (left right : Forest) :
    (left ++ right).ownKinds = left.ownKinds ++ right.ownKinds := by
  induction right with
  | empty => simp [ownKinds]
  | token before position kind ih => simp [ownKinds, ih]
  | hole before ih => simp [ownKinds, ih]
  | node before kind children ih _ => simp [ownKinds, ih]
  | list before items ih _ => simp [ownKinds, ih]

end Forest

theorem Content.inside_name {kind : Kind} (isName : kind ∈ nameKinds) :
    inside kind = .single identifierKinds false :=
  if_pos isName

theorem Content.inside_propertyName :
    inside .propertyName = .single (Kind.all.filter (· ≠ .unknown)) false := rfl

def Content.Fits : Content → Forest → Prop
  | mixed, forest => ∀ kind ∈ forest.ownKinds, kind.IsMixed
  | single _ false, forest => forest = .empty
  | single kinds true, forest => ∃ position, ∃ kind ∈ kinds, forest = Forest.empty.token position kind

def Forest.FillsNodes (forest : Forest) : Prop :=
  forest.AllNodes fun kind children => (Content.inside kind).complete.Fits children

namespace Content

variable {content inner taken : Content} {forest children rest : Forest} {kind : Kind} {kinds : List Kind}

theorem fits_mixed_empty : mixed.Fits .empty := by simp [Fits, Forest.ownKinds]

theorem fits_inside (kind : Kind) : (inside kind).Fits .empty := by
  rw [inside]
  split
  · rfl
  · split
    · rfl
    · exact fits_mixed_empty

/-- One forest goes on from one content to another; its nodes stay filled. -/
def Relates (content : Content) (before : Forest) (next : Content) (after : Forest) : Prop :=
  content.Fits before → before.FillsNodes → next.Fits after ∧ after.FillsNodes

theorem fits_of_take (takes : content.take kinds = some taken) (member : kind ∈ kinds) (position : Nat)
    (fits : content.Fits forest) : taken.Fits (forest.token position kind) := by
  rcases take_cases takes with ⟨rfl, rfl, mixed⟩ | ⟨_, rfl, rfl, known, -⟩
  · intro other inForest
    rcases List.mem_append.mp inForest with earlier | last
    · exact fits other earlier
    · exact List.mem_singleton.mp last ▸ mixed kind member
  · cases fits
    exact ⟨position, kind, known member, rfl⟩

theorem Relates.filled (relates : Relates (inside kind) .empty inner children)
    (closed : inner = (inside kind).complete) :
    (inside kind).complete.Fits children ∧ children.FillsNodes :=
  closed ▸ relates (fits_inside kind) Forest.allNodes_empty

/-- No node holds unknown tokens, and only the name of a property a reserved word. -/
theorem kind_of_fits {found : Kind} (fits : (inside kind).complete.Fits forest)
    (member : found ∈ forest.ownKinds) :
    found ≠ .unknown ∧ (found ∈ reservedKinds → kind = .propertyName) := by
  rw [inside] at fits
  split at fits
  · obtain ⟨position, only, isIdentifier, rfl⟩ := fits
    cases List.mem_singleton.mp member
    have mixed : ∀ kind ∈ identifierKinds, kind.IsMixed := by decide
    exact ⟨(mixed found isIdentifier).1, fun isReserved => absurd isReserved (mixed found isIdentifier).2⟩
  · split at fits
    · rename_i isProperty
      obtain ⟨position, only, known, rfl⟩ := fits
      cases List.mem_singleton.mp member
      exact ⟨by simpa using (List.mem_filter.mp known).2, fun _ => isProperty⟩
    · exact ⟨(fits found member).1, fun isReserved => absurd isReserved (fits found member).2⟩

theorem Relates.wrapLast (relates : Relates (inside kind) .empty inner rest)
    (mayWrap : inside kind = .mixed) (closed : inner = (inside kind).complete) :
    Relates .mixed forest .mixed (forest.wrapLast kind rest) := by
  intro fits fills
  obtain ⟨restFits, restFills⟩ := relates.filled closed
  have around : ∀ (first : Kind) (children : Forest), (inside first).complete.Fits children →
      (inside kind).complete.Fits (Forest.empty.node first children ++ rest) := by
    intro first children _
    rw [mayWrap] at restFits ⊢
    intro kind inForest
    rw [Forest.ownKinds_append] at inForest
    exact restFits kind inForest
  refine ⟨?_, Forest.AllNodes.wrapLast fills restFills around⟩
  cases forest <;> exact fits

end Content

theorem contentWatch_keeps : contentWatch.Keeps Content.Relates where
  refl := fun fits fills => ⟨fits, fills⟩
  trans := fun earlier later fits fills => later (earlier fits fills).1 (earlier fits fills).2
  take position takes member := fun fits fills => ⟨Content.fits_of_take takes member position fits, fills⟩
  hole mayAdd := by
    cases of_decide_eq_true mayAdd
    exact fun fits fills => ⟨fits, fills⟩
  node mayAdd closed relates := by
    cases of_decide_eq_true mayAdd
    have filled := Content.Relates.filled relates (of_decide_eq_true closed)
    exact fun fits fills => ⟨fits, Forest.allNodes_node.mpr ⟨fills, filled⟩⟩
  wrap mayAdd mayWrap closed relates := by
    cases of_decide_eq_true mayAdd
    exact Content.Relates.wrapLast relates (of_decide_eq_true mayWrap) (of_decide_eq_true closed)
  list mayAdd mayEnd relates := by
    cases of_decide_eq_true mayAdd
    cases of_decide_eq_true mayEnd
    intro fits fills
    obtain ⟨itemsFit, itemsFill⟩ := relates Content.fits_mixed_empty Forest.allNodes_empty
    refine ⟨?_, Forest.allNodes_list.mpr ⟨fills, itemsFill⟩⟩
    intro kind inForest
    rcases List.mem_append.mp inForest with earlier | inItems
    · exact fits kind earlier
    · exact itemsFit kind inItems
  call called relates := by
    simp only [contentWatch] at called
    split at called
    · rename_i isMixed
      cases isMixed
      cases called
      exact relates
    · cases called

/-! ## Trees -/

theorem SyntaxTree.Stores.kind_mem_ownKinds {tree : SyntaxTree} {parent : Option NodeId}
    {numbering : Numbering} {forest : Forest} {id : TokenId}
    (stores : tree.Stores parent numbering forest) (member : .token id ∈ forest.ownedFrom numbering) : (tree.token id).kind ∈ forest.ownKinds := by
  induction forest generalizing numbering with
  | empty => cases member
  | token before position kind ih =>
      obtain ⟨beforeStores, tokenStores⟩ :
          _ ∧ tree.Stores _ _ (Forest.empty.token position kind) := Stores.append stores
      rcases List.mem_append.mp member with earlier | last
      · exact List.mem_append_left _ (ih beforeStores earlier)
      · cases List.mem_singleton.mp last
        simp [Forest.ownKinds, tokenStores.toHolds.token.2]
  | hole before ih =>
      exact ih stores.hole member
  | node before kind children ih _ =>
      obtain ⟨beforeStores, -⟩ :
          _ ∧ tree.Stores _ _ (Forest.empty.node kind children) := Stores.append stores
      rcases List.mem_append.mp member with earlier | last
      · exact ih beforeStores earlier
      · cases List.mem_singleton.mp last
  | list before items ih itemsIh =>
      obtain ⟨beforeStores, listStores⟩ :
          _ ∧ tree.Stores _ _ (Forest.empty.list items) := Stores.append stores
      rcases List.mem_append.mp member with earlier | last
      · exact List.mem_append_left _ (ih beforeStores earlier)
      · rcases List.mem_cons.mp last with same | inside
        · cases same
        · exact List.mem_append_right _ (itemsIh listStores.list inside)

/-- Tokens stand where their kinds may: none is unknown, a reserved word is the name of a property, and a
name is a token that can be an identifier. -/
structure SyntaxTree.PlacesTokens (tree : SyntaxTree) : Prop where
  known : ∀ id, tree.Has (.token id) → (tree.token id).kind ≠ .unknown
  reserved : ∀ id, tree.Has (.token id) → (tree.token id).kind ∈ reservedKinds →
    tree.kind (tree.tokenParent id) = .propertyName ∧ tree.children (tree.tokenParent id) = [.token id]
  names : ∀ node < tree.nodes.size, tree.kind node ∈ nameKinds → ∃ id, tree.children node = [.token id] ∧
    ((tree.token id).kind = .ident ∨ (tree.token id).kind.isContextualKeyword = true)

namespace SyntaxTree.Represents

variable {tree : SyntaxTree} {kind : Kind} {children : Forest}
  (represents : tree.Represents kind children) (fills : (Forest.empty.node kind children).FillsNodes)
include represents fills

/-- The node that a token names as its parent holds it, and what a node of its kind may. -/
theorem exists_holder {id : TokenId} (has : tree.Has (.token id)) :
    ∃ above here held, here.node = tree.tokenParent id ∧
      tree.Stores above here (Forest.empty.node (tree.kind (tree.tokenParent id)) held) ∧
      .token id ∈ held.ownedFrom here.nextNode ∧
      (Content.inside (tree.kind (tree.tokenParent id))).complete.Fits held := by
  obtain ⟨node, inside, named, owns⟩ := represents.owner has
  have member := (owns node inside).mpr rfl
  obtain ⟨above, here, inner, held, rfl, stores, placed, listed⟩ := represents.exists_node inside
  rw [stores.owned_eq placed] at member
  rw [Option.some.inj named, stores.toHolds.node.1]
  exact ⟨above, here, held, rfl, stores, member, fills.of_mem listed⟩

theorem placesTokens : tree.PlacesTokens where
  known := by
    intro id has
    obtain ⟨above, here, held, -, stores, member, fits⟩ := represents.exists_holder fills has
    exact (Content.kind_of_fits fits (stores.node.kind_mem_ownKinds member)).1
  reserved := by
    intro id has isReserved
    obtain ⟨above, here, held, same, stores, member, fits⟩ := represents.exists_holder fills has
    have isProperty := (Content.kind_of_fits fits (stores.node.kind_mem_ownKinds member)).2 isReserved
    rw [isProperty, Content.inside_propertyName] at fits
    obtain ⟨position, found, -, rfl⟩ := fits
    cases List.mem_singleton.mp member
    exact ⟨isProperty, same ▸ stores.toHolds.node.2.1⟩
  names := by
    intro node inside isName
    obtain ⟨above, here, inner, held, rfl, stores, -, listed⟩ := represents.exists_node inside
    obtain ⟨sameKind, holds, heldHolds⟩ := stores.toHolds.node
    rw [sameKind] at isName
    have fits := fills.of_mem listed
    rw [Content.inside_name isName] at fits
    obtain ⟨position, found, isIdentifier, rfl⟩ := fits
    refine ⟨here.nextNode.token, holds, ?_⟩
    rw [heldHolds.token.2]
    exact mem_identifierKinds_iff.mp isIdentifier

end SyntaxTree.Represents

theorem Rule.Matched.fillsNodes {rule : Rule} {terminals : Terminals} {last : Nat} {state : ParseState}
    {kind : Kind} {children : Forest} (matched : rule.Matched terminals last state kind children) :
    (Forest.empty.node kind children).FillsNodes :=
  (matched.relates contentWatch_keeps contentWatch_passes Content.fits_mixed_empty
    Forest.allNodes_empty).2

theorem Rule.Matched.placesTokens {stream : TokenStream} {start : Nat} {rule : Rule} {state : ParseState}
    {kind : Kind} {children : Forest} (accepts : stream.Accepts) (before : start ≤ stream.eofIndex)
    (matched : rule.Matched (.ofTokens (stream.tokens.toList.drop start)) (stream.eofIndex - start)
      state kind children) :
    ((Forest.empty.node kind children).tree stream start).PlacesTokens :=
  (matched.represents accepts before).placesTokens matched.fillsNodes

end ScriptTree
