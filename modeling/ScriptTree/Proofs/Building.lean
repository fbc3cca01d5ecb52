import ScriptTree.Proofs.Construction

/-! # Building a forest

A builder takes every step of a forest whose nodes, lists and holes stand where they may and whose
tokens follow on each other. What it has built then are the tables of the forest. -/
set_option autoImplicit false
namespace ScriptTree

/-- The tokens are those from `first` on, one after the other. -/
def Forest.Consecutive (first : Nat) (forest : Forest) : Prop :=
  forest.leaves.map Prod.fst = List.range' first forest.leaves.length

namespace Forest.Consecutive

variable {first : Nat} {before rest : Forest}

theorem of_append {left right : List (Nat × Kind)}
    (consecutive : (left ++ right).map Prod.fst = List.range' first (left ++ right).length) :
    left.map Prod.fst = List.range' first left.length ∧
      right.map Prod.fst = List.range' (first + left.length) right.length := by
  rw [List.map_append, List.length_append, ← List.range'_append_1] at consecutive
  exact List.append_inj consecutive (by simp)

theorem of_token {position : Nat} {kind : Kind}
    (consecutive : (before.token position kind).Consecutive first) :
    before.Consecutive first ∧ position = first + before.leaves.length := by
  obtain ⟨earlier, last⟩ := of_append consecutive
  exact ⟨earlier, by simpa using last⟩

theorem of_node {kind : Kind} (consecutive : (before.node kind rest).Consecutive first) :
    before.Consecutive first ∧ rest.Consecutive (first + before.leaves.length) :=
  of_append consecutive

theorem of_list (consecutive : (before.list rest).Consecutive first) :
    before.Consecutive first ∧ rest.Consecutive (first + before.leaves.length) :=
  of_append consecutive

end Forest.Consecutive

def Opened.holding (inList : Bool) (id : Nat) (numbering : Numbering) (forest : Forest) : Opened :=
  if inList then .list id (.ofItems (forest.itemsFrom numbering))
  else .node id (forest.childrenFrom numbering).toArray

namespace Builder

def numbering (builder : Builder) : Numbering :=
  ⟨builder.nodes.size, builder.lists.size, builder.nextToken, builder.childTable.size⟩

@[simp] theorem numbering_node (builder : Builder) : builder.numbering.node = builder.nodes.size := rfl

@[simp] theorem numbering_list (builder : Builder) : builder.numbering.list = builder.lists.size := rfl

@[simp] theorem numbering_token (builder : Builder) : builder.numbering.token = builder.nextToken :=
  rfl

@[simp] theorem numbering_child (builder : Builder) :
    builder.numbering.child = builder.childTable.size := rfl

/-- A builder that was given a forest inside the open node `parent`. -/
def adding (builder : Builder) (parent : Option NodeId) (forest : Forest) (opened : List Opened) :
    Builder where
  nodes := (builder.nodes.toList ++ forest.nodeEntries parent builder.numbering).toArray
  childTable := (builder.childTable.toList ++ forest.childTable builder.numbering).toArray
  lists := (builder.lists.toList ++
    forest.listEntries (parent.getD SyntaxTree.root) builder.numbering).toArray
  tokenParents := (builder.tokenParents.toList ++
    forest.tokenParents (parent.getD SyntaxTree.root) builder.numbering).toArray
  opened := opened
  firstToken := builder.firstToken
  nextToken := (forest.after builder.numbering).token

@[simp] theorem numbering_adding (builder : Builder) (parent : Option NodeId) (forest : Forest)
    (opened : List Opened) :
    (builder.adding parent forest opened).numbering = forest.after builder.numbering := by
  simp [adding, numbering, Forest.after_eq, Forest.length_nodeEntries, Forest.length_listEntries,
    Forest.length_childTable]

theorem adding_empty {builder : Builder} {opened : List Opened} (parent : Option NodeId)
    (same : builder.opened = opened) : builder.adding parent .empty opened = builder := by
  simp [adding, Forest.nodeEntries, Forest.childTable, Forest.listEntries, Forest.tokenParents,
    Forest.after, numbering, ← same]

theorem adding_adding (builder : Builder) (parent : Option NodeId) (left right : Forest)
    (opened later : List Opened) :
    (builder.adding parent left opened).adding parent right later =
      builder.adding parent (left ++ right) later := by
  unfold adding
  have numbers := builder.numbering_adding parent left opened
  unfold adding at numbers
  simp [numbers]

/-! ## What is open around a forest -/

def nodeOf? (opened : List Opened) : Option NodeId :=
  opened.findSome? fun
    | .node id _ => some id
    | .list _ _ => none

theorem openNode?_eq (builder : Builder) : builder.openNode? = nodeOf? builder.opened := rfl

section Holding

variable {inList : Bool} {before : Forest} (id : Nat) (numbering : Numbering) (outer : List Opened)

@[simp] theorem nodeOf?_holding (forest : Forest) :
    nodeOf? (.holding inList id numbering forest :: outer) =
      if inList then nodeOf? outer else some id := by
  cases inList <;> rfl

theorem attachToken_holding {position : Nat} {kind : Kind}
    (alternates : inList = true → (before.token position kind).expectsElement ≠ none) :
    attachToken (before.after numbering).token (.holding inList id numbering before :: outer) =
      .ok (.holding inList id numbering (before.token position kind) :: outer) := by
  cases inList with
  | false => simp [Opened.holding, attachToken, Forest.childrenFrom]
  | true =>
      have odd := before.sizes_ofItems numbering false
        (Forest.expectsElement_before_token (alternates rfl))
      simp only [Opened.holding, if_true, attachToken, Forest.itemsFrom,
        SeparatedListBuilder.pushSeparator_ofItems odd]

theorem attachNode_holding {children : Forest} {kind : Kind}
    (alternates : inList = true → (before.node kind children).expectsElement ≠ none) :
    attachNode (before.after numbering).node (.holding inList id numbering before :: outer) =
      .ok (.holding inList id numbering (before.node kind children) :: outer) := by
  cases inList with
  | false => simp [Opened.holding, attachNode, Forest.childrenFrom]
  | true =>
      have even := before.sizes_ofItems numbering true
        (Forest.expectsElement_before_node (alternates rfl))
      simp only [Opened.holding, if_true, attachNode, Forest.itemsFrom,
        SeparatedListBuilder.pushElement_ofItems even]

end Holding

/-! ## Running steps -/

theorem run_append_of_ok {builder next : Builder} {first : List BuildStep}
    (ran : builder.run first = .ok next) (second : List BuildStep) :
    builder.run (first ++ second) = next.run second := by
  induction first generalizing builder with
  | nil =>
      cases ran
      rfl
  | cons step rest ih =>
      rw [List.cons_append, run_cons]
      rw [run_cons] at ran
      cases stepped : builder.step step with
      | ok later =>
          rw [stepped] at ran
          exact ih ran
      | error fault =>
          rw [stepped] at ran
          cases ran

theorem run_cons_of_ok {builder next : Builder} {step : BuildStep}
    (stepped : builder.step step = .ok next)
    (rest : List BuildStep) : builder.run (step :: rest) = next.run rest := by
  rw [run_cons, stepped]

theorem step_finishNode {builder : Builder} {id : NodeId} {children : Array Child} {outer : List Opened}
    (opened : builder.opened = .node id children :: outer) (inside : id < builder.nodes.size) :
    builder.step .finishNode = .ok { builder with
      nodes := builder.nodes.modify id fun entry =>
        { entry with
          firstChild := builder.childTable.size
          endChild := (builder.childTable ++ children).size
          endToken := builder.nextToken }
      childTable := builder.childTable ++ children
      opened := outer } := by
  simp [step, stepBy, finishNode, opened, inside]

theorem step_finishList {builder : Builder} {id : ListId}
    {items : SeparatedListBuilder (Slot NodeId) TokenId} {outer : List Opened}
    (opened : builder.opened = .list id items :: outer) (inside : id < builder.lists.size) :
    builder.step .finishList = .ok { builder with
      lists := builder.lists.modify id fun entry => { entry with items := items.finish }
      opened := outer } := by
  simp [step, stepBy, finishList, opened, inside]

/-- The steps of a forest that starts at the token `next` give its entries, inside a node or a list
that is open. -/
def Adds (start next : TokenId) (forest : Forest) (inList : Bool) : Prop :=
  ∀ (builder : Builder) (id parent : NodeId) (outer : List Opened),
    builder.opened = .holding inList id builder.numbering .empty :: outer →
    builder.openNode? = some parent → builder.nextToken = next →
    builder.run (forest.steps start) =
      .ok (builder.adding (some parent) forest
        (.holding inList id builder.numbering forest :: outer))

theorem run_node {start : TokenId} (builder : Builder) {opened : List Opened} {children : Forest}
    (kind : Kind) (single : builder.openNode? = none → builder.nodes.isEmpty = true)
    (attached : attachNode builder.nodes.size builder.opened = .ok opened)
    (adds : Adds start builder.nextToken children false) :
    builder.run (.startNode kind :: (children.steps start ++ [.finishNode])) =
      .ok (builder.adding builder.openNode? (Forest.empty.node kind children) opened) := by
  have starts : (builder.openNode?.isNone && !builder.nodes.isEmpty) = false := by
    cases parent : builder.openNode? with
    | none => simp [single parent]
    | some parent => rfl
  obtain ⟨inner, started, numbers, entries⟩ : ∃ inner, builder.step (.startNode kind) = .ok inner ∧
      inner.numbering = builder.numbering.nextNode ∧ inner = { builder with
        nodes := builder.nodes.push
          ⟨kind, builder.openNode?, 0, 0, builder.nextToken, builder.nextToken⟩
        opened := .node builder.nodes.size #[] :: opened } := by
    refine ⟨_, ?_, ?_, rfl⟩
    · simp [step, stepBy, startNode, starts, attached]
    · simp [numbering, Numbering.nextNode]
  have ran := adds inner builder.nodes.size builder.nodes.size opened (by rw [entries]; rfl)
    (by rw [entries]; rfl) (by rw [entries])
  rw [run_cons_of_ok started, run_append_of_ok ran, numbers]
  have filled : (inner.adding (some builder.nodes.size) children
      (.holding false builder.nodes.size inner.numbering children :: opened)).opened =
      .node builder.nodes.size (children.childrenFrom inner.numbering).toArray :: opened := rfl
  have closes := step_finishNode filled (by
    rw [entries]
    simp [adding])
  have modified := Trace.modify_length_append builder.nodes.toList
    ⟨kind, builder.openNode?, 0, 0, builder.nextToken, builder.nextToken⟩
    (children.nodeEntries (some builder.nodes.size) builder.numbering.nextNode)
    fun entry : NodeEntry =>
      { entry with
        firstChild := builder.childTable.size + children.heldCount
        endChild := builder.childTable.size + children.heldCount + children.childCount
        endToken := builder.nextToken + children.leaves.length }
  rw [Array.length_toList, Nat.add_assoc] at modified
  rw [numbers] at closes
  rw [run_cons_of_ok closes, run_nil]
  simp only [adding, numbers]
  subst entries
  simp [Forest.nodeEntries, Forest.childTable, Forest.listEntries, Forest.tokenParents, Forest.after,
    Forest.length_childTable, Forest.length_childrenFrom, Forest.after_eq, Nat.add_assoc, modified]

theorem run_list {start : TokenId} {builder : Builder} {parent : NodeId} {before items : Forest}
    {numbering : Numbering} {outer : List Opened}
    (opened : builder.opened = .holding false parent numbering before :: outer)
    (numbers : builder.numbering = before.after numbering)
    (adds : Adds start builder.nextToken items true) :
    builder.run (.startList :: (items.steps start ++ [.finishList])) =
      .ok (builder.adding (some parent) (Forest.empty.list items)
        (.holding false parent numbering (before.list items) :: outer)) := by
  have openNode : builder.openNode? = some parent := by
    rw [openNode?_eq, opened]
    rfl
  obtain ⟨inner, started, innerNumbers, entries⟩ : ∃ inner, builder.step .startList = .ok inner ∧
      inner.numbering = builder.numbering.nextList ∧ inner = { builder with
        lists := builder.lists.push ⟨parent, .empty⟩
        opened := .holding true builder.lists.size builder.numbering.nextList .empty ::
          .holding false parent numbering (before.list items) :: outer } := by
    refine ⟨_, ?_, ?_, rfl⟩
    · have list : builder.lists.size = (before.after numbering).list := by rw [← numbers]; rfl
      simp only [step, stepBy, startList, openNode]
      simp [opened, Opened.holding, Forest.childrenFrom, Forest.itemsFrom, list,
        SeparatedListBuilder.empty, SeparatedListBuilder.ofItems]
    · simp [Builder.numbering, Numbering.nextList]
  have ran := adds inner builder.lists.size parent _ (by rw [entries]; rfl) (by rw [entries]; rfl)
    (by rw [entries])
  rw [run_cons_of_ok started, run_append_of_ok ran, innerNumbers]
  have filled : (inner.adding (some parent) items (.holding true builder.lists.size inner.numbering items ::
      .holding false parent numbering (before.list items) :: outer)).opened =
      .list builder.lists.size (.ofItems (items.itemsFrom inner.numbering)) ::
        .holding false parent numbering (before.list items) :: outer := rfl
  have closes := step_finishList filled (by
    rw [entries]
    simp [adding])
  rw [innerNumbers] at closes
  rw [run_cons_of_ok closes, run_nil]
  have modified := Trace.modify_length_append builder.lists.toList ⟨parent, .empty⟩
    (items.listEntries parent builder.numbering.nextList)
    fun entry : ListEntry =>
      { entry with
        items := (SeparatedListBuilder.ofItems (items.itemsFrom builder.numbering.nextList)).finish }
  rw [Array.length_toList] at modified
  simp only [adding, innerNumbers]
  subst entries
  simp [Forest.nodeEntries, Forest.childTable, Forest.listEntries, Forest.tokenParents, Forest.after,
    modified]

theorem step_token {builder : Builder} {inList : Bool} {id parent : NodeId} {before : Forest}
    {numbering : Numbering} {outer : List Opened} {position : Nat} {kind : Kind}
    (opened : builder.opened = .holding inList id numbering before :: outer)
    (openNode : builder.openNode? = some parent) (numbers : builder.numbering = before.after numbering)
    (alternates : inList = true → (before.token position kind).expectsElement ≠ none) :
    builder.step (.token builder.nextToken) =
      .ok (builder.adding (some parent) (Forest.empty.token position kind)
        (.holding inList id numbering (before.token position kind) :: outer)) := by
  have next : builder.nextToken = (before.after numbering).token := by
    rw [← numbers]
    rfl
  have attached := attachToken_holding id numbering outer alternates
  rw [← opened, ← next] at attached
  simp [step, stepBy, token, openNode, attached, adding, Forest.nodeEntries, Forest.childTable,
    Forest.listEntries, Forest.tokenParents, Forest.after, Numbering.nextToken, ← Array.toList_push]

theorem step_elision {builder : Builder} {id : NodeId} (parent : NodeId) {before : Forest}
    {numbering : Numbering} {outer : List Opened}
    (opened : builder.opened = .holding true id numbering before :: outer)
    (alternates : before.hole.expectsElement ≠ none) :
    builder.step .elision =
      .ok (builder.adding (some parent) Forest.empty.hole
        (.holding true id numbering before.hole :: outer)) := by
  have even := before.sizes_ofItems numbering true (Forest.expectsElement_before_hole alternates)
  have pushed := SeparatedListBuilder.pushElement_ofItems even Slot.absent
  simp only [step, stepBy, elision, opened, Opened.holding, if_true, pushed]
  simp [adding, Forest.nodeEntries, Forest.childTable, Forest.listEntries, Forest.tokenParents,
    Forest.after, Forest.itemsFrom]

/-! ## Running the steps of a forest -/

/-- What a builder was given a forest has become: where it stands, and that it may go on. -/
structure Reached (builder : Builder) (inList : Bool) (id parent next : NodeId) (outer : List Opened)
    (forest : Forest) (middle : Builder) : Prop where
  opened : middle.opened = .holding inList id builder.numbering forest :: outer
  openNode : middle.openNode? = some parent
  numbers : middle.numbering = forest.after builder.numbering
  nextToken : middle.nextToken = next + forest.leaves.length
  goesOn : ∀ (rest : Forest) (later : List Opened),
    middle.adding (some parent) rest later = builder.adding (some parent) (forest ++ rest) later

theorem Adds.reached {start next : TokenId} {forest : Forest} {inList : Bool}
    (adds : Adds start next forest inList) {builder : Builder} {id parent : NodeId}
    {outer : List Opened}
    (opened : builder.opened = .holding inList id builder.numbering .empty :: outer)
    (openNode : builder.openNode? = some parent) (same : builder.nextToken = next) :
    ∃ middle, builder.run (forest.steps start) = .ok middle ∧
      Reached builder inList id parent next outer forest middle := by
  refine ⟨_, adds builder id parent outer opened openNode same, rfl, ?_, ?_, ?_, ?_⟩
  · rw [openNode?_eq, opened, nodeOf?_holding] at openNode
    rw [openNode?_eq]
    simpa [adding] using openNode
  · exact builder.numbering_adding _ _ _
  · simp [adding, Forest.after_eq, same]
  · intro rest later
    exact builder.adding_adding _ _ _ _ _

theorem adds_forest (start first : TokenId) (forest : Forest) (inList : Bool)
    (placed : forest.Placed inList) (alternates : inList = true → forest.expectsElement ≠ none)
    (consecutive : forest.Consecutive first) : Adds start (start + first) forest inList := by
  induction forest generalizing first inList with
  | empty =>
      intro builder id parent outer opened openNode next
      rw [adding_empty _ opened]
      rfl
  | token before position kind ih =>
      intro builder id parent outer opened openNode next
      obtain ⟨beforeConsecutive, rfl⟩ := consecutive.of_token
      have adds := ih first inList placed
        (fun inside => by simp [Forest.expectsElement_before_token (alternates inside)])
        beforeConsecutive
      obtain ⟨middle, ran, reached⟩ := adds.reached opened openNode next
      have stepped := step_token reached.opened reached.openNode reached.numbers alternates
      rw [reached.nextToken, reached.goesOn, Nat.add_assoc] at stepped
      rw [Forest.steps, run_append_of_ok ran, run_cons_of_ok stepped]
      rfl
  | hole before ih =>
      intro builder id parent outer opened openNode next
      obtain ⟨rfl, beforePlaced⟩ := placed
      have adds := ih first true beforePlaced
        (fun inside => by simp [Forest.expectsElement_before_hole (alternates inside)]) consecutive
      obtain ⟨middle, ran, reached⟩ := adds.reached opened openNode next
      have stepped := step_elision parent reached.opened (alternates rfl)
      rw [reached.goesOn] at stepped
      rw [Forest.steps, run_append_of_ok ran, run_cons_of_ok stepped]
      rfl
  | node before kind children ih childrenIh =>
      intro builder id parent outer opened openNode next
      obtain ⟨beforeConsecutive, childrenConsecutive⟩ := consecutive.of_node
      have adds := ih first inList placed.1
        (fun inside => by simp [Forest.expectsElement_before_node (alternates inside)])
        beforeConsecutive
      obtain ⟨middle, ran, reached⟩ := adds.reached opened openNode next
      have inside := childrenIh (first + before.leaves.length) false placed.2 (by simp)
        childrenConsecutive
      rw [← Nat.add_assoc, ← reached.nextToken] at inside
      have attached := attachNode_holding id builder.numbering outer alternates
      rw [← reached.opened, ← reached.numbers] at attached
      have built := run_node middle kind (by simp [reached.openNode]) attached inside
      rw [reached.openNode, reached.goesOn] at built
      rw [Forest.steps, run_append_of_ok ran, built]
      rfl
  | list before items ih itemsIh =>
      intro builder id parent outer opened openNode next
      obtain ⟨beforeConsecutive, itemsConsecutive⟩ := consecutive.of_list
      obtain ⟨rfl, beforePlaced, itemsPlaced, itemsAlternate⟩ := placed
      have adds := ih first false beforePlaced (by simp) beforeConsecutive
      obtain ⟨middle, ran, reached⟩ := adds.reached opened openNode next
      have inside := itemsIh (first + before.leaves.length) true itemsPlaced (fun _ => itemsAlternate)
        itemsConsecutive
      rw [← Nat.add_assoc, ← reached.nextToken] at inside
      have same : id = parent := by
        rw [openNode?_eq, opened, nodeOf?_holding] at openNode
        simpa using openNode
      subst same
      have built := run_list reached.opened reached.numbers inside
      rw [reached.goesOn] at built
      rw [Forest.steps, run_append_of_ok ran, built]
      rfl

end Builder

/-- The steps of a node build a tree, and its tables are those of the forest. -/
theorem SyntaxTree.ofSteps_node (stream : TokenStream) (start : TokenId) (kind : Kind)
    (children : Forest) (placed : children.Placed false) (consecutive : children.Consecutive 0) :
    SyntaxTree.ofSteps stream start ((Forest.empty.node kind children).steps start) =
      .ok ((Forest.empty.node kind children).tree stream start) := by
  have adds := Builder.adds_forest start 0 children false placed (by simp) consecutive
  have ran := Builder.run_node (.startingAt start) kind (fun _ => rfl) rfl adds
  rw [SyntaxTree.ofSteps, Forest.steps, Forest.steps, List.nil_append, ran]
  rfl

end ScriptTree
