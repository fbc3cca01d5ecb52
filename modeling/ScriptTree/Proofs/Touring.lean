import Mathlib.Data.List.Nodup
import ScriptTree.Proofs.Consistency

/-! # Tours of a tree

A walk can be asked for its next event and told to skip the rest of the node entered last, in any order.
The events of a walk are nested: what it enters it leaves again, the last node first. This holds over all
tables, since what a walk has still to show is told by its stack alone: a tour of the children left there
and the way out, node by node. In a tree a node is entered once, so that nothing is lost but what is skipped. -/
set_option autoImplicit false
namespace ScriptTree

/-! ## Calls -/

inductive WalkCall where
  | next
  | skipSubtree
  deriving DecidableEq, Repr

namespace Walk

/-- What the calls for the next event give one after the other, and the walk behind all calls. The walk
goes on in the way given. -/
def perform (next : Walk → Option (WalkEvent × Walk)) :
    List WalkCall → Walk → List (Option WalkEvent) × Walk
  | [], walk => ([], walk)
  | .next :: calls, walk =>
      match next walk with
      | none => (none :: (perform next calls walk).1, (perform next calls walk).2)
      | some (event, after) =>
          (some event :: (perform next calls after).1, (perform next calls after).2)
  | .skipSubtree :: calls, walk => perform next calls walk.skipSubtree

section Perform

variable {next : Walk → Option (WalkEvent × Walk)} {walk after : Walk} {event : WalkEvent}
  {calls : List WalkCall}

theorem perform_next_none (ended : next walk = none) :
    perform next (.next :: calls) walk =
      (none :: (perform next calls walk).1, (perform next calls walk).2) := by
  rw [perform, ended]

theorem perform_next_some (shown : next walk = some (event, after)) :
    perform next (.next :: calls) walk =
      (some event :: (perform next calls after).1, (perform next calls after).2) := by
  rw [perform, shown]

theorem length_perform (next : Walk → Option (WalkEvent × Walk)) (calls : List WalkCall) (walk : Walk) :
    (perform next calls walk).1.length = calls.count .next := by
  induction calls generalizing walk with
  | nil => rfl
  | cons call calls ih =>
      cases call with
      | skipSubtree => exact ih walk.skipSubtree
      | next =>
          cases shown : next walk with
          | none => rw [perform_next_none shown, List.length_cons, ih, List.count_cons_self]
          | some pair => rw [perform_next_some shown, List.length_cons, ih, List.count_cons_self]

theorem perform_append (front back : List WalkCall) (walk : Walk) :
    perform next (front ++ back) walk =
      ((perform next front walk).1 ++ (perform next back (perform next front walk).2).1,
        (perform next back (perform next front walk).2).2) := by
  induction front generalizing walk with
  | nil => rfl
  | cons call front ih =>
      cases call with
      | skipSubtree => exact ih walk.skipSubtree
      | next =>
          cases shown : next walk with
          | none => rw [List.cons_append, perform_next_none shown, perform_next_none shown, ih]; rfl
          | some pair => rw [List.cons_append, perform_next_some shown, perform_next_some shown, ih]; rfl

end Perform

namespace Shows

variable {tree : SyntaxTree} {walk after last : Walk} {events more : List WalkEvent}

theorem perform_eq (shows : walk.Shows tree events last) :
    perform (·.next tree) (List.replicate events.length .next) walk = (events.map some, last) := by
  induction shows with
  | nil => rfl
  | cons shown _ ih =>
      rw [List.length_cons, List.replicate_succ, perform_next_some shown, ih]
      rfl

/-- Asked again and again, a walk that comes to its end shows its events and then nothing. -/
theorem perform_replicate (shows : walk.Shows tree events last) (ended : last.next tree = none)
    (count : Nat) :
    (perform (·.next tree) (List.replicate count .next) walk).1 =
      (events.map some ++ List.replicate count none).take count := by
  induction count generalizing walk events with
  | zero => rfl
  | succ count ih =>
      rw [List.replicate_succ]
      cases shows with
      | nil =>
          rw [perform_next_none ended, ih (.nil _)]
          simp [List.replicate_succ]
      | cons shown further =>
          rw [perform_next_some shown, ih further]
          simp only [List.map_cons, List.cons_append, List.take_succ_cons, List.take_append,
            List.take_replicate, List.length_map, List.cons.injEq, true_and]
          congr 2
          omega

end Shows

/-! ## Nested events -/

end Walk

/-- The events of a walk through elements: it meets the tokens, and it enters the nodes, goes through their
elements and leaves them. Unless it is whole it may leave out the rest of the elements anywhere. -/
inductive SyntaxTree.Tours (tree : SyntaxTree) (whole : Bool) : List Element → List WalkEvent → Prop
  | stop {elements : List Element} (ended : whole = true → elements = []) : Tours tree whole elements []
  | token {id : TokenId} {rest : List Element} {behind : List WalkEvent}
      (further : Tours tree whole rest behind) :
      Tours tree whole (.token id :: rest) (.token id :: behind)
  | node {id : NodeId} {rest : List Element} {inside behind : List WalkEvent}
      (within : Tours tree whole (tree.elements id) inside) (further : Tours tree whole rest behind) :
      Tours tree whole (.node id :: rest) (.enter id :: (inside ++ .leave id :: behind))

/-- The events of a walk from a node: it enters the node first and leaves it last. -/
def SyntaxTree.Visits (tree : SyntaxTree) (whole : Bool) (node : NodeId) (word : List WalkEvent) : Prop :=
  ∃ inside, tree.Tours whole (tree.elements node) inside ∧
    word = .enter node :: (inside ++ [.leave node])

namespace Walk

/-- What a walk may have still to show: a tour of the children left in the node entered last, the way out of
it, and what is left outside. -/
def OwesFrom (tree : SyntaxTree) (pending : Option NodeId) :
    List (NodeId × ElementCursor) → List WalkEvent → Prop
  | [], word =>
      match pending with
      | none => word = []
      | some node => tree.Visits false node word
  | (node, cursor) :: outer, word =>
      ∃ inside behind, tree.Tours false (cursor.rest tree) inside ∧ OwesFrom tree pending outer behind ∧
        word = inside ++ .leave node :: behind

def Owes (walk : Walk) (tree : SyntaxTree) (word : List WalkEvent) : Prop :=
  OwesFrom tree walk.pending walk.stack word

section Owes

variable {tree : SyntaxTree} {walk after : Walk} {event : WalkEvent} {word : List WalkEvent}

/-- A walk that shows an event owes it in front of what it owes then. -/
theorem Owes.next (shown : walk.next tree = some (event, after)) (owes : after.Owes tree word) :
    walk.Owes tree (event :: word) := by
  obtain ⟨stack, pending⟩ := walk
  match stack with
  | [] =>
      cases pending with
      | none => cases shown
      | some node =>
          cases shown
          obtain ⟨inside, behind, tour, rfl, rfl⟩ := owes
          rw [SyntaxTree.rest_elementCursor] at tour
          exact ⟨inside, tour, rfl⟩
  | (node, cursor) :: outer =>
      rcases next_cases node outer pending shown with
        ⟨child, rest, given, rfl, rfl⟩ | ⟨id, rest, given, rfl, rfl⟩ | ⟨-, rfl, rfl⟩
      · obtain ⟨inside, _, tour, ⟨further, behind, left, outside, rfl⟩, rfl⟩ := owes
        rw [SyntaxTree.rest_elementCursor] at tour
        refine ⟨.enter child :: (inside ++ .leave child :: further), behind, ?_, outside, by simp⟩
        rw [ElementCursor.rest_eq_cons given]
        exact .node tour left
      · obtain ⟨inside, behind, tour, outside, rfl⟩ := owes
        refine ⟨.token id :: inside, behind, ?_, outside, rfl⟩
        rw [ElementCursor.rest_eq_cons given]
        exact .token tour
      · exact ⟨[], word, .stop nofun, owes, rfl⟩

/-- What a walk owes after a skip it owed before: the tour of the node may stop anywhere. -/
theorem Owes.skipSubtree (owes : walk.skipSubtree.Owes tree word) : walk.Owes tree word := by
  obtain ⟨stack, pending⟩ := walk
  match stack with
  | [] => exact owes
  | (node, cursor) :: outer =>
      obtain ⟨inside, behind, tour, outside, rfl⟩ := owes
      rw [ElementCursor.rest_done] at tour
      cases tour with
      | stop => exact ⟨[], behind, .stop nofun, outside, rfl⟩

theorem exists_owes (tree : SyntaxTree) (walk : Walk) : ∃ word, walk.Owes tree word := by
  obtain ⟨stack, pending⟩ := walk
  induction stack with
  | nil =>
      cases pending with
      | none => exact ⟨[], rfl⟩
      | some node => exact ⟨_, [], .stop nofun, rfl⟩
  | cons frame outer ih =>
      obtain ⟨word, owes⟩ := ih
      exact ⟨_, [], word, .stop nofun, owes, rfl⟩

theorem Owes.eq_nil (ended : walk.next tree = none) (owes : walk.Owes tree word) : word = [] := by
  obtain ⟨stack, pending⟩ := walk
  match stack, pending with
  | [], none => exact owes
  | [], some node => cases ended
  | frame :: outer, pending => exact absurd ended (next_cons_ne_none outer pending tree frame)

/-- Whatever the calls are, they give the front of something that the walk owes, and then nothing. -/
theorem exists_owes_perform (tree : SyntaxTree) (calls : List WalkCall) (walk : Walk) :
    ∃ word silent, walk.Owes tree word ∧
      (perform (·.next tree) calls walk).1 <+: word.map some ++ List.replicate silent none := by
  induction calls generalizing walk with
  | nil =>
      obtain ⟨word, owes⟩ := exists_owes tree walk
      exact ⟨word, 0, owes, List.nil_prefix⟩
  | cons call calls ih =>
      cases call with
      | skipSubtree =>
          obtain ⟨word, silent, owes, front⟩ := ih walk.skipSubtree
          exact ⟨word, silent, owes.skipSubtree, front⟩
      | next =>
          cases shown : walk.next tree with
          | none =>
              obtain ⟨word, silent, owes, front⟩ := ih walk
              obtain rfl := owes.eq_nil shown
              refine ⟨[], silent + 1, owes, ?_⟩
              rw [perform_next_none shown]
              exact List.prefix_cons_inj none |>.mpr front
          | some pair =>
              obtain ⟨event, after⟩ := pair
              obtain ⟨word, silent, owes, front⟩ := ih after
              refine ⟨event :: word, silent, owes.next shown, ?_⟩
              rw [perform_next_some shown]
              exact List.prefix_cons_inj (some event) |>.mpr front

end Owes
end Walk

/-! ## What a tour leaves out -/

namespace SyntaxTree

variable {tree : SyntaxTree} {whole : Bool} {elements : List Element} {word all : List WalkEvent}

namespace Tours

theorem sublist (part : tree.Tours false elements word) (full : tree.Tours true elements all) :
    word.Sublist all := by
  induction part generalizing all with
  | stop => exact List.nil_sublist all
  | token _ ih =>
      cases full with
      | stop ended => cases ended rfl
      | token further => exact (ih further).cons_cons _
  | node _ _ insideIh behindIh =>
      cases full with
      | stop ended => cases ended rfl
      | node within further =>
          exact ((insideIh within).append ((behindIh further).cons_cons _)).cons_cons _

theorem append {more : List Element} {behind : List WalkEvent} (tour : tree.Tours true elements word)
    (further : tree.Tours true more behind) : tree.Tours true (elements ++ more) (word ++ behind) := by
  induction tour with
  | stop ended =>
      cases ended rfl
      exact further
  | token _ ih => exact .token ih
  | node within _ _ ih =>
      have both := Tours.node within ih
      simpa using both

/-- What is entered is left, and as many times. -/
theorem count_leave (tour : tree.Tours whole elements word) (node : NodeId) :
    word.count (.leave node) = word.count (.enter node) := by
  induction tour with
  | stop => rfl
  | token _ ih => simpa using ih
  | node _ _ insideIh behindIh =>
      simp [List.count_cons, insideIh, behindIh]
      omega

/-- A whole tour enters the nodes among its elements, -/
theorem enter_mem {node : NodeId} (tour : tree.Tours true elements word) (member : .node node ∈ elements) :
    .enter node ∈ word := by
  induction tour with
  | stop ended =>
      cases ended rfl
      cases member
  | token _ ih =>
      rcases List.mem_cons.mp member with same | further
      · cases same
      · exact List.mem_cons_of_mem _ (ih further)
  | node _ _ _ ih =>
      rcases List.mem_cons.mp member with same | further
      · cases same
        exact List.mem_cons_self
      · exact List.mem_cons_of_mem _ (List.mem_append_right _ (List.mem_cons_of_mem _ (ih further)))

/-- and those among the elements of a node that it enters, -/
theorem enter_child {node child : NodeId} (tour : tree.Tours true elements word) (entered : .enter node ∈ word)
    (member : .node child ∈ tree.elements node) : .enter child ∈ word := by
  induction tour with
  | stop => cases entered
  | token _ ih =>
      rcases List.mem_cons.mp entered with same | further
      · cases same
      · exact List.mem_cons_of_mem _ (ih further)
  | node within _ insideIh behindIh =>
      refine List.mem_cons_of_mem _ (List.mem_append.mpr ?_)
      rcases List.mem_cons.mp entered with same | further
      · cases same
        exact .inl (within.enter_mem member)
      · rcases List.mem_append.mp further with inside | behind
        · exact .inl (insideIh inside)
        · rcases List.mem_cons.mp behind with same | behind
          · cases same
          · exact .inr (List.mem_cons_of_mem _ (behindIh behind))

/-- and only nodes below the owner of its elements. -/
theorem of_enter_mem (below : NodeId → NodeId → Prop)
    (child : ∀ {node child}, .node child ∈ tree.elements node → below node child)
    (trans : ∀ {first middle last}, below first middle → below middle last → below first last)
    {owner node : NodeId} (tour : tree.Tours whole elements word)
    (owned : ∀ {child}, .node child ∈ elements → .node child ∈ tree.elements owner)
    (entered : .enter node ∈ word) : below owner node := by
  induction tour generalizing owner with
  | stop => cases entered
  | token _ ih =>
      rcases List.mem_cons.mp entered with same | further
      · cases same
      · exact ih (fun member => owned (List.mem_cons_of_mem _ member)) further
  | node _ _ insideIh behindIh =>
      have first := child (owned List.mem_cons_self)
      rcases List.mem_cons.mp entered with same | further
      · cases same
        exact first
      · rcases List.mem_append.mp further with inside | behind
        · exact trans first (insideIh id inside)
        · rcases List.mem_cons.mp behind with same | behind
          · cases same
          · exact behindIh (fun member => owned (List.mem_cons_of_mem _ member)) behind

theorem shows (tour : tree.Tours true elements word) {cursor : ElementCursor}
    (split : cursor.rest tree = elements) (node : NodeId) (outer : List (NodeId × ElementCursor))
    (pending : Option NodeId) :
    ∃ behind, behind.next tree = none ∧
      Walk.Shows tree ⟨(node, cursor) :: outer, pending⟩ word ⟨(node, behind) :: outer, pending⟩ := by
  induction tour generalizing cursor node outer with
  | stop ended =>
      cases ended rfl
      exact ⟨cursor, ElementCursor.next_eq_none split, .nil _⟩
  | token _ ih =>
      obtain ⟨rest, given, left⟩ := ElementCursor.exists_next split
      obtain ⟨behind, ended, further⟩ := ih left node outer
      exact ⟨behind, ended, .cons (Walk.next_token node outer pending given) further⟩
  | @node id _ _ _ _ _ insideIh behindIh =>
      obtain ⟨rest, given, left⟩ := ElementCursor.exists_next split
      obtain ⟨last, nothing, inside⟩ := insideIh (tree.rest_elementCursor id) id ((node, rest) :: outer)
      obtain ⟨behind, ended, further⟩ := behindIh left node outer
      exact ⟨behind, ended, .cons (Walk.next_node node outer pending given)
        (inside.append (.cons (Walk.next_leave id ((node, rest) :: outer) pending nothing) further))⟩

end Tours

theorem Stores.tours {parent : Option NodeId} {numbering : Numbering} {inList : Bool} {forest : Forest}
    (stores : tree.Stores parent numbering forest) (placed : forest.Placed inList) :
    tree.Tours true (forest.elementsFrom numbering) (forest.eventsFrom numbering) := by
  induction forest generalizing parent numbering inList with
  | empty => exact .stop fun _ => rfl
  | token before position kind ih =>
      obtain ⟨beforeStores, -⟩ :
          _ ∧ tree.Stores _ _ (Forest.empty.token position kind) := Stores.append stores
      rw [Forest.elementsFrom_token, Forest.eventsFrom]
      exact (ih beforeStores placed).append (.token (.stop fun _ => rfl))
  | hole before ih =>
      exact ih stores.hole placed.2
  | node before kind children ih childrenIh =>
      obtain ⟨beforeStores, nodeStores⟩ :
          _ ∧ tree.Stores _ _ (Forest.empty.node kind children) := Stores.append stores
      have within := childrenIh nodeStores.node placed.2
      rw [← nodeStores.elements_eq placed.2] at within
      rw [Forest.elementsFrom_node, Forest.eventsFrom]
      exact (ih beforeStores placed.1).append (.node within (.stop fun _ => rfl))
  | list before items ih itemsIh =>
      obtain ⟨beforeStores, listStores⟩ :
          _ ∧ tree.Stores _ _ (Forest.empty.list items) := Stores.append stores
      rw [Forest.elementsFrom_list, Forest.eventsFrom]
      exact (ih beforeStores placed.2.1).append (itemsIh listStores.list placed.2.2.1)

end SyntaxTree

/-! ## Inside of a node -/

namespace Walk

variable {tree : SyntaxTree} {node : NodeId} {walk after outer : Walk} {event : WalkEvent}

/-- A walk is inside of a node, from where it comes to another walk: what it entered since, and what it has
still to enter there, has greater numbers than the node. -/
def IsInside (walk : Walk) (tree : SyntaxTree) (node : NodeId) (outer : Walk) : Prop :=
  ∃ front cursor, walk = ⟨front ++ (node, cursor) :: outer.stack, outer.pending⟩ ∧
    (∀ frame ∈ front, node < frame.1 ∧ ∀ child, .node child ∈ frame.2.rest tree → node < child) ∧
    ∀ child, .node child ∈ cursor.rest tree → node < child

theorem exists_outer (shown : walk.next tree = some (.enter node, after)) :
    ∃ outer : Walk, after = ⟨(node, tree.elementCursor node) :: outer.stack, outer.pending⟩ := by
  obtain ⟨stack, pending⟩ := walk
  match stack, pending with
  | [], none => cases shown
  | [], some _ =>
      cases shown
      exact ⟨⟨[], none⟩, rfl⟩
  | (parent, cursor) :: outer, pending =>
      rcases next_cases parent outer pending shown with
        ⟨child, rest, -, same, rfl⟩ | ⟨_, _, -, same, -⟩ | ⟨-, same, -⟩ <;> cases same
      exact ⟨⟨(parent, rest) :: outer, pending⟩, rfl⟩

theorem IsInside.skipSubtree (inside : walk.IsInside tree node outer) :
    walk.skipSubtree.IsInside tree node outer := by
  obtain ⟨front, cursor, rfl, above, ahead⟩ := inside
  cases front with
  | nil => exact ⟨[], .done, rfl, above, nofun⟩
  | cons frame front =>
      refine ⟨(frame.1, .done) :: front, cursor, rfl, ?_, ahead⟩
      obtain ⟨first, others⟩ := List.forall_mem_cons.mp above
      exact List.forall_mem_cons.mpr ⟨⟨first.1, nofun⟩, others⟩

section Ascending

variable (ascends : ∀ {parent child}, .node child ∈ tree.elements parent → parent < child)
include ascends

/-- A step inside of a node leaves it or stays inside. -/
theorem IsInside.next (inside : walk.IsInside tree node outer)
    (shown : walk.next tree = some (event, after)) :
    event = .leave node ∧ after = outer ∨ event ≠ .leave node ∧ after.IsInside tree node outer := by
  obtain ⟨front, cursor, rfl, above, ahead⟩ := inside
  have entering : ∀ {child}, node < child →
      ∀ grandchild, .node grandchild ∈ (tree.elementCursor child).rest tree → node < grandchild := by
    intro child later grandchild member
    rw [SyntaxTree.rest_elementCursor] at member
    exact Nat.lt_trans later (ascends member)
  cases front with
  | nil =>
      rcases next_cases node outer.stack outer.pending shown with
        ⟨child, rest, given, rfl, rfl⟩ | ⟨id, rest, given, rfl, rfl⟩ | ⟨-, rfl, rfl⟩
      · rw [ElementCursor.rest_eq_cons given] at ahead
        have later := ahead child List.mem_cons_self
        exact .inr ⟨nofun, [(child, tree.elementCursor child)], rest, rfl,
          by simpa using ⟨later, entering later⟩, fun child member => ahead child (List.mem_cons_of_mem _ member)⟩
      · rw [ElementCursor.rest_eq_cons given] at ahead
        exact .inr ⟨nofun, [], rest, rfl, above, fun child member => ahead child (List.mem_cons_of_mem _ member)⟩
      · exact .inl ⟨rfl, rfl⟩
  | cons frame front =>
      obtain ⟨other, place⟩ := frame
      obtain ⟨⟨first, inner⟩, others⟩ := List.forall_mem_cons.mp above
      simp only at first inner
      rcases next_cases other (front ++ (node, cursor) :: outer.stack) outer.pending shown with
        ⟨child, rest, given, rfl, rfl⟩ | ⟨id, rest, given, rfl, rfl⟩ | ⟨-, rfl, rfl⟩
      · rw [ElementCursor.rest_eq_cons given] at inner
        have later := inner child List.mem_cons_self
        have left := fun child member => inner child (List.mem_cons_of_mem _ member)
        exact .inr ⟨nofun, (child, tree.elementCursor child) :: (other, rest) :: front, cursor, rfl,
          List.forall_mem_cons.mpr ⟨⟨later, entering later⟩, List.forall_mem_cons.mpr ⟨⟨first, left⟩, others⟩⟩,
          ahead⟩
      · rw [ElementCursor.rest_eq_cons given] at inner
        have left := fun child member => inner child (List.mem_cons_of_mem _ member)
        exact .inr ⟨nofun, (other, rest) :: front, cursor, rfl,
          List.forall_mem_cons.mpr ⟨⟨first, left⟩, others⟩, ahead⟩
      · refine .inr ⟨?_, front, cursor, rfl, others, ahead⟩
        rintro ⟨⟩
        exact absurd first (Nat.lt_irrefl _)

theorem IsInside.perform (inside : walk.IsInside tree node outer) (calls : List WalkCall)
    (stays : some (.leave node) ∉ (walk.perform (·.next tree) calls).1) :
    (walk.perform (·.next tree) calls).2.IsInside tree node outer := by
  induction calls generalizing walk with
  | nil => exact inside
  | cons call calls ih =>
      cases call with
      | skipSubtree => exact ih inside.skipSubtree stays
      | next =>
          cases shown : walk.next tree with
          | none =>
              rw [perform_next_none shown] at stays ⊢
              exact ih inside (mt (List.mem_cons_of_mem _) stays)
          | some pair =>
              obtain ⟨event, after⟩ := pair
              rw [perform_next_some shown] at stays ⊢
              rcases inside.next ascends shown with ⟨rfl, -⟩ | ⟨-, further⟩
              · exact absurd List.mem_cons_self stays
              · exact ih further (mt (List.mem_cons_of_mem _) stays)

end Ascending

/-! ## Walks over nodes alone -/

/-- Calls on a walk over all events do what calls on a walk over nodes alone do, if before each event it is
asked for some more. -/
inductive Spreads : List WalkCall → List WalkCall → Prop
  | nil : Spreads [] []
  | next {calls spread : List WalkCall} (tokens : Nat) (further : Spreads calls spread) :
      Spreads (.next :: calls) (List.replicate tokens .next ++ .next :: spread)
  | skipSubtree {calls spread : List WalkCall} (further : Spreads calls spread) :
      Spreads (.skipSubtree :: calls) (.skipSubtree :: spread)

/-- Behind a token the node entered last is still to be left. -/
theorem next_ne_none {id : TokenId} (met : walk.next tree = some (.token id, after)) :
    after.next tree ≠ none := by
  obtain ⟨stack, pending⟩ := walk
  match stack, pending with
  | [], none => cases met
  | [], some _ => cases met
  | (node, cursor) :: outer, pending =>
      rcases next_cases node outer pending met with
        ⟨_, _, -, same, -⟩ | ⟨_, rest, -, -, rfl⟩ | ⟨-, same, -⟩
      · cases same
      · exact next_cons_ne_none outer pending tree (node, rest)
      · cases same

/-- A walk over nodes alone goes past tokens to the next event that is none. -/
theorem exists_shows_nextNode (tree : SyntaxTree) (walk : Walk) :
    ∃ (tokens : List TokenId) (last : Walk), walk.Shows tree (tokens.map .token) last ∧
      walk.nextNode tree = last.next tree ∧ (last.next tree = none → tokens = [] ∧ last = walk) ∧
      ∀ event after, last.next tree = some (event, after) → event.isToken = false := by
  fun_induction nextNode walk tree with
  | case1 walk ended =>
      exact ⟨[], walk, .nil walk, ended.symm, fun _ => ⟨rfl, rfl⟩, fun _ _ shown => by simp [ended] at shown⟩
  | case2 walk id after met ih =>
      obtain ⟨tokens, last, shows, same, ends, noToken⟩ := ih
      refine ⟨id :: tokens, last, .cons met shows, same, fun ended => ?_, noToken⟩
      exact absurd ((ends ended).2 ▸ ended) (next_ne_none met)
  | case3 walk event after other met =>
      refine ⟨[], walk, .nil walk, met.symm, fun _ => ⟨rfl, rfl⟩, fun shown last found => ?_⟩
      rw [met] at found
      cases found
      cases event with
      | token id => exact absurd rfl (other id)
      | enter node | leave node => rfl

def withoutTokens (events : List WalkEvent) : List WalkEvent := events.filter (!WalkEvent.isToken ·)

def isNoToken (answer : Option WalkEvent) : Bool := !answer.any WalkEvent.isToken

theorem exists_spreads (tree : SyntaxTree) (calls : List WalkCall) (walk : Walk) :
    ∃ spread, Spreads calls spread ∧
      walk.perform (·.nextNode tree) calls = ((walk.perform (·.next tree) spread).1.filter isNoToken,
        (walk.perform (·.next tree) spread).2) := by
  induction calls generalizing walk with
  | nil => exact ⟨[], .nil, rfl⟩
  | cons call calls ih =>
      cases call with
      | skipSubtree =>
          obtain ⟨spread, spreads, same⟩ := ih walk.skipSubtree
          exact ⟨_, .skipSubtree spreads, same⟩
      | next =>
          obtain ⟨tokens, last, shows, same, ends, noToken⟩ := exists_shows_nextNode tree walk
          have passed : ((tokens.map WalkEvent.token).map some).filter isNoToken = [] := by
            simp [List.filter_eq_nil_iff, isNoToken, WalkEvent.isToken]
          have given := shows.perform_eq
          rw [List.length_map] at given
          cases shown : last.next tree with
          | none =>
              obtain ⟨spread, spreads, behind⟩ := ih walk
              refine ⟨_, .next tokens.length spreads, ?_⟩
              obtain ⟨rfl, rfl⟩ := ends shown
              rw [perform_next_none (same.trans shown), behind, List.length_nil, List.replicate_zero,
                List.nil_append, perform_next_none shown]
              rfl
          | some pair =>
              obtain ⟨event, after⟩ := pair
              obtain ⟨spread, spreads, behind⟩ := ih after
              refine ⟨_, .next tokens.length spreads, ?_⟩
              have kept : isNoToken (some event) = true := by simp [isNoToken, noToken _ _ shown]
              rw [perform_next_some (same.trans shown), behind, perform_append, given,
                perform_next_some shown, List.filter_append, passed, List.nil_append,
                List.filter_cons_of_pos kept]

theorem Spreads.eq_replicate {count : Nat} {spread : List WalkCall}
    (spreads : Spreads (List.replicate count .next) spread) :
    ∃ more, count ≤ more ∧ spread = List.replicate more .next := by
  induction count generalizing spread with
  | zero =>
      cases spreads
      exact ⟨0, Nat.le_refl _, rfl⟩
  | succ count ih =>
      cases spreads with
      | next tokens further =>
          obtain ⟨more, enough, rfl⟩ := ih further
          refine ⟨tokens + (more + 1), by omega, ?_⟩
          rw [← List.replicate_append_replicate, List.replicate_succ]

/-- Asked again and again, a walk over nodes alone shows the events without the tokens. -/
theorem Shows.perform_nextNode {tree : SyntaxTree} {walk last : Walk} {events : List WalkEvent}
    (shows : walk.Shows tree events last) (ended : last.next tree = none) (count : Nat) :
    (walk.perform (·.nextNode tree) (List.replicate count .next)).1 =
      ((withoutTokens events).map some ++ List.replicate count none).take count := by
  obtain ⟨spread, spreads, same⟩ := exists_spreads tree (List.replicate count .next) walk
  obtain ⟨more, enough, rfl⟩ := spreads.eq_replicate
  have length := length_perform (·.nextNode tree) (List.replicate count .next) walk
  rw [List.count_replicate_self] at length
  have kept : (events.map some).filter isNoToken = (withoutTokens events).map some :=
    List.filter_map
  have silent : (List.replicate more (none : Option WalkEvent)).filter isNoToken = List.replicate more none :=
    List.filter_replicate_of_pos rfl
  have front : (walk.perform (·.nextNode tree) (List.replicate count .next)).1 <+:
      (withoutTokens events).map some ++ List.replicate more none := by
    have given := congrArg Prod.fst same
    rw [shows.perform_replicate ended] at given
    rw [given, ← kept, ← silent, ← List.filter_append, silent]
    exact (List.take_prefix _ _).filter _
  have cut := List.prefix_iff_eq_take.mp front
  rw [length] at cut
  rw [cut, List.take_append, List.take_append, List.take_replicate, List.take_replicate]
  congr 2
  omega

end Walk

/-! ## Trees -/

theorem WalkEvent.entered?_eq_some_iff {event : WalkEvent} {node : NodeId} :
    event.entered? = some node ↔ event = .enter node := by
  cases event <;> simp [entered?]

namespace SyntaxTree

theorem mem_descendants {tree : SyntaxTree} {node other : NodeId} :
    other ∈ tree.descendants node ↔ .enter other ∈ tree.walk node := by
  simp [descendants, List.mem_filterMap, WalkEvent.entered?_eq_some_iff]

theorem count_enter (word : List WalkEvent) (node : NodeId) :
    word.count (.enter node) = (word.filterMap WalkEvent.entered?).count node := by
  rw [List.count_filterMap, List.count]
  congr 1
  funext event
  rw [Bool.eq_iff_iff, beq_iff_eq, beq_iff_eq, WalkEvent.entered?_eq_some_iff]

theorem Visits.tours {tree : SyntaxTree} {whole : Bool} {node : NodeId} {word : List WalkEvent}
    (visits : tree.Visits whole node word) : tree.Tours whole [.node node] word := by
  obtain ⟨inside, tour, rfl⟩ := visits
  exact .node tour (.stop fun _ => rfl)

namespace Represents

variable {tree : SyntaxTree} {kind : Kind} {children : Forest} (represents : tree.Represents kind children)
include represents

theorem mem_elements_iff {node child : NodeId} (inside : node < tree.nodes.size) :
    .node child ∈ tree.elements node ↔ .node child ∈ tree.owned node := by
  obtain ⟨above, here, inner, held, rfl, stores, placed, -⟩ := represents.exists_node inside
  rw [stores.elements_eq_flatMap placed, ← tree.filterMap_owned, List.mem_filterMap]
  constructor
  · rintro ⟨other, member, same⟩
    cases other <;> cases same
    exact member
  · intro member
    exact ⟨_, member, rfl⟩

omit represents in
theorem elements_outside {node : NodeId} (outside : ¬node < tree.nodes.size) : tree.elements node = [] := by
  have missing : tree.entry node = default := by simp [entry, Array.getD, outside]
  have nothing : tree.children node = [] := by
    rw [SyntaxTree.children, missing]
    simp [default, instInhabitedNodeEntry.default]
  rw [elements_eq_flatMap_childElements, nothing, List.flatMap_nil]

/-- The elements of a node name it as the parent and have greater numbers. -/
theorem of_mem_elements {node child : NodeId} (member : .node child ∈ tree.elements node) :
    node < child ∧ child < tree.nodes.size ∧ tree.parent? child = some node := by
  have inside : node < tree.nodes.size := by
    by_cases inside : node < tree.nodes.size
    · exact inside
    · rw [elements_outside inside] at member
      cases member
  have owned := (represents.mem_elements_iff inside).mp member
  refine ⟨represents.parent_lt inside owned, ?_, represents.childParent?_of_mem inside owned⟩
  obtain ⟨above, here, inner, held, rfl, stores, placed, -⟩ := represents.exists_node inside
  rw [stores.owned_eq placed] at owned
  exact (stores.has_of_mem (represents.tokenCount ▸ represents.endToken) owned).2

theorem mem_ancestors_iff {node ancestor : NodeId} (inside : node < tree.nodes.size) :
    ancestor ∈ tree.ancestors node ↔
      ancestor = node ∨ ∃ parent, tree.parent? node = some parent ∧ ancestor ∈ tree.ancestors parent := by
  cases below : tree.parent? node with
  | some parent => simp [represents.ancestors_of_parent? inside below]
  | none =>
      obtain ⟨size, counted⟩ := Nat.exists_eq_succ_of_ne_zero (Nat.ne_of_gt (Nat.zero_lt_of_lt inside))
      have alone : tree.ancestors node = [node] := by rw [ancestors, counted, ancestorsWithin, below]
      simp [alone]

theorem mem_ancestors_trans {first middle last : NodeId} (inside : last < tree.nodes.size)
    (lower : middle ∈ tree.ancestors last) (upper : first ∈ tree.ancestors middle) :
    first ∈ tree.ancestors last := by
  induction last using Nat.strongRecOn with
  | ind last ih =>
      rcases (represents.mem_ancestors_iff inside).mp lower with rfl | ⟨parent, below, further⟩
      · exact upper
      · obtain ⟨parentInside, owned⟩ := represents.of_parent? inside below
        have smaller := represents.parent_lt parentInside owned
        exact (represents.mem_ancestors_iff inside).mpr
          (.inr ⟨parent, below, ih parent smaller parentInside further⟩)

theorem visits_walk {node : NodeId} (inside : node < tree.nodes.size) :
    tree.Visits true node (tree.walk node) := by
  obtain ⟨above, here, inner, held, rfl, stores, placed, -⟩ := represents.exists_node inside
  refine ⟨held.eventsFrom here.nextNode, ?_, stores.walk_eq placed⟩
  rw [stores.elements_eq placed]
  exact stores.node.tours placed

theorem pairwise_descendants {node : NodeId} (inside : node < tree.nodes.size) :
    (tree.descendants node).Pairwise (· < ·) := by
  obtain ⟨above, here, inner, held, rfl, stores, placed, -⟩ := represents.exists_node inside
  rw [stores.descendants_eq placed]
  exact List.pairwise_lt_range' ..

/-- A walk from a node enters the nodes that have it as an ancestor. -/
theorem mem_descendants_iff {node other : NodeId} (inside : node < tree.nodes.size) :
    other ∈ tree.descendants node ↔ other < tree.nodes.size ∧ node ∈ tree.ancestors other := by
  have visits := represents.visits_walk inside
  have itself : ∀ {node}, node < tree.nodes.size → node ∈ tree.ancestors node := fun inside =>
    (represents.mem_ancestors_iff inside).mpr (.inl rfl)
  rw [mem_descendants]
  constructor
  · intro entered
    obtain ⟨events, tour, walk⟩ := visits
    rw [walk] at entered
    rcases List.mem_cons.mp entered with same | further
    · cases same
      exact ⟨inside, itself inside⟩
    · rcases List.mem_append.mp further with within | last
      · refine tour.of_enter_mem (fun first last => last < tree.nodes.size ∧ first ∈ tree.ancestors last)
          ?_ ?_ id within
        · intro parent child member
          obtain ⟨smaller, childInside, below⟩ := represents.of_mem_elements member
          exact ⟨childInside, (represents.mem_ancestors_iff childInside).mpr
            (.inr ⟨parent, below, itself (Nat.lt_trans smaller childInside)⟩)⟩
        · rintro first middle last ⟨-, upper⟩ ⟨lastInside, lower⟩
          exact ⟨lastInside, represents.mem_ancestors_trans lastInside lower upper⟩
      · cases List.mem_singleton.mp last
  · rintro ⟨otherInside, ancestor⟩
    -- On the way up every node is entered since its parent is.
    induction other using Nat.strongRecOn with
    | ind other ih =>
        rcases (represents.mem_ancestors_iff otherInside).mp ancestor with rfl | ⟨parent, below, further⟩
        · exact visits.tours.enter_mem (List.mem_singleton.mpr rfl)
        · obtain ⟨parentInside, owned⟩ := represents.of_parent? otherInside below
          have entered := ih parent (represents.parent_lt parentInside owned) parentInside further
          exact visits.tours.enter_child entered ((represents.mem_elements_iff parentInside).mpr owned)

end Represents

/-! ## Any use of a walk -/

/-- Walks from a node are nested, whatever they are asked for. -/
structure WalksNested (tree : SyntaxTree) (node : NodeId) : Prop where
  /-- The answers are the front of a nested word from entering the node to leaving it, and then nothing. -/
  nested : ∀ calls, ∃ word silent, tree.Visits false node word ∧
    ((Walk.start node).perform (·.next tree) calls).1 <+: word.map some ++ List.replicate silent none
  /-- A node that is entered in such a word is entered once and left once. -/
  once : ∀ word, tree.Visits false node word → ∀ entered, .enter entered ∈ word →
    word.count (.enter entered) = 1 ∧ word.count (.leave entered) = 1
  /-- A skip behind the entry of a node leads to the leave of the node, as a whole tour of the node does;
  and however the walk comes to leave the node, it stands behind it as after the skip. -/
  skips : ∀ calls entered here,
    ((Walk.start node).perform (·.next tree) calls).2.next tree = some (.enter entered, here) →
    ∃ inside within outer, tree.Tours true (tree.elements entered) inside ∧
      here.Shows tree inside within ∧ within.next tree = some (.leave entered, outer) ∧
      here.skipSubtree.next tree = some (.leave entered, outer) ∧
      ∀ between last, some (.leave entered) ∉ (here.perform (·.next tree) between).1 →
        (here.perform (·.next tree) between).2.next tree = some (.leave entered, last) → last = outer
  /-- Without skips the answers are the walk and then nothing. -/
  whole : tree.Visits true node (tree.walk node) ∧
    ∀ count, ((Walk.start node).perform (·.next tree) (List.replicate count .next)).1 =
      ((tree.walk node).map some ++ List.replicate count none).take count
  /-- The walk enters every node of the subtree once, in the order of their numbers. -/
  entered : (tree.descendants node).Pairwise (· < ·) ∧
    ∀ other, other ∈ tree.descendants node ↔ other < tree.nodes.size ∧ node ∈ tree.ancestors other
  tokens : (tree.descendantElements node).filterMap Element.toToken? = tree.tokens node
  /-- A walk over nodes alone stands where a walk over all events does, and shows its events without the
  tokens. -/
  nodes : ∀ calls, ∃ spread, Walk.Spreads calls spread ∧
    (Walk.start node).perform (·.nextNode tree) calls =
      (((Walk.start node).perform (·.next tree) spread).1.filter Walk.isNoToken,
        ((Walk.start node).perform (·.next tree) spread).2)
  nodesWhole : ∀ count, ((Walk.start node).perform (·.nextNode tree) (List.replicate count .next)).1 =
    ((Walk.withoutTokens (tree.walk node)).map some ++ List.replicate count none).take count

namespace Represents

variable {tree : SyntaxTree} {kind : Kind} {children : Forest} (represents : tree.Represents kind children)
include represents

theorem exists_tour (node : NodeId) : ∃ inside, tree.Tours true (tree.elements node) inside := by
  by_cases inside : node < tree.nodes.size
  · obtain ⟨events, tour, -⟩ := represents.visits_walk inside
    exact ⟨events, tour⟩
  · exact ⟨[], .stop fun _ => elements_outside inside⟩

theorem walk_once {node : NodeId} (inside : node < tree.nodes.size) {word : List WalkEvent}
    (visits : tree.Visits false node word) {entered : NodeId} (member : .enter entered ∈ word) :
    word.count (.enter entered) = 1 ∧ word.count (.leave entered) = 1 := by
  have part := visits.tours.sublist (represents.visits_walk inside).tours
  have once : (word.filterMap WalkEvent.entered?).count entered ≤ 1 :=
    List.nodup_iff_count_le_one.mp
      ((represents.pairwise_descendants inside).imp Nat.ne_of_lt |>.sublist (part.filterMap _)) entered
  have some : 0 < word.count (.enter entered) := List.count_pos_iff.mpr member
  rw [← count_enter] at once
  rw [visits.tours.count_leave]
  omega

theorem walksNested {node : NodeId} (inside : node < tree.nodes.size) : tree.WalksNested node := by
  obtain ⟨events, tour, walk⟩ := represents.visits_walk inside
  have shows : (Walk.start node).Shows tree (tree.walk node) ⟨[], none⟩ := by
    obtain ⟨_, ended, inner⟩ := tour.shows (tree.rest_elementCursor node) node [] none
    rw [walk]
    exact .cons rfl (inner.append (.cons (Walk.next_leave node [] none ended) (.nil _)))
  exact
    { nested := fun calls => Walk.exists_owes_perform tree calls (Walk.start node)
      once := fun _ visits _ => represents.walk_once inside visits
      skips := by
        intro calls entered here shown
        obtain ⟨outer, rfl⟩ := Walk.exists_outer shown
        obtain ⟨inner, whole⟩ := represents.exists_tour entered
        obtain ⟨_, ended, shows⟩ := whole.shows (tree.rest_elementCursor entered) entered outer.stack
          outer.pending
        refine ⟨inner, _, outer, whole, shows, Walk.next_leave entered outer.stack outer.pending ended,
          Walk.next_leave entered outer.stack outer.pending rfl, ?_⟩
        intro between last stays leaves
        have within : Walk.IsInside _ tree entered outer := ⟨[], _, rfl, nofun, fun child member =>
          (represents.of_mem_elements (tree.rest_elementCursor entered ▸ member)).1⟩
        have ascends : ∀ {parent child}, .node child ∈ tree.elements parent → parent < child :=
          fun member => (represents.of_mem_elements member).1
        rcases (within.perform ascends between stays).next ascends leaves with ⟨-, same⟩ | ⟨other, -⟩
        · exact same
        · exact absurd rfl other
      whole := ⟨represents.visits_walk inside, shows.perform_replicate rfl⟩
      entered := ⟨represents.pairwise_descendants inside, fun _ => represents.mem_descendants_iff inside⟩
      tokens := by
        obtain ⟨above, here, inner, held, rfl, stores, placed, -⟩ := represents.exists_node inside
        exact (stores.tokens_eq_filterMap placed).symm
      nodes := fun calls => Walk.exists_spreads tree calls (Walk.start node)
      nodesWhole := shows.perform_nextNode rfl }

end Represents

/-- In every tree that a builder finishes the walks from every node are nested. -/
theorem walksNested_of_ofSteps {stream : TokenStream} {start : TokenId} {steps : List BuildStep}
    {tree : SyntaxTree} (built : ofSteps stream start steps = .ok tree) {node : NodeId}
    (inside : node < tree.nodes.size) : tree.WalksNested node := by
  obtain ⟨kind, children, rfl, rfl, builds⟩ := exists_forest built
  exact builds.represents.walksNested inside

/-- An array with a hole: a skip behind its first element leads out of the array, past the separators. -/
theorem walksNested_array_with_hole :
    let tokens : Array Token := #[⟨.empty, .leftBracket, ⟨0, 1⟩, .empty⟩, ⟨.empty, .ident, ⟨1, 2⟩, .empty⟩,
      ⟨.empty, .comma, ⟨2, 3⟩, .empty⟩, ⟨.empty, .comma, ⟨3, 4⟩, .empty⟩,
      ⟨.empty, .rightBracket, ⟨4, 5⟩, .empty⟩, ⟨.empty, .eof, ⟨5, 5⟩, .empty⟩]
    let steps : List BuildStep := [.startNode .arrayLiteral, .token 0, .startList,
      .startNode .identifierReference, .token 1, .finishNode, .token 2, .elision, .token 3, .finishList,
      .token 4, .finishNode]
    ∃ tree, ofSteps ⟨['[', 'a', ',', ',', ']'], tokens⟩ 0 steps = .ok tree ∧ root < tree.nodes.size ∧
      tree.WalksNested root ∧
      ((Walk.start root).perform (·.next tree) (List.replicate 5 .next ++ [.skipSubtree, .next, .next])).1 =
        [some (.enter 0), some (.token 0), some (.enter 1), some (.token 1), some (.leave 1), some (.leave 0),
          none] := by
  intro tokens steps
  have built : ofSteps ⟨['[', 'a', ',', ',', ']'], tokens⟩ 0 steps = .ok _ := rfl
  exact ⟨_, built, by decide, walksNested_of_ofSteps built (by decide), by decide +kernel⟩

end SyntaxTree
end ScriptTree
