import ScriptTree.Proofs.Matching

/-! # The tree is the derivation

The log of a match records nodes in the order in which they were opened, and a node around a complete
one only by a link. The tree that is read from it is what the nested parse builds from values: a node
holds what its body took, and a node around another one holds that one first. A loop that puts one node
around the other leaves them nested in the order of the text, the first one innermost. -/
set_option autoImplicit false
set_option maxRecDepth 4000
namespace ScriptTree

/-! ## Nodes around nodes -/

/-- Nodes put one around the other, from the innermost on. Each holds the one before it, and then what
it took itself. -/
def Forest.nestAround (inner : Kind × Forest) (around : List (Kind × Forest)) : Kind × Forest :=
  around.foldl (fun node next => (next.1, .node .empty node.1 node.2 ++ next.2)) inner

theorem Forest.nestAround_append (inner : Kind × Forest) (earlier later : List (Kind × Forest)) :
    nestAround inner (earlier ++ later) = nestAround (nestAround inner earlier) later :=
  List.foldl_append

namespace Place

/-- The last node was taken over by nodes around it; what these took are the tokens between the two
places, in the order in which the nodes were put around. -/
def Chains (terminals : Terminals) (before after : Place) : Prop :=
  before.position ≤ after.position ∧
    ∀ outside kind children, before.forest = .node outside kind children →
      ∃ around : List (Kind × Forest),
        after.forest = .node outside (Forest.nestAround (kind, children) around).1
          (Forest.nestAround (kind, children) around).2 ∧
        around.flatMap (·.2.leaves) = terminals.leaves before.position after.position

namespace Chains

variable {terminals : Terminals} {before middle after : Place}

theorem refl (place : Place) : place.Chains terminals place := by
  refine ⟨Nat.le_refl _, fun outside kind children forest => ⟨[], forest, ?_⟩⟩
  rw [Terminals.leaves_self, List.flatMap_nil]

theorem trans (earlier : before.Chains terminals middle) (later : middle.Chains terminals after) :
    before.Chains terminals after := by
  refine ⟨Nat.le_trans earlier.1 later.1, fun outside kind children forest => ?_⟩
  obtain ⟨inner, innerForest, innerLeaves⟩ := earlier.2 outside kind children forest
  obtain ⟨outer, outerForest, outerLeaves⟩ := later.2 _ _ _ innerForest
  refine ⟨inner ++ outer, ?_, ?_⟩
  · rw [Forest.nestAround_append]
    exact outerForest
  · rw [List.flatMap_append, innerLeaves, outerLeaves, terminals.leaves_append earlier.1 later.1]

theorem wrapNode {inner : Place} {kind : Kind} (first : Nat)
    (reads : before.inside.Reads terminals inner) :
    before.Chains terminals (before.wrapNode kind first inner) := by
  refine ⟨reads.1, fun outside wrapped children forest => ⟨[(kind, inner.forest)], ?_, ?_⟩⟩
  · rw [Place.wrapNode, forest]
    rfl
  · have leaves := reads.2
    rw [show before.inside.forest.leaves = [] from rfl, List.nil_append] at leaves
    rw [List.flatMap_cons, List.flatMap_nil, List.append_nil, leaves]
    rfl

end Chains
end Place

/-! ## Loops that put nodes around nodes -/

end ScriptTree
