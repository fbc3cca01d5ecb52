import ScriptTree.Parse.State
import ScriptTree.Proofs.Forest

/-! # Traces

A trace is what a log says about the innermost open node or list: the forest, and which of its nodes
were put around one that was complete before. Its events stand in the log one behind the other, and its
links are those of the log. To come back to an earlier trace is to cut the log and the links. -/
set_option autoImplicit false
namespace ScriptTree

/-! ## Cutting a log -/

/-- Gives the start of a node another link. -/
def Event.relink (link : Option Nat) : Event → Event
  | .start kind _ => .start kind link
  | other => other

namespace ParseState

theorem unlink_eq (log : Array Event) (index : Nat) :
    unlink log index = log.modify index (Event.relink none) := by
  unfold unlink
  congr 1

theorem unlinkBeyond_of_lt {events : Nat} {links : List (Nat × Nat)} (log : Array Event)
    (kept : ∀ link ∈ links, link.2 < events) : unlinkBeyond events links log = (links, log) := by
  cases links with
  | nil => rfl
  | cons link rest =>
      have outerLt := kept link (by simp)
      obtain ⟨inner, outer⟩ := link
      rw [unlinkBeyond, if_pos outerLt]

theorem unlinkBeyond_append {events : Nat} {gone rest : List (Nat × Nat)} {log : Array Event}
    (short : log.size ≤ events) (beyond : ∀ link ∈ gone, events ≤ link.1 ∧ events ≤ link.2) :
    unlinkBeyond events (gone ++ rest) log = unlinkBeyond events rest log := by
  induction gone with
  | nil => rfl
  | cons link others ih =>
      obtain ⟨innerBeyond, outerBeyond⟩ := beyond link (by simp)
      obtain ⟨inner, outer⟩ := link
      have unchanged : unlink log inner = log := by
        rw [unlink_eq]
        apply Array.toList_inj.mp
        rw [Array.toList_modify]
        exact List.modify_eq_self (Nat.le_trans short innerBeyond)
      rw [List.cons_append, unlinkBeyond, if_neg (Nat.not_lt.mpr outerBeyond), unchanged]
      exact ih fun link member => beyond link (by simp [member])

end ParseState

/-! ## Traces -/

inductive Trace where
  | empty
  | token (before : Trace) (position : Nat) (kind : Kind)
  | hole (before : Trace)
  | list (before items : Trace)
  | node (before : Trace) (kind : Kind) (children : Trace)
  /-- A node around the last one, and what came behind it. -/
  | wrap (before : Trace) (kind : Kind) (children : Trace)

namespace Trace

def forest : Trace → Forest
  | empty => .empty
  | token before position kind => before.forest.token position kind
  | hole before => before.forest.hole
  | list before items => before.forest.list items.forest
  | node before kind children => before.forest.node kind children.forest
  | wrap before kind children => before.forest.wrapLast kind children.forest

def size : Trace → Nat
  | empty => 0
  | token before _ _ => before.size + 1
  | hole before => before.size + 1
  | list before items => before.size + items.size + 2
  | node before _ children => before.size + children.size + 2
  | wrap before _ children => before.size + children.size + 2

def lastSize : Trace → Nat
  | node _ _ children => children.size + 2
  | wrap _ _ children => children.size + 2
  | _ => 0

def endsInNode : Trace → Bool
  | node _ _ _ | wrap _ _ _ => true
  | _ => false

/-- The events, if the last node has the given link. A node that was put around another one is linked
from where that one starts. -/
def events : Trace → Option Nat → List Event
  | empty, _ => []
  | token before position _, _ => before.events none ++ [.token position]
  | hole before, _ => before.events none ++ [.hole]
  | list before items, _ => before.events none ++ .startList :: (items.events none ++ [.finishList])
  | node before kind children, link =>
      before.events none ++ .start kind link :: (children.events none ++ [.finish])
  | wrap before kind children, link =>
      before.events (some before.lastSize) ++ .start kind link :: (children.events none ++ [.finish])

def links (offset : Nat) : Trace → List (Nat × Nat)
  | empty => []
  | token before _ _ => before.links offset
  | hole before => before.links offset
  | list before items => items.links (offset + before.size + 1) ++ before.links offset
  | node before _ children => children.links (offset + before.size + 1) ++ before.links offset
  | wrap before _ children =>
      children.links (offset + before.size + 1) ++
        (offset + (before.size - before.lastSize), offset + before.size) :: before.links offset

/-- The nodes have node kinds, and a node is put around a node alone. -/
def Sound : Trace → Prop
  | empty => True
  | token before _ _ => before.Sound
  | hole before => before.Sound
  | list before items => before.Sound ∧ items.Sound
  | node before kind children => before.Sound ∧ kind.isNode = true ∧ children.Sound
  | wrap before kind children =>
      before.Sound ∧ before.endsInNode = true ∧ kind.isNode = true ∧ children.Sound

theorem length_events (trace : Trace) (link : Option Nat) :
    (trace.events link).length = trace.size := by
  induction trace generalizing link with
  | empty => rfl
  | token before position kind ih => simp [events, size, ih]
  | hole before ih => simp [events, size, ih]
  | list before items ih itemsIh => simp [events, size, ih, itemsIh]; omega
  | node before kind children ih childrenIh => simp [events, size, ih, childrenIh]; omega
  | wrap before kind children ih childrenIh => simp [events, size, ih, childrenIh]; omega

theorem lastSize_le (trace : Trace) : trace.lastSize ≤ trace.size := by
  cases trace <;> simp only [lastSize, size] <;> omega

theorem modify_length_append {α : Type} (first : List α) (value : α) (rest : List α) (f : α → α) :
    (first ++ value :: rest).modify first.length f = first ++ f value :: rest := by
  induction first with
  | nil => rfl
  | cons head others ih => simp [ih]

/-- The last node starts at the index that the links say. -/
theorem modify_events {trace : Trace} (ends : trace.endsInNode = true) (first : List Event)
    (old new : Option Nat) :
    (first ++ trace.events old).modify (first.length + (trace.size - trace.lastSize))
        (Event.relink new) = first ++ trace.events new := by
  have atStart : ∀ (left right : List Event) (kind : Kind),
      (first ++ (left ++ Event.start kind old :: right)).modify (first.length + left.length)
          (Event.relink new) = first ++ (left ++ Event.start kind new :: right) := by
    intro left right kind
    rw [← List.append_assoc, ← List.append_assoc, ← List.length_append, modify_length_append]
    rfl
  cases trace with
  | node before kind children =>
      have index : (node before kind children).size - (node before kind children).lastSize =
          (before.events none).length := by
        rw [length_events]
        simp only [size, lastSize]
        omega
      rw [index]
      exact atStart _ _ kind
  | wrap before kind children =>
      have index : (wrap before kind children).size - (wrap before kind children).lastSize =
          (before.events (some before.lastSize)).length := by
        rw [length_events]
        simp only [size, lastSize]
        omega
      rw [index]
      exact atStart _ _ kind
  | empty => simp [endsInNode] at ends
  | token before position kind => simp [endsInNode] at ends
  | hole before => simp [endsInNode] at ends
  | list before items => simp [endsInNode] at ends

theorem links_bounds (trace : Trace) (offset : Nat) :
    ∀ link ∈ trace.links offset,
      offset ≤ link.1 ∧ link.1 ≤ link.2 ∧ link.2 < offset + trace.size := by
  induction trace generalizing offset with
  | empty => simp [links]
  | token before position kind ih =>
      intro link member
      have bounds := ih offset link member
      simp only [size]
      omega
  | hole before ih =>
      intro link member
      have bounds := ih offset link member
      simp only [size]
      omega
  | list before items ih itemsIh =>
      intro link member
      simp only [size]
      rcases List.mem_append.mp member with inside | earlier
      · have bounds := itemsIh _ link inside
        omega
      · have bounds := ih offset link earlier
        omega
  | node before kind children ih childrenIh =>
      intro link member
      simp only [size]
      rcases List.mem_append.mp member with inside | earlier
      · have bounds := childrenIh _ link inside
        omega
      · have bounds := ih offset link earlier
        omega
  | wrap before kind children ih childrenIh =>
      intro link member
      simp only [size]
      rcases List.mem_append.mp member with inside | earlier
      · have bounds := childrenIh _ link inside
        omega
      · rcases List.mem_cons.mp earlier with rfl | earlier
        · simp only
          omega
        · have bounds := ih offset link earlier
          omega

/-! ## Growing -/

/-- The trace goes on from a base: the base with more at its end, its last node perhaps taken over. -/
inductive Extends (base : Trace) : Trace → Prop
  | refl : Extends base base
  | token {before : Trace} (extended : Extends base before) (position : Nat) (kind : Kind) :
      Extends base (before.token position kind)
  | hole {before : Trace} (extended : Extends base before) : Extends base before.hole
  | list {before : Trace} (extended : Extends base before) (items : Trace) :
      Extends base (before.list items)
  | node {before : Trace} (extended : Extends base before) (kind : Kind) (children : Trace) :
      Extends base (before.node kind children)
  | wrap {before : Trace} (extended : Extends base before) (kind : Kind) (children : Trace) :
      Extends base (before.wrap kind children)

theorem Extends.trans {first second third : Trace} (earlier : Extends first second)
    (later : Extends second third) : Extends first third := by
  induction later with
  | refl => exact earlier
  | token _ position kind ih => exact ih.token position kind
  | hole _ ih => exact ih.hole
  | list _ items ih => exact ih.list items
  | node _ kind children ih => exact ih.node kind children
  | wrap _ kind children ih => exact ih.wrap kind children

theorem Extends.size_le {base trace : Trace} (extended : Extends base trace) :
    base.size ≤ trace.size := by
  induction extended with
  | refl => exact Nat.le_refl _
  | token _ _ _ ih | hole _ ih | list _ _ ih | node _ _ _ ih | wrap _ _ _ ih =>
      simp only [size]
      omega

/-- Cutting the log of a trace back to where its base ended gives the log of the base. -/
theorem unlinkBeyond_events {base trace : Trace} (extended : Extends base trace)
    (sound : trace.Sound) (first : List Event) (outside : List (Nat × Nat))
    (earlier : ∀ link ∈ outside, link.2 < first.length) :
    ParseState.unlinkBeyond (first.length + base.size) (trace.links first.length ++ outside)
        ((first ++ trace.events none).take (first.length + base.size)).toArray =
      (base.links first.length ++ outside, (first ++ base.events none).toArray) := by
  have shortened : ∀ {before : Trace} (link : Option Nat) (more : List Event),
      base.size ≤ before.size →
      (first ++ (before.events link ++ more)).take (first.length + base.size) =
        (first ++ before.events link).take (first.length + base.size) := by
    intro before link more fits
    rw [← List.append_assoc, List.take_append_of_le_length]
    rw [List.length_append, length_events]
    omega
  have dropped : ∀ {children : Trace} {rest : List (Nat × Nat)} {offset : Nat} {log : List Event},
      base.size ≤ offset →
      ParseState.unlinkBeyond (first.length + base.size)
          (children.links (first.length + offset + 1) ++ rest)
          (log.take (first.length + base.size)).toArray =
        ParseState.unlinkBeyond (first.length + base.size) rest
          (log.take (first.length + base.size)).toArray := by
    intro children rest offset log fits
    apply ParseState.unlinkBeyond_append
    · rw [List.size_toArray, List.length_take]
      omega
    · intro link member
      have bounds := children.links_bounds _ link member
      omega
  induction extended with
  | refl =>
      rw [List.take_of_length_le (by simp [length_events])]
      apply ParseState.unlinkBeyond_of_lt
      intro link member
      rcases List.mem_append.mp member with inside | before
      · exact (base.links_bounds _ link inside).2.2
      · exact Nat.lt_of_lt_of_le (earlier link before) (by omega)
  | token before position kind ih =>
      rw [events, shortened _ _ before.size_le, links]
      exact ih sound
  | hole before ih =>
      rw [events, shortened _ _ before.size_le, links]
      exact ih sound
  | list before items ih =>
      rw [events, shortened _ _ before.size_le, links, List.append_assoc, dropped before.size_le]
      exact ih sound.1
  | node before kind children ih =>
      rw [events, shortened _ _ before.size_le, links, List.append_assoc, dropped before.size_le]
      exact ih sound.1
  | @wrap middle before kind children ih =>
      have fits := before.size_le
      rw [events, shortened _ _ fits, links, List.append_assoc, dropped fits, List.cons_append,
        ParseState.unlinkBeyond, if_neg (by omega), ParseState.unlink_eq, List.modify_toArray,
        ← List.take_modify, modify_events sound.2.1]
      exact ih sound.1

end Trace
end ScriptTree
