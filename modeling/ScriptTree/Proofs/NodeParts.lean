import ScriptTree.Proofs.Coverage
import ScriptTree.Proofs.Lookahead

/-! # Sketches of nodes

A sketch tells part by part what a node holds, and what is known of the tokens behind it. A production is
gone through by its form with every sketch that it can reach, and a node may close where its sketch passes
a check. So what every sketch of the grammar passes is told of every node of every match. -/
set_option autoImplicit false
namespace ScriptTree

/-! ## Facts -/

/-- What is known of a token ahead. -/
inductive Fact where
  /-- The token at an offset is, or is not, of one of the kinds. -/
  | kind (offset : Nat) (kinds : List Kind) (among : Bool)
  /-- A line terminator precedes the token at an offset, or none does. -/
  | lineBreak (offset : Nat) (there : Bool)
  | either (first second : Fact)
  deriving DecidableEq, Repr

namespace Fact

def Holds (terminals : Terminals) (position : Nat) : Fact → Prop
  | kind offset kinds among => kinds.contains (terminals.kindAt (position + offset)) = among
  | lineBreak offset there => terminals.lineBreakAt (position + offset) = there
  | either first second => first.Holds terminals position ∨ second.Holds terminals position

/-- What a fact tells of the tokens behind the next one. -/
def next : Fact → Option Fact
  | kind 0 _ _ | lineBreak 0 _ => none
  | kind (offset + 1) kinds among => some (kind offset kinds among)
  | lineBreak (offset + 1) there => some (lineBreak offset there)
  | either first second =>
      match first.next, second.next with
      | some first, some second => some (either first second)
      | _, _ => none

theorem Holds.next {terminals : Terminals} {position : Nat} {fact later : Fact}
    (holds : fact.Holds terminals position) (shifted : fact.next = some later) :
    later.Holds terminals (position + 1) := by
  induction fact generalizing later with
  | kind offset kinds among =>
      cases offset <;> cases shifted
      rw [Holds, Nat.add_right_comm]
      exact holds
  | lineBreak offset there =>
      cases offset <;> cases shifted
      rw [Holds, Nat.add_right_comm]
      exact holds
  | either first second firstIh secondIh =>
      rw [Fact.next] at shifted
      split at shifted
      · rename_i firstNext secondNext
        cases shifted
        exact holds.imp (firstIh · firstNext) (secondIh · secondNext)
      · cases shifted

end Fact

/-- What a guard tells where it holds, or where it fails. -/
def Guard.told : Guard → Bool → List Fact
  | .next offset kinds, holds => [.kind offset kinds holds]
  | .lineBreak offset, holds => [.lineBreak offset holds]
  | .identifier offset, true => [.kind offset identifierKinds true]
  | .not guard, holds => guard.told !holds
  | .and first second, true => first.told true ++ second.told true
  | .or first second, false => first.told false ++ second.told false
  | .and first second, false =>
      (first.told false).flatMap fun fact => (second.told false).map (.either fact)
  | .or first second, true =>
      (first.told true).flatMap fun fact => (second.told true).map (.either fact)
  | _, _ => []

def Terminals.Confirms (terminals : Terminals) (position : Nat) (facts : List Fact) : Prop :=
  ∀ fact ∈ facts, fact.Holds terminals position

namespace Terminals.Confirms

variable {terminals : Terminals} {position : Nat} {first second : List Fact}

theorem nil : terminals.Confirms position [] := by simp [Confirms]

theorem append (earlier : terminals.Confirms position first)
    (later : terminals.Confirms position second) : terminals.Confirms position (first ++ second) :=
  fun fact member => (List.mem_append.mp member).elim (earlier fact) (later fact)

theorem next (confirms : terminals.Confirms position first) :
    terminals.Confirms (position + 1) (first.filterMap Fact.next) := by
  intro later member
  obtain ⟨fact, known, shifted⟩ := List.mem_filterMap.mp member
  exact (confirms fact known).next shifted

theorem either (some : terminals.Confirms position first ∨ terminals.Confirms position second) :
    terminals.Confirms position (first.flatMap fun fact => second.map (.either fact)) := by
  intro pair member
  obtain ⟨one, inFirst, paired⟩ := List.mem_flatMap.mp member
  obtain ⟨other, inSecond, rfl⟩ := List.mem_map.mp paired
  exact some.imp (· one inFirst) (· other inSecond)

end Terminals.Confirms

theorem Guard.confirms_told {terminals : Terminals} {scope : Scope} {place : Place} {targets : List Nat}
    {guard : Guard} {holds : Bool} (admits : guard.admits terminals scope place targets = holds) :
    terminals.Confirms place.position (guard.told holds) := by
  induction guard generalizing holds with
  | next offset kinds =>
      intro fact member
      cases List.mem_singleton.mp member
      exact admits
  | lineBreak offset =>
      intro fact member
      cases List.mem_singleton.mp member
      exact admits
  | identifier offset =>
      cases holds with
      | false => exact .nil
      | true =>
          intro fact member
          cases List.mem_singleton.mp member
          exact List.contains_iff_mem.mpr (ParseState.mem_identifierKinds admits)
  | yieldOperator | awaitOperator | completed | completedTarget => cases holds <;> exact .nil
  | not guard ih =>
      rw [Guard.admits] at admits
      exact ih (by rw [← admits, Bool.not_not])
  | and first second firstIh secondIh =>
      cases holds with
      | true =>
          obtain ⟨one, other⟩ := Bool.and_eq_true_iff.mp admits
          exact (firstIh one).append (secondIh other)
      | false => exact .either ((Bool.and_eq_false_iff.mp admits).imp firstIh secondIh)
  | or first second firstIh secondIh =>
      cases holds with
      | false =>
          obtain ⟨one, other⟩ := Bool.or_eq_false_iff.mp admits
          exact (firstIh one).append (secondIh other)
      | true => exact .either ((Bool.or_eq_true_iff.mp admits).imp firstIh secondIh)

/-! ## Parts -/

/-- A part of what a node holds. It is joined if no line terminator precedes its first token. -/
inductive Part where
  | token (kinds : List Kind) (joined : Bool)
  | node (kinds : List Kind) (joined : Bool)
  /-- A list with elements of the kinds. -/
  | list (kinds : List Kind)
  /-- Any number of tokens and nodes of the kinds. -/
  | several (tokens nodes : List Kind)
  deriving DecidableEq, Repr

/-- Only tokens and nodes of the kinds, and holes. -/
def Forest.Scatters (tokens nodes : List Kind) : Forest → Prop
  | empty => True
  | token before _ kind => before.Scatters tokens nodes ∧ kind ∈ tokens
  | hole before => before.Scatters tokens nodes
  | node before kind _ => before.Scatters tokens nodes ∧ kind ∈ nodes
  | list _ _ => False

namespace Forest.Scatters

variable {tokens nodes more others : List Kind} {left right forest : Forest}

theorem append (first : left.Scatters tokens nodes) (second : right.Scatters tokens nodes) :
    (left ++ right).Scatters tokens nodes := by
  induction right with
  | empty => exact first
  | token before position kind ih => exact ⟨ih second.1, second.2⟩
  | hole before ih => exact ih second
  | node before kind children ih _ => exact ⟨ih second.1, second.2⟩
  | list before items => exact second.elim

theorem mono (scatters : forest.Scatters tokens nodes) (fewerTokens : tokens ⊆ more)
    (fewerNodes : nodes ⊆ others) : forest.Scatters more others := by
  induction forest with
  | empty => trivial
  | token before position kind ih => exact ⟨ih scatters.1, fewerTokens scatters.2⟩
  | hole before ih => exact ih scatters
  | node before kind children ih _ => exact ⟨ih scatters.1, fewerNodes scatters.2⟩
  | list before items => exact scatters.elim

end Forest.Scatters

namespace Part

def Fits (terminals : Terminals) : Part → Forest → Prop
  | token kinds joined, piece => ∃ position, ∃ kind ∈ kinds, piece = Forest.empty.token position kind ∧
      (joined = true → terminals.lineBreakAt position = false)
  | node kinds joined, piece => ∃ kind ∈ kinds, ∃ children, piece = Forest.empty.node kind children ∧
      (joined = true → ∃ leaf ∈ children.leaves.head?, terminals.lineBreakAt leaf.1 = false)
  | list kinds, piece => ∃ items, piece = Forest.empty.list items ∧ items.Scatters [.comma] kinds
  | several tokens nodes, piece => piece.Scatters tokens nodes

def isAmong (tokens nodes : List Kind) : Part → Bool
  | token kinds _ => kinds ⊆ tokens
  | node kinds _ => kinds ⊆ nodes
  | list _ => false
  | several kinds others => kinds ⊆ tokens && others ⊆ nodes

/-- Whether a part tells all that another one does. -/
def isWithin : Part → Part → Bool
  | token kinds joined, token others other => kinds ⊆ others && (joined || !other)
  | node kinds joined, node others other => kinds ⊆ others && (joined || !other)
  | list kinds, list others => kinds ⊆ others
  | several tokens nodes, several others more => tokens ⊆ others && nodes ⊆ more
  | _, _ => false

variable {terminals : Terminals} {part other : Part} {piece : Forest} {tokens nodes : List Kind}

theorem fits_node {kinds : List Kind} {kind : Kind} (member : kind ∈ kinds) (children : Forest) :
    (node kinds false).Fits terminals (Forest.empty.node kind children) :=
  ⟨kind, member, children, rfl, by simp⟩

theorem Fits.scatters (fits : part.Fits terminals piece) (among : part.isAmong tokens nodes = true) :
    piece.Scatters tokens nodes := by
  cases part with
  | token kinds joined =>
      obtain ⟨position, kind, member, rfl, -⟩ := fits
      exact ⟨trivial, of_decide_eq_true among member⟩
  | node kinds joined =>
      obtain ⟨kind, member, children, rfl, -⟩ := fits
      exact ⟨trivial, of_decide_eq_true among member⟩
  | list kinds => cases among
  | several kinds others =>
      obtain ⟨fewerTokens, fewerNodes⟩ := Bool.and_eq_true_iff.mp among
      exact Forest.Scatters.mono fits (of_decide_eq_true fewerTokens) (of_decide_eq_true fewerNodes)

theorem Fits.weaken (fits : part.Fits terminals piece) (within : part.isWithin other = true) :
    other.Fits terminals piece := by
  cases part <;> cases other <;> simp only [isWithin, Bool.and_eq_true, Bool.or_eq_true,
    Bool.not_eq_true', decide_eq_true_eq, Bool.false_eq_true] at within
  · obtain ⟨position, kind, member, rfl, free⟩ := fits
    exact ⟨position, kind, within.1 member, rfl, fun joined => free (by simp_all)⟩
  · obtain ⟨kind, member, children, rfl, free⟩ := fits
    exact ⟨kind, within.1 member, children, rfl, fun joined => free (by simp_all)⟩
  · obtain ⟨items, rfl, scatters⟩ := fits
    exact ⟨items, rfl, scatters.mono (List.Subset.refl _) within⟩
  · exact Forest.Scatters.mono fits within.1 within.2

end Part

/-- A forest consists of the parts, of which the last one comes first. -/
def Forest.Fits (terminals : Terminals) : Forest → List Part → Prop
  | forest, [] => forest = .empty
  | forest, part :: parts => ∃ before piece, forest = before ++ piece ∧ part.Fits terminals piece ∧
      before.Fits terminals parts

namespace Forest.Fits

variable {terminals : Terminals} {forest left right : Forest} {parts others : List Part} {part : Part}

theorem single {piece : Forest} (fits : part.Fits terminals piece) : piece.Fits terminals [part] :=
  ⟨.empty, piece, (Forest.empty_append piece).symm, fits, rfl⟩

theorem append (first : left.Fits terminals parts) (second : right.Fits terminals others) :
    (left ++ right).Fits terminals (others ++ parts) := by
  induction others generalizing right with
  | nil =>
      cases second
      exact first
  | cons part others ih =>
      obtain ⟨before, piece, rfl, fits, rest⟩ := second
      exact ⟨left ++ before, piece, (Forest.append_assoc left before piece).symm, fits, ih rest⟩

theorem cons {piece : Forest} (fits : forest.Fits terminals parts) (last : part.Fits terminals piece) :
    (forest ++ piece).Fits terminals (part :: parts) :=
  ⟨forest, piece, rfl, last, fits⟩

theorem scatters {tokens nodes : List Kind} (fits : forest.Fits terminals parts)
    (among : parts.all (Part.isAmong tokens nodes) = true) : forest.Scatters tokens nodes := by
  induction parts generalizing forest with
  | nil =>
      cases fits
      trivial
  | cons part parts ih =>
      obtain ⟨before, piece, rfl, last, rest⟩ := fits
      obtain ⟨isAmong, others⟩ := Bool.and_eq_true_iff.mp among
      exact (ih rest others).append (last.scatters isAmong)

end Forest.Fits

/-- Whether parts tell all that others do; the others may take several parts together. -/
def Part.areWithin : List Part → List Part → Bool
  | parts, [.several tokens nodes] => parts.all (isAmong tokens nodes)
  | [], [] => true
  | part :: parts, other :: others => part.isWithin other && areWithin parts others
  | _, _ => false

theorem Forest.Fits.weaken {terminals : Terminals} {forest : Forest} {parts others : List Part}
    (fits : forest.Fits terminals parts) (within : Part.areWithin parts others = true) :
    forest.Fits terminals others := by
  fun_induction Part.areWithin parts others generalizing forest with
  | case1 parts tokens nodes => exact .single (fits.scatters within)
  | case2 => exact fits
  | case3 part parts other others _ ih =>
      obtain ⟨before, piece, rfl, last, rest⟩ := fits
      obtain ⟨lastWithin, restWithin⟩ := Bool.and_eq_true_iff.mp within
      exact .cons (ih rest restWithin) (last.weaken lastWithin)
  | case4 => cases within

end ScriptTree
