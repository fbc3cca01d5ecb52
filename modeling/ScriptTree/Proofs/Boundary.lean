import ScriptTree.Proofs.Spans

/-! # In front of a semicolon

A semicolon in front of which every bracket is closed hides what stands behind it. No guard of the grammar
looks past a semicolon, and only a statement takes one that stands in no bracket: so on two texts that
agree up to it, anything else that starts in front of it does the same, and everything does that stands in
a bracket. -/
set_option autoImplicit false
set_option maxRecDepth 4000
namespace ScriptTree

/-! ## Guards -/

namespace Guard

/-- Whether a guard fails where the token at an offset is a semicolon. -/
def failsAt (offset : Nat) : Guard → Bool
  | next other kinds => other = offset && .semicolon ∉ kinds
  | identifier other => other = offset
  | and first second => first.failsAt offset || second.failsAt offset
  | or first second => first.failsAt offset && second.failsAt offset
  | _ => false

/-- Whether a guard sees nothing behind an offset, if the token there is a semicolon. -/
def stopsAt (offset : Nat) : Guard → Bool
  | next other _ | lineBreak other | identifier other => other ≤ offset
  | not guard => guard.stopsAt offset
  | and first second =>
      first.failsAt offset || second.failsAt offset || (first.stopsAt offset && second.stopsAt offset)
  | or first second => first.stopsAt offset && second.stopsAt offset
  | yieldOperator | awaitOperator | completed _ | completedTarget => true

def reach : Guard → Nat
  | next offset _ | lineBreak offset | identifier offset => offset
  | not guard => guard.reach
  | and first second | or first second => max first.reach second.reach
  | yieldOperator | awaitOperator | completed _ | completedTarget => 0

/-- Whether a guard looks past no semicolon; where `apart`, the next token is not the one that is meant. -/
def staysInFront (apart : Bool) (guard : Guard) : Bool :=
  guard.reach ≤ 2 && guard.stopsAt 1 && (apart || guard.stopsAt 0)

theorem stopsAt_of_reach_le {offset : Nat} {guard : Guard} (le : guard.reach ≤ offset) :
    guard.stopsAt offset = true := by
  induction guard with
  | next other kinds | lineBreak other | identifier other => exact decide_eq_true le
  | not guard ih => exact ih le
  | and first second firstIh secondIh | or first second firstIh secondIh =>
      obtain ⟨firstLe, secondLe⟩ := Nat.max_le.mp le
      simp [stopsAt, firstIh firstLe, secondIh secondLe]
  | yieldOperator | awaitOperator | completed | completedTarget => rfl

section Admits

variable {terminals other : Terminals} {scope : Scope} {place : Place} {targets : List Nat} {offset : Nat}

theorem admits_of_failsAt (semicolon : terminals.kindAt (place.position + offset) = .semicolon)
    {guard : Guard} (fails : guard.failsAt offset = true) :
    guard.admits terminals scope place targets = false := by
  induction guard with
  | next there kinds =>
      obtain ⟨same, notMem⟩ := Bool.and_eq_true_iff.mp fails
      cases of_decide_eq_true same
      rw [admits, semicolon]
      simpa using notMem
  | identifier there =>
      cases of_decide_eq_true fails
      rw [admits, ParseState.isIdentifierAt, semicolon]
      rfl
  | and first second firstIh secondIh =>
      rw [admits, Bool.and_eq_false_iff]
      exact (Bool.or_eq_true_iff.mp fails).imp firstIh secondIh
  | or first second firstIh secondIh =>
      obtain ⟨firstFails, secondFails⟩ := Bool.and_eq_true_iff.mp fails
      rw [admits, firstIh firstFails, secondIh secondFails]
      rfl
  | lineBreak | yieldOperator | awaitOperator | completed | completedTarget | not => cases fails

/-- Texts with the same tokens up to a semicolon are the same to a guard that stops there. -/
theorem admits_eq_of_stopsAt
    (kinds : ∀ ahead ≤ offset, terminals.kindAt (place.position + ahead) =
      other.kindAt (place.position + ahead))
    (lineBreaks : ∀ ahead ≤ offset, terminals.lineBreakAt (place.position + ahead) =
      other.lineBreakAt (place.position + ahead))
    (semicolon : terminals.kindAt (place.position + offset) = .semicolon) {guard : Guard}
    (stops : guard.stopsAt offset = true) :
    guard.admits terminals scope place targets = guard.admits other scope place targets := by
  induction guard with
  | next ahead _ => simp only [admits, kinds ahead (of_decide_eq_true stops)]
  | lineBreak ahead => simp only [admits, lineBreaks ahead (of_decide_eq_true stops)]
  | identifier ahead =>
      simp only [admits, ParseState.isIdentifierAt, kinds ahead (of_decide_eq_true stops)]
  | not guard ih => simp only [admits, ih stops]
  | or first second firstIh secondIh =>
      obtain ⟨firstStops, secondStops⟩ := Bool.and_eq_true_iff.mp stops
      simp only [admits, firstIh firstStops, secondIh secondStops]
  | and first second firstIh secondIh =>
      have there := (kinds offset (Nat.le_refl _)).symm.trans semicolon
      rcases Bool.or_eq_true_iff.mp stops with fails | stop
      · rw [admits, admits, Bool.eq_iff_iff, Bool.and_eq_true_iff, Bool.and_eq_true_iff]
        rcases Bool.or_eq_true_iff.mp fails with fails | fails <;>
          simp [admits_of_failsAt semicolon fails, admits_of_failsAt there fails]
      · obtain ⟨firstStops, secondStops⟩ := Bool.and_eq_true_iff.mp stop
        simp only [admits, firstIh firstStops, secondIh secondStops]
  | yieldOperator | awaitOperator | completed | completedTarget => rfl

end Admits
end Guard

def Guard.rulesOut (guard : Guard) : Bool :=
  guard.facts.any fun fact => fact.1 = 0 && .semicolon ∉ fact.2

/-- Whether no guard of a production looks past a semicolon. Where `apart`, the next token is known not to be
the one that is meant; behind a token that is known inside a bracket alone. -/
def Production.looksInFront (enclosed : Bool) : Bool → Production → Bool
  | apart, .branch guard yes no =>
      guard.staysInFront apart &&
        (yes.looksInFront enclosed (apart || guard.rulesOut) && no.looksInFront enclosed apart)
  | apart, .fork head guard _ yes _ no =>
      head.looksInFront enclosed apart && (guard.staysInFront enclosed &&
        (yes.looksInFront enclosed enclosed && no.looksInFront enclosed enclosed))
  | apart, .seq first second =>
      first.looksInFront enclosed apart && second.looksInFront enclosed enclosed
  | apart, .orElse first second | apart, .onceOrElse first second =>
      first.looksInFront enclosed apart && second.looksInFront enclosed apart
  | apart, .node _ body | apart, .wrap _ body | apart, .inScope _ body | apart, .list body =>
      body.looksInFront enclosed apart
  | _, .empty | _, .refuse | _, .take | _, .expected _ | _, .expectedConstruct _ | _, .call _ | _, .hole
  | _, .markTarget => true

/-! ## Two texts -/

/-- The brackets that are open in front of a position, innermost first. -/
def Terminals.openAt (terminals : Terminals) (position : Nat) : Option (List Bracket) :=
  Bracket.read [] (terminals.word 0 position)

theorem Terminals.openAt_succ {terminals : Terminals} {position : Nat} {stack next : List Bracket}
    (opened : terminals.openAt position = some stack)
    (reads : Bracket.readKind stack (terminals.kindAt position) = some next) :
    terminals.openAt (position + 1) = some next := by
  rw [openAt, ← word_append (Nat.zero_le _) (Nat.le_succ position), word_succ]
  exact Bracket.read_append_of opened (by rw [Bracket.read_singleton, reads])

/-- Two texts with the same tokens up to a semicolon in front of which every bracket is closed. -/
structure Terminals.AgreeTo (first second : Terminals) (last : Nat) : Prop where
  kinds : ∀ position ≤ last, first.kindAt position = second.kindAt position
  lineBreaks : ∀ position ≤ last, first.lineBreakAt position = second.lineBreakAt position
  semicolon : first.kindAt last = .semicolon
  closed : first.openAt last = some []

theorem Terminals.AgreeTo.admits_eq {first second : Terminals} {last : Nat}
    (agree : first.AgreeTo second last) {apart : Bool} {guard : Guard} {place : Place}
    (stays : guard.staysInFront apart = true) (before : place.position ≤ last)
    (inside : apart = true → place.position ≠ last) (scope : Scope) (targets : List Nat) :
    guard.admits first scope place targets = guard.admits second scope place targets := by
  obtain ⟨offset, rfl⟩ := Nat.exists_eq_add_of_le before
  have reaches : ∀ ahead ≤ offset, place.position + ahead ≤ place.position + offset :=
    fun _ le => Nat.add_le_add_left le _
  apply Guard.admits_eq_of_stopsAt (fun ahead le => agree.kinds _ (reaches ahead le))
    (fun ahead le => agree.lineBreaks _ (reaches ahead le)) agree.semicolon
  simp only [Guard.staysInFront, Bool.and_eq_true, Bool.or_eq_true, decide_eq_true_eq] at stays
  match offset with
  | 0 => exact stays.2.resolve_left fun isApart => inside isApart rfl
  | 1 => exact stays.1.2
  | offset + 2 => exact Guard.stopsAt_of_reach_le (Nat.le_trans stays.1.1 (Nat.le_add_left _ _))

/-- Inside of brackets of its own no nonterminal looks past a semicolon, and only one that may take a bare
semicolon does elsewhere. -/
theorem Nonterminal.looksInFront : ∀ nonterminal ∈ listed,
    nonterminal.production.looksInFront nonterminal.mayTakeSemicolon nonterminal.mayTakeSemicolon =
      true := by
  decide +kernel

end ScriptTree
