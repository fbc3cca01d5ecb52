import ScriptTree.Proofs.Lookahead

/-! # What the next token rules out

Before some tokens a production refuses, or takes nothing if it matches: no expression starts with an
operator between operands, and no operator continues at a name. How a production responds to the kinds of
the next token is found by recursion on its form, with its calls followed up to a depth. -/
set_option autoImplicit false
set_option maxRecDepth 4000
namespace ScriptTree

/-! ## Responses -/

inductive Response where
  | refuses
  /-- Takes nothing if it matches. -/
  | stays
  | moves
  deriving DecidableEq, Repr

namespace Response

def join : Response → Response → Response
  | refuses, other | other, refuses => other
  | stays, stays => stays
  | _, _ => moves

def Allows : Response → Nat → Nat → Prop
  | refuses, _, _ => False
  | stays, start, stop => stop = start
  | moves, _, _ => True

variable {one other : Response} {start stop : Nat}

theorem Allows.join_left (allows : one.Allows start stop) : (one.join other).Allows start stop := by
  cases one <;> cases other <;> trivial

theorem Allows.join_right (allows : other.Allows start stop) : (one.join other).Allows start stop := by
  cases one <;> cases other <;> trivial

theorem Allows.eq_of_ne_moves (allows : one.Allows start stop) (keeps : one ≠ .moves) : stop = start := by
  cases one with
  | refuses => exact allows.elim
  | stays => exact allows
  | moves => exact absurd rfl keeps

end Response

/-- Whether a guard cannot hold before a token of one of the kinds. -/
def Guard.failsBefore (kinds : List Kind) : Guard → Bool
  | next 0 others => kinds.all (· ∉ others)
  | identifier 0 => kinds.all (· ∉ identifierKinds)
  | and first second => first.failsBefore kinds || second.failsBefore kinds
  | or first second => first.failsBefore kinds && second.failsBefore kinds
  | _ => false

theorem Guard.admits_of_failsBefore {terminals : Terminals} {scope : Scope} {place : Place}
    {targets : List Nat} {kinds : List Kind} (next : terminals.kindAt place.position ∈ kinds)
    {guard : Guard} (fails : guard.failsBefore kinds = true) :
    guard.admits terminals scope place targets = false := by
  induction guard with
  | next offset others =>
      cases offset with
      | zero => simpa [admits] using List.all_eq_true.mp fails _ next
      | succ offset => cases fails
  | identifier offset =>
      cases offset with
      | zero =>
          have notMem := List.all_eq_true.mp fails _ next
          refine Bool.eq_false_iff.mpr fun admitted => ?_
          exact of_decide_eq_true notMem (ParseState.mem_identifierKinds admitted)
      | succ offset => cases fails
  | and first second firstIh secondIh =>
      rw [admits, Bool.and_eq_false_iff]
      exact (Bool.or_eq_true_iff.mp fails).imp firstIh secondIh
  | or first second firstIh secondIh =>
      obtain ⟨firstFails, secondFails⟩ := Bool.and_eq_true_iff.mp fails
      rw [admits, firstIh firstFails, secondIh secondFails]
      rfl
  | lineBreak | yieldOperator | awaitOperator | completed | completedTarget | not => cases fails

/-- A guard that holds may tell the kind of the next token. -/
theorem Guard.kindAt_eq {terminals : Terminals} {scope : Scope} {place : Place} {targets : List Nat}
    {guard : Guard} {kind : Kind} (admitted : guard.admits terminals scope place targets = true)
    (tells : (0, [kind]) ∈ guard.facts) : terminals.kindAt place.position = kind :=
  List.mem_singleton.mp (Guard.shows_facts admitted _ tells)

/-- How a production responds to a token of one of the kinds, if `call` tells how others do. -/
def Production.respond (kinds : List Kind) (call : Nonterminal → Response) : Production → Response
  | .refuse => .refuses
  | .empty | .expected _ | .expectedConstruct _ | .hole | .markTarget => .stays
  | .take => .moves
  | .call nonterminal => call nonterminal
  | .seq first second =>
      match first.respond kinds call with
      | .refuses => .refuses
      | .stays => second.respond kinds call
      | .moves => .moves
  | .branch guard yes no =>
      if guard.failsBefore kinds then no.respond kinds call
      else (yes.respond kinds call).join (no.respond kinds call)
  | .node _ body | .wrap _ body | .inScope _ body | .list body => body.respond kinds call
  | .fork head _ _ _ _ _ =>
      match head.respond kinds call with
      | .refuses => .refuses
      | .stays | .moves => .moves
  | .orElse first second | .onceOrElse first second =>
      (first.respond kinds call).join (second.respond kinds call)

namespace Nonterminal

/-- How a nonterminal responds, as far as its calls tell up to a depth. -/
def respondWithin (kinds : List Kind) : Nat → Nonterminal → Response
  | 0, _ => .moves
  | depth + 1, nonterminal => nonterminal.production.respond kinds (respondWithin kinds depth)

/-- Enough to come from a statement to its first token. -/
def responseDepth : Nat := 32

def respond (kinds : List Kind) (nonterminal : Nonterminal) : Response :=
  nonterminal.respondWithin kinds responseDepth

def Heeds (terminals : Terminals) (nonterminal : Nonterminal) (_ : Scope) (before after : Place) : Prop :=
  ∀ kinds depth, terminals.kindAt before.position ∈ kinds →
    (nonterminal.respondWithin kinds depth).Allows before.position after.position

end Nonterminal

section Soundness

variable {terminals : Terminals} {kinds : List Kind}

theorem Production.allows_of_derives (depth : Nat) (production : Production) :
    ∀ (scope : Scope) (before after : Place), terminals.kindAt before.position ∈ kinds →
      production.Derives terminals (Nonterminal.Heeds terminals) scope before after →
      (production.respond kinds (Nonterminal.respondWithin kinds depth)).Allows before.position
        after.position := by
  induction production with
  | empty | expected kind | expectedConstruct name | hole | markTarget =>
      rintro scope before after _ ⟨⟩
      rfl
  | refuse =>
      intro scope before after _ derives
      exact derives
  | take =>
      intro scope before after _ _
      trivial
  | call nonterminal =>
      intro scope before after next heeds
      exact heeds kinds depth next
  | seq first second firstIh secondIh =>
      rintro scope before after next ⟨middle, firstDerives, secondDerives⟩
      have firstAllows := firstIh scope before middle next firstDerives
      rw [respond]
      cases responds : first.respond kinds (Nonterminal.respondWithin kinds depth) with
      | refuses =>
          rw [responds] at firstAllows
          exact firstAllows.elim
      | stays =>
          rw [responds] at firstAllows
          have same : middle.position = before.position := firstAllows
          have secondAllows := secondIh scope middle after (same ▸ next) secondDerives
          rwa [same] at secondAllows
      | moves => trivial
  | branch guard yes no yesIh noIh =>
      rintro scope before after next ⟨targets, ⟨admitted, derives⟩ | ⟨_, derives⟩⟩
      · rw [respond]
        split
        · rename_i fails
          rw [Guard.admits_of_failsBefore next fails] at admitted
          cases admitted
        · exact (yesIh scope before after next derives).join_left
      · rw [respond]
        split
        · exact noIh scope before after next derives
        · exact (noIh scope before after next derives).join_right
  | node kind body ih | list body ih =>
      rintro scope before after next ⟨inner, derives, rfl⟩
      exact ih scope before.inside inner next derives
  | wrap kind body ih =>
      rintro scope before after next ⟨wrapped, first, inner, _, derives, rfl⟩
      exact ih scope before.inside inner next derives
  | inScope change body ih =>
      intro scope before after next derives
      exact ih (change.apply scope) before after next derives
  | fork head guard kindYes yes kindNo no headIh =>
      rintro scope before after next ⟨middle, inner, targets, headDerives, _⟩
      have headAllows := headIh scope before.inside middle next headDerives
      rw [respond]
      cases responds : head.respond kinds (Nonterminal.respondWithin kinds depth) with
      | refuses =>
          rw [responds] at headAllows
          exact headAllows.elim
      | stays | moves => trivial
  | orElse first second firstIh secondIh | onceOrElse first second firstIh secondIh =>
      rintro scope before after next (derives | derives)
      · exact (firstIh scope before after next derives).join_left
      · exact (secondIh scope before after next derives).join_right

theorem Nonterminal.nestWith_heeds (terminals : Terminals) (fuel : Nat) :
    CallsSatisfy (nestWith production terminals fuel) (Heeds terminals) := by
  apply nestWith_satisfies
  intro nonterminal scope before after derives kinds depth next
  cases depth with
  | zero => trivial
  | succ depth => exact nonterminal.production.allows_of_derives depth scope before after next derives

end Soundness

/-! ## What starts nothing -/

/-- Nothing that is an operand or a statement starts with one of these. -/
theorem Nonterminal.respond_assignment :
    ∀ kind ∈ [Kind.fatArrow, .eq, .comma, .inKw], assignment.respond [kind] = .refuses := by
  decide +kernel

theorem Nonterminal.respond_scriptItems : scriptItems.respond [.elseKw] = .refuses := by decide +kernel

end ScriptTree
