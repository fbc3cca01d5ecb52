import ScriptTree.Proofs.Extents
import ScriptTree.Proofs.Fuel

/-! # Where expressions end

An arrow and another expression may match from one position, if a match remembers that the arrow failed
there and another does not: the other expression then halts in front of the arrow. What follows a target
is an assignment in one match and not in another, which halts in front of the operator. Otherwise two
matches of an expression end at one position. -/
set_option autoImplicit false
set_option maxRecDepth 4000
namespace ScriptTree

open Grammar

section Parts

variable {terminals : Terminals} {fuel more : Nat} {nonterminal : Nonterminal} {scope : Scope}
  {before after : Place} {tail : Production} {bracket : Bracket}

namespace Nonterminal.Matches

theorem mono (matched : nonterminal.Matches terminals fuel scope before after) (le : fuel ≤ more) :
    nonterminal.Matches terminals more scope before after := by
  obtain ⟨history, later, matched⟩ := matched
  refine ⟨history, later, ?_⟩
  rw [nestWith_eq_of_le le _ _ _ _ (by simp [matched]), matched]

theorem of_seq_call (part : Nonterminal) (kinds : List Kind) (shape : nonterminal.production = .seq (.call part) tail)
    (stays : tail.respond kinds (respond kinds) ≠ .moves)
    (matched : nonterminal.Matches terminals fuel scope before after) :
    ∃ less middle, fuel = less + 1 ∧ part.Matches terminals less scope before middle ∧
      (terminals.kindAt middle.position ∈ kinds → after.position = middle.position) := by
  obtain ⟨less, rfl, derives⟩ := matched.derives
  rw [shape] at derives
  obtain ⟨middle, called, rest⟩ := derives
  refine ⟨less, middle, rfl, called, fun next => ?_⟩
  exact (tail.allows_of_derives responseDepth scope middle after next (rest.imp fun _ _ _ _ => heeds)).eq_of_ne_moves
    stays

theorem spans_behind {kind opening : Kind} {rest : Production}
    (shape : nonterminal.production = .node kind (.seq (Production.expect opening) rest))
    (closes : rest.closes bracket = true)
    (matched : nonterminal.Matches terminals fuel scope before after) :
    terminals.kindAt before.position = opening ∧
      terminals.Spans .nothing [bracket] (before.position + 1) [] after.position := by
  obtain ⟨less, rfl, derives⟩ := matched.derives
  rw [shape] at derives
  obtain ⟨inner, ⟨middle, opens, derives⟩, rfl⟩ := derives
  obtain ⟨here, rfl⟩ := Production.derives_expect opens
  exact ⟨here, Production.spans_of_closes closes derives⟩

end Nonterminal.Matches

theorem Nonterminal.Matches.spans_parameters
    (matched : formalParameters.Matches terminals fuel scope before after) :
    terminals.kindAt before.position = .leftParen ∧
      terminals.Spans .nothing [.round] (before.position + 1) [] after.position :=
  matched.spans_behind rfl (by decide +kernel)

theorem Nonterminal.Matches.spans_parenthesized
    (matched : parenthesized.Matches terminals fuel scope before after) :
    terminals.kindAt before.position = .leftParen ∧
      terminals.Spans .nothing [.round] (before.position + 1) [] after.position :=
  matched.spans_behind rfl (by decide +kernel)

theorem Nonterminal.Matches.spans_arguments
    (matched : arguments.Matches terminals fuel scope before after) :
    terminals.kindAt before.position = .leftParen ∧
      terminals.Spans .nothing [.round] (before.position + 1) [] after.position :=
  matched.spans_behind rfl (by decide +kernel)

theorem Nonterminal.Matches.spans_pattern
    (matched : arrayBindingPattern.Matches terminals fuel scope before after) :
    terminals.kindAt before.position = .leftBracket ∧
      terminals.Spans .nothing [.square] (before.position + 1) [] after.position :=
  matched.spans_behind rfl (by decide +kernel)

theorem Production.derives_identifier {call : Nonterminal → Scope → Place → Place → Prop}
    (derives : identifier.Derives terminals call scope before after) :
    ParseState.isIdentifierAt terminals scope before.position = true ∧
      after.position = before.position + 1 := by
  obtain ⟨_, ⟨admitted, taken⟩ | ⟨_, _, _, impossible⟩⟩ := derives
  · cases taken
    exact ⟨admitted, rfl⟩
  · exact impossible.elim

theorem Nonterminal.Matches.of_bindingIdentifier
    (matched : bindingIdentifier.Matches terminals fuel scope before after) :
    ParseState.isIdentifierAt terminals scope before.position = true ∧
      after.position = before.position + 1 := by
  obtain ⟨less, rfl, inner, derives, rfl⟩ := matched.derives
  obtain ⟨named, next⟩ := Production.derives_identifier derives
  exact ⟨named, next⟩

theorem Nonterminal.Matches.of_identifierReference
    (matched : identifierReference.Matches terminals fuel scope before after) :
    after.position = before.position + 1 := by
  obtain ⟨less, rfl, inner, derives, rfl⟩ := matched.derives
  exact (Production.derives_identifier derives).2

/-! ## Arrows -/

/-- The parameters of an arrow stand between two positions, from a parenthesis on or as a single name. -/
inductive Terminals.ParametersAt (terminals : Terminals) (scope : Scope) (start : Nat) : Nat → Prop
  | listed {stop : Nat} (opens : terminals.kindAt start = .leftParen)
      (spans : terminals.Spans .nothing [.round] (start + 1) [] stop) : ParametersAt terminals scope start stop
  | single (named : ParseState.isIdentifierAt terminals scope start = true) :
      ParametersAt terminals scope start (start + 1)

/-- An arrow starts at a position: its parameters and the `=>` come next, or those behind `async`. -/
def Terminals.ArrowAt (terminals : Terminals) (scope : Scope) (start : Nat) : Prop :=
  (∃ stop, terminals.ParametersAt scope start stop ∧ terminals.kindAt stop = .fatArrow) ∨
    terminals.kindAt start = .asyncKw ∧ ∃ inner stop,
      terminals.ParametersAt inner (start + 1) stop ∧ terminals.kindAt stop = .fatArrow

theorem Production.parametersAt_of_arrowTail {isAsync : Bool}
    (derives : (arrowTail isAsync).Derives terminals (Nonterminal.Matches terminals fuel) scope before
      after) :
    ∃ stop, terminals.ParametersAt ((ScopeChange.arrowParameters isAsync).apply scope) before.position
      stop ∧ terminals.kindAt stop = .fatArrow := by
  obtain ⟨middle, ⟨_, parameters⟩, _, ⟨_, ⟨_, impossible⟩ | ⟨_, arrow⟩⟩, _⟩ := derives
  · exact impossible.elim
  · have next := (derives_expect arrow).1
    rcases parameters with ⟨_, called⟩ | ⟨_, called⟩
    · have called : Nonterminal.formalParameters.Matches terminals fuel _ before middle := called
      exact ⟨_, .listed called.spans_parameters.1 called.spans_parameters.2, next⟩
    · have called : Nonterminal.bindingIdentifier.Matches terminals fuel _ before middle := called
      exact ⟨_, .single called.of_bindingIdentifier.1, called.of_bindingIdentifier.2 ▸ next⟩

theorem Nonterminal.Matches.arrowAt (matched : arrow.Matches terminals fuel scope before after) :
    terminals.ArrowAt scope before.position := by
  obtain ⟨less, rfl, inner, ⟨_, ⟨admitted, _, rfl, tail⟩ | ⟨_, tail⟩⟩, rfl⟩ := matched.derives
  · have isAsync : terminals.kindAt before.inside.position = .asyncKw :=
      Guard.kindAt_eq admitted (by decide)
    obtain ⟨stop, parameters, next⟩ := Production.parametersAt_of_arrowTail tail
    exact .inr ⟨isAsync, _, stop, parameters, next⟩
  · obtain ⟨stop, parameters, next⟩ := Production.parametersAt_of_arrowTail tail
    have same : (ScopeChange.arrowParameters false).apply scope = scope := by
      simp [ScopeChange.apply]
    exact .inl ⟨stop, same ▸ parameters, next⟩

/-- An arrow starts with a parenthesis or with a word that is no operator there. -/
theorem Terminals.ArrowAt.start {start : Nat} (arrow : terminals.ArrowAt scope start) :
    terminals.kindAt start ∈ .leftParen :: identifierKinds ∧
      (terminals.kindAt start = .awaitKw → scope.awaitOperator = false) := by
  rcases arrow with ⟨stop, ⟨opens, _⟩ | named, _⟩ | ⟨isAsync, _⟩
  · exact ⟨by simp [opens], fun isAwait => by rw [opens] at isAwait; cases isAwait⟩
  · refine ⟨List.mem_cons_of_mem _ (ParseState.mem_identifierKinds named), fun isAwait => ?_⟩
    rw [ParseState.isIdentifierAt, isAwait] at named
    simpa using named
  · exact ⟨by rw [isAsync]; decide, fun isAwait => by rw [isAsync] at isAwait; cases isAwait⟩

theorem Nonterminal.Matches.primary_cases
    (matched : primary.Matches terminals fuel scope before after)
    (start : terminals.kindAt before.position ∈ .leftParen :: identifierKinds) :
    (∃ less, parenthesized.Matches terminals less scope before after) ∨
    (terminals.kindAt before.position = .asyncKw ∧ terminals.kindAt (before.position + 1) = .functionKw) ∨
    terminals.kindAt before.position ∈ identifierKinds ∧ after.position = before.position + 1 := by
  obtain ⟨less, rfl, derives⟩ := matched.derives
  rcases Production.derives_select derives with ⟨entry, member, targets, admitted, body⟩ |
    ⟨_, _, _, impossible⟩
  · have shows := Guard.shows_facts admitted
    have excluded {kinds : List Kind} (fact : (0, kinds) ∈ entry.1.facts)
        (disjoint : ∀ kind ∈ Kind.leftParen :: identifierKinds, kind ∉ kinds) : False :=
      disjoint _ start (shows _ fact)
    simp only [List.mem_cons, List.not_mem_nil, or_false] at member
    rcases member with rfl | rfl | rfl | rfl | rfl | rfl | rfl | rfl | rfl | rfl | rfl
    · exact (excluded (List.mem_singleton_self _) (by decide)).elim
    · exact (excluded (List.mem_singleton_self _) (by decide)).elim
    · exact (excluded (List.mem_singleton_self _) (by decide)).elim
    · exact (excluded (List.mem_singleton_self _) (by decide)).elim
    · exact (excluded (List.mem_singleton_self _) (by decide)).elim
    · exact (excluded (List.mem_singleton_self _) (by decide)).elim
    · exact .inl ⟨less, body⟩
    · exact (excluded (List.mem_singleton_self _) (by decide)).elim
    · exact .inr (.inl ⟨Guard.kindAt_eq admitted (by decide),
        List.mem_singleton.mp (shows (1, [.functionKw]) (by decide))⟩)
    · exact (excluded (List.mem_singleton_self _) (by decide)).elim
    · have body : identifierReference.Matches terminals less scope before after := body
      exact .inr (.inr ⟨shows (0, identifierKinds) (List.mem_singleton_self _), body.of_identifierReference⟩)
  · exact impossible.elim

/-- Behind the operand of an expression that has no operator come only links. -/
theorem Nonterminal.Matches.leftHandSide_of_plainAssignment
    (matched : plainAssignment.Matches terminals fuel scope before after)
    (start : terminals.kindAt before.position ∈ .leftParen :: identifierKinds)
    (noOperator : terminals.kindAt before.position = .awaitKw → scope.awaitOperator = false) :
    ∃ less operand, leftHandSide.Matches terminals less scope before operand ∧
      (terminals.kindAt operand.position ∈ .fatArrow :: identifierKinds →
        after.position = operand.position) := by
  obtain ⟨_, middle₁, rfl, matched, ends₁⟩ := matched.of_seq_call conditional
    (.fatArrow :: identifierKinds) rfl (by decide +kernel)
  obtain ⟨_, middle₂, rfl, matched, ends₂⟩ := matched.of_seq_call (binary 1)
    (.fatArrow :: identifierKinds) rfl (by decide +kernel)
  obtain ⟨_, middle₃, rfl, matched, ends₃⟩ := matched.of_seq_call unary
    (.fatArrow :: identifierKinds) rfl (by decide +kernel)
  obtain ⟨less, rfl, _, ⟨admitted, _⟩ | ⟨_, _, ⟨admitted, _⟩ | ⟨_, matched⟩⟩⟩ := matched.derives
  · have disjoint : ∀ kind ∈ Kind.leftParen :: identifierKinds, kind ∉ unaryOperators := by decide
    exact absurd (Guard.shows_facts admitted _ (List.mem_singleton_self _)) (disjoint _ start)
  · have isAwait : terminals.kindAt before.position = .awaitKw :=
      Guard.kindAt_eq admitted (by decide)
    have awaits : scope.awaitOperator = true := (Bool.and_eq_true_iff.mp admitted).2
    rw [noOperator isAwait] at awaits
    cases awaits
  · have matched : postfixed.Matches terminals less scope before middle₃ := matched
    obtain ⟨_, operand, rfl, matched, ends₄⟩ := matched.of_seq_call leftHandSide
      (.fatArrow :: identifierKinds) rfl (by decide +kernel)
    refine ⟨_, operand, matched, fun next => ?_⟩
    have same₄ := ends₄ next
    have same₃ := ends₃ (same₄ ▸ next)
    have same₂ := ends₂ (same₃ ▸ same₄ ▸ next)
    exact (ends₁ (same₂ ▸ same₃ ▸ same₄ ▸ next)).trans (same₂.trans (same₃.trans same₄))

/-- Links of a member expression at a parenthesis are those behind the arguments of a call. -/
theorem Nonterminal.Matches.memberTail_call
    (matched : (memberTail true).Matches terminals fuel scope before after)
    (opens : terminals.kindAt before.position = .leftParen) :
    ∃ less inner middle, arguments.Matches terminals less scope inner middle ∧
      inner.position = before.position ∧ ∃ behind, behind.position = middle.position ∧
        (memberTail true).Matches terminals less scope behind after := by
  obtain ⟨less, rfl, derives⟩ := matched.derives
  rcases Production.derives_select derives with ⟨entry, member, targets, admitted, body⟩ | ⟨none, _⟩
  · have shows := Guard.shows_facts admitted
    have excluded {kinds : List Kind} (fact : (0, kinds) ∈ entry.1.facts) (notMem : .leftParen ∉ kinds) :
        False := notMem (opens ▸ shows _ fact)
    simp only [if_true, List.cons_append, List.nil_append, List.mem_cons, List.not_mem_nil,
      or_false] at member
    rcases member with rfl | rfl | rfl | rfl | rfl
    · exact (excluded (List.mem_singleton_self _) (by decide)).elim
    · exact (excluded (List.mem_singleton_self _) (by decide)).elim
    · exact (excluded (List.mem_singleton_self _) (by decide)).elim
    · obtain ⟨_, ⟨_, first, middle, _, called, rfl⟩, rest⟩ := body
      exact ⟨less, _, middle, called, rfl, before.wrapNode .callExpression first middle, rfl, rest⟩
    · exact (excluded (List.mem_singleton_self _) (by decide)).elim
  · obtain ⟨targets, rejected⟩ := none
      (.nextIs .leftParen, .seq (.wrap .callExpression (.call arguments)) (.call (memberTail true)))
      (by simp)
    rw [Guard.admits, Nat.add_zero, opens] at rejected
    cases rejected

/-- At the start of an arrow another expression halts, in front of the `=>` or of the parameter. -/
theorem Nonterminal.Matches.halts_at_arrow
    (matched : plainAssignment.Matches terminals fuel scope before after)
    (arrow : terminals.ArrowAt scope before.position) : terminals.HaltsAt after.position := by
  obtain ⟨start, noOperator⟩ := arrow.start
  obtain ⟨_, operand, leftMatched, ends⟩ := matched.leftHandSide_of_plainAssignment start noOperator
  obtain ⟨less, rfl, primaryEnd, ⟨_, ⟨admitted, _⟩ | ⟨_, primaryMatched⟩⟩, links⟩ := leftMatched.derives
  · have isNew : terminals.kindAt before.position = .newKw :=
      Guard.kindAt_eq admitted (by decide)
    rw [isNew] at start
    exact absurd start (by decide)
  have primaryMatched : primary.Matches terminals less scope before primaryEnd := primaryMatched
  have links : (memberTail true).Matches terminals less scope primaryEnd operand := links
  have stays {fuel : Nat} {behind operand : Place}
      (links : (memberTail true).Matches terminals fuel scope behind operand)
      (next : terminals.kindAt behind.position ∈ Kind.fatArrow :: identifierKinds) :
      operand.position = behind.position :=
    (links.heeds _ responseDepth next).eq_of_ne_moves (by decide +kernel)
  -- What halts the links halts the whole expression.
  have halted {position : Nat} (behind : operand.position = position) (halts : terminals.HaltsAt position)
      (next : terminals.kindAt position ∈ Kind.fatArrow :: identifierKinds) :
      terminals.HaltsAt after.position := by
    subst behind
    exact (ends next).symm ▸ halts
  have atArrow {position : Nat} (behind : operand.position = position)
      (next : terminals.kindAt position = .fatArrow) : terminals.HaltsAt after.position :=
    halted behind (.inl (by simp [next])) (by simp [next])
  have cases := primaryMatched.primary_cases start
  rcases arrow with ⟨stop, ⟨opens, spans⟩ | named, next⟩ | ⟨isAsync, inner, stop, ⟨opens, spans⟩ | named, next⟩
  · rcases cases with ⟨_, matched⟩ | ⟨isAsync, _⟩ | ⟨isName, _⟩
    · have same := matched.spans_parenthesized.2.stop_eq spans
      exact atArrow (stays links (by simp [same, next]) |>.trans same) next
    · rw [opens] at isAsync
      cases isAsync
    · rw [opens] at isName
      exact absurd isName (by decide)
  · have isName := ParseState.mem_identifierKinds named
    rcases cases with ⟨_, matched⟩ | ⟨_, isFunction⟩ | ⟨_, same⟩
    · rw [matched.spans_parenthesized.1] at isName
      exact absurd isName (by decide)
    · rw [next] at isFunction
      cases isFunction
    · exact atArrow (stays links (by simp [same, next]) |>.trans same) next
  · rcases cases with ⟨_, matched⟩ | ⟨_, isFunction⟩ | ⟨_, same⟩
    · rw [matched.spans_parenthesized.1] at isAsync
      cases isAsync
    · rw [opens] at isFunction
      cases isFunction
    · obtain ⟨_, inner, middle, called, sameStart, behind, sameStop, rest⟩ :=
        links.memberTail_call (same ▸ opens)
      have closes := called.spans_arguments.2
      rw [sameStart, same] at closes
      have there := sameStop.trans (closes.stop_eq spans)
      exact atArrow (stays rest (by simp [there, next]) |>.trans there) next
  · have isName := ParseState.mem_identifierKinds named
    rcases cases with ⟨_, matched⟩ | ⟨_, isFunction⟩ | ⟨_, same⟩
    · rw [matched.spans_parenthesized.1] at isAsync
      cases isAsync
    · rw [isFunction] at isName
      exact absurd isName (by decide)
    · have among := List.mem_cons_of_mem Kind.fatArrow isName
      exact halted (stays links (same ▸ among) |>.trans same) (.inr ⟨isName, next⟩) among

/-! ## Assignments -/

/-- A conditional expression that is more than its condition ends as such a node. -/
theorem Nonterminal.Matches.conditional_cases
    (matched : conditional.Matches terminals fuel scope before after) :
    ∃ less middle, fuel = less + 1 ∧ (binary 1).Matches terminals less scope before middle ∧
      ((terminals.kindAt middle.position = .question ∧
          ∃ first, after.completed = some (.conditionalExpression, first)) ∨
        terminals.kindAt middle.position ≠ .question ∧ after.position = middle.position) := by
  obtain ⟨less, rfl, middle, condition, _, ⟨admitted, rest⟩ | ⟨rejected, rfl⟩⟩ := matched.derives
  · obtain ⟨_, first, _, _, _, rfl⟩ := rest
    exact ⟨less, middle, rfl, condition, .inl
      ⟨Guard.kindAt_eq admitted (by decide), first, rfl⟩⟩
  · refine ⟨less, _, rfl, condition, .inr ⟨fun isQuestion => ?_, rfl⟩⟩
    rw [Guard.admits, Nat.add_zero, isQuestion] at rejected
    cases rejected

/-- Behind its first operand an assignment ends, or an operator comes next and an assignment behind it. -/
theorem Nonterminal.Matches.plainAssignment_cases
    (matched : plainAssignment.Matches terminals fuel scope before after) :
    ∃ less middle, fuel = less + 1 ∧ conditional.Matches terminals less scope before middle ∧
      (after.position = middle.position ∨
        terminals.kindAt middle.position ∈ assignmentOperators ∧
        (∀ first, middle.completed ≠ some (.conditionalExpression, first)) ∧
        ∃ value inner, value.position = middle.position + 1 ∧
          assignment.Matches terminals less scope value inner ∧ after.position = inner.position) := by
  obtain ⟨less, rfl, middle, operand, targets, ⟨admitted, rest⟩ | ⟨_, rfl⟩⟩ := matched.derives
  · obtain ⟨_, first, inner, _, ⟨value, rfl, called⟩, rfl⟩ := rest
    refine ⟨less, middle, rfl, operand, .inr ⟨?_, ?_, _, inner, rfl, called, rfl⟩⟩
    · exact Guard.shows_facts admitted (0, assignmentOperators) (List.mem_cons_self ..)
    · intro first completed
      have isTarget := (Bool.and_eq_true_iff.mp admitted).2
      simp [isAssignmentTarget, Guard.admits, completed, simpleTargets] at isTarget
  · exact ⟨less, _, rfl, operand, .inl rfl⟩

variable {other : Nat} {before' after' : Place}

theorem Nonterminal.plainAssignment_relates (calls : CallsEnd terminals fuel)
    (plain : scope.yieldOperator = false) (same : before.position = before'.position)
    (one : plainAssignment.Matches terminals (fuel + 1) scope before after)
    (another : plainAssignment.Matches terminals other scope before' after') :
    Ending.loose.Relates terminals after.position after'.position := by
  obtain ⟨_, middle, ⟨⟩, operand, tail⟩ := one.plainAssignment_cases
  obtain ⟨_, middle', rfl, operand', tail'⟩ := another.plainAssignment_cases
  obtain ⟨less, condition, rfl, first, question⟩ := operand.conditional_cases
  obtain ⟨_, condition', rfl, first', question'⟩ := operand'.conditional_cases
  have between : condition.position = condition'.position :=
    calls (binary 1) .fixed rfl _ scope _ _ _ _ nofun same (first.mono (Nat.le_succ _)) first'
  rw [← between] at question'
  rcases question with ⟨isQuestion, _, completed⟩ | ⟨noQuestion, stays⟩
  · -- What ends in a conditional expression is nothing to assign to.
    rcases question' with ⟨_, _, completed'⟩ | ⟨noQuestion, _⟩
    · have ends := tail.resolve_right fun further => further.2.1 _ completed
      have ends' := tail'.resolve_right fun further => further.2.1 _ completed'
      rw [ends, ends']
      exact calls conditional .loose rfl _ scope _ _ _ _ (fun _ => plain) same operand operand'
    · exact absurd isQuestion noQuestion
  · rcases question' with ⟨isQuestion, _⟩ | ⟨_, stays'⟩
    · exact absurd isQuestion noQuestion
    rw [← stays] at stays'
    have halts (isOperator : terminals.kindAt middle.position ∈ assignmentOperators) :
        terminals.HaltsAt middle.position := .inl (List.mem_cons_of_mem _ isOperator)
    rcases tail with ends | ⟨isOperator, _, value, inner, starts, called, ends⟩ <;>
      rcases tail' with ends' | ⟨isOperator', _, value', inner', starts', called', ends'⟩
    · exact .inl (by rw [ends, ends', stays'])
    · rw [stays'] at isOperator'
      exact .inr (.inl (ends ▸ halts isOperator'))
    · exact .inr (.inr (ends'.trans stays' ▸ halts isOperator))
    · rw [ends, ends']
      exact calls assignment .loose rfl _ scope _ _ _ _ (fun _ => plain) (by rw [starts, starts', stays'])
        called called'

/-- An assignment is an arrow or not, as far as `yield` is no operator. -/
theorem Nonterminal.Matches.assignment_cases (plain : scope.yieldOperator = false)
    (matched : assignment.Matches terminals fuel scope before after) :
    ∃ less, fuel = less + 1 ∧
      (arrow.Matches terminals less scope before after ∨
        plainAssignment.Matches terminals less scope before after) := by
  obtain ⟨less, rfl, _, ⟨admitted, _⟩ | ⟨_, _, ⟨_, either⟩ | ⟨_, called⟩⟩⟩ := matched.derives
  · have yields : scope.yieldOperator = true := (Bool.and_eq_true_iff.mp admitted).2
    rw [plain] at yields
    cases yields
  · exact ⟨less, rfl, either⟩
  · exact ⟨less, rfl, .inr called⟩

theorem Nonterminal.assignment_relates (calls : CallsEnd terminals fuel)
    (plain : scope.yieldOperator = false) (same : before.position = before'.position)
    (one : assignment.Matches terminals (fuel + 1) scope before after)
    (another : assignment.Matches terminals other scope before' after') :
    Ending.loose.Relates terminals after.position after'.position := by
  obtain ⟨_, ⟨⟩, oneWay⟩ := one.assignment_cases plain
  obtain ⟨_, -, otherWay⟩ := another.assignment_cases plain
  rcases oneWay with one | one <;> rcases otherWay with another | another
  · exact calls arrow .loose rfl _ scope _ _ _ _ (fun _ => plain) same one another
  · exact .inr (.inr (another.halts_at_arrow (same ▸ one.arrowAt)))
  · exact .inr (.inl (one.halts_at_arrow (same ▸ another.arrowAt)))
  · exact calls plainAssignment .loose rfl _ scope _ _ _ _ (fun _ => plain) same one another

end Parts

/-- Two matches of a nonterminal from one position end as is told, whatever their histories are. -/
theorem Nonterminal.matches_end (terminals : Terminals) (fuel : Nat) : CallsEnd terminals fuel := by
  induction fuel with
  | zero =>
      intro nonterminal ending _ other scope before after before' after' _ _ one
      obtain ⟨_, impossible, _⟩ := one.derives
      cases impossible
  | succ fuel ih =>
      intro nonterminal ending ends other scope before after before' after' plain same one another
      by_cases isAssignment : nonterminal = .assignment
      · subst isAssignment
        cases ends
        exact assignment_relates ih (plain rfl) same one another
      by_cases isPlain : nonterminal = .plainAssignment
      · subst isPlain
        cases ends
        exact plainAssignment_relates ih (plain rfl) same one another
      have proper : nonterminal.isProper = true := by
        cases nonterminal <;> first | rfl | cases ends
      obtain ⟨found, foundEnds, covers⟩ :=
        ending_production nonterminal (mem_listed proper) ending ends isAssignment isPlain
      obtain ⟨_, ⟨⟩, derives⟩ := one.derives
      obtain ⟨_, -, derives'⟩ := another.derives
      refine (nonterminal.production.relates_of_derives ih _ found scope _ _ _ _ foundEnds (fun isLoose => ?_)
        same derives derives').covered covers
      exact plain (by simpa using isLoose)

end ScriptTree
