import ScriptTree.Proofs.Halting

/-! # The heads of `for` statements

The three forms of a `for` statement are told apart by their heads: no text has heads of two forms at one
position, whatever was tried before. A head over an object has `in` where one over an iterable has `of`, and
the semicolons of the third form stand in no other brackets than the parentheses of the head. -/
set_option autoImplicit false
set_option maxRecDepth 4000
namespace ScriptTree

open Grammar

namespace Grammar

def forInHead : List Production :=
  [Production.expect .forKw, Production.expect .leftParen, .call .forBinding, Production.expect .inKw,
    .call .expression, Production.expect .rightParen]

def forOfHead : List Production :=
  [Production.expect .forKw, .branch .awaitOperator (Production.eat .awaitKw) .empty,
    Production.expect .leftParen, .call .forBinding, Production.expect .ofKw, .call .assignment,
    Production.expect .rightParen]

def classicForHead : List Production :=
  [Production.expect .forKw, Production.expect .leftParen,
    .branch (.nextIs .semicolon) .empty
      (.branch (.next 0 declarationKeywords)
        (Production.firstOf [.call .variableDeclaration, .call .expression]) (.call .expression)),
    Production.expect .semicolon, clauseBefore .semicolon, Production.expect .semicolon,
    clauseBefore .rightParen, Production.expect .rightParen]

end Grammar

theorem Nonterminal.production_forIn : forInStatement.production =
    .node .forInStatement (Production.series (forInHead ++ [.call .statement])) := rfl

theorem Nonterminal.production_forOf : forOfStatement.production =
    .node .forOfStatement (Production.series (forOfHead ++ [.call .statement])) := rfl

theorem Nonterminal.production_classicFor : classicForStatement.production =
    .node .forStatement (Production.series (classicForHead ++ [.call .statement])) := rfl

section Heads

variable {terminals : Terminals} {fuel other : Nat} {scope : Scope} {before after before' after' : Place}

/-! ## `in` or `of` -/

theorem Nonterminal.Matches.forBinding_cases
    (matched : forBinding.Matches terminals fuel scope before after) :
    ∃ less, (terminals.kindAt before.position ∈ declarationKeywords ∧
        variableDeclaration.Matches terminals less scope before after) ∨
      leftHandSide.Matches terminals less scope before after := by
  obtain ⟨less, rfl, _, ⟨admitted, either⟩ | ⟨_, called⟩⟩ := matched.derives
  · have declares := Guard.shows_facts admitted (0, declarationKeywords) (by decide)
    rcases either with called | called | impossible
    · exact ⟨less, .inl ⟨declares, called⟩⟩
    · exact ⟨less, .inr called⟩
    · exact impossible.elim
  · exact ⟨less, .inr called⟩

/-- A declaration ends behind its first target, unless a value or another target follows. -/
theorem Nonterminal.Matches.declaration_cases
    (matched : variableDeclaration.Matches terminals fuel scope before after) :
    ∃ less start target, start.position = before.position + 1 ∧
      bindingTarget.Matches terminals less scope start target ∧
      (terminals.kindAt target.position ∈ [Kind.eq, .comma] ∨ after.position = target.position) := by
  obtain ⟨less, rfl, inner, ⟨opened, ⟨_, keyword⟩, listed, items, rfl⟩, rfl⟩ := matched.derives
  have behind : opened.position = before.position + 1 := by
    rcases keyword with ⟨_, rfl⟩ | ⟨_, _, _, impossible⟩
    · rfl
    · exact impossible.elim
  have items : (Nonterminal.items .declarators).Matches terminals less scope opened.inside listed := items
  obtain ⟨less, rfl, element, called, rest⟩ := items.derives
  have called : bindingElement.Matches terminals less scope opened.inside element := called
  obtain ⟨less, rfl, target, bound, initial⟩ := called.derives
  refine ⟨less, opened.inside, target, behind, bound, ?_⟩
  obtain ⟨_, ⟨admitted, _⟩ | ⟨_, rfl⟩⟩ := initial
  · have isEq : terminals.kindAt target.position = .eq := Guard.kindAt_eq admitted (by decide)
    exact .inl (by simp [isEq])
  · obtain ⟨_, ⟨admitted, _⟩ | ⟨_, rfl⟩⟩ := rest
    · have isComma : terminals.kindAt element.position = .comma := Guard.kindAt_eq admitted (by decide)
      exact .inl (by simp [isComma])
    · exact .inr rfl

/-- Links that stand at no link take nothing. -/
theorem Nonterminal.Matches.memberTail_stays
    (links : (memberTail true).Matches terminals fuel scope before after)
    (next : terminals.kindAt before.position ∈ .eq :: .comma :: .inKw :: .leftBrace :: identifierKinds) :
    after.position = before.position :=
  (links.heeds _ responseDepth next).eq_of_ne_moves (by decide +kernel)

theorem Nonterminal.Matches.memberTail_index
    (links : (memberTail true).Matches terminals fuel scope before after)
    (opens : terminals.kindAt before.position = .leftBracket) :
    ∃ less behind, terminals.Spans .nothing [.square] (before.position + 1) [] behind.position ∧
      (memberTail true).Matches terminals less scope behind after := by
  obtain ⟨less, rfl, derives⟩ := links.derives
  rcases Production.derives_select derives with ⟨entry, member, targets, admitted, body⟩ | ⟨none, _⟩
  · have shows := Guard.shows_facts admitted
    have excluded {kinds : List Kind} (fact : (0, kinds) ∈ entry.1.facts)
        (notMem : .leftBracket ∉ kinds) : False := notMem (opens ▸ shows _ fact)
    simp only [if_true, List.cons_append, List.nil_append, List.mem_cons, List.not_mem_nil,
      or_false] at member
    rcases member with rfl | rfl | rfl | rfl | rfl
    · exact (excluded (List.mem_singleton_self _) (by decide)).elim
    · obtain ⟨_, ⟨_, first, inner, _, ⟨_, rfl, inside⟩, rfl⟩, rest⟩ := body
      exact ⟨less, before.wrapNode .bracketMemberExpression first inner,
        Production.spans_of_closes (by decide +kernel) inside, rest⟩
    · exact (excluded (List.mem_singleton_self _) (by decide)).elim
    · exact (excluded (List.mem_singleton_self _) (by decide)).elim
    · exact (excluded (List.mem_singleton_self _) (by decide)).elim
  · obtain ⟨targets, rejected⟩ := none
      (.nextIs .leftBracket, .seq (.wrap .bracketMemberExpression (Production.series
        [.take, .call .expression, Production.expect .rightBracket])) (.call (memberTail true)))
      (by simp)
    rw [Guard.admits, Nat.add_zero, opens] at rejected
    cases rejected

/-- Of the keywords of declarations only `let` is a name, and links follow it. -/
theorem Nonterminal.Matches.links_of_keyword
    (matched : leftHandSide.Matches terminals fuel scope before after)
    (keyword : terminals.kindAt before.position ∈ declarationKeywords) :
    ∃ less behind, behind.position = before.position + 1 ∧
      (memberTail true).Matches terminals less scope behind after := by
  have isLet : terminals.kindAt before.position = .letKw := by
    have refuses : leftHandSide.respond [.varKw, .constKw] = .refuses := by decide +kernel
    by_cases isOther : terminals.kindAt before.position ∈ [Kind.varKw, .constKw]
    · have allows := matched.heeds _ responseDepth isOther
      rw [← respond, refuses] at allows
      exact allows.elim
    · simp_all [declarationKeywords]
  obtain ⟨less, rfl, named, ⟨_, ⟨admitted, _⟩ | ⟨_, called⟩⟩, links⟩ := matched.derives
  · rw [Guard.kindAt_eq admitted (List.mem_singleton_self _)] at isLet
    cases isLet
  · have called : primary.Matches terminals less scope before named := called
    refine ⟨less, named, ?_, links⟩
    rcases called.primary_cases (by rw [isLet]; decide) with ⟨_, grouped⟩ | ⟨isAsync, _⟩ | ⟨_, behind⟩
    · rw [grouped.spans_parenthesized.1] at isLet
      cases isLet
    · rw [isAsync] at isLet
      cases isLet
    · exact behind

/-- A declaration and a target that start with `let` end at one position in front of `in` or `of`, unless
`of` is the first name that is declared. -/
theorem Nonterminal.Matches.declaration_or_target
    (declares : variableDeclaration.Matches terminals fuel scope before after)
    (target : leftHandSide.Matches terminals other scope before' after')
    (keyword : terminals.kindAt before.position ∈ declarationKeywords)
    (same : before.position = before'.position)
    (ends : terminals.kindAt after.position ∈ [Kind.inKw, .ofKw])
    (ends' : terminals.kindAt after'.position ∈ [Kind.inKw, .ofKw]) :
    after.position = after'.position ∨ terminals.kindAt after'.position = .ofKw ∧
      (terminals.kindAt (after'.position + 1) ∈ [Kind.eq, .comma] ∨
        after.position = after'.position + 1) := by
  obtain ⟨_, start, bound, behind, called, further⟩ := declares.declaration_cases
  obtain ⟨_, named, behind', links⟩ := target.links_of_keyword (same ▸ keyword)
  have starts : start.position = named.position := by rw [behind, behind', same]
  obtain ⟨less, rfl, _, ⟨admitted, pattern⟩ | ⟨_, _, ⟨admitted, _⟩ | ⟨_, name⟩⟩⟩ := called.derives
  · -- `let [`: the pattern ends where the index does, and no link follows what may come there.
    have opens : terminals.kindAt start.position = .leftBracket := Guard.kindAt_eq admitted (by decide)
    have pattern : arrayBindingPattern.Matches terminals less scope start bound := pattern
    obtain ⟨_, index, spans, rest⟩ := links.memberTail_index (starts ▸ opens)
    have there : bound.position = index.position := pattern.spans_pattern.2.stop_eq (starts ▸ spans)
    have stays (next : terminals.kindAt bound.position ∈ [Kind.eq, .comma, .inKw, .ofKw]) :
        after'.position = bound.position := by
      refine (rest.memberTail_stays ?_).trans there.symm
      rw [← there]
      exact (by decide : ∀ kind ∈ [Kind.eq, .comma, .inKw, .ofKw],
        kind ∈ .eq :: .comma :: .inKw :: .leftBrace :: identifierKinds) _ next
    rcases further with goesOn | stops
    · have halted := stays ((by decide : ∀ kind ∈ [Kind.eq, .comma],
        kind ∈ [Kind.eq, .comma, .inKw, .ofKw]) _ goesOn)
      rw [halted] at ends'
      exact absurd ends' ((by decide : ∀ kind ∈ [Kind.eq, .comma], kind ∉ [Kind.inKw, .ofKw]) _ goesOn)
    · rw [stops] at ends
      refine .inl (stops.trans (stays ?_).symm)
      exact (by decide : ∀ kind ∈ [Kind.inKw, .ofKw], kind ∈ [Kind.eq, .comma, .inKw, .ofKw]) _ ends
  · have opens : terminals.kindAt start.position = .leftBrace := Guard.kindAt_eq admitted (by decide)
    rw [links.memberTail_stays (by simp [← starts, opens]), ← starts, opens] at ends'
    exact absurd ends' (by decide)
  · have name : bindingIdentifier.Matches terminals less scope start bound := name
    obtain ⟨isName, next⟩ := name.of_bindingIdentifier
    have among := ParseState.mem_identifierKinds isName
    have there : after'.position = start.position :=
      (links.memberTail_stays (by simp [← starts, among])).trans starts.symm
    rw [there] at ends' ⊢
    rw [← next]
    have isOf : terminals.kindAt start.position = .ofKw :=
      (by decide : ∀ kind ∈ identifierKinds, kind ∈ [Kind.inKw, .ofKw] → kind = .ofKw) _ among ends'
    exact .inr ⟨isOf, further⟩

/-- What comes behind `of` does not start with any of these. -/
theorem Nonterminal.Matches.assignment_starts
    (value : assignment.Matches terminals fuel scope before after) :
    terminals.kindAt before.position ∉ [Kind.fatArrow, .eq, .comma, .inKw] := by
  intro next
  have allows := value.heeds _ responseDepth (List.mem_singleton_self _)
  rw [← respond, respond_assignment _ next] at allows
  exact allows.elim

/-- One text has no binding in front of `in` and another one in front of `of` and a value. -/
theorem Nonterminal.Matches.not_in_and_of (plain : scope.yieldOperator = false)
    (same : before.position = before'.position)
    (objects : forBinding.Matches terminals fuel scope before after)
    (isIn : terminals.kindAt after.position = .inKw)
    (iterables : forBinding.Matches terminals other scope before' after')
    (isOf : terminals.kindAt after'.position = .ofKw)
    (value : terminals.kindAt (after'.position + 1) ∉ [Kind.fatArrow, .eq, .comma, .inKw]) : False := by
  have apart : after.position ≠ after'.position := by
    intro ends
    rw [ends, isOf] at isIn
    cases isIn
  obtain ⟨_, ⟨keyword, one⟩ | one⟩ := objects.forBinding_cases <;>
    obtain ⟨_, ⟨keyword', another⟩ | another⟩ := iterables.forBinding_cases
  · rcases matches_end terminals _ variableDeclaration .loose rfl _ scope _ _ _ _ (fun _ => plain) same
      one another with ends | halts | halts
    · exact apart ends
    · have among := halts.mem
      rw [isIn] at among
      exact absurd among (by decide)
    · rcases halts with among | ⟨_, isArrow⟩
      · rw [isOf] at among
        exact absurd among (by decide)
      · exact value (by simp [isArrow])
  · rcases one.declaration_or_target another keyword same (by simp [isIn]) (by simp [isOf]) with
      ends | ⟨_, next | ends⟩
    · exact apart ends
    · exact value ((by decide : ∀ kind ∈ [Kind.eq, .comma],
        kind ∈ [Kind.fatArrow, .eq, .comma, .inKw]) _ next)
    · exact value (by simp [← ends, isIn])
  · rcases another.declaration_or_target one keyword' same.symm (by simp [isOf]) (by simp [isIn]) with
      ends | ⟨isOf', _⟩
    · exact apart ends.symm
    · rw [isIn] at isOf'
      cases isOf'
  · exact apart (matches_end terminals _ leftHandSide .fixed rfl _ scope _ _ _ _ nofun same one another)

/-! ## Whole heads -/

/-- Parentheses hold nothing but what stands bare up to the closing one. -/
theorem Terminals.Spans.not_semicolon {start stop closing : Nat}
    (spans : terminals.Spans .noSemicolon [] start [] closing)
    (closes : terminals.kindAt closing = .rightParen)
    (others : terminals.Spans .anything [] start [] stop)
    (semicolon : terminals.kindAt stop = .semicolon) : False := by
  rcases Nat.lt_trichotomy stop closing with inside | rfl | behind
  · have allows := spans.bare stop others.le inside others.reads
    rw [semicolon] at allows
    cases allows
  · rw [closes] at semicolon
    cases semicolon
  · obtain ⟨stack, reads⟩ := read_of_le (Nat.le_succ_of_le spans.le) behind others.reads
    rw [← word_append spans.le (Nat.le_succ closing), Bracket.read_append, spans.reads, word_succ,
      closes] at reads
    cases reads

/-- The head of a `for` statement from its keyword on: a binding, a word and a value between parentheses. -/
inductive Terminals.BindsAt (terminals : Terminals) (scope : Scope) (word : Kind) (value : Nonterminal)
    (start : Nat) : Prop
  | intro {fuel : Nat} {before after first last : Place} (starts : before.position = start + 2)
      (binding : Nonterminal.forBinding.Matches terminals fuel scope before after)
      (next : terminals.kindAt after.position = word) (behind : first.position = after.position + 1)
      (values : value.Matches terminals fuel scope first last)
      (closes : terminals.kindAt last.position = .rightParen)

theorem Production.bindsAt_of_forIn
    (derives : (series forInHead).Derives terminals (Nonterminal.Matches terminals fuel) scope before
      after) : terminals.BindsAt scope .inKw .expression before.position := by
  obtain ⟨_, isFor, _, opens, bound, binding, _, word, ended, values, closes⟩ := derives
  obtain ⟨-, rfl⟩ := derives_expect isFor
  obtain ⟨-, rfl⟩ := derives_expect opens
  obtain ⟨next, rfl⟩ := derives_expect word
  exact .intro rfl binding next rfl values (derives_expect closes).1

theorem Production.bindsAt_of_forOf (noAwait : scope.awaitOperator = false)
    (derives : (series forOfHead).Derives terminals (Nonterminal.Matches terminals fuel) scope before
      after) : terminals.BindsAt scope .ofKw .assignment before.position := by
  obtain ⟨_, isFor, _, ⟨_, ⟨awaits, _⟩ | ⟨_, rfl⟩⟩, _, opens, bound, binding, _, word, ended, values,
    closes⟩ := derives
  · rw [Guard.admits, noAwait] at awaits
    cases awaits
  · obtain ⟨-, rfl⟩ := derives_expect isFor
    obtain ⟨-, rfl⟩ := derives_expect opens
    obtain ⟨next, rfl⟩ := derives_expect word
    exact .intro rfl binding next rfl values (derives_expect closes).1

theorem Terminals.BindsAt.spans {word : Kind} {value : Nonterminal} {start : Nat}
    (binds : terminals.BindsAt scope word value start)
    (plain : Bracket.readKind [] word = some [] ∧ word ≠ .semicolon)
    (leaves : value.leavesBare .noSemicolon = true ∧ value.isProper = true ∧ value.known = [] ∧
      value.opened = []) :
    ∃ closing, terminals.Spans .noSemicolon [] (start + 2) [] closing ∧
      terminals.kindAt closing = .rightParen := by
  obtain ⟨starts, binding, next, behind, values, closes⟩ := binds
  have bound := binding.spans .noSemicolon rfl rfl .nil
  have held := values.spans .noSemicolon leaves.1 leaves.2.1 (leaves.2.2.1 ▸ .nil)
  rw [leaves.2.2.2, behind] at held
  rw [starts] at bound
  have between : terminals.Spans .noSemicolon [] _ [] _ :=
    .take (next ▸ plain.1) fun _ => by simpa [Bareness.allows, next] using plain.2
  exact ⟨_, (bound.trans between).trans held, closes⟩

theorem Production.spans_of_classicFor
    (derives : (series classicForHead).Derives terminals (Nonterminal.Matches terminals fuel) scope before
      after) :
    ∃ stop, terminals.Spans .anything [] (before.position + 2) [] stop ∧
      terminals.kindAt stop = .semicolon := by
  obtain ⟨_, isFor, _, opens, initial, started, _, semicolon, _⟩ := derives
  obtain ⟨-, rfl⟩ := derives_expect isFor
  obtain ⟨-, rfl⟩ := derives_expect opens
  refine ⟨_, ?_, (derives_expect semicolon).1⟩
  obtain ⟨_, ⟨_, rfl⟩ | ⟨_, _, ⟨_, called | called | impossible⟩ | ⟨_, called⟩⟩⟩ := started
  · exact .refl
  · exact Nonterminal.Matches.spans called .anything rfl rfl .nil
  · exact Nonterminal.Matches.spans called .anything rfl rfl .nil
  · exact impossible.elim
  · exact Nonterminal.Matches.spans called .anything rfl rfl .nil

end Heads

/-! ## Heads exclude each other -/

/-- The head of a form of a `for` statement matches at a place. -/
def Production.Heads (terminals : Terminals) (head : List Production) (place : Place) : Prop :=
  ∃ fuel middle, (series head).Derives terminals (Nonterminal.Matches terminals fuel) .outermost
    place.inside middle

namespace Production.Heads

variable {terminals : Terminals} {place : Place}

theorem not_forIn_and_forOf (one : Heads terminals forInHead place)
    (another : Heads terminals forOfHead place) : False := by
  obtain ⟨_, _, one⟩ := one
  obtain ⟨_, _, another⟩ := another
  obtain ⟨starts, binding, isIn, -, -, -⟩ := Production.bindsAt_of_forIn one
  obtain ⟨starts', binding', isOf, behind, values, -⟩ := Production.bindsAt_of_forOf rfl another
  exact binding.not_in_and_of rfl (starts.trans starts'.symm) isIn binding' isOf
    (behind ▸ values.assignment_starts)

theorem not_forIn_and_classicFor (one : Heads terminals forInHead place)
    (another : Heads terminals classicForHead place) : False := by
  obtain ⟨_, _, one⟩ := one
  obtain ⟨_, _, another⟩ := another
  obtain ⟨closing, spans, closes⟩ := (Production.bindsAt_of_forIn one).spans (by decide) (by decide)
  obtain ⟨stop, others, semicolon⟩ := Production.spans_of_classicFor another
  exact spans.not_semicolon closes others semicolon

theorem not_forOf_and_classicFor (one : Heads terminals forOfHead place)
    (another : Heads terminals classicForHead place) : False := by
  obtain ⟨_, _, one⟩ := one
  obtain ⟨_, _, another⟩ := another
  obtain ⟨closing, spans, closes⟩ :=
    (Production.bindsAt_of_forOf rfl one).spans (by decide) (by decide)
  obtain ⟨stop, others, semicolon⟩ := Production.spans_of_classicFor another
  exact spans.not_semicolon closes others semicolon

end Production.Heads

end ScriptTree
