import ScriptTree.Proofs.Nesting

/-! # Derivations

What a production can do when it matches, told without the history of the parse: which alternative was
tried before and which targets were marked is left open. A property of matches that every production
hands on from what it calls to itself holds of every match. -/
set_option autoImplicit false
namespace ScriptTree

/-- A production may lead from one place to another, if `call` says what the productions it calls may
do. -/
def Production.Derives (terminals : Terminals) (call : Nonterminal → Scope → Place → Place → Prop) :
    Production → Scope → Place → Place → Prop
  | .empty, _, before, after => after = before
  | .refuse, _, _, _ => False
  | .take, _, before, after => after = before.take terminals
  | .expected _, _, before, after => after = before
  | .expectedConstruct _, _, before, after => after = before
  | .call nonterminal, scope, before, after => call nonterminal scope before after
  | .seq first second, scope, before, after =>
      ∃ middle, first.Derives terminals call scope before middle ∧
        second.Derives terminals call scope middle after
  | .branch guard yes no, scope, before, after =>
      ∃ targets,
        (guard.admits terminals scope before targets = true ∧
          yes.Derives terminals call scope before after) ∨
        (guard.admits terminals scope before targets = false ∧
          no.Derives terminals call scope before after)
  | .node kind body, scope, before, after =>
      ∃ inner, body.Derives terminals call scope before.inside inner ∧
        after = before.addNode kind inner
  | .fork head guard kindYes yes kindNo no, scope, before, after =>
      ∃ middle inner targets, head.Derives terminals call scope before.inside middle ∧
        ((guard.admits terminals scope middle targets = true ∧
            yes.Derives terminals call scope middle inner ∧ after = before.addNode kindYes inner) ∨
          (guard.admits terminals scope middle targets = false ∧
            no.Derives terminals call scope middle inner ∧ after = before.addNode kindNo inner))
  | .wrap kind body, scope, before, after =>
      ∃ wrapped first inner, before.completed = some (wrapped, first) ∧
        body.Derives terminals call scope before.inside inner ∧
        after = before.wrapNode kind first inner
  | .orElse first second, scope, before, after =>
      first.Derives terminals call scope before after ∨
        second.Derives terminals call scope before after
  | .onceOrElse first second, scope, before, after =>
      first.Derives terminals call scope before after ∨
        second.Derives terminals call scope before after
  | .inScope change body, scope, before, after =>
      body.Derives terminals call (change.apply scope) before after
  | .list body, scope, before, after =>
      ∃ inner, body.Derives terminals call scope before.inside inner ∧ after = before.addList inner
  | .hole, _, before, after => after = before.addHole
  | .markTarget, _, before, after => after = before

theorem Production.Derives.imp {terminals : Terminals}
    {strict weak : Nonterminal → Scope → Place → Place → Prop}
    (implied : ∀ nonterminal scope before after, strict nonterminal scope before after →
      weak nonterminal scope before after) {production : Production} :
    ∀ {scope : Scope} {before after : Place}, production.Derives terminals strict scope before after →
      production.Derives terminals weak scope before after := by
  induction production with
  | empty | refuse | take | expected kind | expectedConstruct name | hole | markTarget =>
      intro scope before after derives
      exact derives
  | call nonterminal =>
      intro scope before after derives
      exact implied _ _ _ _ derives
  | seq first second firstIh secondIh =>
      rintro scope before after ⟨middle, earlier, later⟩
      exact ⟨middle, firstIh earlier, secondIh later⟩
  | branch guard yes no yesIh noIh =>
      rintro scope before after ⟨targets, ⟨admitted, derives⟩ | ⟨rejected, derives⟩⟩
      · exact ⟨targets, .inl ⟨admitted, yesIh derives⟩⟩
      · exact ⟨targets, .inr ⟨rejected, noIh derives⟩⟩
  | node kind body ih | list body ih =>
      rintro scope before after ⟨inner, derives, same⟩
      exact ⟨inner, ih derives, same⟩
  | fork head guard kindYes yes kindNo no headIh yesIh noIh =>
      rintro scope before after ⟨middle, inner, targets, head,
        ⟨admitted, derives, same⟩ | ⟨rejected, derives, same⟩⟩
      · exact ⟨middle, inner, targets, headIh head, .inl ⟨admitted, yesIh derives, same⟩⟩
      · exact ⟨middle, inner, targets, headIh head, .inr ⟨rejected, noIh derives, same⟩⟩
  | wrap kind body ih =>
      rintro scope before after ⟨wrapped, first, inner, completed, derives, same⟩
      exact ⟨wrapped, first, inner, completed, ih derives, same⟩
  | orElse first second firstIh secondIh | onceOrElse first second firstIh secondIh =>
      rintro scope before after (derives | derives)
      · exact .inl (firstIh derives)
      · exact .inr (secondIh derives)
  | inScope change body ih =>
      intro scope before after derives
      exact ih derives

/-! ## Tokens and chains of guards -/

theorem Production.derives_expect {terminals : Terminals}
    {call : Nonterminal → Scope → Place → Place → Prop} {scope : Scope} {before after : Place}
    {kind : Kind}
    (derives : (expect kind).Derives terminals call scope before after) :
    terminals.kindAt before.position = kind ∧ after = before.take terminals := by
  obtain ⟨_, ⟨admitted, taken⟩ | ⟨_, _, _, impossible⟩⟩ := derives
  · exact ⟨by simpa [Guard.admits] using admitted, taken⟩
  · exact impossible.elim

/-- A choice by guards goes the way of one that holds, or all of them fail. -/
theorem Production.derives_select {terminals : Terminals}
    {call : Nonterminal → Scope → Place → Place → Prop} {cases : List (Guard × Production)}
    {otherwise : Production} {scope : Scope} {before after : Place}
    (derives : (select cases otherwise).Derives terminals call scope before after) :
    (∃ entry ∈ cases, ∃ targets, entry.1.admits terminals scope before targets = true ∧
      entry.2.Derives terminals call scope before after) ∨
    ((∀ entry ∈ cases, ∃ targets, entry.1.admits terminals scope before targets = false) ∧
      otherwise.Derives terminals call scope before after) := by
  induction cases with
  | nil => exact .inr ⟨by simp, derives⟩
  | cons entry rest ih =>
      obtain ⟨targets, ⟨admitted, body⟩ | ⟨rejected, further⟩⟩ := derives
      · exact .inl ⟨entry, by simp, targets, admitted, body⟩
      · rcases ih further with ⟨other, member, there⟩ | ⟨all, other⟩
        · exact .inl ⟨other, List.mem_cons_of_mem _ member, there⟩
        · refine .inr ⟨?_, other⟩
          intro other member
          rcases List.mem_cons.mp member with rfl | member
          · exact ⟨targets, rejected⟩
          · exact all other member

/-! ## Parses that matched -/

namespace Parse

theorem andThen_matched {parse : Parse} {next : Place → History → Parse} {place : Place}
    {history : History} (matched : parse.andThen next = .matched place history) :
    ∃ middle meanwhile, parse = .matched middle meanwhile ∧
      next middle meanwhile = .matched place history := by
  cases parse with
  | matched middle meanwhile => exact ⟨middle, meanwhile, rfl, matched⟩
  | refused history => cases matched
  | outOfFuel => cases matched

theorem orElse_matched {parse : Parse} {otherwise : History → Parse} {place : Place}
    {history : History} (matched : parse.orElse otherwise = .matched place history) :
    parse = .matched place history ∨ ∃ later, otherwise later = .matched place history := by
  cases parse with
  | matched middle meanwhile => exact .inl matched
  | refused later => exact .inr ⟨later, matched⟩
  | outOfFuel => cases matched

end Parse

def CallsSatisfy (call : Nonterminal → Scope → Place → History → Parse)
    (property : Nonterminal → Scope → Place → Place → Prop) : Prop :=
  ∀ (nonterminal : Nonterminal) (scope : Scope) (before after : Place) (history later : History),
    call nonterminal scope before history = .matched after later →
      property nonterminal scope before after

theorem Production.derives_of_nest {terminals : Terminals}
    {call : Nonterminal → Scope → Place → History → Parse}
    {property : Nonterminal → Scope → Place → Place → Prop} (satisfied : CallsSatisfy call property)
    (production : Production) :
    ∀ (scope : Scope) (before after : Place) (history later : History),
      production.nest terminals call scope before history = .matched after later →
        production.Derives terminals property scope before after := by
  induction production with
  | empty | expected kind | expectedConstruct name | take | hole | markTarget =>
      intro scope before after history later matched
      cases matched
      rfl
  | refuse =>
      intro scope before after history later matched
      cases matched
  | call nonterminal =>
      intro scope before after history later matched
      exact satisfied nonterminal scope before after history later matched
  | seq first second firstIh secondIh =>
      intro scope before after history later matched
      obtain ⟨middle, meanwhile, firstMatched, secondMatched⟩ := Parse.andThen_matched matched
      exact ⟨middle, firstIh _ _ _ _ _ firstMatched, secondIh _ _ _ _ _ secondMatched⟩
  | branch guard yes no yesIh noIh =>
      intro scope before after history later matched
      simp only [nest] at matched
      split at matched
      · rename_i admitted
        exact ⟨history.targets, .inl ⟨admitted, yesIh _ _ _ _ _ matched⟩⟩
      · rename_i rejected
        exact ⟨history.targets, .inr ⟨by simpa using rejected, noIh _ _ _ _ _ matched⟩⟩
  | node kind body ih =>
      intro scope before after history later matched
      obtain ⟨inner, meanwhile, bodyMatched, result⟩ := Parse.andThen_matched matched
      cases result
      exact ⟨inner, ih _ _ _ _ _ bodyMatched, rfl⟩
  | fork head guard kindYes yes kindNo no headIh yesIh noIh =>
      intro scope before after history later matched
      obtain ⟨middle, meanwhile, headMatched, rest⟩ := Parse.andThen_matched matched
      split at rest
      · rename_i admitted
        obtain ⟨inner, _, yesMatched, result⟩ := Parse.andThen_matched rest
        cases result
        exact ⟨middle, inner, meanwhile.targets, headIh _ _ _ _ _ headMatched,
          .inl ⟨admitted, yesIh _ _ _ _ _ yesMatched, rfl⟩⟩
      · rename_i rejected
        obtain ⟨inner, _, noMatched, result⟩ := Parse.andThen_matched rest
        cases result
        exact ⟨middle, inner, meanwhile.targets, headIh _ _ _ _ _ headMatched,
          .inr ⟨by simpa using rejected, noIh _ _ _ _ _ noMatched, rfl⟩⟩
  | wrap kind body ih =>
      intro scope before after history later matched
      simp only [nest] at matched
      cases completed : before.completed with
      | none =>
          rw [completed] at matched
          cases matched
      | some wrapped =>
          rw [completed] at matched
          obtain ⟨inner, meanwhile, bodyMatched, result⟩ := Parse.andThen_matched matched
          cases result
          exact ⟨wrapped.1, wrapped.2, inner, completed, ih _ _ _ _ _ bodyMatched, rfl⟩
  | orElse first second firstIh secondIh =>
      intro scope before after history later matched
      rcases Parse.orElse_matched matched with firstMatched | ⟨meanwhile, secondMatched⟩
      · exact .inl (firstIh _ _ _ _ _ firstMatched)
      · exact .inr (secondIh _ _ _ _ _ secondMatched)
  | onceOrElse first second firstIh secondIh =>
      intro scope before after history later matched
      simp only [nest] at matched
      split at matched
      · exact .inr (secondIh _ _ _ _ _ matched)
      · rcases Parse.orElse_matched matched with firstMatched | ⟨meanwhile, secondMatched⟩
        · exact .inl (firstIh _ _ _ _ _ firstMatched)
        · exact .inr (secondIh _ _ _ _ _ secondMatched)
  | inScope change body ih =>
      intro scope before after history later matched
      exact ih _ _ _ _ _ matched
  | list body ih =>
      intro scope before after history later matched
      obtain ⟨inner, meanwhile, bodyMatched, result⟩ := Parse.andThen_matched matched
      cases result
      exact ⟨inner, ih _ _ _ _ _ bodyMatched, rfl⟩

/-- What every production of a grammar hands on holds of every match. -/
theorem Nonterminal.nestWith_satisfies {grammar : Nonterminal → Production} {terminals : Terminals}
    {property : Nonterminal → Scope → Place → Place → Prop}
    (handsOn : ∀ (nonterminal : Nonterminal) (scope : Scope) (before after : Place),
      (grammar nonterminal).Derives terminals property scope before after →
        property nonterminal scope before after) (fuel : Nat) :
    CallsSatisfy (nestWith grammar terminals fuel) property := by
  induction fuel with
  | zero =>
      intro nonterminal scope before after history later matched
      cases matched
  | succ fuel ih =>
      intro nonterminal scope before after history later matched
      exact handsOn nonterminal scope before after
        ((grammar nonterminal).derives_of_nest ih scope before after history later matched)

end ScriptTree
