import ScriptTree.Proofs.Undoing

/-! # What a refused rule leaves behind

A production that ends in a combinator takes back what it did by itself. One that goes on from a node it
completed does not: refused behind that node, it leaves the node in the log, for its caller to take
back. Four rules are of the second sort. -/
set_option autoImplicit false
set_option maxRecDepth 4000
namespace ScriptTree

/-! ## Productions that take back -/

/-- A production that is refused takes back what it did, if the nonterminals do that it ends in. -/
def Production.takesBack (ends : Nonterminal → Bool) : Production → Bool
  | .seq (.expected _) second | .seq (.expectedConstruct _) second => second.takesBack ends
  | .seq _ _ => false
  | .branch _ yes no => yes.takesBack ends && no.takesBack ends
  | .orElse _ second | .onceOrElse _ second => second.takesBack ends
  | .inScope _ body => body.takesBack ends
  | .call nonterminal => ends nonterminal
  | _ => true

namespace Nonterminal

/-- The nonterminals that end in a combinator, whatever way they go. -/
def takesBack : Nonterminal → Bool
  | scriptItems | statementsUntilBrace | switchClauses | clauseStatements | classMembers
  | templateParts | forBinding | parameter | bindingElement | arrayBindingElement | shorthandBinding
  | expression | sequenceTail | assignment | plainAssignment | conditional | binary _ | binaryTail _
  | unary | postfixed | leftHandSide | memberTail _ | spreadOrAssignment | items _ => false
  | _ => true

theorem takesBack_production {nonterminal : Nonterminal} (proper : nonterminal.isProper = true)
    (takesBack : nonterminal.takesBack = true) :
    nonterminal.production.takesBack Nonterminal.takesBack = true := by
  have passes : ∀ other ∈ listed, (!other.takesBack ||
      other.production.takesBack Nonterminal.takesBack) = true := by decide +kernel
  simpa [takesBack] using passes nonterminal (mem_listed proper)

end Nonterminal

def CallsUndo (terminals : Terminals) (call : Nonterminal → ParseState → Outcome) : Prop :=
  ∀ (nonterminal : Nonterminal) (start : Nat) (state : ParseState), nonterminal.takesBack = true →
    (Production.call nonterminal).Fits state → state.Coherent start →
    (Production.call nonterminal).Undoes terminals call state

theorem Production.undoes_of_takesBack {terminals : Terminals}
    {call : Nonterminal → ParseState → Outcome}
    {nested : Nonterminal → Scope → Place → History → Parse} (calls : CallsMirror call nested)
    (undo : CallsUndo terminals call) {start : Nat} (production : Production) :
    ∀ state, production.takesBack Nonterminal.takesBack = true → production.Fits state →
      state.Coherent start → production.Undoes terminals call state := by
  induction production with
  | empty | take | expected kind | expectedConstruct name | hole | markTarget =>
    rintro state - - - next ⟨⟩
  | refuse => exact fun state _ _ _ => undoes_refuse state
  | call nonterminal =>
    exact fun state takesBack fits coherent => undo nonterminal start state takesBack fits coherent
  | seq first second firstIh secondIh =>
    intro state takesBack fits coherent next ran
    obtain ⟨phase, legal, headed⟩ := fits
    obtain ⟨-, secondLegal⟩ := Verdict.andThen_ne_illegal legal
    -- What is recorded as expected is no part of what is restored.
    cases first with
    | expected kind =>
      have same : (state.expect kind).Restores state := ⟨rfl, rfl, rfl, rfl, rfl⟩
      have fits : second.Fits state := ⟨phase, secondLegal phase rfl, headed⟩
      exact (secondIh _ takesBack (fits.of_restores same) (same.coherent coherent) next ran).trans same
    | expectedConstruct name =>
      have same : (state.expectConstruct name).Restores state := ⟨rfl, rfl, rfl, rfl, rfl⟩
      have fits : second.Fits state := ⟨phase, secondLegal phase rfl, headed⟩
      exact (secondIh _ takesBack (fits.of_restores same) (same.coherent coherent) next ran).trans same
    | _ => cases takesBack
  | branch guard yes no yesIh noIh =>
    intro state takesBack fits coherent
    obtain ⟨phase, legal, headed⟩ := fits
    obtain ⟨yesLegal, noLegal⟩ := Verdict.merge_ne_illegal legal
    obtain ⟨yesBack, noBack⟩ := Bool.and_eq_true_iff.mp takesBack
    exact undoes_branch (yesIh state yesBack ⟨phase, yesLegal, headed⟩ coherent)
      (noIh state noBack ⟨phase, noLegal, headed⟩ coherent)
  | node | fork | wrap | list =>
    exact fun state _ fits coherent => (fits.combines rfl).undoes calls coherent
  | orElse first second firstIh secondIh =>
    intro state takesBack fits coherent
    obtain ⟨phase, legal, headed⟩ := fits
    obtain ⟨firstLegal, secondLegal⟩ := Verdict.merge_ne_illegal legal
    have again : second.Fits state := ⟨phase, secondLegal, headed⟩
    exact undoes_orElse calls coherent ⟨phase, firstLegal, headed⟩ fun back restores =>
      secondIh back takesBack (again.of_restores restores) (restores.coherent coherent)
  | onceOrElse first second firstIh secondIh =>
    intro state takesBack fits coherent
    obtain ⟨phase, legal, headed⟩ := fits
    obtain ⟨firstLegal, secondLegal⟩ := Verdict.merge_ne_illegal legal
    have again : second.Fits state := ⟨phase, secondLegal, headed⟩
    exact undoes_onceOrElse calls coherent ⟨phase, firstLegal, headed⟩ fun back restores =>
      secondIh back takesBack (again.of_restores restores) (restores.coherent coherent)
  | inScope change body ih =>
    intro state takesBack fits coherent next ran
    obtain ⟨phase, legal, headed⟩ := fits
    have bodyUndoes := ih { state with scope := change.apply state.scope } takesBack
      ⟨phase, legal, fun isHeaded => (headed isHeaded).congr rfl rfl rfl⟩
      (coherent.congr rfl rfl rfl)
    obtain ⟨middle, tried, rfl⟩ := Outcome.exists_refused_of_close ran
    obtain ⟨position, log, links, -, completed⟩ := bodyUndoes middle tried
    exact ⟨position, log, links, rfl, completed⟩

namespace Nonterminal

theorem callsUndo_runWith (terminals : Terminals) (fuel : Nat) :
    CallsUndo terminals (runWith production terminals fuel) := by
  induction fuel with
  | zero =>
    rintro nonterminal start state - - - next ⟨⟩
  | succ fuel ih =>
    intro nonterminal start state takesBack fits coherent
    exact nonterminal.production.undoes_of_takesBack (callsMirror_runWith terminals fuel) ih state
      (takesBack_production (isProper_of_fits fits) takesBack) (fits_production fits coherent) coherent

end Nonterminal

/-! ## What is left -/

/-- A state has all that another one has, and perhaps more behind it. -/
structure ParseState.Prolongs (after before : ParseState) : Prop where
  position : before.position ≤ after.position
  log : before.log.toList <+: after.log.toList
  links : before.links <:+ after.links
  scope : after.scope = before.scope

theorem ParseState.Coherent.position_le {after before : ParseState} {start : Nat}
    (coherent : before.Coherent start)
    (later : after.Coherent start) (log : before.log.toList <+: after.log.toList) :
    before.position ≤ after.position := by
  have tokens := (log.filterMap Event.taken?).length_le
  rw [coherent.tokens, later.tokens, List.length_range', List.length_range'] at tokens
  have started := coherent.started
  have startedLater := later.started
  omega

theorem Production.IsClosed.prolongs {terminals : Terminals}
    {call : Nonterminal → ParseState → Outcome}
    {nested : Nonterminal → Scope → Place → History → Parse} {start : Nat} (calls : CallsMirror call nested)
    (cohere : CallsCohere start call) {production : Production} (closed : production.IsClosed)
    {state next : ParseState} (coherent : state.Coherent start)
    (ran : production.run terminals call state = .refused next) : next.Prolongs state := by
  have later := (closed.fits state).isCoherent calls cohere coherent ran
  obtain ⟨phase, legal, unheaded⟩ := closed
  have mirrors := production.run_mirrors terminals calls phase _ _ .empty state legal coherent.lays
    (by simp [unheaded])
  rw [ran] at mirrors
  obtain ⟨grown, -, lays, scope, -⟩ := mirrors
  have log : state.log.toList <+: next.log.toList := lays.log ▸ List.prefix_append _ _
  exact ⟨coherent.position_le later log, log, lays.links ▸ List.suffix_append _ _, scope⟩

/-! ## Rules -/

namespace Rule

/-- The rules that go on from a node they completed, and leave it where they are refused behind it. -/
def leaving : List Rule :=
  [.bindingElement, .expression, .assignmentExpression, .leftHandSideExpression]

/-- The outcome of a rule at a state, with calls nested at most `fuel` deep. -/
def runAt (rule : Rule) (terminals : Terminals) (fuel : Nat) (state : ParseState) : Outcome :=
  Nonterminal.runWith Nonterminal.production terminals fuel rule.nonterminal state

theorem takesBack_of_not_mem {rule : Rule} (other : rule ∉ leaving) :
    rule.nonterminal.takesBack = true := by
  cases rule <;> first | rfl | exact absurd (by decide) other

/-- A text at the start of which a rule leaves its first token behind. -/
def leftBehind : Rule → List Char
  | .bindingElement | .assignmentExpression => ['a', '=', ')']
  | .expression => ['a', ',', ')']
  | _ => ['a', '[', ')']

theorem exists_left_behind {rule : Rule} (leaves : rule ∈ leaving) :
    ∃ next, rule.runAt (tokenize rule.leftBehind).tokens 32 .start =
      .refused next ∧ next.position = 1 := by
  have left : ∀ other ∈ leaving, (other.runAt (tokenize other.leftBehind).tokens 32
      .start).refused?.map (·.position) = some 1 := by
    decide +kernel
  obtain ⟨next, refused, position⟩ := Option.map_eq_some_iff.mp (left rule leaves)
  exact ⟨next, Outcome.eq_refused_of_refused? refused, position⟩

/-- A rule that is refused in a state that comes up in a parse leaves what was there, and at most more
behind it, which coming back to the state takes away. All rules but four leave nothing more. These four
go on from a node they completed, which stays in the log where they are refused behind it. -/
theorem refused_restores_iff (rule : Rule) :
    ((∀ (root : Rule) (terminals : Terminals) (start fuel : Nat) (state next : ParseState),
      root.Visits terminals start state → rule.runAt terminals fuel state = .refused next →
        next.Restores state) ↔ rule ∉ leaving) ∧
    ∀ (root : Rule) (terminals : Terminals) (start fuel : Nat) (state next : ParseState),
      root.Visits terminals start state → rule.runAt terminals fuel state = .refused next →
        next.Prolongs state ∧ (next.rewind state.checkpoint).Restores state := by
  refine ⟨⟨fun restores leaves => ?_, fun other root terminals start fuel state next visited ran => ?_⟩,
    fun root terminals start fuel state next visited ran => ?_⟩
  · obtain ⟨next, ran, position⟩ := exists_left_behind leaves
    have same := (restores rule _ _ _ _ _ (rule.visits_start _ 0) ran).position
    exact absurd (position.symm.trans same) Nat.one_ne_zero
  · exact Nonterminal.callsUndo_runWith terminals fuel rule.nonterminal start state
      (takesBack_of_not_mem other) (rule.isClosed_call.fits state) visited.coherent next ran
  · have calls := Nonterminal.callsMirror_runWith terminals fuel
    have ran : (Production.call rule.nonterminal).run terminals
        (Nonterminal.runWith Nonterminal.production terminals fuel) state = .refused next := ran
    exact ⟨rule.isClosed_call.prolongs calls (Nonterminal.callsCohere_runWith start terminals fuel)
      visited.coherent ran, (rule.isClosed_call.fits state).restores_rewind calls visited.coherent ran⟩

/-- A target is left where its initializer is refused. -/
theorem bindingElement_leaves_target :
    let terminals := (tokenize ['a', ' ', '=', ' ', ')']).tokens
    Rule.bindingElement.Visits terminals 0 .start ∧
    ∃ next, Rule.bindingElement.runAt terminals 32 .start = .refused next ∧
      ParseState.start.position = 0 ∧ next.position = 1 ∧
      ParseState.start.log = #[] ∧
      next.log = #[.start .bindingIdentifier none, .token 0, .finish] := by
  intro terminals
  refine ⟨visits_start _ _ 0, ?_⟩
  have left : (Rule.bindingElement.runAt terminals 32 .start).refused?.map
      (fun next => (next.position, next.log)) =
        some (1, #[.start .bindingIdentifier none, .token 0, .finish]) := by
    decide +kernel
  obtain ⟨next, refused, parts⟩ := Option.map_eq_some_iff.mp left
  obtain ⟨position, log⟩ := Prod.mk.inj parts
  exact ⟨next, Outcome.eq_refused_of_refused? refused, rfl, position, rfl, log⟩

end Rule

end ScriptTree
