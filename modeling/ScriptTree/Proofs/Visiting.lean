import ScriptTree.Proofs.Progress
import ScriptTree.Proofs.Rollback

/-! # States that a parse comes to

A parse of a rule calls nonterminals, and each part of their productions that has its turn runs at a
state. Whatever is called or has its turn may stand where it is, so that links and tokens agree with the
log in every state that comes up, also in those that are taken back later. -/
set_option autoImplicit false
namespace ScriptTree

/-! ## Productions that may run -/

/-- A production may run at a state: if it goes on from the node completed last, that one stands at the
end. -/
def Production.Fits (production : Production) (state : ParseState) : Prop :=
  ∃ phase : Phase, production.check phase ≠ .illegal ∧ (phase.isHeaded = true → state.EndsInNode)

/-- A production goes on from no node but those that it completes. -/
def Production.IsClosed (production : Production) : Prop :=
  ∃ phase : Phase, production.check phase ≠ .illegal ∧ phase.isHeaded = false

namespace Production

variable {production : Production} {state after before : ParseState} {start : Nat}

theorem IsClosed.fits (closed : production.IsClosed) (state : ParseState) : production.Fits state := by
  obtain ⟨phase, legal, unheaded⟩ := closed
  exact ⟨phase, legal, fun headed => by simp [unheaded] at headed⟩

theorem Fits.of_restores (fits : production.Fits before) (restores : after.Restores before) :
    production.Fits after := by
  obtain ⟨phase, legal, headed⟩ := fits
  exact ⟨phase, legal, fun isHeaded =>
    (headed isHeaded).congr restores.log restores.links restores.completed⟩

theorem Fits.exists_stands (fits : production.Fits state) (coherent : state.Coherent start) :
    ∃ phase, production.check phase ≠ .illegal ∧ state.Stands start phase := by
  obtain ⟨phase, legal, headed⟩ := fits
  exact ⟨phase, legal, coherent, headed⟩

end Production

/-- A nonterminal that goes on from no other node may be called anywhere. -/
theorem Nonterminal.isClosed_call {nonterminal : Nonterminal} (proper : nonterminal.isProper = true)
    (fresh : nonterminal.role ≠ .tail) : (Production.call nonterminal).IsClosed := by
  cases role : nonterminal.role with
  | tail => exact absurd role fresh
  | node | content => exact ⟨.inNode false, by simp [Production.check, proper, role, Role.apply,
      Phase.addNode, Phase.addList, Verdict.ofOption], rfl⟩
  | items => exact ⟨.beforeElement, by simp [Production.check, proper, role, Role.apply,
      Verdict.ofOption], rfl⟩

/-- Any other goes on from the node completed last. -/
theorem Nonterminal.fits_call {nonterminal : Nonterminal} {state : ParseState}
    (proper : nonterminal.isProper = true)
    (headed : nonterminal.role = .tail → state.EndsInNode) :
    (Production.call nonterminal).Fits state := by
  by_cases role : nonterminal.role = .tail
  · exact ⟨.inNode true, by simp [Production.check, proper, role, Role.apply, Phase.isHeaded,
      Verdict.ofOption], fun _ => headed role⟩
  · exact (isClosed_call proper role).fits state

/-! ## Parts that have their turn -/

section Parts

variable {start : Nat} {terminals : Terminals} {call : Nonterminal → ParseState → Outcome}
  {nested : Nonterminal → Scope → Place → History → Parse} (calls : CallsMirror call nested)
  (cohere : CallsCohere start call)
include calls cohere

/-- A part that has its turn may stand where it has it. -/
theorem Production.Passes.exists_stands {production part : Production} {state place : ParseState}
    (passes : production.Passes terminals call state part place) :
    ∀ phase, production.check phase ≠ .illegal → state.Stands start phase →
      ∃ later, part.check later ≠ .illegal ∧ place.Stands start later := by
  induction passes with
  | here part place => exact fun phase legal stands => ⟨phase, legal, stands⟩
  | seqFirst _ ih =>
    intro phase legal stands
    exact ih phase (Verdict.andThen_ne_illegal legal).1 stands
  | seqSecond ran _ ih =>
    intro phase legal stands
    obtain ⟨firstLegal, secondLegal⟩ := Verdict.andThen_ne_illegal legal
    obtain ⟨after, reached, later⟩ :=
      (Production.coheres_run calls cohere _).stands_of_matched calls firstLegal stands ran
    exact ih after (secondLegal after reached) later
  | branchYes _ _ ih =>
    intro phase legal stands
    exact ih phase (Verdict.merge_ne_illegal legal).1 stands
  | branchNo _ _ ih =>
    intro phase legal stands
    exact ih phase (Verdict.merge_ne_illegal legal).2 stands
  | node _ ih =>
    intro phase legal stands
    exact ih (.inNode false) (Verdict.andThen_ne_illegal legal).1
      ((stands.coherent.record rfl rfl).stands rfl)
  | forkHead _ ih =>
    intro phase legal stands
    exact ih (.inNode false) (Verdict.andThen_ne_illegal legal).1
      ((stands.coherent.record rfl rfl).stands rfl)
  | forkYes ran _ _ ih =>
    intro phase legal stands
    obtain ⟨headLegal, tailLegal⟩ := Verdict.andThen_ne_illegal legal
    obtain ⟨middle, reached, later⟩ := (Production.coheres_run calls cohere _).stands_of_matched
      calls headLegal ((stands.coherent.record rfl rfl).stands rfl) ran
    obtain ⟨mergeLegal, -⟩ := Verdict.andThen_ne_illegal (tailLegal middle reached)
    exact ih middle (Verdict.merge_ne_illegal mergeLegal).1 later
  | forkNo ran _ _ ih =>
    intro phase legal stands
    obtain ⟨headLegal, tailLegal⟩ := Verdict.andThen_ne_illegal legal
    obtain ⟨middle, reached, later⟩ := (Production.coheres_run calls cohere _).stands_of_matched
      calls headLegal ((stands.coherent.record rfl rfl).stands rfl) ran
    obtain ⟨mergeLegal, -⟩ := Verdict.andThen_ne_illegal (tailLegal middle reached)
    exact ih middle (Verdict.merge_ne_illegal mergeLegal).2 later
  | wrap completed _ ih =>
    intro phase legal stands
    simp only [Production.check] at legal
    split at legal
    · rename_i headed
      obtain ⟨_, unwrapped⟩ := (stands.headed headed).isUnwrapped _ completed
      exact ih (.inNode false) (Verdict.andThen_ne_illegal legal).1
        ((stands.coherent.precede unwrapped).stands rfl)
    · exact absurd rfl legal
  | orElseFirst _ ih =>
    intro phase legal stands
    exact ih phase (Verdict.merge_ne_illegal legal).1 stands
  | orElseSecond ran _ ih =>
    intro phase legal stands
    obtain ⟨firstLegal, secondLegal⟩ := Verdict.merge_ne_illegal legal
    exact ih phase secondLegal (Production.stands_of_refused calls _ firstLegal stands ran)
  | onceFirst _ _ ih =>
    intro phase legal stands
    exact ih phase (Verdict.merge_ne_illegal legal).1 stands
  | onceSecond _ ran _ ih =>
    intro phase legal stands
    obtain ⟨firstLegal, secondLegal⟩ := Verdict.merge_ne_illegal legal
    exact ih phase secondLegal
      ((Production.stands_of_refused calls _ firstLegal stands ran).congr rfl rfl rfl rfl)
  | onceAgain _ _ ih =>
    intro phase legal stands
    exact ih phase (Verdict.merge_ne_illegal legal).2 stands
  | inScope _ ih =>
    intro phase legal stands
    exact ih phase legal (stands.congr rfl rfl rfl rfl)
  | list _ ih =>
    intro phase legal stands
    exact ih .beforeElement (Verdict.andThen_ne_illegal legal).1
      ((stands.coherent.record rfl rfl).stands rfl)

theorem Production.Fits.isCoherent {production : Production} {state : ParseState} {outcome : Outcome}
    (fits : production.Fits state) (coherent : state.Coherent start)
    (ran : production.run terminals call state = outcome) : outcome.IsCoherent start := by
  obtain ⟨phase, legal, stands⟩ := fits.exists_stands coherent
  exact ran ▸ production.coheres_run calls cohere phase state legal stands

end Parts

namespace Nonterminal

variable {terminals : Terminals} {nonterminal callee : Nonterminal} {state place : ParseState}
  {start : Nat}

theorem isProper_of_fits (fits : (Production.call nonterminal).Fits state) :
    nonterminal.isProper = true := by
  obtain ⟨phase, legal, -⟩ := fits
  simp only [Production.check] at legal
  split at legal
  · assumption
  · exact absurd rfl legal

theorem fits_production (fits : (Production.call nonterminal).Fits state)
    (coherent : state.Coherent start) : nonterminal.production.Fits state := by
  have proper := isProper_of_fits fits
  obtain ⟨before, legal, stands⟩ := fits.exists_stands coherent
  rw [Production.check, if_pos proper] at legal
  obtain ⟨after, applied⟩ := Verdict.ofOption_ne_illegal legal
  obtain ⟨phase, checked, inner⟩ := exists_stands proper applied stands
  exact ⟨phase, checked, inner.headed⟩

/-- A run of the production of a nonterminal passes parts that may run where they have their turn. -/
theorem fits_of_passes {part : Production} {fuel : Nat}
    (passes : nonterminal.production.Passes terminals (runWith production terminals fuel) state part
      place) (fits : nonterminal.production.Fits state) (coherent : state.Coherent start) :
    part.Fits place ∧ place.Coherent start := by
  obtain ⟨phase, legal, stands⟩ := fits.exists_stands coherent
  obtain ⟨later, partLegal, partStands⟩ := passes.exists_stands (callsMirror_runWith terminals fuel)
    (callsCohere_runWith start terminals fuel) phase legal stands
  exact ⟨⟨later, partLegal, partStands.headed⟩, partStands.coherent⟩

theorem fits_of_calls {caller called : Nonterminal × ParseState}
    (follow : Relation.ReflTransGen (Calls terminals) caller called)
    (fits : caller.1.production.Fits caller.2) (coherent : caller.2.Coherent start) :
    called.1.production.Fits called.2 ∧ called.2.Coherent start := by
  induction follow with
  | refl => exact ⟨fits, coherent⟩
  | tail _ calls ih =>
    obtain ⟨fuel, passes⟩ := calls
    obtain ⟨callFits, later⟩ := fits_of_passes passes ih.1 ih.2
    exact ⟨fits_production callFits later, later⟩

end Nonterminal

/-! ## What a parse of a rule comes to -/

namespace Rule

/-- A parse of the rule from a token comes to a part of the grammar at a state. -/
def Reaches (rule : Rule) (terminals : Terminals) (start : Nat) (part : Production)
    (place : ParseState) : Prop :=
  ∃ nonterminal state fuel,
    Relation.ReflTransGen (Nonterminal.Calls terminals) (rule.nonterminal, .startAt start)
      (nonterminal, state) ∧
    nonterminal.production.Passes terminals (Nonterminal.runWith Nonterminal.production terminals fuel)
      state part place

/-- A state comes up in a parse of the rule from a token: a part is tried there, or ends there. -/
inductive Visits (rule : Rule) (terminals : Terminals) (start : Nat) : ParseState → Prop
  | tried {part : Production} {place : ParseState} (reached : rule.Reaches terminals start part place) :
      Visits rule terminals start place
  | matched {part : Production} {place next : ParseState} {fuel : Nat}
      (reached : rule.Reaches terminals start part place)
      (ran : part.run terminals (Nonterminal.runWith Nonterminal.production terminals fuel) place =
        .matched next) : Visits rule terminals start next
  | refused {part : Production} {place next : ParseState} {fuel : Nat}
      (reached : rule.Reaches terminals start part place)
      (ran : part.run terminals (Nonterminal.runWith Nonterminal.production terminals fuel) place =
        .refused next) : Visits rule terminals start next

theorem visits_start (rule : Rule) (terminals : Terminals) (start : Nat) :
    rule.Visits terminals start (.startAt start) :=
  .tried ⟨rule.nonterminal, .startAt start, 0, .refl, .here _ _⟩

theorem isClosed_call (rule : Rule) : (Production.call rule.nonterminal).IsClosed :=
  Nonterminal.isClosed_call (by cases rule <;> rfl) (by cases rule <;> decide)

section Reached

variable {rule : Rule} {terminals : Terminals} {start : Nat} {part : Production} {place : ParseState}

theorem Reaches.fits (reached : rule.Reaches terminals start part place) :
    part.Fits place ∧ place.Coherent start := by
  obtain ⟨nonterminal, state, fuel, follow, passes⟩ := reached
  obtain ⟨fits, coherent⟩ := Nonterminal.fits_of_calls follow
    (Nonterminal.fits_production (rule.isClosed_call.fits _) (ParseState.coherent_startAt start))
    (ParseState.coherent_startAt start)
  exact Nonterminal.fits_of_passes passes fits coherent

theorem Reaches.isCoherent (reached : rule.Reaches terminals start part place) {fuel : Nat}
    {outcome : Outcome}
    (ran : part.run terminals (Nonterminal.runWith Nonterminal.production terminals fuel) place =
      outcome) : outcome.IsCoherent start :=
  reached.fits.1.isCoherent (Nonterminal.callsMirror_runWith terminals fuel)
    (Nonterminal.callsCohere_runWith start terminals fuel) reached.fits.2 ran

theorem Visits.coherent {state : ParseState} (visited : rule.Visits terminals start state) :
    state.Coherent start := by
  cases visited with
  | tried reached => exact reached.fits.2
  | matched reached ran => exact reached.isCoherent ran
  | refused reached ran => exact reached.isCoherent ran

end Reached

end Rule

end ScriptTree
