import ScriptTree.Proofs.Visiting

/-! # What combinators take back

A combinator that is refused leaves the state as it was when it was tried: the position, the whole log
with its links, the links themselves, the scope and the node completed last. -/
set_option autoImplicit false
namespace ScriptTree

/-! ## Refusals -/

namespace Outcome

def refused? : Outcome → Option ParseState
  | refused state => some state
  | _ => none

variable {outcome : Outcome} {next : ParseState}

theorem eq_refused_of_refused? (refused : outcome.refused? = some next) :
    outcome = .refused next := by
  cases outcome with
  | refused state => exact congrArg Outcome.refused (Option.some.inj refused)
  | matched state => cases refused
  | outOfFuel => cases refused

theorem exists_refused_of_close {complete back : ParseState → ParseState}
    (ran : outcome.close complete back = .refused next) :
    ∃ middle, outcome = .refused middle ∧ back middle = next := by
  cases outcome with
  | refused middle => exact ⟨middle, rfl, Outcome.refused.inj ran⟩
  | matched middle => cases ran
  | outOfFuel => cases ran

theorem exists_refused_of_orElse {otherwise : ParseState → Outcome}
    (ran : outcome.orElse otherwise = .refused next) :
    ∃ middle, outcome = .refused middle ∧ otherwise middle = .refused next := by
  cases outcome with
  | refused middle => exact ⟨middle, rfl, ran⟩
  | matched middle => cases ran
  | outOfFuel => cases ran

end Outcome

/-! ## Combinators -/

namespace Production

def attempt (body : Production) : Production := firstOf [body]

/-- An attempt that is not made again where it was refused. -/
def attemptOnce (body : Production) : Production := .onceOrElse body .refuse

/-- An attempt at the first alternative whose guard holds. Where none does, the kinds that the
alternatives start with are expected. -/
def choose (alternatives : List (Guard × Production)) (leading : List Kind) : Production :=
  select (alternatives.map fun alternative => (alternative.1, attempt alternative.2))
    (series (leading.map .expected ++ [.refuse]))

/-- The grammar chooses so among the forms of functions. -/
example (isExpression : Bool) :
    Grammar.announcedFunction isExpression = choose [
      (.and (.nextIs .asyncKw) (.and (.next 1 [.functionKw]) (.next 2 [.star])),
        .call (.function ⟨isExpression, true, true⟩)),
      (.and (.nextIs .asyncKw) (.next 1 [.functionKw]), .call (.function ⟨isExpression, true, false⟩)),
      (.and (.nextIs .functionKw) (.next 1 [.star]), .call (.function ⟨isExpression, false, true⟩)),
      (.nextIs .functionKw, .call (.function ⟨isExpression, false, false⟩))]
      [.asyncKw, .functionKw] :=
  rfl

/-- The combinators, around bodies that may run at a state. A node can be put around the one completed
last while that one has no other around it. -/
inductive Combines (state : ParseState) : Production → Prop
  | attempt {body : Production} (fits : body.Fits state) : Combines state body.attempt
  | firstOf {bodies : List Production} (fits : ∀ body ∈ bodies, body.Fits state) :
      Combines state (firstOf bodies)
  | choose {alternatives : List (Guard × Production)} (leading : List Kind)
      (fits : ∀ alternative ∈ alternatives, alternative.2.Fits state) :
      Combines state (choose alternatives leading)
  | node (kind : Kind) {body : Production} (closed : body.IsClosed) : Combines state (.node kind body)
  | fork {head yes no : Production} {guard : Guard} (kindYes kindNo : Kind)
      (closed : (seq head (branch guard yes no)).IsClosed) :
      Combines state (.fork head guard kindYes yes kindNo no)
  | wrap (kind : Kind) {body : Production} (closed : body.IsClosed) (unwrapped : state.IsUnwrapped) :
      Combines state (.wrap kind body)
  | list {body : Production} (closed : body.IsClosed) : Combines state (.list body)
  | attemptOnce {body : Production} (fits : body.Fits state) : Combines state body.attemptOnce

/-- If the production is refused at the state, then nothing of what it did is left. -/
def Undoes (terminals : Terminals) (call : Nonterminal → ParseState → Outcome)
    (production : Production) (state : ParseState) : Prop :=
  ∀ next, production.run terminals call state = .refused next → next.Restores state

section Undoes

variable {terminals : Terminals} {call : Nonterminal → ParseState → Outcome}
  {nested : Nonterminal → Scope → Place → History → Parse} {state : ParseState}

theorem undoes_refuse (state : ParseState) : refuse.Undoes terminals call state := by
  rintro next ⟨⟩
  exact state.restores_refl

theorem undoes_branch {guard : Guard} {yes no : Production} (yesUndoes : yes.Undoes terminals call state)
    (noUndoes : no.Undoes terminals call state) :
    (branch guard yes no).Undoes terminals call state := by
  intro next ran
  simp only [run] at ran
  split at ran
  · exact yesUndoes next ran
  · exact noUndoes next ran

/-- What is expected before a refusal is no part of what is taken back. -/
theorem undoes_expected (kinds : List Kind) (state : ParseState) :
    (series (kinds.map .expected ++ [.refuse])).Undoes terminals call state := by
  induction kinds generalizing state with
  | nil => exact undoes_refuse state
  | cons kind rest ih =>
    have first : series ((kind :: rest).map .expected ++ [.refuse]) =
        .seq (.expected kind) (series (rest.map .expected ++ [.refuse])) := by
      cases rest <;> rfl
    rw [first]
    intro next ran
    exact (ih (state.expect kind) next ran).trans ⟨rfl, rfl, rfl, rfl, rfl⟩

theorem undoes_select {alternatives : List (Guard × Production)} {otherwise : Production}
    (undoes : ∀ alternative ∈ alternatives, alternative.2.Undoes terminals call state)
    (otherwiseUndoes : otherwise.Undoes terminals call state) :
    (select alternatives otherwise).Undoes terminals call state := by
  induction alternatives with
  | nil => exact otherwiseUndoes
  | cons alternative rest ih =>
    exact undoes_branch (undoes alternative List.mem_cons_self)
      (ih fun other member => undoes other (List.mem_cons_of_mem _ member))

variable {start : Nat} (calls : CallsMirror call nested) (coherent : state.Coherent start)
include calls coherent

/-- Coming back to where a body was tried restores the state. -/
theorem Fits.restores_rewind {body : Production} (fits : body.Fits state) {next : ParseState}
    (ran : body.run terminals call state = .refused next) :
    (next.rewind state.checkpoint).Restores state := by
  obtain ⟨phase, legal, stands⟩ := fits.exists_stands coherent
  exact body.follows_run calls legal stands ran

theorem undoes_orElse {first second : Production} (fits : first.Fits state)
    (later : ∀ back : ParseState, back.Restores state → second.Undoes terminals call back) :
    (orElse first second).Undoes terminals call state := by
  intro next ran
  obtain ⟨middle, tried, again⟩ := Outcome.exists_refused_of_orElse ran
  have restores := fits.restores_rewind calls coherent tried
  exact (later _ restores next again).trans restores

theorem undoes_onceOrElse {first second : Production} (fits : first.Fits state)
    (later : ∀ back : ParseState, back.Restores state → second.Undoes terminals call back) :
    (onceOrElse first second).Undoes terminals call state := by
  intro next ran
  simp only [run] at ran
  split at ran
  · exact later state state.restores_refl next ran
  · obtain ⟨middle, tried, again⟩ := Outcome.exists_refused_of_orElse ran
    have restores := fits.restores_rewind calls coherent tried
    have remembered : (middle.rewind state.checkpoint).rememberArrow.Restores state :=
      ⟨restores.position, restores.log, restores.links, restores.scope, restores.completed⟩
    exact (later _ remembered next again).trans remembered

/-- The bodies are tried one after the other, each at a state like the first. -/
theorem undoes_firstOf {bodies : List Production} (fits : ∀ body ∈ bodies, body.Fits state) :
    (firstOf bodies).Undoes terminals call state := by
  induction bodies generalizing state with
  | nil => exact undoes_refuse state
  | cons body rest ih =>
    refine undoes_orElse calls coherent (fits body List.mem_cons_self) fun back restores => ?_
    exact ih (restores.coherent coherent) fun other member =>
      (fits other (List.mem_cons_of_mem _ member)).of_restores restores

theorem undoes_node {kind : Kind} {body : Production} (closed : body.IsClosed) :
    (node kind body).Undoes terminals call state := by
  obtain ⟨phase, legal, unheaded⟩ := closed
  intro next ran
  obtain ⟨middle, tried, rfl⟩ := Outcome.exists_refused_of_close ran
  exact body.restores_of_record calls legal unheaded coherent tried

theorem undoes_fork {head yes no : Production} {guard : Guard} {kindYes kindNo : Kind}
    (closed : (seq head (branch guard yes no)).IsClosed) :
    (fork head guard kindYes yes kindNo no).Undoes terminals call state := by
  intro next ran
  obtain ⟨kind, same⟩ := exists_node_of_fork head guard kindYes yes kindNo no state
  exact undoes_node calls coherent closed next (same ▸ ran)

theorem undoes_list {body : Production} (closed : body.IsClosed) :
    (list body).Undoes terminals call state := by
  obtain ⟨phase, legal, unheaded⟩ := closed
  intro next ran
  obtain ⟨middle, tried, rfl⟩ := Outcome.exists_refused_of_close ran
  exact body.restores_of_record calls legal unheaded coherent tried

theorem undoes_wrap {kind : Kind} {body : Production} (closed : body.IsClosed)
    (unwrapped : state.IsUnwrapped) : (wrap kind body).Undoes terminals call state := by
  obtain ⟨phase, legal, unheaded⟩ := closed
  intro next ran
  simp only [run] at ran
  cases completed : state.completed with
  | none =>
    rw [completed] at ran
    exact Outcome.refused.inj ran ▸ state.restores_refl
  | some inner =>
    rw [completed] at ran
    obtain ⟨_, alone⟩ := unwrapped inner completed
    obtain ⟨middle, tried, rfl⟩ := Outcome.exists_refused_of_close ran
    exact body.restores_of_precede calls legal unheaded coherent alone tried

theorem Combines.undoes {production : Production} (combines : production.Combines state) :
    production.Undoes terminals call state := by
  cases combines with
  | attempt fits => exact undoes_firstOf calls coherent (by simpa using fits)
  | firstOf fits => exact undoes_firstOf calls coherent fits
  | choose leading fits =>
    refine undoes_select (fun alternative member => ?_) (undoes_expected leading state)
    obtain ⟨original, given, rfl⟩ := List.mem_map.mp member
    exact undoes_firstOf calls coherent (by simpa using fits original given)
  | node kind closed => exact undoes_node calls coherent closed
  | fork kindYes kindNo closed => exact undoes_fork calls coherent closed
  | wrap kind closed unwrapped => exact undoes_wrap calls coherent closed unwrapped
  | list closed => exact undoes_list calls coherent closed
  | attemptOnce fits =>
    exact undoes_onceOrElse calls coherent fits fun back _ => undoes_refuse back

end Undoes

end Production

/-! ## Combinators of the grammar -/

namespace Production

def isEnclosing : Production → Bool
  | .node _ _ | .fork _ _ _ _ _ _ | .wrap _ _ | .list _ => true
  | _ => false

/-- Nodes and lists that may be opened at a state are combinators there. -/
theorem Fits.combines {production : Production} {state : ParseState} (fits : production.Fits state)
    (encloses : production.isEnclosing = true) : production.Combines state := by
  obtain ⟨phase, legal, headed⟩ := fits
  cases production with
  | node kind body => exact .node kind ⟨.inNode false, (node_legal legal).1, rfl⟩
  | fork head guard kindYes yes kindNo no =>
    exact .fork kindYes kindNo ⟨.inNode false, legal_body_of_fork legal, rfl⟩
  | wrap kind body =>
    obtain ⟨isHeaded, bodyLegal, -⟩ := wrap_legal legal
    exact .wrap kind ⟨.inNode false, bodyLegal, rfl⟩ (headed isHeaded).isUnwrapped
  | list body => exact .list ⟨.beforeElement, (list_legal legal).1, rfl⟩
  | _ => cases encloses

end Production

/-- In every state that comes up in a parse, links and tokens agree with the log. Whatever combinator is
refused there leaves the state as it was, and an optional body that is refused is passed over so. The
nonterminals may be the bodies, those that go on from a node where one stands at the end; and what the
grammar itself tries there may run there, with the nodes and lists it opens among those combinators. -/
theorem Rule.Visits.rolls_back_exactly {rule : Rule} {terminals : Terminals} {start : Nat}
    {state : ParseState} (visited : rule.Visits terminals start state) :
    state.Coherent start ∧
    (∀ (fuel : Nat) (production : Production) (next : ParseState), production.Combines state →
      production.run terminals (Nonterminal.runWith Nonterminal.production terminals fuel) state =
        .refused next → next.Restores state) ∧
    (∀ (fuel : Nat) (body : Production) (refused : ParseState), body.Fits state →
      body.run terminals (Nonterminal.runWith Nonterminal.production terminals fuel) state =
        .refused refused →
      ∃ next, body.optional.run terminals
          (Nonterminal.runWith Nonterminal.production terminals fuel) state = .matched next ∧
        next.Restores state) ∧
    (∀ nonterminal : Nonterminal, nonterminal.isProper = true →
      (nonterminal.role ≠ .tail → (Production.call nonterminal).IsClosed) ∧
      ((nonterminal.role = .tail → state.EndsInNode) →
        (Production.call nonterminal).Fits state)) ∧
    ∀ part : Production, rule.Reaches terminals start part state →
      part.Fits state ∧ (part.isEnclosing = true → part.Combines state) := by
  refine ⟨visited.coherent, fun fuel production next combines ran => ?_,
    fun fuel body refused fits ran => ?_, fun nonterminal proper => ?_, fun part reached => ?_⟩
  · exact combines.undoes (Nonterminal.callsMirror_runWith terminals fuel) visited.coherent next ran
  · refine ⟨refused.rewind state.checkpoint, ?_, ?_⟩
    · simp [Production.optional, Production.run, ran]
    · exact fits.restores_rewind (Nonterminal.callsMirror_runWith terminals fuel) visited.coherent ran
  · exact ⟨Nonterminal.isClosed_call proper, Nonterminal.fits_call proper⟩
  · exact ⟨reached.fits.1, reached.fits.1.combines⟩

/-- The initializer of `a = )`, behind a semicolon, is put around the target and refused behind the sign. -/
theorem Rule.rolls_back_exactly_behind_target :
    let terminals := (tokenize [';', 'a', ' ', '=', ' ', ')']).tokens
    let target : ParseState := ⟨2, #[.start .bindingIdentifier none, .token 1, .finish], [],
      some ⟨0, .bindingIdentifier, 1⟩, .outermost, .startAt 1, [], []⟩
    let around : Production := .wrap .initializedBindingElement (.seq .take (.call .assignment))
    Rule.bindingElement.Visits terminals 1 target ∧ target.Coherent 1 ∧ around.Combines target ∧
      ∃ next, around.run terminals (Nonterminal.runWith Nonterminal.production terminals 32) target =
        .refused next ∧ next.furthest.position = 3 ∧ next.Restores target := by
  intro terminals target around
  have reached : Rule.bindingElement.Reaches terminals 1 around target :=
    ⟨.bindingElement, .startAt 1, 32, .refl,
      .seqSecond (by decide +kernel) (.branchYes (by decide +kernel) (.here _ _))⟩
  obtain ⟨coherent, restores, -, -, parts⟩ := (Rule.Visits.tried reached).rolls_back_exactly
  have combines := (parts around reached).2 rfl
  have refused : ((around.run terminals (Nonterminal.runWith Nonterminal.production terminals 32)
      target).refused?.map (·.furthest.position)) = some 3 := by
    decide +kernel
  obtain ⟨next, refusal, furthest⟩ := Option.map_eq_some_iff.mp refused
  have ran := Outcome.eq_refused_of_refused? refusal
  exact ⟨.tried reached, coherent, combines, next, ran, furthest, restores 32 around next combines ran⟩

end ScriptTree
