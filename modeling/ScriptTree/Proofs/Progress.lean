import Mathlib.Logic.Relation
import ScriptTree.Proofs.PassedCalls
import ScriptTree.Proofs.SketchedChildren

/-! # Progress

Calls lead from a nonterminal at a state to others. Each takes a token or lowers the rank, so calls cannot go
on for ever, and no nonterminal comes back to itself without a token in between: the loops of the grammar,
which are nonterminals that call themselves, move on each time. -/
set_option autoImplicit false
set_option maxRecDepth 4000
namespace ScriptTree

/-! ## Calls -/

namespace Nonterminal

/-- The nonterminals that match where there is nothing for them to take. -/
def mayTakeNothing : Nonterminal → Bool
  | sequenceTail | binaryTail _ | memberTail _ | clauseStatements => true
  | items shape => shape ≠ .declarators
  | _ => false

/-- The loops of the grammar: nonterminals that call themselves for what is left. -/
def isLoop : Nonterminal → Bool
  | scriptItems | statementsUntilBrace | switchClauses | clauseStatements | classMembers | sequenceTail
  | binaryTail _ | memberTail _ | templateParts | items _ => true
  | _ => false

def takesEnd : Nonterminal → Bool
  | script | scriptItems => true
  | _ => false

/-- A nonterminal at a state leads to those that its production calls. How deep calls may be nested before
them is left open. -/
def Calls (terminals : Terminals) (caller callee : Nonterminal × ParseState) : Prop :=
  ∃ fuel, caller.1.production.Passes terminals (runWith production terminals fuel) caller.2
    (.call callee.1) callee.2

/-- What is so of a nonterminal at a state, where the end comes at the index `last`. -/
structure Progresses (terminals : Terminals) (last : Nat) (nonterminal : Nonterminal)
    (state : ParseState) : Prop where
  /-- Calls do not go on for ever. -/
  terminates : Acc (fun callee caller => Calls terminals caller callee) (nonterminal, state)
  /-- There is one result, which more fuel does not change. -/
  finishes : ∃ outcome, outcome ≠ .outOfFuel ∧ ∀ fuel ≥ fuelFrom terminals state.position,
    runWith production terminals fuel nonterminal state = outcome
  /-- A match takes a token. -/
  advances : nonterminal.mayTakeNothing = false → ∀ fuel next,
    runWith production terminals fuel nonterminal state = .matched next → state.position < next.position
  /-- What a loop calls besides itself takes a token. -/
  loops : nonterminal.isLoop = true → ∀ callee place,
    Calls terminals (nonterminal, state) (callee, place) →
      callee = nonterminal ∨ callee.mayTakeNothing = false
  /-- Calls that come back to the nonterminal come back further on. -/
  repeats : ∀ again, Relation.TransGen (Calls terminals) (nonterminal, state) (nonterminal, again) →
    state.position < again.position
  /-- Neither a part of the production nor a match goes past the end. -/
  inside : nonterminal.takesEnd = false → ∀ fuel,
    (∀ part place, nonterminal.production.Passes terminals (runWith production terminals fuel) state
      part place → place.position ≤ last) ∧
    ∀ next, runWith production terminals fuel nonterminal state = .matched next → next.position ≤ last

/-! ## What is checked of the parts -/

/-- A part that a survey knows to stand somewhere may stand there. Only a script and its items go past the
end, and a loop calls, besides itself, what takes a token. -/
def allowsPart (nonterminal : Nonterminal) (part : Production) (known : Outlook) : Bool :=
  part.survey nonterminal.rank known ≠ .illegal && (nonterminal.takesEnd || known ≠ .past) &&
    match part with
    | .call callee => !nonterminal.isLoop || callee = nonterminal || !callee.mayTakeNothing
    | _ => true

def surveyedParts (nonterminal : Nonterminal) : List (Production × Outlook) :=
  nonterminal.production.parts nonterminal.rank (.within nonterminal.needs false)

theorem allowsPart_of_mem {nonterminal : Nonterminal} {part : Production} {known : Outlook}
    (member : (part, known) ∈ nonterminal.surveyedParts) : nonterminal.allowsPart part known = true := by
  have passes : ∀ other ∈ listed, (other.surveyedParts.all fun entry =>
      other.allowsPart entry.1 entry.2) = true := by decide +kernel
  have all : (nonterminal.surveyedParts.all fun entry =>
      nonterminal.allowsPart entry.1 entry.2) = true := by
    cases nonterminal with
    | jumpStatement kind => rfl
    | _ => exact passes _ (mem_listed rfl)
  exact List.all_eq_true.mp all (part, known) member

theorem moved_outlook {nonterminal : Nonterminal} (takes : nonterminal.mayTakeNothing = false) :
    nonterminal.outlook.moved = true := by
  cases nonterminal with
  | items shape => cases shape <;> first | rfl | cases takes
  | _ => first | rfl | cases takes

theorem outlook_ne_past {nonterminal : Nonterminal} (inner : nonterminal.takesEnd = false) :
    nonterminal.outlook ≠ .past := by
  cases nonterminal with
  | items shape => cases shape <;> decide
  | script | scriptItems => cases inner
  | _ => simp [outlook]

theorem survey_legal (nonterminal : Nonterminal) :
    nonterminal.production.survey nonterminal.rank (.within nonterminal.needs false) ≠ .illegal := by
  simp [nonterminal.survey_production]

/-! ## Runs of nonterminals -/

section Runs

variable {terminals : Terminals} {last : Nat} (ends : terminals.EndsAt last)
include ends

theorem runWith_foresee (fuel : Nat) : CallsForesee last (runWith production terminals fuel) := by
  induction fuel with
  | zero =>
      intro nonterminal state _
      trivial
  | succ fuel ih =>
      intro nonterminal state fits
      rw [← nonterminal.survey_production]
      exact nonterminal.production.foreseen_run ends ih _ state nonterminal.survey_legal
        ⟨Nat.le_refl state.position, fits, by simp⟩

variable {nonterminal callee : Nonterminal} {state place : ParseState}
  (fits : state.position + nonterminal.needs ≤ last)
include fits

theorem holds_of_matched {fuel : Nat} {next : ParseState}
    (ran : runWith production terminals fuel nonterminal state = .matched next) :
    nonterminal.outlook.Holds last state.position next.position := by
  have foreseen := runWith_foresee ends fuel nonterminal state fits
  rw [ran] at foreseen
  obtain ⟨outlook, ⟨⟩, holds⟩ := foreseen
  exact holds

theorem exists_part {part : Production} {fuel : Nat}
    (passes : nonterminal.production.Passes terminals (runWith production terminals fuel) state part
      place) :
    ∃ known, nonterminal.allowsPart part known = true ∧ known.Holds last state.position place.position := by
  obtain ⟨known, member, holds⟩ := passes.exists_part ends (runWith_foresee ends fuel) _
    nonterminal.survey_legal ⟨Nat.le_refl state.position, fits, by simp⟩
  exact ⟨known, allowsPart_of_mem member, holds⟩

/-- A call is made before the end, and it takes a token or goes down in rank. -/
theorem descends {fuel : Nat}
    (passes : nonterminal.production.Passes terminals (runWith production terminals fuel) state
      (.call callee) place) :
    place.position + callee.needs ≤ last ∧ state.position ≤ place.position ∧
      (state.position < place.position ∨ callee.rank < nonterminal.rank) := by
  obtain ⟨known, allowed, holds⟩ := exists_part ends fits passes
  simp only [allowsPart, Bool.and_eq_true, decide_eq_true_eq] at allowed
  obtain ⟨-, inside, before, lower⟩ := holds.of_call allowed.1.1
  exact ⟨inside, before, lower⟩

theorem cost_lt {fuel : Nat}
    (passes : nonterminal.production.Passes terminals (runWith production terminals fuel) state
      (.call callee) place) :
    callee.cost (last + 1 - place.position) < nonterminal.cost (last + 1 - state.position) := by
  obtain ⟨inside, before, lower⟩ := descends ends fits passes
  have bound := callee.rank_lt
  simp only [cost, callDepth] at bound ⊢
  omega

theorem runWith_settles {fuel more : Nat} (enough : nonterminal.cost (last + 1 - state.position) < fuel)
    (le : fuel ≤ more) :
    (runWith production terminals fuel nonterminal state).Settles
      (runWith production terminals more nonterminal state) := by
  induction fuel generalizing nonterminal state more with
  | zero => exact absurd enough (Nat.not_lt_zero _)
  | succ fuel ih =>
      obtain ⟨more, rfl⟩ := Nat.exists_eq_add_of_le' (Nat.le_trans (Nat.le_add_left 1 fuel) le)
      refine nonterminal.production.run_settles state fun callee place passes => ?_
      have lower := cost_lt ends fits passes
      exact ih (descends ends fits passes).1 (by omega) (Nat.le_of_succ_le_succ le)

theorem acc_of_fits : Acc (fun callee caller => Calls terminals caller callee) (nonterminal, state) := by
  induction cost_eq : nonterminal.cost (last + 1 - state.position) using Nat.strongRecOn
    generalizing nonterminal state with
  | _ cost ih =>
      subst cost_eq
      refine .intro _ fun called calls => ?_
      obtain ⟨fuel, passes⟩ := calls
      exact ih _ (cost_lt ends fits passes) (descends ends fits passes).1 rfl

/-- Calls that follow each other lead on, or down in rank. -/
theorem descends_of_transGen {called : Nonterminal × ParseState}
    (follow : Relation.TransGen (Calls terminals) (nonterminal, state) called) :
    called.2.position + called.1.needs ≤ last ∧ state.position ≤ called.2.position ∧
      (state.position < called.2.position ∨ called.1.rank < nonterminal.rank) := by
  induction follow with
  | single calls =>
      obtain ⟨fuel, passes⟩ := calls
      exact descends ends fits passes
  | tail _ calls ih =>
      obtain ⟨inside, before, lower⟩ := ih
      obtain ⟨fuel, passes⟩ := calls
      obtain ⟨insideOn, beforeOn, lowerOn⟩ := descends ends inside passes
      refine ⟨insideOn, Nat.le_trans before beforeOn, ?_⟩
      omega

theorem progresses (size : terminals.size = last + 1) : Progresses terminals last nonterminal state where
  terminates := acc_of_fits ends fits
  finishes := by
    have bound := nonterminal.rank_lt
    have enough : nonterminal.cost (last + 1 - state.position) < fuelFrom terminals state.position := by
      simp only [cost, fuelFrom, callDepth, size] at bound ⊢
      omega
    have settled := runWith_settles ends fits enough (Nat.le_refl _)
    refine ⟨_, settled.1, fun fuel more => ?_⟩
    exact (runWith_settles ends fits enough more).2.symm
  advances := by
    intro takes fuel next ran
    exact (holds_of_matched ends fits ran).moves (moved_outlook takes)
  loops := by
    rintro isLoop callee place ⟨fuel, passes⟩
    obtain ⟨known, allowed, -⟩ := exists_part ends fits passes
    simpa [allowsPart, isLoop] using (Bool.and_eq_true_iff.mp allowed).2
  repeats := by
    intro again follow
    obtain ⟨-, -, further | lower⟩ := descends_of_transGen ends fits follow
    · exact further
    · exact absurd lower (Nat.lt_irrefl _)
  inside := by
    intro inner fuel
    refine ⟨fun part place passes => ?_, fun next ran => ?_⟩
    · obtain ⟨known, allowed, holds⟩ := exists_part ends fits passes
      simp only [allowsPart, inner, Bool.and_eq_true, Bool.false_or, decide_eq_true_eq] at allowed
      exact Nat.le_trans (Nat.le_add_right _ _) (holds.bounds allowed.1.2).2.1
    · have holds := holds_of_matched ends fits ran
      exact Nat.le_trans (Nat.le_add_right _ _) (holds.bounds (outlook_ne_past inner)).2.1

end Runs

end Nonterminal

theorem Rule.mayTakeNothing_nonterminal (rule : Rule) : rule.nonterminal.mayTakeNothing = false := by
  cases rule <;> rfl

/-! ## Trees -/

def SyntaxTree.NodesCoverTokens (tree : SyntaxTree) : Prop :=
  ∀ node < tree.nodes.size, (tree.entry node).firstToken < (tree.entry node).endToken

theorem Nonterminal.isSketched_anyhow :
    ∀ nonterminal ∈ listed, nonterminal.isSketched (fun _ _ => true) = true := by
  decide +kernel

open Nonterminal in
/-- Over an accepted stream, whatever is reached from a rule at some position makes progress: calls do not
go on for ever, matches take a token unless the nonterminal may take nothing, loops move on, and only a
script takes the end. Rules take a token, and every node of a tree covers one. -/
theorem matchRule_makes_progress {text : List Char} {tokens : Array Token} {stream : TokenStream}
    (accepted : TokenStream.ofTokens text tokens = .ok stream) (rule : Rule) :
    rule.nonterminal.mayTakeNothing = false ∧
    (∀ position : Nat,
      let cursor := Cursor.atToken stream position
      Terminals.EndsAt stream.tokens stream.eofIndex ∧
      ∀ (nonterminal : Nonterminal) (state : ParseState),
        Relation.ReflTransGen (Calls stream.tokens) (rule.nonterminal, .startAt cursor.position)
          (nonterminal, state) → nonterminal.Progresses stream.tokens stream.eofIndex state) ∧
    (∀ (position : Nat) (tree : SyntaxTree) (next : Cursor),
      matchRule rule (.atToken stream position) = .ok (tree, next) → tree.NodesCoverTokens) ∧
    ∀ tree : SyntaxTree, parseStream rule stream = .ok tree → tree.NodesCoverTokens := by
  obtain ⟨-, accepts⟩ := TokenStream.accepts_of_ofTokens accepted
  refine ⟨rule.mayTakeNothing_nonterminal, fun position => ?_, ?_⟩
  · intro cursor
    have ends := accepts.endsAt
    have size := accepts.size_eq
    refine ⟨ends, fun nonterminal state reached => ?_⟩
    have atStart : (ParseState.startAt cursor.position).position + rule.nonterminal.needs ≤
        stream.eofIndex := by
      rw [rule.needs_nonterminal]
      exact Cursor.position_atToken_le stream position
    rcases Relation.reflTransGen_iff_eq_or_transGen.mp reached with same | follow
    · cases same
      exact progresses ends atStart size
    · exact progresses ends (descends_of_transGen ends atStart follow).1 size
  · refine accepts.holds_of_matched rule fun _ before _ _ _ matched node inside => ?_
    obtain ⟨_, -, like⟩ := matched.exists_sketch accepts before isSketched_anyhow inside
    exact like.some

open Nonterminal in
/-- The items of a script that calls a function twice, from the second call on. -/
theorem matchRule_makes_progress_in_script :
    let text := ['f', '(', 'a', ',', 'b', ')', ';', 'f', '(', ')']
    let stream := tokenize text
    let start := ParseState.startAt (Cursor.atToken stream 7).position
    let items := start.record .pending
    TokenStream.ofTokens text stream.tokens = .ok stream ∧
    Calls stream.tokens (.script, start) (.scriptItems, items) ∧
    Progresses stream.tokens stream.eofIndex .scriptItems items ∧
    ∃ tree, parseStream .script stream = .ok tree ∧ tree.nodes.size = 11 ∧ tree.NodesCoverTokens := by
  intro text stream start items
  have accepted : TokenStream.ofTokens text stream.tokens = .ok stream := rfl
  have called : Calls stream.tokens (.script, start) (.scriptItems, items) :=
    ⟨0, .node (.here _ _)⟩
  obtain ⟨-, progress, -, covers⟩ := matchRule_makes_progress accepted .script
  have parsed : (parseStream .script stream).toOption.map (fun tree => tree.nodes.size) = some 11 := by
    decide +kernel
  refine ⟨accepted, called, (progress 7).2 _ _ (.single called), ?_⟩
  cases result : parseStream .script stream with
  | error failure =>
      rw [result] at parsed
      cases parsed
  | ok tree =>
      rw [result] at parsed
      exact ⟨tree, rfl, Option.some.inj parsed, covers tree result⟩

end ScriptTree
