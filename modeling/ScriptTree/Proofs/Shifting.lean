import ScriptTree.Parse.Match
import ScriptTree.Proofs.Layout

/-! # Runs further on

Where two streams go on alike, a run goes on alike: it comes to the same states, with all positions moved by
the distance between the two. So a run looks at the kinds and line breaks from its start on, whatever the
tokens before it are and whatever else those behind it hold, and its tables keep no other positions. -/
set_option autoImplicit false
namespace ScriptTree

/-! ## Tokens from a position on -/

namespace Terminals

/-- What is seen from a position on is what is seen of the other tokens. -/
structure Resumes (whole rest : Terminals) (start : Nat) : Prop where
  kinds : ∀ position, whole.kindAt (start + position) = rest.kindAt position
  lineBreaks : ∀ position, whole.lineBreakAt (start + position) = rest.lineBreakAt position

theorem Resumes.refl (terminals : Terminals) : terminals.Resumes terminals 0 :=
  ⟨fun position => by rw [Nat.zero_add], fun position => by rw [Nat.zero_add]⟩

def ofTokens (tokens : List Token) : Terminals := tokens.toArray

theorem resumes_drop (tokens : List Token) (start count : Nat) :
    (ofTokens (tokens.drop start)).Resumes (ofTokens (tokens.drop (start + count))) count where
  kinds position := by simp [kindAt, ofTokens, Nat.add_assoc]
  lineBreaks position := by simp [lineBreakAt, ofTokens, Nat.add_assoc]

end Terminals

/-- The tokens from a cursor on, as a stream of their own. -/
def Cursor.terminals (cursor : Cursor) : Terminals :=
  .ofTokens (cursor.stream.tokens.toList.drop cursor.position)

theorem Cursor.resumes_terminals (cursor : Cursor) :
    Terminals.Resumes cursor.stream.tokens cursor.terminals cursor.position := by
  have resumes := Terminals.resumes_drop cursor.stream.tokens.toList 0 cursor.position
  rwa [List.drop_zero, Nat.zero_add] at resumes

theorem Cursor.size_terminals_eq (cursor : Cursor) :
    cursor.terminals.size = cursor.stream.tokens.size - cursor.position := by
  simp [terminals, Terminals.ofTokens]

/-! ## Moved states -/

def Event.shift (distance : Nat) : Event → Event
  | token position => token (distance + position)
  | other => other

theorem Event.map_shift_zero (log : Array Event) : log.map (Event.shift 0) = log := by
  have same : Event.shift 0 = id := funext fun event => by cases event <;> simp [Event.shift]
  rw [same, Array.map_id]

/-- An edit that does not look at tokens edits moved events alike. -/
theorem Event.modify_shift {distance : Nat} {edit : Event → Event}
    (same : ∀ event : Event, (edit event).shift distance = edit (event.shift distance))
    (log : Array Event) (index : Nat) :
    (log.map (Event.shift distance)).modify index edit =
      (log.modify index edit).map (Event.shift distance) := by
  apply Array.ext
  · simp
  · intro other _ _
    simp only [Array.getElem_modify, Array.getElem_map]
    split <;> simp [same]

def Completed.shift (distance : Nat) (completed : Completed) : Completed :=
  { completed with first := distance + completed.first }

namespace Furthest

def shift (distance : Nat) (furthest : Furthest) : Furthest :=
  { furthest with position := distance + furthest.position }

variable (distance position : Nat) (furthest : Furthest)

theorem advance_shift :
    (furthest.shift distance).advance (distance + position) =
      (furthest.advance position).shift distance := by
  simp only [advance, shift, Nat.add_lt_add_iff_left]
  split <;> rfl

theorem expect_shift (kind : Kind) :
    (furthest.shift distance).expect (distance + position) kind =
      (furthest.expect position kind).shift distance := by
  simp only [expect, advance_shift]
  simp only [shift, Nat.add_lt_add_iff_left]
  split <;> rfl

theorem expectConstruct_shift (name : String) :
    (furthest.shift distance).expectConstruct (distance + position) name =
      (furthest.expectConstruct position name).shift distance := by
  simp only [expectConstruct, advance_shift]
  generalize furthest.advance position = reached
  by_cases passed : position < furthest.position
  · simp [shift, passed]
  · by_cases known : name ∈ reached.constructs <;> simp [shift, passed, known]

end Furthest

namespace ParseState

def shift (distance : Nat) (state : ParseState) : ParseState where
  position := distance + state.position
  log := state.log.map (Event.shift distance)
  links := state.links
  completed := state.completed.map (Completed.shift distance)
  scope := state.scope
  furthest := state.furthest.shift distance
  failedArrows := state.failedArrows.map fun arrow => (distance + arrow.1, arrow.2)
  targets := state.targets.map (distance + ·)

theorem startAt_eq (position : Nat) : startAt position = start.shift position := by
  simp [start, startAt, shift, Furthest.startAt, Furthest.shift]

theorem shift_zero (state : ParseState) : state.shift 0 = state := by
  have completed : Completed.shift 0 = id := funext fun completed => by simp [Completed.shift]
  simp [shift, Event.map_shift_zero, completed, Furthest.shift]

/-! ### Steps -/

section Steps

variable (distance : Nat) (state : ParseState)

theorem record_shift (event : Event) :
    (state.shift distance).record (event.shift distance) = (state.record event).shift distance := by
  simp only [record, shift, Array.map_push]

theorem record_pending_shift :
    (state.shift distance).record .pending = (state.record .pending).shift distance :=
  state.record_shift distance .pending

theorem take_shift : (state.shift distance).take = state.take.shift distance := by
  simp only [take, record, shift, Array.map_push, Event.shift, Nat.add_assoc]

theorem expect_shift (kind : Kind) :
    (state.shift distance).expect kind = (state.expect kind).shift distance := by
  simp only [expect, shift, Furthest.expect_shift]

theorem expectConstruct_shift (name : String) :
    (state.shift distance).expectConstruct name = (state.expectConstruct name).shift distance := by
  simp only [expectConstruct, shift, Furthest.expectConstruct_shift]

theorem complete_shift (next : ParseState) (kind : Kind) (first : Nat) :
    (next.shift distance).complete (state.shift distance).checkpoint kind (distance + first) =
      (next.complete state.checkpoint kind first).shift distance := by
  simp only [complete, shift, checkpoint, Completed.shift, Option.map_some, Array.map_push,
    Array.size_map, Event.shift]
  rw [Event.modify_shift]
  intro event
  cases event <;> rfl

theorem precede_shift (inner : Completed) :
    (state.shift distance).precede (inner.shift distance) = (state.precede inner).shift distance := by
  simp only [precede, shift, Completed.shift, Array.size_map, Array.map_push]
  rw [Event.modify_shift]
  · rfl
  · intro event
    cases event <;> rfl

theorem unlink_shift (log : Array Event) (index : Nat) :
    unlink (log.map (Event.shift distance)) index = (unlink log index).map (Event.shift distance) :=
  Event.modify_shift (fun event => by cases event <;> rfl) log index

theorem unlinkBeyond_shift (events : Nat) (links : List (Nat × Nat)) (log : Array Event) :
    unlinkBeyond events links (log.map (Event.shift distance)) =
      ((unlinkBeyond events links log).1,
        (unlinkBeyond events links log).2.map (Event.shift distance)) := by
  induction links generalizing log with
  | nil => rfl
  | cons link rest ih =>
    simp only [unlinkBeyond]
    split
    · rfl
    · rw [unlink_shift, ih]

theorem rewind_shift (next : ParseState) :
    (next.shift distance).rewind (state.shift distance).checkpoint =
      (next.rewind state.checkpoint).shift distance := by
  have log : (next.log.map (Event.shift distance)).take state.log.size =
      (next.log.take state.log.size).map (Event.shift distance) := by
    simp [Array.take_eq_extract, Array.map_extract]
  simp only [rewind, shift, checkpoint, Array.size_map, log, unlinkBeyond_shift]

theorem arrowFailed_shift : (state.shift distance).arrowFailed = state.arrowFailed := by
  rw [Bool.eq_iff_iff]
  simp [arrowFailed, shift]

theorem rememberArrow_shift :
    (state.shift distance).rememberArrow = state.rememberArrow.shift distance := rfl

theorem markTarget_shift : (state.shift distance).markTarget = state.markTarget.shift distance := by
  cases completed : state.completed <;> simp [markTarget, shift, completed, Completed.shift]

theorem isCompletedTarget_shift :
    (state.shift distance).isCompletedTarget = state.isCompletedTarget := by
  simp only [isCompletedTarget, shift]
  cases state.completed with
  | none => rfl
  | some completed =>
    have target : distance + completed.first + 1 = distance + (completed.first + 1) := Nat.add_assoc ..
    rw [Bool.eq_iff_iff]
    simp [Completed.shift, target]

end Steps

end ParseState

/-! ## Moved runs -/

def Outcome.shift (distance : Nat) : Outcome → Outcome
  | matched state => .matched (state.shift distance)
  | refused state => .refused (state.shift distance)
  | outOfFuel => .outOfFuel

theorem Outcome.shift_zero (outcome : Outcome) : outcome.shift 0 = outcome := by
  cases outcome <;> simp [shift, ParseState.shift_zero]

section Outcomes

variable {distance : Nat} {outcome other : Outcome} (moved : outcome = other.shift distance)
include moved

theorem Outcome.close_shift {complete completeOther back backOther : ParseState → ParseState}
    (completes : ∀ next, complete (ParseState.shift distance next) = (completeOther next).shift distance)
    (backs : ∀ next, back (ParseState.shift distance next) = (backOther next).shift distance) :
    outcome.close complete back = (other.close completeOther backOther).shift distance := by
  subst moved
  cases other with
  | matched next => exact congrArg matched (completes next)
  | refused next => exact congrArg refused (backs next)
  | outOfFuel => rfl

theorem Outcome.orElse_shift {otherwise second : ParseState → Outcome}
    (later : ∀ next, otherwise (ParseState.shift distance next) = (second next).shift distance) :
    outcome.orElse otherwise = (other.orElse second).shift distance := by
  subst moved
  cases other with
  | refused next => exact later next
  | matched next | outOfFuel => rfl

end Outcomes

def CallsShift (distance : Nat) (call other : Nonterminal → ParseState → Outcome) : Prop :=
  ∀ (nonterminal : Nonterminal) (state : ParseState),
    call nonterminal (state.shift distance) = (other nonterminal state).shift distance

section Runs

variable {whole rest : Terminals} {distance : Nat}

theorem Guard.holds_shift (resumes : whole.Resumes rest distance) (state : ParseState) (guard : Guard) :
    guard.holds whole (state.shift distance) = guard.holds rest state := by
  have position (offset : Nat) : (state.shift distance).position + offset =
      distance + (state.position + offset) := Nat.add_assoc ..
  induction guard with
  | next offset kinds => simp only [holds, position, resumes.kinds]
  | lineBreak offset => simp only [holds, position, resumes.lineBreaks]
  | identifier offset =>
    simp only [holds, ParseState.isIdentifierAt, position, resumes.kinds]
    rfl
  | yieldOperator | awaitOperator => rfl
  | completed kinds =>
    simp only [holds, ParseState.shift]
    cases state.completed <;> rfl
  | completedTarget => exact state.isCompletedTarget_shift distance
  | not guard ih => simp only [holds, ih]
  | and first second firstIh secondIh | or first second firstIh secondIh =>
    simp only [holds, firstIh, secondIh]

open ParseState in
theorem Production.run_shift (resumes : whole.Resumes rest distance)
    {call other : Nonterminal → ParseState → Outcome} (calls : CallsShift distance call other)
    (production : Production) : ∀ state,
      production.run whole call (state.shift distance) =
        (production.run rest other state).shift distance := by
  induction production with
  | empty | refuse => exact fun state => rfl
  | take => exact fun state => congrArg Outcome.matched (state.take_shift distance)
  | expected kind => exact fun state => congrArg Outcome.matched (state.expect_shift distance kind)
  | expectedConstruct name =>
    exact fun state => congrArg Outcome.matched (state.expectConstruct_shift distance name)
  | hole => exact fun state => congrArg Outcome.matched (state.record_shift distance .hole)
  | markTarget => exact fun state => congrArg Outcome.matched (state.markTarget_shift distance)
  | call nonterminal => exact calls nonterminal
  | seq first second firstIh secondIh =>
    intro state
    rw [run, run, firstIh]
    cases first.run rest other state with
    | matched next => exact secondIh next
    | refused next | outOfFuel => rfl
  | branch guard yes no yesIh noIh =>
    intro state
    rw [run, run, guard.holds_shift resumes]
    split
    · exact yesIh state
    · exact noIh state
  | node kind body ih =>
    intro state
    have inside := ih (state.record .pending)
    rw [← record_pending_shift] at inside
    exact Outcome.close_shift inside (state.complete_shift distance · kind _) (state.rewind_shift distance)
  | fork head guard kindYes yes kindNo no headIh yesIh noIh =>
    intro state
    have inside := headIh (state.record .pending)
    rw [← record_pending_shift] at inside
    rw [run, run, inside]
    cases head.run rest other (state.record .pending) with
    | matched middle =>
      simp only [Outcome.shift.eq_1, guard.holds_shift resumes]
      split
      · exact Outcome.close_shift (yesIh middle) (state.complete_shift distance · kindYes _)
          (state.rewind_shift distance)
      · exact Outcome.close_shift (noIh middle) (state.complete_shift distance · kindNo _)
          (state.rewind_shift distance)
    | refused next => exact congrArg Outcome.refused (state.rewind_shift distance next)
    | outOfFuel => rfl
  | wrap kind body ih =>
    intro state
    have completed : (state.shift distance).completed = state.completed.map (Completed.shift distance) := rfl
    simp only [run, completed]
    cases state.completed with
    | none => rfl
    | some inner =>
      have inside := ih (state.precede inner)
      rw [← precede_shift] at inside
      exact Outcome.close_shift inside (state.complete_shift distance · kind inner.first)
        (state.rewind_shift distance)
  | orElse first second firstIh secondIh =>
    intro state
    refine Outcome.orElse_shift (firstIh state) fun next => ?_
    rw [rewind_shift, secondIh]
  | onceOrElse first second firstIh secondIh =>
    intro state
    simp only [run, arrowFailed_shift]
    split
    · exact secondIh state
    · refine Outcome.orElse_shift (firstIh state) fun next => ?_
      rw [rewind_shift, rememberArrow_shift, secondIh]
  | inScope change body ih =>
    intro state
    exact Outcome.close_shift (ih { state with scope := change.apply state.scope }) (fun _ => rfl)
      fun _ => rfl
  | list body ih =>
    intro state
    have inside := ih (state.record .startList)
    rw [← record_shift] at inside
    exact Outcome.close_shift inside (·.record_shift distance .finishList) (state.rewind_shift distance)

namespace Nonterminal

theorem runWith_shift (grammar : Nonterminal → Production) (resumes : whole.Resumes rest distance)
    (fuel : Nat) : CallsShift distance (runWith grammar whole fuel) (runWith grammar rest fuel) := by
  induction fuel with
  | zero => exact fun _ _ => rfl
  | succ fuel ih => exact fun nonterminal => (grammar nonterminal).run_shift resumes ih

/-- A run over all tokens, from a state moved to a cursor, is a run over the tokens ahead. -/
theorem runWith_cursor (grammar : Nonterminal → Production) (cursor : Cursor) (nonterminal : Nonterminal)
    (state : ParseState) :
    runWith grammar cursor.stream.tokens (fuelFrom cursor.stream.tokens cursor.position) nonterminal
        (state.shift cursor.position) =
      (runWith grammar cursor.terminals (enoughFuel cursor.terminals) nonterminal state).shift
        cursor.position := by
  have fuel : fuelFrom cursor.stream.tokens cursor.position = enoughFuel cursor.terminals := by
    rw [enoughFuel, fuelFrom, fuelFrom, cursor.size_terminals_eq, Nat.sub_zero]
  rw [fuel]
  exact runWith_shift grammar cursor.resumes_terminals _ nonterminal state

theorem runFrom_eq (cursor : Cursor) (nonterminal : Nonterminal) :
    nonterminal.runFrom cursor.stream.tokens cursor.position =
      (nonterminal.run cursor.terminals).shift cursor.position := by
  rw [runFrom, ParseState.startAt_eq]
  exact runWith_cursor production cursor nonterminal .start

end Nonterminal

end Runs

/-! ## Matches -/

theorem Cursor.terminals_start (stream : TokenStream) :
    (Cursor.start stream).terminals = stream.tokens := by
  simp [terminals, start, atToken, Terminals.ofTokens]

/-- A match is a run over the tokens ahead, moved to where they stand. -/
theorem matchRule_eq (rule : Rule) (cursor : Cursor) :
    matchRule rule cursor =
      ((rule.nonterminal.run cursor.terminals).shift cursor.position).toMatch cursor.stream
        cursor.position := by
  rw [matchRule, rule.nonterminal.runFrom_eq]

theorem parseStream_eq (rule : Rule) (stream : TokenStream) :
    parseStream rule stream = (rule.nonterminal.run (Cursor.start stream).terminals).toParse stream := by
  rw [parseStream, Cursor.terminals_start]

namespace Outcome

variable {stream : TokenStream} {start : Nat} {state : ParseState} {tree : SyntaxTree}

theorem toMatch_of_assembled
    (assembled : SyntaxTree.ofLog stream start (state.log.map (Event.shift start)) = .ok tree) :
    ((matched state).shift start).toMatch stream start =
      .ok (tree, .atToken stream (start + state.position)) := by
  simp only [shift, toMatch, ParseState.shift, assembled]

theorem toParse_of_assembled (whole : stream.eofIndex ≤ state.position)
    (assembled : SyntaxTree.ofLog stream 0 (state.log.map (Event.shift 0)) = .ok tree) :
    (matched state).toParse stream = .ok tree := by
  rw [Event.map_shift_zero] at assembled
  simp only [toParse, if_pos whole, assembled]

end Outcome
end ScriptTree
