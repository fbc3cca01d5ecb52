import ScriptTree.Proofs.Consistency

/-! # Matches from any outset

A parser comes to a token in some scope, and with what it remembers of earlier attempts: arrows that failed
and targets that were marked. From any such outset, on any stream that ends in one `eof`, a rule refuses or
gives the tree of what it took. A match that starts afresh is the case of an empty memory outside of all
functions. -/
set_option autoImplicit false
namespace ScriptTree

/-! ## Outsets -/

/-- The scope in which a parse comes to its first token, and what it remembers then of this token and those
behind it. -/
structure Outset where
  scope : Scope
  failedArrows : List (Nat × Scope)
  targets : List Nat
  deriving DecidableEq

namespace Outset

def afresh : Outset := ⟨.outermost, [], []⟩

def state (outset : Outset) : ParseState :=
  { ParseState.start with
    scope := outset.scope
    failedArrows := outset.failedArrows
    targets := outset.targets }

def history (outset : Outset) : History := ⟨.start, outset.failedArrows, outset.targets⟩

end Outset

def matchFrom (outset : Outset) (rule : Rule) (cursor : Cursor) :
    Except MatchFailure (SyntaxTree × Cursor) :=
  (Nonterminal.runWith Nonterminal.production cursor.stream.tokens
    (Nonterminal.fuelFrom cursor.stream.tokens cursor.position) rule.nonterminal
    (outset.state.shift cursor.position)).toMatch cursor.stream cursor.position

theorem matchFrom_afresh (rule : Rule) (cursor : Cursor) :
    matchFrom .afresh rule cursor = matchRule rule cursor := by
  rw [matchRule, Nonterminal.runFrom, ParseState.startAt_eq]
  rfl

/-- A match from an outset is a run over the tokens ahead, moved to where they stand. -/
theorem matchFrom_eq (outset : Outset) (rule : Rule) (cursor : Cursor) :
    matchFrom outset rule cursor =
      ((Nonterminal.runWith Nonterminal.production cursor.terminals
        (Nonterminal.enoughFuel cursor.terminals) rule.nonterminal outset.state).shift
          cursor.position).toMatch cursor.stream cursor.position := by
  rw [matchFrom, Nonterminal.runWith_cursor]

/-! ## Runs from an outset -/

/-- The nested parse of a rule from an outset, with fuel enough. -/
def Outset.nest (outset : Outset) (rule : Rule) (terminals : Terminals) : Parse :=
  rule.nonterminal.nestWith Nonterminal.production terminals (Nonterminal.enoughFuel terminals)
    outset.scope .start outset.history

theorem Outset.run_mirrors (outset : Outset) (rule : Rule) (terminals : Terminals) :
    Mirrors [] [] .empty outset.scope (.reaches (.afterRoot true))
      (Nonterminal.runWith Nonterminal.production terminals (Nonterminal.enoughFuel terminals)
        rule.nonterminal outset.state)
      (outset.nest rule terminals) :=
  Nonterminal.runWith_mirrors (fun _ _ => rfl) terminals _ rule.nonterminal .beforeRoot (.afterRoot true)
    [] [] .empty outset.state rule.isProper_nonterminal (by rw [rule.role_nonterminal]; rfl)
    ⟨rfl, rfl, trivial, by simp⟩ (by simp [Phase.isHeaded])

/-- A nested parse with fuel enough takes a token if it matches, and stays within the tokens. -/
theorem Outset.nest_surveyed (outset : Outset) {terminals : Terminals} {last : Nat}
    (ends : terminals.EndsAt last) (size : terminals.size = last + 1) (rule : Rule) :
    Surveyed last 0 (.reaches rule.nonterminal.outlook) (outset.nest rule terminals) :=
  Nonterminal.nestWith_surveyed (fun _ _ _ => rfl) ends _ rule.nonterminal outset.scope .start
    outset.history (by rw [rule.needs_nonterminal]; exact Nat.zero_le _)
    (rule.nonterminal.cost_lt_enoughFuel size)

section Streams

variable {stream : TokenStream} {position : Nat}

theorem TokenStream.EndsOnce.size_terminals (ends : stream.EndsOnce) (position : Nat) :
    (Cursor.atToken stream position).terminals.size =
      stream.eofIndex - (Cursor.atToken stream position).position + 1 := by
  have size := ends.size_eq
  have bound := Cursor.position_atToken_le stream position
  rw [Cursor.size_terminals_eq]
  change stream.tokens.size - (Cursor.atToken stream position).position = _
  omega

/-- What a nested parse took of the tokens behind a cursor lies on the stream. -/
theorem Forest.builds_of_leaves {kind : Kind} {children : Forest} {start taken : Nat}
    (built : children.WellBuilt false)
    (leaves : children.leaves = Terminals.leaves (.ofTokens (stream.tokens.toList.drop start)) 0 taken)
    (inside : start + taken ≤ stream.tokens.size) : Forest.Builds stream start kind children := by
  have same : (Forest.empty.node kind children).leaves = children.leaves := List.nil_append _
  refine ⟨built.placed, ?_, Forest.liesOn_of_leaves leaves inside⟩
  rw [Forest.Consecutive, same, leaves]
  simp [Terminals.leaves, Function.comp_def]

/-- A match from an outset finds nothing, as its nested parse does, or gives the tree of what that took. -/
theorem matchFrom_cases (ends : stream.EndsOnce) (outset : Outset) (rule : Rule) (position : Nat) :
    let cursor := Cursor.atToken stream position
    (∃ later, outset.nest rule cursor.terminals = .refused later ∧
      matchFrom outset rule cursor = .error .noMatch) ∨
    ∃ place later kind children, outset.nest rule cursor.terminals = .matched place later ∧
      place.forest = Forest.empty.node kind children ∧ (Forest.empty.node kind children).WellBuilt false ∧
      Forest.Builds stream cursor.position kind children ∧
      children.leaves.length = place.position ∧
      cursor.position + place.position ≤ stream.tokens.size ∧
      matchFrom outset rule cursor = .ok ((Forest.empty.node kind children).tree stream cursor.position,
        .atToken stream (cursor.position + place.position)) := by
  intro cursor
  have before : cursor.position ≤ stream.eofIndex := Cursor.position_atToken_le stream position
  have surveyed := outset.nest_surveyed (ends.terminals_endsAt before) (ends.size_terminals position) rule
  have mirrors := outset.run_mirrors rule cursor.terminals
  cases ran : Nonterminal.runWith Nonterminal.production cursor.terminals
      (Nonterminal.enoughFuel cursor.terminals) rule.nonterminal outset.state with
  | outOfFuel =>
      rw [ran] at mirrors
      change outset.nest rule cursor.terminals = _ at mirrors
      change Surveyed _ _ _ (outset.nest rule cursor.terminals) at surveyed
      rw [mirrors] at surveyed
      exact surveyed.elim
  | refused state =>
      rw [ran] at mirrors
      obtain ⟨_, _, _, _, refused⟩ := mirrors
      exact .inl ⟨_, refused, by rw [matchFrom_eq, ran]; rfl⟩
  | matched state =>
      rw [ran] at mirrors
      obtain ⟨trace, _, _, _, lays, _, _, parsed⟩ := mirrors
      obtain ⟨kind, children, forest, built, leaves⟩ := Nonterminal.node_of_nestWith rule.role_nonterminal
        rule.isProper_nonterminal parsed
      change trace.forest = _ at forest
      change trace.forest.WellBuilt false at built
      change trace.forest.leaves = _ at leaves
      rw [forest] at built leaves
      have leaves : children.leaves = cursor.terminals.leaves 0 state.position :=
        (List.nil_append _).symm.trans leaves
      have inside : cursor.position + state.position ≤ stream.tokens.size := by
        change Surveyed _ _ _ (outset.nest rule cursor.terminals) at surveyed
        rw [parsed] at surveyed
        obtain ⟨_, ⟨⟩, holds⟩ := surveyed
        have size := ends.size_eq
        rw [rule.outlook_nonterminal] at holds
        split at holds <;> simp only [Outlook.Holds, ParseState.place] at holds <;> omega
      have builds : Forest.Builds stream cursor.position kind children :=
        Forest.builds_of_leaves built.2.2 leaves inside
      have assembled : SyntaxTree.ofLog stream cursor.position
          (state.log.map (Event.shift cursor.position)) = .ok ((Forest.empty.node kind children).tree stream cursor.position) := by
        have steps := trace.steps_events cursor.position lays.sound
        have ofSteps := SyntaxTree.ofSteps_node stream cursor.position kind children built.2.2.placed
          (by simpa [Forest.Consecutive, Forest.leaves] using builds.consecutive)
        rw [SyntaxTree.ofLog, lays.log_eq, List.nil_append, steps, forest]
        simp only [ofSteps]
      refine .inr ⟨_, _, kind, children, parsed, forest, built, builds, ?_, inside, ?_⟩
      · simp [leaves, Terminals.leaves, ParseState.place]
      · rw [matchFrom_eq, ran]
        exact Outcome.toMatch_of_assembled assembled

end Streams
end ScriptTree
