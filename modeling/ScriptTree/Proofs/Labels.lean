import ScriptTree.Proofs.Fuel
import ScriptTree.Proofs.Lookahead
import ScriptTree.Proofs.Resuming
import ScriptTree.Proofs.Shape
import ScriptTree.Proofs.Starting

/-! # Labels

A statement is chosen by its first token. Whatever word it is that names a label, the choice comes to the
labelled statement, and behind the colon a statement is matched as if the text started there. The word
`let` is the exception: it starts a declaration or an expression, and never a label. -/
set_option autoImplicit false
namespace ScriptTree

open Production

/-! ## The choice of a label -/

def statementWords : List Kind :=
  [.leftBrace, .varKw, .constKw, .letKw, .semicolon, .ifKw, .doKw, .whileKw, .forKw, .continueKw, .breakKw,
    .returnKw, .withKw, .switchKw, .throwKw, .tryKw, .debuggerKw, .functionKw, .classKw, .asyncKw]

theorem not_mem_statementWords {kind : Kind} (named : kind ∈ identifierKinds) (noLet : kind ≠ .letKw)
    (noAsync : kind ≠ .asyncKw) : kind ∉ statementWords := by
  have all : ∀ kind ∈ identifierKinds, kind ≠ .letKw → kind ≠ .asyncKw → kind ∉ statementWords := by
    decide +kernel
  exact all kind named noLet noAsync

theorem Parse.orElse_refused (parse : Parse) : parse.orElse .refused = parse := by
  cases parse <;> rfl

/-- Two histories remember the same attempts and marks. -/
structure History.Recalls (history other : History) : Prop where
  arrows : history.failedArrows = other.failedArrows
  targets : history.targets = other.targets

section Choice

variable {terminals : Terminals} {scope : Scope} {history : History}
  (call : Nonterminal → Scope → Place → History → Parse)

theorem nest_statement_word (named : terminals.kindAt 0 ∈ identifierKinds)
    (noLet : terminals.kindAt 0 ≠ .letKw) (noAsync : terminals.kindAt 0 ≠ .asyncKw) :
    Grammar.statement.nest terminals call scope .start history =
      call .labelledOrExpressionStatement scope .start history := by
  have others := not_mem_statementWords named noLet noAsync
  simp only [statementWords, List.mem_cons, not_or] at others
  simp [Grammar.statement, select, nest, Guard.admits, Place.start, others]

/-- In front of a colon `async` starts no function, -/
theorem nest_functionDeclaration_async (isAsync : terminals.kindAt 0 = .asyncKw)
    (colon : terminals.kindAt 1 = .colon) :
    Grammar.functionDeclaration.nest terminals call scope .start history =
      .refused ((history.expect 0 .asyncKw).expect 0 .functionKw) := by
  simp [Grammar.functionDeclaration, Grammar.announcedFunction, select, series, nest, Guard.admits, Place.start,
    isAsync, colon, Parse.andThen]

/-- and may be a name. -/
theorem nest_statement_async (isAsync : terminals.kindAt 0 = .asyncKw) {later : History}
    (noFunction : call .functionDeclaration scope .start history = .refused later) :
    Grammar.statement.nest terminals call scope .start history =
      call .labelledOrExpressionStatement scope .start later := by
  have choice : Grammar.statement.nest terminals call scope .start history =
      (call .functionDeclaration scope .start history).orElse fun later =>
        (call .labelledOrExpressionStatement scope .start later).orElse .refused := by
    simp [Grammar.statement, select, firstOf, nest, Guard.admits, Place.start, isAsync]
  rw [choice, noFunction]
  exact Parse.orElse_refused _

theorem nest_labelledOrExpressionStatement
    (identifier : ParseState.isIdentifierAt terminals scope 0 = true) (colon : terminals.kindAt 1 = .colon) :
    Grammar.labelledOrExpressionStatement.nest terminals call scope .start history =
      call .labelledStatement scope .start history := by
  simp [Grammar.labelledOrExpressionStatement, nest, Guard.admits, Place.start, identifier, colon]

/-- What is taken up to the statement behind a label. -/
def Terminals.behindLabel (terminals : Terminals) : Place :=
  (Place.start.addNode .label (Place.start.take terminals)).take terminals

omit call in
theorem Terminals.forest_behindLabel (colon : terminals.kindAt 1 = .colon) : terminals.behindLabel.forest =
    (Forest.empty.node .label (Forest.empty.token 0 (terminals.kindAt 0))).token 1 .colon := by
  rw [← colon]
  rfl

theorem nest_labelledStatement (identifier : ParseState.isIdentifierAt terminals scope 0 = true)
    (colon : terminals.kindAt 1 = .colon) :
    Grammar.labelledStatement.nest terminals call scope .start history =
      (call .statement scope terminals.behindLabel history).andThen fun inner later =>
        .matched (Place.start.addNode .labelledStatement inner) later := by
  simp [Grammar.labelledStatement, Grammar.label, Production.identifier, Production.expect, series, nest,
    Guard.admits, Place.start, Place.inside, Place.take, Place.addNode, Terminals.behindLabel, identifier,
    colon, Parse.andThen]

end Choice

/-- Whatever word names a label, the choice comes to the statement behind it. -/
theorem Nonterminal.exists_nestWith_label {terminals : Terminals} {scope : Scope}
    (identifier : ParseState.isIdentifierAt terminals scope 0 = true) (colon : terminals.kindAt 1 = .colon)
    (noLet : terminals.kindAt 0 ≠ .letKw) (fuel : Nat) (history : History) :
    ∃ later : History, later.Recalls history ∧
      statement.nestWith production terminals (fuel + 3) scope .start history =
        (statement.nestWith production terminals fuel scope terminals.behindLabel later).andThen
          fun inner final => .matched (Place.start.addNode .labelledStatement inner) final := by
  have labelled : ∀ later, labelledOrExpressionStatement.nestWith production terminals (fuel + 2) scope .start
      later = (statement.nestWith production terminals fuel scope terminals.behindLabel later).andThen
        fun inner final => .matched (Place.start.addNode .labelledStatement inner) final := fun later =>
    (nest_labelledOrExpressionStatement _ identifier colon).trans (nest_labelledStatement _ identifier colon)
  by_cases isAsync : terminals.kindAt 0 = .asyncKw
  · exact ⟨(history.expect 0 .asyncKw).expect 0 .functionKw, ⟨rfl, rfl⟩,
      (nest_statement_async _ isAsync (nest_functionDeclaration_async _ isAsync colon)).trans (labelled _)⟩
  · exact ⟨history, ⟨rfl, rfl⟩, (nest_statement_word _ (ParseState.mem_identifierKinds identifier) noLet
      isAsync).trans (labelled history)⟩

/-- The word `let` chooses a declaration or an expression. -/
theorem Nonterminal.of_nestWith_let {terminals : Terminals} {scope : Scope} {history later : History}
    {fuel : Nat} {place : Place} (isLet : terminals.kindAt 0 = .letKw)
    (matched : statement.nestWith production terminals (fuel + 2) scope .start history =
      .matched place later) :
    ∃ kind children, place.forest = Forest.empty.node kind children ∧
      (kind = .variableStatement ∨ kind = .expressionStatement) := by
  have choice : statement.nestWith production terminals (fuel + 2) scope .start history =
      (Grammar.variableStatement.nest terminals (nestWith production terminals fuel) scope .start
        history).orElse fun later =>
          (Grammar.expressionStatement.nest terminals (nestWith production terminals fuel) scope .start
            later).orElse .refused := by
    simp [nestWith, production, Grammar.statement, select, firstOf, nest, Guard.admits, Place.start, isLet]
  rw [choice] at matched
  rcases Parse.orElse_matched matched with declared | ⟨_, otherwise⟩
  · obtain ⟨inner, _, _, closed⟩ := Parse.andThen_matched declared
    cases closed
    exact ⟨_, _, rfl, .inl rfl⟩
  · rw [Parse.orElse_refused, Grammar.expressionStatement, nest] at otherwise
    split at otherwise
    · cases otherwise
    · obtain ⟨inner, _, _, closed⟩ := Parse.andThen_matched otherwise
      cases closed
      exact ⟨_, _, rfl, .inr rfl⟩

/-! ## The statement behind a label -/

namespace Outset

/-- What is remembered of the tokens behind some more. -/
def behind (outset : Outset) (count : Nat) : Outset :=
  { outset with
    failedArrows := outset.failedArrows.filterMap fun entry =>
      if count ≤ entry.1 then some (entry.1 - count, entry.2) else none
    targets := outset.targets.filterMap fun target => if count ≤ target then some (target - count) else none }

theorem history_resumes {outset : Outset} {history : History} (recalls : history.Recalls outset.history)
    (count : Nat) : history.Resumes count (outset.behind count).history where
  arrows position scope := by
    rw [recalls.arrows]
    simp only [Outset.history, behind, List.mem_filterMap, Option.ite_none_right_eq_some]
    constructor
    · intro member
      exact ⟨_, member, Nat.le_add_right count position, by rw [Nat.add_sub_cancel_left]⟩
    · rintro ⟨⟨there, other⟩, member, further, same⟩
      cases same
      rwa [Nat.add_sub_of_le further]
  targets target := by
    rw [recalls.targets]
    simp only [Outset.history, behind, List.mem_filterMap, Option.ite_none_right_eq_some]
    constructor
    · intro member
      exact ⟨_, member, Nat.le_add_right count target, by rw [Nat.add_sub_cancel_left]⟩
    · rintro ⟨there, member, further, same⟩
      cases same
      rwa [Nat.add_sub_of_le further]

end Outset

def Forest.labelled (name : Kind) (statement : Forest) : Forest :=
  Forest.empty.node .labelledStatement
    ((Forest.empty.node .label (Forest.empty.token 0 name)).token 1 .colon ++ statement.shift 2)

section Streams

variable {stream : TokenStream} {outset : Outset} {start : Nat}

theorem Cursor.position_of_colon (ends : stream.EndsOnce)
    (colon : (atToken stream start).terminals.kindAt 1 = .colon) :
    start + 2 ≤ stream.eofIndex ∧ (atToken stream start).position = start ∧
      (atToken stream (start + 2)).position = start + 2 := by
  have before : (atToken stream start).position ≤ stream.eofIndex := position_atToken_le stream start
  have inside : ¬stream.eofIndex - (atToken stream start).position ≤ 1 := fun ended => by
    have eof := (ends.terminals_endsAt before 1).mpr ended
    cases colon.symm.trans eof
  simp only [atToken] at inside ⊢
  omega

/-- A match of a label goes on behind the colon as one that starts there. -/
theorem Outset.exists_nest_label (ends : stream.EndsOnce)
    (identifier : ParseState.isIdentifierAt (Cursor.atToken stream start).terminals outset.scope 0 = true)
    (colon : (Cursor.atToken stream start).terminals.kindAt 1 = .colon)
    (noLet : (Cursor.atToken stream start).terminals.kindAt 0 ≠ .letKw) :
    ∃ parse, outset.nest .statement (Cursor.atToken stream start).terminals =
        parse.andThen (fun inner later => .matched (Place.start.addNode .labelledStatement inner) later) ∧
      Parse.Resumes 2 (Place.Resumes 2 (Cursor.atToken stream start).terminals.behindLabel.forest .atEnd) parse
        ((outset.behind 2).nest .statement (Cursor.atToken stream (start + 2)).terminals) := by
  obtain ⟨before, here, there⟩ := Cursor.position_of_colon ends colon
  have text : (Cursor.atToken stream start).terminals.Resumes
      (Cursor.atToken stream (start + 2)).terminals 2 := by
    have drop := Terminals.resumes_drop stream.tokens.toList start 2
    simp only [Cursor.terminals, here, there]
    exact drop
  -- The fuel for two more tokens is enough for the calls that lead to the statement behind the colon.
  obtain ⟨fuel, enough, more⟩ : ∃ fuel,
      Nonterminal.enoughFuel (Cursor.atToken stream start).terminals = fuel + 3 ∧
      Nonterminal.enoughFuel (Cursor.atToken stream (start + 2)).terminals ≤ fuel := by
    have size := ends.size_terminals start
    have lessSize := ends.size_terminals (start + 2)
    rw [here] at size
    rw [there] at lessSize
    refine ⟨Nonterminal.enoughFuel (Cursor.atToken stream start).terminals - 3, ?_, ?_⟩ <;>
      simp only [Nonterminal.enoughFuel, Nonterminal.fuelFrom, Nonterminal.callDepth, size, lessSize] <;> omega
  have finished : (outset.behind 2).nest .statement (Cursor.atToken stream (start + 2)).terminals ≠
      .outOfFuel := by
    rcases matchFrom_cases ends (outset.behind 2) .statement (start + 2) with
      ⟨_, refused, _⟩ | ⟨_, _, _, _, matched, _⟩
    · simp [refused]
    · simp [matched]
  have same := Nonterminal.nestWith_eq_of_le more .statement outset.scope .start (outset.behind 2).history
    finished
  obtain ⟨later, recalls, chosen⟩ :=
    Nonterminal.exists_nestWith_label identifier colon noLet fuel outset.history
  have resumes := Nonterminal.nestWith_resumes text fuel .statement outset.scope
    (Cursor.atToken stream start).terminals.behindLabel.forest
    (Cursor.atToken stream start).terminals.behindLabel .start later (outset.behind 2).history rfl
    ⟨rfl, rfl, fun known => absurd rfl known, fun atEnd => absurd atEnd (by decide)⟩ (outset.history_resumes recalls 2)
  rw [same] at resumes
  rw [← enough] at chosen
  exact ⟨_, chosen, resumes⟩

theorem matchFrom_label (ends : stream.EndsOnce)
    (identifier : ParseState.isIdentifierAt (Cursor.atToken stream start).terminals outset.scope 0 = true)
    (colon : (Cursor.atToken stream start).terminals.kindAt 1 = .colon)
    (noLet : (Cursor.atToken stream start).terminals.kindAt 0 ≠ .letKw) :
    (matchFrom outset .statement (.atToken stream start) = .error .noMatch ∧
      matchFrom (outset.behind 2) .statement (.atToken stream (start + 2)) = .error .noMatch) ∨
    ∃ tree statement next, matchFrom outset .statement (.atToken stream start) = .ok (tree, next) ∧
      matchFrom (outset.behind 2) .statement (.atToken stream (start + 2)) = .ok (statement, next) ∧
      tree.stream = stream ∧ tree.firstToken = start ∧
      statement.stream = stream ∧ statement.firstToken = start + 2 ∧
      tree.shape =
        Forest.labelled ((Cursor.atToken stream start).terminals.kindAt 0) statement.shape := by
  obtain ⟨-, here, there⟩ := Cursor.position_of_colon ends colon
  obtain ⟨parse, nested, resumes⟩ := outset.exists_nest_label ends identifier colon noLet
  rcases matchFrom_cases ends (outset.behind 2) .statement (start + 2) with
    ⟨_, refused, none⟩ | ⟨rest, known, inner, held, matched, forest, built, builds, _, _, some⟩
  · rw [refused] at resumes
    cases resumes with
    | refused _ =>
        rcases matchFrom_cases ends outset .statement start with
          ⟨_, _, refuses⟩ | ⟨_, _, _, _, found, _⟩
        · exact .inl ⟨refuses, none⟩
        · cases nested.symm.trans found
  · rw [matched] at resumes
    cases resumes with
    | @matched place _ history _ places _ =>
        rcases matchFrom_cases ends outset .statement start with
          ⟨_, refused, _⟩ | ⟨whole, later, kind, children, found, label, labelBuilt, labelBuilds, _, _, given⟩
        · cases nested.symm.trans refused
        · cases nested.symm.trans found
          cases label
          have next : (Cursor.atToken stream (start + 2)).position + rest.position =
              (Cursor.atToken stream start).position + place.position := by
            rw [here, there, places.position, Nat.add_assoc]
          rw [next] at some
          refine .inr ⟨_, _, _, given, some, rfl, here, rfl, there, ?_⟩
          rw [Forest.shape_tree labelBuilt labelBuilds.consecutive labelBuilds.lies,
            Forest.shape_tree built builds.consecutive builds.lies, places.forest, forest,
            Terminals.forest_behindLabel colon]
          rfl

theorem matchFrom_let (ends : stream.EndsOnce)
    (isLet : (Cursor.atToken stream start).terminals.kindAt 0 = .letKw) {tree : SyntaxTree} {next : Cursor}
    (matched : matchFrom outset .statement (.atToken stream start) = .ok (tree, next)) :
    tree.kind SyntaxTree.root = .variableStatement ∨ tree.kind SyntaxTree.root = .expressionStatement := by
  rcases matchFrom_cases ends outset .statement start with
    ⟨_, _, refused⟩ | ⟨place, later, kind, children, found, forest, _, builds, _, _, given⟩
  · cases matched.symm.trans refused
  · cases matched.symm.trans given
    obtain ⟨fuel, enough⟩ : ∃ fuel,
        Nonterminal.enoughFuel (Cursor.atToken stream start).terminals = fuel + 2 :=
      ⟨Nonterminal.enoughFuel (Cursor.atToken stream start).terminals - 2, by
        simp only [Nonterminal.enoughFuel, Nonterminal.fuelFrom, Nonterminal.callDepth]; omega⟩
    rw [Outset.nest, enough] at found
    obtain ⟨chosen, _, same, among⟩ := Nonterminal.of_nestWith_let isLet found
    cases forest.symm.trans same
    have root : ((Forest.empty.node kind children).tree stream
        (Cursor.atToken stream start).position).kind SyntaxTree.root = kind :=
      congrArg NodeEntry.kind builds.represents.stores.entry
    rwa [root]

/-- A label in front of a statement makes a labelled statement, whatever word it is and whatever was tried
before; only `let` never does. -/
theorem matchFrom_labels_statement {text : List Char} {tokens : Array Token} {stream : TokenStream}
    (accepted : TokenStream.ofTokens text tokens = .ok stream) (outset : Outset) (start : Nat)
    (identifier : ParseState.isIdentifierAt (Cursor.atToken stream start).terminals outset.scope 0 = true)
    (colon : (Cursor.atToken stream start).terminals.kindAt 1 = .colon) :
    ((Cursor.atToken stream start).terminals.kindAt 0 ≠ .letKw →
      (matchFrom outset .statement (.atToken stream start) = .error .noMatch ∧
        matchFrom (outset.behind 2) .statement (.atToken stream (start + 2)) = .error .noMatch) ∨
      ∃ tree statement next, matchFrom outset .statement (.atToken stream start) = .ok (tree, next) ∧
        matchFrom (outset.behind 2) .statement (.atToken stream (start + 2)) = .ok (statement, next) ∧
        tree.stream = stream ∧ tree.firstToken = start ∧
        statement.stream = stream ∧ statement.firstToken = start + 2 ∧
        tree.shape =
          Forest.labelled ((Cursor.atToken stream start).terminals.kindAt 0) statement.shape) ∧
    ((Cursor.atToken stream start).terminals.kindAt 0 = .letKw → ∀ tree next,
      matchFrom outset .statement (.atToken stream start) = .ok (tree, next) →
      tree.kind SyntaxTree.root = .variableStatement ∨
        tree.kind SyntaxTree.root = .expressionStatement) := by
  obtain ⟨-, accepts⟩ := TokenStream.accepts_of_ofTokens accepted
  exact ⟨matchFrom_label accepts.endsOnce identifier colon,
    fun isLet _ _ => matchFrom_let accepts.endsOnce isLet⟩

/-- The word `async`, which may start a declaration, labels an empty statement. -/
theorem matchFrom_labels_statement_async :
    let text := ['a', 's', 'y', 'n', 'c', ':', ';']
    let stream := tokenize text
    let cursor := Cursor.atToken stream 0
    TokenStream.ofTokens text stream.tokens = .ok stream ∧
    ParseState.isIdentifierAt cursor.terminals Outset.afresh.scope 0 = true ∧
    cursor.terminals.kindAt 1 = .colon ∧
    ∃ tree statement next, matchRule .statement cursor = .ok (tree, next) ∧
      matchRule .statement (.atToken stream 2) = .ok (statement, next) ∧
      tree.shape = Forest.labelled .asyncKw statement.shape := by
  intro text stream cursor
  have accepted : TokenStream.ofTokens text stream.tokens = .ok stream := rfl
  have identifier : ParseState.isIdentifierAt cursor.terminals Outset.afresh.scope 0 = true := by
    decide +kernel
  have colon : cursor.terminals.kindAt 1 = .colon := by decide +kernel
  have isAsync : cursor.terminals.kindAt 0 = .asyncKw := by decide +kernel
  have matched : (matchRule .statement cursor).toOption.isSome = true := by decide +kernel
  refine ⟨accepted, identifier, colon, ?_⟩
  rcases (matchFrom_labels_statement accepted .afresh 0 identifier colon).1
    (by rw [isAsync]; decide) with ⟨none, _⟩ | ⟨tree, statement, next, found, behind, -, -, -, -, shape⟩
  · rw [← matchFrom_afresh, none] at matched
    cases matched
  · have same : Outset.afresh.behind 2 = .afresh := rfl
    rw [matchFrom_afresh] at found
    rw [same, matchFrom_afresh] at behind
    rw [isAsync] at shape
    exact ⟨tree, statement, next, found, behind, shape⟩

/-- The word `let` is an identifier, but it labels no statement. -/
theorem matchRule_refuses_let_label :
    let text := ['l', 'e', 't', ':', ' ', ';']
    let stream := tokenize text
    let cursor := Cursor.atToken stream 0
    TokenStream.ofTokens text stream.tokens = .ok stream ∧
    ParseState.isIdentifierAt cursor.terminals .outermost 0 = true ∧
    cursor.terminals.kindAt 1 = .colon ∧
    (matchRule .statement (.atToken stream 2)).toOption.isSome = true ∧
    (matchRule .statement cursor).toOption.isNone = true := by
  exact ⟨rfl, by decide +kernel, by decide +kernel, by decide +kernel, by decide +kernel⟩

end Streams
end ScriptTree
