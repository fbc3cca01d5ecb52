import ScriptTree.Parse.Match
import ScriptTree.Proofs.Coverage
import ScriptTree.Proofs.Layout
import ScriptTree.Proofs.Outlook
import ScriptTree.Proofs.Shape
import ScriptTree.Proofs.Streams

/-! # Matching a rule

A rule that matches gives a tree: its log is laid out, the steps of the log are those of a forest, and a
builder takes them all. The forest covers the tokens that were taken, so the tree does. -/
set_option autoImplicit false
namespace ScriptTree

/-! ## The rules -/

namespace Rule

theorem role_nonterminal (rule : Rule) : rule.nonterminal.role = .node := by
  cases rule <;> rfl

theorem isProper_nonterminal (rule : Rule) : rule.nonterminal.isProper = true := by
  cases rule <;> rfl

theorem needs_nonterminal (rule : Rule) : rule.nonterminal.needs = 0 := by
  cases rule <;> rfl

theorem outlook_nonterminal (rule : Rule) :
    rule.nonterminal.outlook = if rule = .script then .past else .within 0 true := by
  cases rule <;> rfl

end Rule

/-! ## The run of a rule -/

theorem Nonterminal.run_mirrors (terminals : Terminals) (nonterminal : Nonterminal)
    (isNode : nonterminal.role = .node) (proper : nonterminal.isProper = true) :
    Mirrors [] [] .empty .outermost (.reaches (.afterRoot true)) (nonterminal.run terminals)
      (nestWith production terminals (enoughFuel terminals) nonterminal .outermost .start .start) :=
  runWith_mirrors (fun _ _ => rfl) terminals (enoughFuel terminals) nonterminal .beforeRoot
    (.afterRoot true) [] [] .empty .start proper (by rw [isNode]; rfl) ⟨rfl, rfl, trivial, by simp⟩
    (by simp [Phase.isHeaded])

theorem Nonterminal.cost_lt_enoughFuel (nonterminal : Nonterminal) {terminals : Terminals} {last : Nat}
    (size : terminals.size = last + 1) : nonterminal.cost (last + 1) < enoughFuel terminals := by
  have bound := nonterminal.rank_lt
  simp only [cost, enoughFuel, fuelFrom, callDepth, size] at bound ⊢
  omega

/-- A nested parse of a rule from the first token never runs out of fuel, takes a token if it matches,
and stays within the tokens; only a script takes the end. -/
theorem Rule.surveyed {terminals : Terminals} {last : Nat} (ends : terminals.EndsAt last)
    (size : terminals.size = last + 1) (rule : Rule) :
    Surveyed last 0 (.reaches rule.nonterminal.outlook)
      (rule.nonterminal.nestWith Nonterminal.production terminals
        (Nonterminal.enoughFuel terminals) .outermost .start .start) :=
  Nonterminal.nestWith_surveyed (fun _ _ _ => rfl) ends _ rule.nonterminal .outermost .start .start
    (by rw [rule.needs_nonterminal]; exact Nat.zero_le _)
    (rule.nonterminal.cost_lt_enoughFuel size)

/-- A script ends in the end of the text, which stands in its root. -/
def Nonterminal.EndsScript (nonterminal : Nonterminal) (_ : Scope) (before after : Place) : Prop :=
  match nonterminal with
  | .scriptItems => ∃ front, after.forest = .token front (after.position - 1) .eof
  | .script =>
      ∃ front, after.forest = before.forest.node .script (.token front (after.position - 1) .eof)
  | _ => True

theorem Nonterminal.nestWith_endsScript (terminals : Terminals) (fuel : Nat) :
    CallsSatisfy (nestWith production terminals fuel) EndsScript := by
  apply nestWith_satisfies
  intro nonterminal scope before after derives
  cases nonterminal with
  | scriptItems =>
      obtain ⟨_, ⟨admitted, rfl⟩ | ⟨_, _, _, _, _, front, ends⟩⟩ := derives
      · have eof : terminals.kindAt before.position = .eof := by simpa [Guard.admits] using admitted
        exact ⟨before.forest, by simp [Place.take, eof]⟩
      · exact ⟨front, ends⟩
  | script =>
      obtain ⟨inner, ⟨front, ends⟩, rfl⟩ := derives
      exact ⟨front, by simp [Place.addNode, ends]⟩
  | _ => trivial

/-- What a run that matched gives: a node that covers the tokens it took, and a log of it. -/
structure Rule.Matched (rule : Rule) (terminals : Terminals) (last : Nat) (state : ParseState)
    (kind : Kind) (children : Forest) : Prop where
  log : ∃ trace : Trace, trace.Sound ∧ trace.forest = Forest.empty.node kind children ∧
    state.log = (trace.events none).toArray
  nested : ∃ place later, rule.nonterminal.nestWith Nonterminal.production terminals
    (Nonterminal.enoughFuel terminals) .outermost .start .start = .matched place later ∧
    place.forest = Forest.empty.node kind children ∧ place.position = state.position
  built : (Forest.empty.node kind children).WellBuilt false
  leaves : children.leaves = terminals.leaves 0 state.position
  moves : 0 < state.position
  inside : state.position ≤ last ∨ state.position = last + 1 ∧ kind = .script ∧
    ∃ front, children = .token front last .eof

theorem Rule.exists_matched {terminals : Terminals} {last : Nat} (ends : terminals.EndsAt last)
    (size : terminals.size = last + 1) (rule : Rule) {state : ParseState}
    (ran : rule.nonterminal.run terminals = .matched state) :
    ∃ kind children, rule.Matched terminals last state kind children := by
  have mirrors := Nonterminal.run_mirrors terminals rule.nonterminal rule.role_nonterminal
    rule.isProper_nonterminal
  rw [ran] at mirrors
  obtain ⟨trace, _, _, _, lays, _, _, parsed⟩ := mirrors
  obtain ⟨kind, children, forest, built, leaves⟩ :=
    Nonterminal.node_of_nestWith rule.role_nonterminal rule.isProper_nonterminal parsed
  have surveyed := rule.surveyed ends size
  rw [parsed] at surveyed
  obtain ⟨outlook, ⟨⟩, holds⟩ := surveyed
  change trace.forest = _ at forest
  change trace.forest.WellBuilt false at built
  change trace.forest.leaves = _ at leaves
  rw [forest] at built leaves
  refine ⟨kind, children, ⟨trace, lays.sound, forest, lays.log_eq⟩,
    ⟨_, _, parsed, forest, rfl⟩, built,
    (List.nil_append _).symm.trans leaves, ?_, ?_⟩
  · rw [rule.outlook_nonterminal] at holds
    change Outlook.Holds last 0 state.position _ at holds
    split at holds
    · have there := holds.2
      omega
    · exact holds.2.2 rfl
  · rw [rule.outlook_nonterminal] at holds
    change Outlook.Holds last 0 state.position _ at holds
    split at holds
    · rename_i isScript
      subst isScript
      have there : state.position = last + 1 := holds.2
      obtain ⟨front, ended⟩ :=
        Nonterminal.nestWith_endsScript _ _ _ _ _ _ _ _ parsed
      change trace.forest = Forest.empty.node .script (.token front (state.position - 1) .eof) at ended
      rw [forest, there] at ended
      cases ended
      exact .inr ⟨there, rfl, front, rfl⟩
    · have bound := holds.2.1
      exact .inl (by omega)

theorem Rule.run_ne_outOfFuel {terminals : Terminals} {last : Nat} (ends : terminals.EndsAt last)
    (size : terminals.size = last + 1) (rule : Rule) :
    rule.nonterminal.run terminals ≠ .outOfFuel := by
  intro ran
  have mirrors := Nonterminal.run_mirrors terminals rule.nonterminal rule.role_nonterminal
    rule.isProper_nonterminal
  rw [ran] at mirrors
  have surveyed := rule.surveyed ends size
  rw [mirrors] at surveyed
  exact surveyed

/-! ## The tree over a stream -/

structure TokenStream.EndsOnce (stream : TokenStream) : Prop where
  size_eq : stream.tokens.size = stream.eofIndex + 1
  kind_eq_eof_iff : ∀ {index : Nat} {token : Token}, stream.tokens[index]? = some token →
    (token.kind = .eof ↔ index = stream.eofIndex)

theorem TokenStream.Accepts.endsOnce {stream : TokenStream} (accepts : stream.Accepts) :
    stream.EndsOnce :=
  ⟨accepts.size_eq, accepts.kind_eq_eof_iff⟩

theorem TokenStream.EndsOnce.terminals_endsAt {stream : TokenStream} (ends : stream.EndsOnce)
    {position : Nat} (inside : position ≤ stream.eofIndex) :
    Terminals.EndsAt (.ofTokens (stream.tokens.toList.drop position)) (stream.eofIndex - position) := by
  intro index
  have size := ends.size_eq
  simp only [Terminals.kindAt, Terminals.ofTokens, List.getElem?_toArray, List.getElem?_drop,
    Array.getElem?_toList]
  cases here : stream.tokens[position + index]? with
  | none =>
      have beyond := Array.getElem?_eq_none_iff.mp here
      simp only [true_iff]
      omega
  | some token =>
      have bound := (Array.getElem?_eq_some_iff.mp here).1
      simp only [ends.kind_eq_eof_iff here]
      omega

theorem TokenStream.Accepts.terminals_endsAt {stream : TokenStream} (accepts : stream.Accepts)
    {position : Nat}
    (inside : position ≤ stream.eofIndex) :
    Terminals.EndsAt (.ofTokens (stream.tokens.toList.drop position)) (stream.eofIndex - position) :=
  accepts.endsOnce.terminals_endsAt inside

theorem TokenStream.Accepts.endsAt {stream : TokenStream} (accepts : stream.Accepts) :
    Terminals.EndsAt stream.tokens stream.eofIndex := by
  have ends := accepts.terminals_endsAt (Nat.zero_le _)
  rwa [List.drop_zero, Nat.sub_zero] at ends

/-- A tree covers the tokens of a stream from `start` up to `stop`: they are its leaves, each once and in
order, their texts join to the text of the tree, and the end of the stream stands in the root of a
script alone. -/
structure SyntaxTree.Covers (tree : SyntaxTree) (stream : TokenStream) (start stop : Nat) : Prop where
  sameStream : tree.stream = stream
  leaves : tree.leaves = List.range' start (stop - start)
  inside : stop ≤ stream.size
  texts : (tree.leaves.map tree.tokenText).flatten = tree.text SyntaxTree.root
  eof : ∀ id ∈ tree.leaves, (tree.token id).kind = .eof →
    tree.kind SyntaxTree.root = .script ∧ .token id ∈ tree.children SyntaxTree.root

theorem TokenStream.map_range' (stream : TokenStream) {first count : Nat}
    (inside : first + count ≤ stream.tokens.size) :
    (List.range' first count).map (fun id =>
        (stream.tokens.getD id default).fullSpan.sliceOf stream.text) =
      ((stream.tokens.toList.drop first).take count).map fun token =>
        token.fullSpan.sliceOf stream.text := by
  apply List.ext_getElem
  · simp
    omega
  · intro index less _
    rw [List.length_map, List.length_range'] at less
    simp [Array.getD, show first + index < stream.tokens.size by omega]

section Matched

variable {stream : TokenStream} {rule : Rule} {start : Nat} {state : ParseState} {kind : Kind}
  {children : Forest}

theorem Rule.Matched.consecutive {terminals : Terminals} {last : Nat}
    (matched : rule.Matched terminals last state kind children) :
    (Forest.empty.node kind children).Consecutive 0 ∧ children.leaves.length = state.position := by
  have leaves : (Forest.empty.node kind children).leaves = terminals.leaves 0 state.position :=
    (List.nil_append _).trans matched.leaves
  refine ⟨?_, by simp [matched.leaves, Terminals.leaves]⟩
  rw [Forest.Consecutive, leaves]
  simp [Terminals.leaves, Function.comp_def]

/-- A node over tokens that were seen from `start` on lies on the stream. -/
theorem Forest.liesOn_of_leaves {taken : Nat}
    (leaves : children.leaves = Terminals.leaves (.ofTokens (stream.tokens.toList.drop start)) 0 taken)
    (inside : start + taken ≤ stream.tokens.size) : (empty.node kind children).LiesOn stream start := by
  intro leaf member
  have listed : leaf ∈ children.leaves := by simpa [Forest.leaves] using member
  rw [leaves] at listed
  obtain ⟨position, inRange, rfl⟩ := List.mem_map.mp listed
  have bound := List.mem_range'_1.mp inRange
  have here : start + position < stream.tokens.size := by omega
  simp [Terminals.kindAt, Terminals.ofTokens, Array.getD, here]

theorem Rule.Matched.inside_stream (accepts : stream.Accepts) (before : start ≤ stream.eofIndex)
    {terminals : Terminals}
    (matched : rule.Matched terminals (stream.eofIndex - start) state kind children) :
    start + state.position ≤ stream.tokens.size := by
  have size := accepts.size_eq
  rcases matched.inside with less | ⟨same, _⟩ <;> omega

theorem Rule.Matched.liesOn (accepts : stream.Accepts) (before : start ≤ stream.eofIndex)
    (matched : rule.Matched (.ofTokens (stream.tokens.toList.drop start)) (stream.eofIndex - start)
      state kind children) :
    (Forest.empty.node kind children).LiesOn stream start :=
  Forest.liesOn_of_leaves matched.leaves (matched.inside_stream accepts before)

/-- The log of a run that matched, moved to where its tokens stand, gives the tree of its forest. -/
theorem Rule.Matched.ofLog {terminals : Terminals} {last : Nat}
    (matched : rule.Matched terminals last state kind children) :
    SyntaxTree.ofLog stream start (state.log.map (Event.shift start)) =
      .ok ((Forest.empty.node kind children).tree stream start) := by
  obtain ⟨trace, sound, forest, log⟩ := matched.log
  have consecutive := matched.consecutive.1
  rw [Forest.Consecutive] at consecutive
  have built := SyntaxTree.ofSteps_node stream start kind children matched.built.2.2.placed
    (by simpa [Forest.Consecutive, Forest.leaves] using consecutive)
  rw [SyntaxTree.ofLog, log, trace.steps_events start sound, forest]
  simp only [built]

theorem Rule.Matched.covers (accepts : stream.Accepts)
    (ranges : ∀ token ∈ stream.tokens, token.span.start ≤ token.span.stop)
    (before : start ≤ stream.eofIndex)
    (matched : rule.Matched (.ofTokens (stream.tokens.toList.drop start)) (stream.eofIndex - start)
      state kind children) :
    ((Forest.empty.node kind children).tree stream start).Covers stream start
      (start + state.position) := by
  obtain ⟨consecutive, length⟩ := matched.consecutive
  have lies := matched.liesOn accepts before
  have holds := Forest.holds_tree consecutive lies
  have inside := matched.inside_stream accepts before
  have leaves : ((Forest.empty.node kind children).tree stream start).leaves =
      List.range' start state.position := by
    rw [SyntaxTree.leaves, Forest.shape_tree matched.built consecutive lies]
    have positions := consecutive
    rw [Forest.Consecutive, Forest.leaves, Forest.leaves, List.nil_append, length] at positions
    have shifted : (List.range' 0 state.position).map (start + ·) =
        List.range' start state.position := by
      rw [List.map_add_range', Nat.add_zero]
    rw [← shifted, ← positions, List.map_map, Forest.leaves, Forest.leaves, List.nil_append]
    rfl
  have stop : (children.after (Numbering.startingAt start).nextNode).token =
      start + state.position := by
    rw [Forest.after_eq, length]
    rfl
  have entry := holds.entry
  rw [stop] at entry
  refine ⟨rfl, by rw [leaves, Nat.add_sub_cancel_left], inside, ?_, ?_⟩
  · have moves := matched.moves
    have first : (Numbering.startingAt start).token ≠ start + state.position :=
      Nat.ne_of_lt (Nat.lt_add_of_pos_right moves)
    change _ = Span.sliceOf (SyntaxTree.tokensSpan _ (SyntaxTree.entry _
      (Numbering.startingAt start).node).firstToken (SyntaxTree.entry _
      (Numbering.startingAt start).node).endToken) _
    rw [leaves, entry]
    dsimp only
    rw [SyntaxTree.tokensSpan, if_neg first]
    exact (congrArg List.flatten (stream.map_range' inside)).trans
      (accepts.flatten_run ranges inside moves)
  · intro id member eof
    rw [leaves, List.mem_range'_1] at member
    have bound : id < stream.tokens.size := Nat.lt_of_lt_of_le member.2 inside
    have here : stream.tokens[id]? = some (stream.tokens.getD id default) := by
      simp [Array.getD, bound]
    have last := (accepts.kind_eq_eof_iff here).mp eof
    obtain less | ⟨past, rfl, front, rfl⟩ := matched.inside
    · omega
    · obtain ⟨rootKind, rootChildren, _⟩ := holds.node
      refine ⟨rootKind, ?_⟩
      have count : front.leaves.length = stream.eofIndex - start := by
        simp only [Forest.leaves, List.length_append, List.length_singleton] at length
        omega
      have same : (front.after (Numbering.startingAt start).nextNode).token = id := by
        rw [Forest.after_eq, count, last]
        exact Nat.add_sub_cancel' before
      change .token id ∈ SyntaxTree.children _ (Numbering.startingAt start).node
      rw [rootChildren, Forest.childrenFrom, same]
      simp

end Matched

/-! ## Matching and parsing -/

namespace Cursor

variable {stream : TokenStream}

theorem position_atToken_le (stream : TokenStream) (position : Nat) :
    (atToken stream position).position ≤ stream.eofIndex :=
  Nat.min_le_right _ _

theorem endsAt_terminals (accepts : stream.Accepts) (position : Nat) :
    (atToken stream position).terminals.EndsAt
      (stream.eofIndex - (atToken stream position).position) :=
  accepts.terminals_endsAt (position_atToken_le stream position)

theorem size_terminals (accepts : stream.Accepts) (position : Nat) :
    (atToken stream position).terminals.size =
      stream.eofIndex - (atToken stream position).position + 1 := by
  have size := accepts.size_eq
  have bound := position_atToken_le stream position
  rw [size_terminals_eq]
  change stream.tokens.size - (atToken stream position).position = _
  omega

theorem isAtEnd_iff (accepts : stream.Accepts) (position : Nat) :
    (atToken stream position).isAtEnd = true ↔ stream.eofIndex ≤ position := by
  have size := accepts.size_eq
  have bound := position_atToken_le stream position
  have inside : (atToken stream position).position < stream.tokens.size := by omega
  have here := Array.getElem?_eq_getElem inside
  have eof := accepts.kind_eq_eof_iff here
  have same : (atToken stream position).current? =
      some stream.tokens[(atToken stream position).position] :=
    here
  rw [isAtEnd, same]
  simp only [beq_iff_eq]
  rw [eof]
  change min position stream.eofIndex = stream.eofIndex ↔ _
  omega

end Cursor

/-- A match from a cursor either finds nothing or builds the tree of a run that matched. -/
theorem matchRule_cases {stream : TokenStream} (accepts : stream.Accepts) (rule : Rule)
    (position : Nat) :
    let cursor := Cursor.atToken stream position
    (∃ state, rule.nonterminal.run cursor.terminals = .refused state ∧
      matchRule rule cursor = .error .noMatch) ∨
    ∃ state kind children, rule.nonterminal.run cursor.terminals = .matched state ∧
      rule.Matched cursor.terminals (stream.eofIndex - cursor.position) state kind children ∧
      matchRule rule cursor = .ok ((Forest.empty.node kind children).tree stream cursor.position,
        .atToken stream (cursor.position + state.position)) := by
  intro cursor
  have ends := Cursor.endsAt_terminals accepts position
  have size := Cursor.size_terminals accepts position
  cases ran : rule.nonterminal.run cursor.terminals with
  | outOfFuel => exact absurd ran (rule.run_ne_outOfFuel ends size)
  | refused state => exact .inl ⟨state, rfl, by rw [matchRule_eq, ran]; rfl⟩
  | matched state =>
      obtain ⟨kind, children, matched⟩ := rule.exists_matched ends size ran
      refine .inr ⟨state, kind, children, rfl, matched, ?_⟩
      rw [matchRule_eq, ran]
      exact Outcome.toMatch_of_assembled matched.ofLog

/-- A parse of a whole stream is a match at its start, if that one ends at the end. -/
theorem parseStream_cases {stream : TokenStream} (accepts : stream.Accepts) (rule : Rule) :
    (∃ error, parseStream rule stream = .error (.syntaxError error) ∧
      ∀ tree next, matchRule rule (.start stream) = .ok (tree, next) → next.isAtEnd = false) ∨
    ∃ tree next, parseStream rule stream = .ok tree ∧
      matchRule rule (.start stream) = .ok (tree, next) ∧ next.isAtEnd = true := by
  rcases matchRule_cases accepts rule 0 with
    ⟨state, ran, none⟩ | ⟨state, kind, children, ran, matched, found⟩
  · have refused : parseStream rule stream =
        .error (.syntaxError (stream.syntaxError state.furthest)) := by
      rw [parseStream_eq, Cursor.start, ran]
      rfl
    refine .inl ⟨_, refused, ?_⟩
    intro tree next succeeded
    rw [Cursor.start, none] at succeeded
    cases succeeded
  · have start : (Cursor.atToken stream 0).position = 0 := Nat.zero_min _
    rw [start, Nat.zero_add] at found
    have atEnd := Cursor.isAtEnd_iff accepts state.position
    by_cases whole : stream.eofIndex ≤ state.position
    · refine .inr ⟨_, _, ?_, found, atEnd.mpr whole⟩
      rw [parseStream_eq, Cursor.start, ran]
      exact Outcome.toParse_of_assembled whole matched.ofLog
    · have left : parseStream rule stream =
          .error (.syntaxError (stream.syntaxError (state.expect .eof).furthest)) := by
        rw [parseStream_eq, Cursor.start, ran]
        exact if_neg whole
      refine .inl ⟨_, left, ?_⟩
      intro tree next succeeded
      rw [Cursor.start, found] at succeeded
      cases succeeded
      exact Bool.eq_false_iff.mpr fun ended => whole (atEnd.mp ended)

/-- What holds of the tree of every run that matched holds of the trees of all matches and parses. -/
theorem TokenStream.Accepts.holds_of_matched {stream : TokenStream} (accepts : stream.Accepts)
    (rule : Rule) {property : SyntaxTree → Prop}
    (holds : ∀ start ≤ stream.eofIndex, ∀ (state : ParseState) (kind : Kind) (children : Forest),
      rule.Matched (.ofTokens (stream.tokens.toList.drop start)) (stream.eofIndex - start) state kind
        children → property ((Forest.empty.node kind children).tree stream start)) :
    (∀ (position : Nat) (tree : SyntaxTree) (next : Cursor),
      matchRule rule (.atToken stream position) = .ok (tree, next) → property tree) ∧
    ∀ tree : SyntaxTree, parseStream rule stream = .ok tree → property tree := by
  have ofMatch : ∀ (position : Nat) (tree : SyntaxTree) (next : Cursor),
      matchRule rule (.atToken stream position) = .ok (tree, next) → property tree := by
    intro position tree next found
    rcases matchRule_cases accepts rule position with ⟨_, _, none⟩ | ⟨_, _, _, _, matched, given⟩
    · rw [none] at found
      cases found
    · rw [given] at found
      cases found
      exact holds _ (Cursor.position_atToken_le stream position) _ _ _ matched
  refine ⟨ofMatch, ?_⟩
  intro tree parsed
  rcases parseStream_cases accepts rule with ⟨_, refused, _⟩ | ⟨_, next, given, found, _⟩
  · rw [refused] at parsed
    cases parsed
  · rw [given] at parsed
    cases parsed
    exact ofMatch 0 tree next found

/-- If a nested run takes a whole stream, the tree of a parse is what that run gave. -/
theorem parseStream_of_nested {stream : TokenStream} (accepts : stream.Accepts) (rule : Rule)
    {place : Place} {later : History}
    (ran : rule.nonterminal.nestWith Nonterminal.production (Cursor.start stream).terminals
      (Nonterminal.enoughFuel (Cursor.start stream).terminals) .outermost .start .start =
        .matched place later)
    (whole : stream.eofIndex ≤ place.position) :
    ∃ tree, parseStream rule stream = .ok tree ∧ tree.stream = stream ∧ tree.firstToken = 0 ∧
      tree.shape = place.forest := by
  have start : (Cursor.atToken stream 0).position = 0 := Nat.zero_min _
  rcases matchRule_cases accepts rule 0 with
    ⟨state, refused, _⟩ | ⟨state, kind, children, _, matched, found⟩
  · have mirrors := Nonterminal.run_mirrors (Cursor.start stream).terminals rule.nonterminal
      rule.role_nonterminal rule.isProper_nonterminal
    rw [show rule.nonterminal.run (Cursor.start stream).terminals = .refused state from refused]
      at mirrors
    obtain ⟨_, _, _, _, other⟩ := mirrors
    cases ran.symm.trans other
  · obtain ⟨_, _, nested, forest, position⟩ := matched.nested
    cases ran.symm.trans nested
    rw [position] at whole
    rcases parseStream_cases accepts rule with ⟨_, _, other⟩ | ⟨tree, next, given, again, _⟩
    · have ended := (Cursor.isAtEnd_iff accepts _).mpr
        (Nat.le_trans whole (Nat.le_add_left _ (Cursor.atToken stream 0).position))
      rw [other _ _ found] at ended
      cases ended
    · cases found.symm.trans again
      have lies := matched.liesOn accepts (Cursor.position_atToken_le stream 0)
      exact ⟨_, given, rfl, start,
        (Forest.shape_tree matched.built matched.consecutive.1 lies).trans forest.symm⟩

end ScriptTree
