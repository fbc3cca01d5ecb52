import ScriptTree.Proofs.Matching

/-! # What a parse sees

Of a token a parse sees the kind and whether a line break precedes it, and of the tokens in front of the
cursor it sees nothing. So two streams that go on alike are run alike, from wherever they do, and matched
alike: the trees are the same but for the numbers of their tokens, and the errors are the same but for
their spans. -/
set_option autoImplicit false
namespace ScriptTree

def Token.look (token : Token) : Kind × Bool := (token.kind, token.hasLineBreakBefore)

def Cursor.ahead (cursor : Cursor) : List Token := cursor.stream.tokens.toList.drop cursor.position

/-! ## Runs that see the same -/

namespace Terminals

theorem kindAt_eq_of_look (terminals : Terminals) (position : Nat) :
    terminals.kindAt position =
      (((terminals.toList.map Token.look)[position]?).map Prod.fst).getD .eof := by
  simp only [kindAt, List.getElem?_map, Array.getElem?_toList]
  cases terminals[position]? <;> rfl

theorem lineBreakAt_eq_of_look (terminals : Terminals) (position : Nat) :
    terminals.lineBreakAt position =
      (((terminals.toList.map Token.look)[position]?).map Prod.snd).getD false := by
  simp only [lineBreakAt, List.getElem?_map, Array.getElem?_toList]
  cases terminals[position]? <;> rfl

end Terminals

namespace Cursor

variable {left right : Cursor} (alike : left.ahead.map Token.look = right.ahead.map Token.look)
include alike

theorem resumes_of_ahead : left.terminals.Resumes right.terminals 0 := by
  have same : left.terminals.toList.map Token.look = right.terminals.toList.map Token.look := alike
  refine ⟨fun position => ?_, fun position => ?_⟩
  · rw [Nat.zero_add, Terminals.kindAt_eq_of_look, Terminals.kindAt_eq_of_look, same]
  · rw [Nat.zero_add, Terminals.lineBreakAt_eq_of_look, Terminals.lineBreakAt_eq_of_look, same]

theorem kindAt_eq_of_ahead (position : Nat) :
    left.terminals.kindAt position = right.terminals.kindAt position := by
  simpa only [Nat.zero_add] using (resumes_of_ahead alike).kinds position

theorem size_eq_of_ahead : left.terminals.size = right.terminals.size := by
  have lengths := congrArg List.length alike
  simpa [ahead, terminals, Terminals.ofTokens] using lengths

theorem run_eq_of_ahead (nonterminal : Nonterminal) :
    nonterminal.run left.terminals = nonterminal.run right.terminals := by
  have fuel : Nonterminal.enoughFuel left.terminals = Nonterminal.enoughFuel right.terminals := by
    rw [Nonterminal.enoughFuel, Nonterminal.enoughFuel, Nonterminal.fuelFrom, Nonterminal.fuelFrom,
      size_eq_of_ahead alike]
  have moved := Nonterminal.runWith_shift Nonterminal.production (resumes_of_ahead alike)
    (Nonterminal.enoughFuel left.terminals) nonterminal .start
  rw [ParseState.shift_zero, Outcome.shift_zero] at moved
  change _ = Nonterminal.runWith _ _ (Nonterminal.enoughFuel right.terminals) _ _
  rw [← fuel]
  exact moved

/-- Two runs over all tokens of their streams are one run, moved to where each of them starts: tokens that
look alike are not told apart, and what lies before the start is not looked at. -/
theorem exists_run_of_ahead (nonterminal : Nonterminal) : ∃ outcome : Outcome,
    nonterminal.runFrom left.stream.tokens left.position = outcome.shift left.position ∧
      nonterminal.runFrom right.stream.tokens right.position = outcome.shift right.position :=
  ⟨nonterminal.run left.terminals, nonterminal.runFrom_eq left, by
    rw [run_eq_of_ahead alike, nonterminal.runFrom_eq right]⟩

end Cursor

/-! ## Trees that differ in their tokens alone -/

/-- The same nodes and lists, of the same kinds, nested in the same way, with leaves of the same kinds at
the same places behind the first token. -/
structure SyntaxTree.Isomorphic (left right : SyntaxTree) : Prop where
  nodes : left.nodes.size = right.nodes.size
  lists : left.lists.size = right.lists.size
  tokens : left.endToken - left.firstToken = right.endToken - right.firstToken
  kinds : ∀ node, left.kind node = right.kind node
  parents : ∀ node, left.parent? node = right.parent? node
  shapes : ∀ node < left.nodes.size, left.shapeOf node = right.shapeOf node
  shape : left.shape = right.shape

namespace Forest

theorem node_after_congr (before : Forest) {left right : Numbering} (same : left.node = right.node) :
    (before.after left).node = (before.after right).node := by
  simp only [after_eq, same]

/-- The kind and the parent of an entry do not depend on where its tokens stand. -/
theorem map_nodeEntries (parent : Option NodeId) (forest : Forest) {left right : Numbering}
    (same : left.node = right.node) :
    (forest.nodeEntries parent left).map (fun entry => (entry.kind, entry.parent)) =
      (forest.nodeEntries parent right).map fun entry => (entry.kind, entry.parent) := by
  induction forest generalizing parent left right with
  | empty => rfl
  | token before position kind ih => exact ih parent same
  | hole before ih => exact ih parent same
  | node before kind children ih childrenIh =>
      have numbered := before.node_after_congr same
      have inside : (before.after left).nextNode.node = (before.after right).nextNode.node :=
        congrArg (· + 1) numbered
      simp only [nodeEntries, List.map_append, List.map_cons]
      rw [ih parent same, numbered, childrenIh _ inside]
  | list before items ih itemsIh =>
      have inside : (before.after left).nextList.node = (before.after right).nextList.node :=
        before.node_after_congr same
      simp only [nodeEntries, List.map_append]
      rw [ih parent same, itemsIh parent inside]

variable {left right : TokenStream} {leftStart rightStart : TokenId} {kind : Kind} {children : Forest}

theorem isomorphic_tree (built : (empty.node kind children).WellBuilt false)
    (consecutive : (empty.node kind children).Consecutive 0)
    (leftLies : (empty.node kind children).LiesOn left leftStart)
    (rightLies : (empty.node kind children).LiesOn right rightStart) :
    ((empty.node kind children).tree left leftStart).Isomorphic
      ((empty.node kind children).tree right rightStart) := by
  have nodes : ((empty.node kind children).tree left leftStart).nodes.size =
      ((empty.node kind children).tree right rightStart).nodes.size := by
    simp [tree, length_nodeEntries]
  have entries : ∀ node : NodeId,
      ((((empty.node kind children).tree left leftStart).nodes[node]?).map fun entry =>
          (entry.kind, entry.parent)) =
        (((empty.node kind children).tree right rightStart).nodes[node]?).map fun entry =>
          (entry.kind, entry.parent) := by
    intro node
    simp only [tree, List.getElem?_toArray, ← List.getElem?_map]
    have shifted := (empty.node kind children).map_nodeEntries none
      (show (Numbering.startingAt leftStart).node = (Numbering.startingAt rightStart).node from rfl)
    rw [shifted]
  have looks : ∀ (tree : SyntaxTree) (node : NodeId), (tree.kind node, tree.parent? node) =
      (tree.nodes[node]?.map fun entry => (entry.kind, entry.parent)).getD
        ((default : NodeEntry).kind, (default : NodeEntry).parent) := by
    intro tree node
    simp only [SyntaxTree.kind, SyntaxTree.parent?, SyntaxTree.entry, Array.getD_eq_getD_getElem?]
    cases tree.nodes[node]? <;> rfl
  have seen : ∀ node : NodeId, _ = _ := fun node =>
    (looks ((empty.node kind children).tree left leftStart) node).trans
      ((congrArg (Option.getD · _) (entries node)).trans (looks _ node).symm)
  have listed := nodes_tree built consecutive leftLies
  rw [nodes_tree built consecutive rightLies, ← nodes] at listed
  refine ⟨nodes, by simp [tree, length_listEntries], ?_, fun node => congrArg Prod.fst (seen node),
    fun node => congrArg Prod.snd (seen node), ?_, ?_⟩
  · simp only [tree, after_eq, Numbering.startingAt, Nat.add_sub_cancel_left]
  · intro node inside
    have here := congrArg (·[node]?) listed
    simp only [List.getElem?_map, List.getElem?_range inside, Option.map_some, Option.some.injEq,
      Prod.mk.injEq] at here
    exact here.2.symm
  · rw [shape_tree built consecutive leftLies, shape_tree built consecutive rightLies]

end Forest

/-! ## Matches and parses -/

/-- Errors that say the same of tokens at the same place. -/
structure SyntaxError.SaysTheSame (left right : SyntaxError) : Prop where
  position : left.position = right.position
  found : left.found = right.found
  expected : left.expected = right.expected
  constructs : left.constructs = right.constructs

section Alike

variable {left right : TokenStream} {leftStart rightStart : Nat}

theorem TokenStream.size_eq_of_look
    (alike : left.tokens.toList.map Token.look = right.tokens.toList.map Token.look) :
    left.tokens.size = right.tokens.size := by
  have lengths := congrArg List.length alike
  simpa using lengths

theorem TokenStream.syntaxError_saysTheSame (rightAccepts : right.Accepts)
    (alike : left.tokens.toList.map Token.look = right.tokens.toList.map Token.look)
    (furthest : Furthest) :
    (left.syntaxError furthest).SaysTheSame (right.syntaxError furthest) := by
  have sizes := size_eq_of_look alike
  have ends : left.eofIndex = right.eofIndex := by rw [eofIndex, eofIndex, sizes]
  have size := rightAccepts.size_eq
  refine ⟨by simp only [syntaxError, ends], ?_, rfl, rfl⟩
  have bound : min furthest.position right.eofIndex < right.tokens.size := by omega
  have here := congrArg (·[min furthest.position right.eofIndex]?) alike
  simp only [List.getElem?_map, Array.getElem?_toList, Array.getElem?_eq_getElem bound,
    Array.getElem?_eq_getElem (sizes ▸ bound), Option.map_some, Option.some.injEq] at here
  simp only [syntaxError, ends, Array.getD_eq_getD_getElem?, Array.getElem?_eq_getElem bound,
    Array.getElem?_eq_getElem (sizes ▸ bound), Option.getD_some]
  exact congrArg Prod.fst here

theorem Rule.Matched.isomorphic {rule : Rule} {state : ParseState} {kind other : Kind}
    {children others : Forest} (leftAccepts : left.Accepts) (rightAccepts : right.Accepts)
    (leftBefore : leftStart ≤ left.eofIndex) (rightBefore : rightStart ≤ right.eofIndex)
    (leftMatched : rule.Matched (.ofTokens (left.tokens.toList.drop leftStart))
      (left.eofIndex - leftStart) state kind children)
    (rightMatched : rule.Matched (.ofTokens (right.tokens.toList.drop rightStart))
      (right.eofIndex - rightStart) state other others)
    (alike : ∀ position, Terminals.kindAt (.ofTokens (left.tokens.toList.drop leftStart)) position =
      Terminals.kindAt (.ofTokens (right.tokens.toList.drop rightStart)) position) :
    ((Forest.empty.node kind children).tree left leftStart).Isomorphic
      ((Forest.empty.node other others).tree right rightStart) := by
  -- One log gives one tree, whatever text it was read off.
  have assembled : SyntaxTree.ofLog left leftStart (state.log.map (Event.shift leftStart)) =
      .ok ((Forest.empty.node kind children).tree left leftStart) := leftMatched.ofLog
  rw [rightMatched.ofLog] at assembled
  have leaves : others.leaves =
      Terminals.leaves (.ofTokens (left.tokens.toList.drop leftStart)) 0 state.position := by
    rw [rightMatched.leaves]
    simp only [Terminals.leaves, alike]
  rw [← Except.ok.inj assembled]
  exact Forest.isomorphic_tree rightMatched.built rightMatched.consecutive.1
    (Forest.liesOn_of_leaves leaves (leftMatched.inside_stream leftAccepts leftBefore))
    (rightMatched.liesOn rightAccepts rightBefore)

/-- Matches from cursors with the same ahead of them find nothing both, or isomorphic trees with as many
tokens behind each cursor. -/
theorem matchRule_isomorphic (leftAccepts : left.Accepts) (rightAccepts : right.Accepts) (rule : Rule)
    (alike : (Cursor.atToken left leftStart).ahead.map Token.look =
      (Cursor.atToken right rightStart).ahead.map Token.look) :
    matchRule rule (.atToken left leftStart) = .error .noMatch ∧
        matchRule rule (.atToken right rightStart) = .error .noMatch ∨
      ∃ leftTree leftNext rightTree rightNext,
        matchRule rule (.atToken left leftStart) = .ok (leftTree, leftNext) ∧
        matchRule rule (.atToken right rightStart) = .ok (rightTree, rightNext) ∧
        leftTree.Isomorphic rightTree ∧
        leftNext.position - (Cursor.atToken left leftStart).position =
          rightNext.position - (Cursor.atToken right rightStart).position := by
  have seen := Cursor.run_eq_of_ahead alike rule.nonterminal
  have remaining : left.eofIndex - (Cursor.atToken left leftStart).position =
      right.eofIndex - (Cursor.atToken right rightStart).position := by
    have leftSize := Cursor.size_terminals leftAccepts leftStart
    have rightSize := Cursor.size_terminals rightAccepts rightStart
    rw [Cursor.size_eq_of_ahead alike] at leftSize
    omega
  have leftBefore := Cursor.position_atToken_le left leftStart
  have rightBefore := Cursor.position_atToken_le right rightStart
  rcases matchRule_cases leftAccepts rule leftStart with
    ⟨state, leftRan, leftFound⟩ | ⟨state, kind, children, leftRan, leftMatched, leftFound⟩ <;>
  rcases matchRule_cases rightAccepts rule rightStart with
    ⟨_, rightRan, rightFound⟩ | ⟨_, _, _, rightRan, rightMatched, rightFound⟩ <;>
  rw [seen, rightRan] at leftRan <;> cases leftRan
  · exact .inl ⟨leftFound, rightFound⟩
  · refine .inr ⟨_, _, _, _, leftFound, rightFound, leftMatched.isomorphic leftAccepts rightAccepts
      leftBefore rightBefore rightMatched (Cursor.kindAt_eq_of_ahead alike), ?_⟩
    simp only [Cursor.atToken] at leftBefore rightBefore remaining ⊢
    omega

/-- Parses of streams that are alike from the first token on succeed with isomorphic trees or fail with
errors that say the same. -/
theorem parseStream_isomorphic (leftAccepts : left.Accepts) (rightAccepts : right.Accepts) (rule : Rule)
    (alike : (Cursor.start left).ahead.map Token.look = (Cursor.start right).ahead.map Token.look) :
    (∃ leftTree rightTree, parseStream rule left = .ok leftTree ∧
        parseStream rule right = .ok rightTree ∧ leftTree.Isomorphic rightTree) ∨
      ∃ leftError rightError, parseStream rule left = .error (.syntaxError leftError) ∧
        parseStream rule right = .error (.syntaxError rightError) ∧
        leftError.SaysTheSame rightError := by
  have seen := Cursor.run_eq_of_ahead alike rule.nonterminal
  have tokens : left.tokens.toList.map Token.look = right.tokens.toList.map Token.look := by
    simpa [Cursor.ahead, Cursor.start, Cursor.atToken] using alike
  have carriesOver := TokenStream.syntaxError_saysTheSame rightAccepts tokens
  have ends : left.eofIndex = right.eofIndex := by
    rw [TokenStream.eofIndex, TokenStream.eofIndex, TokenStream.size_eq_of_look tokens]
  rcases matchRule_cases leftAccepts rule 0 with
    ⟨state, leftRan, _⟩ | ⟨state, kind, children, leftRan, leftMatched, _⟩ <;>
  rcases matchRule_cases rightAccepts rule 0 with
    ⟨_, rightRan, _⟩ | ⟨_, _, _, rightRan, rightMatched, _⟩ <;>
  have same := seen.symm.trans leftRan <;>
  cases same.symm.trans rightRan
  · refine .inr ⟨_, _, ?_, ?_, carriesOver state.furthest⟩
    · rw [parseStream_eq, Cursor.start, leftRan]
      rfl
    · rw [parseStream_eq, Cursor.start, rightRan]
      rfl
  · by_cases whole : right.eofIndex ≤ state.position
    · refine .inl ⟨_, _, ?_, ?_, leftMatched.isomorphic leftAccepts rightAccepts
        (Cursor.position_atToken_le left 0) (Cursor.position_atToken_le right 0) rightMatched
        (Cursor.kindAt_eq_of_ahead alike)⟩
      · rw [parseStream_eq, Cursor.start, leftRan]
        exact Outcome.toParse_of_assembled (ends ▸ whole) leftMatched.ofLog
      · rw [parseStream_eq, Cursor.start, rightRan]
        exact Outcome.toParse_of_assembled whole rightMatched.ofLog
    · refine .inr ⟨_, _, ?_, ?_, carriesOver (state.expect .eof).furthest⟩
      · rw [parseStream_eq, Cursor.start, leftRan]
        exact if_neg (ends ▸ whole)
      · rw [parseStream_eq, Cursor.start, rightRan]
        exact if_neg whole

/-- A parse sees nothing but the kinds of the tokens and the line breaks before them, from where it
starts: runs from two cursors with the same ahead of them are one run, with its positions, its log and its
tables moved to either cursor. Over accepted streams a rule matches from both or from neither; the
matches take as many tokens, and their trees are isomorphic. Streams that are alike from the first token
on parse to isomorphic trees or give errors that say the same. -/
theorem matchRule_sees_kinds_and_line_breaks {leftText rightText : List Char}
    {leftTokens rightTokens : Array Token}
    (leftAccepted : TokenStream.ofTokens leftText leftTokens = .ok left)
    (rightAccepted : TokenStream.ofTokens rightText rightTokens = .ok right) (rule : Rule) :
    (∀ leftStart rightStart,
      (Cursor.atToken left leftStart).ahead.map Token.look =
          (Cursor.atToken right rightStart).ahead.map Token.look →
        (∃ outcome : Outcome,
          rule.nonterminal.runFrom left.tokens (Cursor.atToken left leftStart).position =
            outcome.shift (Cursor.atToken left leftStart).position ∧
          rule.nonterminal.runFrom right.tokens (Cursor.atToken right rightStart).position =
            outcome.shift (Cursor.atToken right rightStart).position) ∧
        (matchRule rule (.atToken left leftStart) = .error .noMatch ∧
            matchRule rule (.atToken right rightStart) = .error .noMatch ∨
          ∃ leftTree leftNext rightTree rightNext,
            matchRule rule (.atToken left leftStart) = .ok (leftTree, leftNext) ∧
            matchRule rule (.atToken right rightStart) = .ok (rightTree, rightNext) ∧
            leftTree.Isomorphic rightTree ∧
            leftNext.position - (Cursor.atToken left leftStart).position =
              rightNext.position - (Cursor.atToken right rightStart).position)) ∧
    ((Cursor.start left).ahead.map Token.look = (Cursor.start right).ahead.map Token.look →
      (∃ leftTree rightTree, parseStream rule left = .ok leftTree ∧
          parseStream rule right = .ok rightTree ∧ leftTree.Isomorphic rightTree) ∨
        ∃ leftError rightError, parseStream rule left = .error (.syntaxError leftError) ∧
          parseStream rule right = .error (.syntaxError rightError) ∧
          leftError.SaysTheSame rightError) := by
  obtain ⟨rfl, leftAccepts⟩ := TokenStream.accepts_of_ofTokens leftAccepted
  obtain ⟨rfl, rightAccepts⟩ := TokenStream.accepts_of_ofTokens rightAccepted
  exact ⟨fun _ _ alike => ⟨Cursor.exists_run_of_ahead alike rule.nonterminal,
      matchRule_isomorphic leftAccepts rightAccepts rule alike⟩,
    fun alike => parseStream_isomorphic leftAccepts rightAccepts rule alike⟩

/-- A number is matched alike behind a semicolon, and parsed alike if it has more digits. -/
theorem matchRule_sees_number :
    let eofAt (offset : Nat) : Token := ⟨.empty, .eof, ⟨offset, offset⟩, .empty⟩
    let one : TokenStream := ⟨['1'], #[⟨.empty, .number, ⟨0, 1⟩, .empty⟩, eofAt 1]⟩
    let more : TokenStream := ⟨['2', '2'], #[⟨.empty, .number, ⟨0, 2⟩, .empty⟩, eofAt 2]⟩
    let later : TokenStream := ⟨[';', '3'],
      #[⟨.empty, .semicolon, ⟨0, 1⟩, .empty⟩, ⟨.empty, .number, ⟨1, 2⟩, .empty⟩, eofAt 2]⟩
    (∃ oneTree oneNext laterTree laterNext,
      matchRule .expression (.atToken one 0) = .ok (oneTree, oneNext) ∧
      matchRule .expression (.atToken later 1) = .ok (laterTree, laterNext) ∧
      oneTree.Isomorphic laterTree ∧
      oneNext.position - (Cursor.atToken one 0).position =
        laterNext.position - (Cursor.atToken later 1).position) ∧
    ∃ oneTree moreTree, parseStream .expression one = .ok oneTree ∧
      parseStream .expression more = .ok moreTree ∧ oneTree.Isomorphic moreTree := by
  intro eofAt one more later
  have oneAccepted : TokenStream.ofTokens one.text one.tokens = .ok one := rfl
  have moreAccepted : TokenStream.ofTokens more.text more.tokens = .ok more := rfl
  have laterAccepted : TokenStream.ofTokens later.text later.tokens = .ok later := rfl
  have found : (matchRule .expression (.atToken one 0)).toOption.isSome = true := by decide +kernel
  have parsed : (parseStream .expression one).toOption.isSome = true := by decide +kernel
  constructor
  · rcases ((matchRule_sees_kinds_and_line_breaks oneAccepted laterAccepted .expression).1 0 1 rfl).2 with
      ⟨none, _⟩ | both
    · rw [none] at found
      cases found
    · exact both
  · rcases (matchRule_sees_kinds_and_line_breaks oneAccepted moreAccepted .expression).2 rfl with
      both | ⟨_, _, failed, _⟩
    · exact both
    · rw [failed] at parsed
      cases parsed

end Alike

end ScriptTree
