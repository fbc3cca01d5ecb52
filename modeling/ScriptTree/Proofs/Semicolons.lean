import ScriptTree.Proofs.SketchedChildren

/-! # Semicolons that are left out

The semicolon behind a statement or a field may be left out before a closing brace, at the end of the text
and before a line break. Whether it may is decided where the node ends, and what stands behind the node
then stands there in the stream. -/
set_option autoImplicit false
namespace ScriptTree

def terminatedKinds : List Kind := [
  .variableStatement, .expressionStatement, .continueStatement, .breakStatement, .returnStatement,
  .throwStatement, .debuggerStatement, .fieldDefinition]

namespace SyntaxTree

/-- The semicolon that would end a node may be left out: another token stands behind the last one of the
node, and it is a closing brace, the end, or a line break precedes it. -/
def MayOmitSemicolon (tree : SyntaxTree) (node : NodeId) : Prop :=
  ∃ last next, tree.lastToken node = .ok (some last) ∧ tree.stream.tokens[last + 1]? = some next ∧
    next.kind ≠ .semicolon ∧
    (next.kind = .rightBrace ∨ next.kind = .eof ∨ next.hasLineBreakBefore = true)

/-- Every node that a semicolon ends has one as its last child, or may do without. -/
def InsertsSemicolons (tree : SyntaxTree) : Prop :=
  ∀ node < tree.nodes.size, tree.kind node ∈ terminatedKinds →
    (∃ id, (tree.children node).getLast? = some (.token id) ∧ (tree.token id).kind = .semicolon) ∨
      tree.MayOmitSemicolon node

end SyntaxTree

namespace Sketch

def endsInSemicolon (sketch : Sketch) : Bool :=
  match sketch.parts with
  | .token kinds _ :: _ => kinds = [.semicolon]
  | _ => false

/-- What is known where a semicolon was left out. -/
def omittedFacts : List Fact :=
  [.kind 0 [.semicolon] false, .either (.kind 0 [.rightBrace, .eof] true) (.lineBreak 0 true)]

def terminates (kind : Kind) (sketch : Sketch) : Bool :=
  kind ∉ terminatedKinds || sketch.endsInSemicolon || omittedFacts.all sketch.facts.contains

end Sketch

theorem Nonterminal.isSketched_terminates :
    ∀ nonterminal ∈ listed, nonterminal.isSketched Sketch.terminates = true := by
  decide +kernel

namespace SyntaxTree

variable {tree : SyntaxTree} {sketch : Sketch} {node : NodeId} {terminals : Terminals}

theorem Shows.getLast?_children {kinds : List Kind} {joined : Bool} {parts : List Part}
    (shows : tree.Shows (Part.token kinds joined :: parts).reverse node) :
    ∃ id, (tree.children node).getLast? = some (.token id) ∧ (tree.token id).kind ∈ kinds := by
  obtain ⟨runs, tell, same⟩ := shows
  rw [← List.reverse_reverse runs, List.forall₂_reverse_iff] at tell
  obtain ⟨run, others, tells, -, reversed⟩ := List.forall₂_cons_left_iff.mp tell
  obtain ⟨id, rfl, member, -⟩ := tells
  have split : runs = others.reverse ++ [[.token id]] := by
    rw [← List.reverse_cons, ← reversed, List.reverse_reverse]
  exact ⟨id, by simp [same, split], member⟩

theorem IsLike.mayOmitSemicolon (like : tree.IsLike terminals sketch node)
    (isInner : tree.kind node ≠ .script)
    (terminals_eq : terminals = .ofTokens (tree.stream.tokens.toList.drop tree.firstToken))
    (known : Sketch.omittedFacts.all sketch.facts.contains = true) : tree.MayOmitSemicolon node := by
  have some := like.some
  have behind : tree.firstToken ≤ (tree.entry node).endToken :=
    Nat.le_trans like.starts (Nat.le_of_lt some)
  obtain ⟨next, here⟩ : ∃ next, tree.stream.tokens[(tree.entry node).endToken]? = .some next :=
    ⟨_, Array.getElem?_eq_getElem (like.inside isInner)⟩
  have sameKind := Terminals.kindAt_ofTokens tree.firstToken here behind
  have sameBreak := Terminals.lineBreakAt_ofTokens tree.stream tree.firstToken
    ((tree.entry node).endToken - tree.firstToken)
  rw [Nat.add_sub_cancel' behind, Array.getD_eq_getD_getElem?, here] at sameBreak
  have confirmed : ∀ fact ∈ Sketch.omittedFacts,
      fact.Holds terminals ((tree.entry node).endToken - tree.firstToken) := fun fact member =>
    like.facts fact (List.contains_iff_mem.mp (List.all_eq_true.mp known fact member))
  have noSemicolon := confirmed (.kind 0 [.semicolon] false) (by decide)
  have ends := confirmed (.either (.kind 0 [.rightBrace, .eof] true) (.lineBreak 0 true)) (by decide)
  simp only [Fact.Holds, Nat.add_zero, terminals_eq, sameKind, sameBreak, Option.getD_some] at noSemicolon ends
  refine ⟨(tree.entry node).endToken - 1, next, ?_, ?_, ?_, ?_⟩
  · rw [lastToken, if_neg (Nat.ne_of_gt (Nat.lt_of_le_of_lt (Nat.zero_le _) some)), if_pos some]
  · rw [Nat.sub_add_cancel (Nat.lt_of_le_of_lt (Nat.zero_le _) some)]
    exact here
  · simpa using noSemicolon
  · simpa [or_assoc] using ends

end SyntaxTree

theorem Rule.Matched.insertsSemicolons {stream : TokenStream} {start : Nat} {rule : Rule}
    {state : ParseState} {kind : Kind} {children : Forest} (accepts : stream.Accepts)
    (before : start ≤ stream.eofIndex)
    (matched : rule.Matched (.ofTokens (stream.tokens.toList.drop start)) (stream.eofIndex - start)
      state kind children) :
    ((Forest.empty.node kind children).tree stream start).InsertsSemicolons := by
  intro node inside isTerminated
  obtain ⟨sketch, passed, like⟩ :=
    matched.exists_sketch accepts before Nonterminal.isSketched_terminates inside
  rw [Sketch.terminates, Bool.or_assoc] at passed
  rcases Bool.or_eq_true_iff.mp passed with other | passed
  · exact absurd isTerminated (of_decide_eq_true other)
  · rcases Bool.or_eq_true_iff.mp passed with ends | known
    · rw [Sketch.endsInSemicolon] at ends
      split at ends
      · rename_i kinds joined parts parts_eq
        cases of_decide_eq_true ends
        obtain ⟨id, last, member⟩ := (parts_eq ▸ like.shows).getLast?_children
        exact .inl ⟨id, last, List.mem_singleton.mp member⟩
      · cases ends
    · have isInner : ((Forest.empty.node kind children).tree stream start).kind node ≠ .script := by
        intro isScript
        rw [isScript] at isTerminated
        exact absurd isTerminated (by decide)
      exact .inr (like.mayOmitSemicolon isInner rfl known)

/-- In every tree of a match or a parse, each statement or field that a semicolon ends has it as its last
child, unless the next token is no semicolon and a closing brace, the end or behind a line break. -/
theorem matchRule_inserts_semicolons {text : List Char} {tokens : Array Token} {stream : TokenStream}
    (accepted : TokenStream.ofTokens text tokens = .ok stream) (rule : Rule) :
    (∀ (position : Nat) (tree : SyntaxTree) (next : Cursor),
      matchRule rule (.atToken stream position) = .ok (tree, next) → tree.InsertsSemicolons) ∧
    ∀ tree : SyntaxTree, parseStream rule stream = .ok tree → tree.InsertsSemicolons := by
  obtain ⟨-, accepts⟩ := TokenStream.accepts_of_ofTokens accepted
  exact accepts.holds_of_matched rule fun _ before _ _ _ matched =>
    matched.insertsSemicolons accepts before

/-- A field before a closing brace and a jump before a line break. -/
theorem matchRule_inserts_semicolons_in_class :
    let text := ['d', 'e', 'b', 'u', 'g', 'g', 'e', 'r', '\n', 'c', 'l', 'a', 's', 's', ' ', 'A', '\x7b', 'b', '\x7d']
    let stream := tokenize text
    TokenStream.ofTokens text stream.tokens = .ok stream ∧
    ∃ tree, parseStream .script stream = .ok tree ∧ tree.kind 1 = .debuggerStatement ∧
      tree.kind 5 = .fieldDefinition ∧ tree.InsertsSemicolons := by
  intro text stream
  have accepted : TokenStream.ofTokens text stream.tokens = .ok stream := rfl
  have parsed : (parseStream .script stream).toOption.map (fun tree => (tree.kind 1, tree.kind 5)) =
      some (.debuggerStatement, .fieldDefinition) := by decide +kernel
  refine ⟨accepted, ?_⟩
  cases result : parseStream .script stream with
  | error failure =>
      rw [result] at parsed
      cases parsed
  | ok tree =>
      rw [result] at parsed
      obtain ⟨jump, field⟩ := Prod.mk.inj (Option.some.inj parsed)
      exact ⟨tree, rfl, jump, field, (matchRule_inserts_semicolons accepted .script).2 tree result⟩

end ScriptTree
