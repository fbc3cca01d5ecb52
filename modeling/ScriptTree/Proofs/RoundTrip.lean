import ScriptTree.Proofs.Forms
import ScriptTree.Proofs.Matching

/-! # Printing and parsing

The tokens of a canonical expression parse to the expression. -/
set_option autoImplicit false
namespace ScriptTree

open Grammar

/-! ## Every canonical expression -/

mutual

theorem Expression.parses {terminals : Terminals} {last : Nat} (plain : terminals.Plain last) :
    (expression : Expression) → expression.Canonical → expression.Parses terminals
  | .identifier, canonical => by
      refine .ofLeftHandSide plain canonical (by decide) (Expression.takenByLeftHandSide_of_primary ?_)
      intro scope place reads
      exact ⟨by simp [reads.1], takes_identifier reads.1⟩
  | .number, canonical => by
      refine .ofLeftHandSide plain canonical (by decide) (Expression.takenByLeftHandSide_of_primary ?_)
      intro scope place reads
      exact ⟨by simp [reads.1], takes_literal (.inl ⟨rfl, rfl⟩) reads.1⟩
  | .string, canonical => by
      refine .ofLeftHandSide plain canonical (by decide) (Expression.takenByLeftHandSide_of_primary ?_)
      intro scope place reads
      exact ⟨by simp [reads.1], takes_literal (.inr ⟨rfl, rfl⟩) reads.1⟩
  | .parenthesized inner, canonical => by
      have innerParses := inner.parses plain canonical
      have isLeftHandSide : Kind.parenthesizedExpression ∈ leftHandSideKinds := by decide
      refine .ofLeftHandSide plain canonical isLeftHandSide
        (Expression.takenByLeftHandSide_of_primary ?_)
      intro scope place reads
      exact ⟨by simp [reads.1], takes_parenthesized innerParses reads⟩
  | .dot object name, canonical => by
      have objectParses := object.parses plain canonical.1
      have isLeftHandSide : Kind.dotMemberExpression ∈ leftHandSideKinds := by decide
      have taken : (Expression.dot object name).TakenByLeftHandSide terminals :=
        Expression.takenByLeftHandSide_of_turn objectParses canonical.2.1 rfl (fun _ _ => trivial)
          (takes_memberTail_dot canonical.2.2)
      exact .ofLeftHandSide plain canonical isLeftHandSide taken
  | .bracket object index, canonical => by
      have objectParses := object.parses plain canonical.1
      have indexParses := index.parses plain canonical.2.2
      have isLeftHandSide : Kind.bracketMemberExpression ∈ leftHandSideKinds := by decide
      have taken : (Expression.bracket object index).TakenByLeftHandSide terminals :=
        Expression.takenByLeftHandSide_of_turn objectParses canonical.2.1 rfl (fun _ _ => trivial)
          (takes_memberTail_bracket indexParses)
      exact .ofLeftHandSide plain canonical isLeftHandSide taken
  | .call callee arguments, canonical => by
      have calleeParses := callee.parses plain canonical.1
      have argumentsParse := arguments.parses plain canonical.2.2
      have isLeftHandSide : Kind.callExpression ∈ leftHandSideKinds := by decide
      have taken : (Expression.call callee arguments).TakenByLeftHandSide terminals :=
        Expression.takenByLeftHandSide_of_turn calleeParses canonical.2.1 rfl (fun _ _ => trivial)
          (takes_memberTail_call argumentsParse)
      exact .ofLeftHandSide plain canonical isLeftHandSide taken
  | .unary operator operand, canonical => by
      have operandParses := operand.parses plain canonical.2.1
      have other : Kind.unaryExpression ∉ leftHandSideKinds := by decide
      have isUnary : Kind.unaryExpression ∈ unaryKinds := by decide
      exact .ofUnary plain canonical (Expression.takenByLeftHandSide_of_notMem other) isUnary
        (takenByUnary_unary canonical.1 canonical.2.2 operandParses)
  | .postfixed operand operator, canonical => by
      have operandParses := operand.parses plain canonical.2.1
      have other : Kind.postfixExpression ∉ leftHandSideKinds := by decide
      have isUnary : Kind.postfixExpression ∈ unaryKinds := by decide
      exact .ofUnary plain canonical (Expression.takenByLeftHandSide_of_notMem other) isUnary
        (takenByUnary_postfixed plain canonical.2.1 canonical.1 canonical.2.2 operandParses)
  | .binary left operator right, canonical => by
      have leftParses := left.parses plain canonical.1
      have rightParses := right.parses plain canonical.2.1
      have other : Kind.binaryExpression ∉ unaryKinds := by decide
      have isOperand : Kind.binaryExpression ∈ operandKinds := by decide
      exact .ofBinary plain canonical
        (Expression.takenByLeftHandSide_of_notMem (mt (List.mem_append_left _) other))
        (Expression.takenByUnary_of_notMem other) isOperand
        (takenByBinary_binary canonical leftParses rightParses)
  | .conditional test yes no, canonical => by
      have testParses := test.parses plain canonical.1
      have yesParses := yes.parses plain canonical.2.2.1
      have noParses := no.parses plain canonical.2.2.2.2.1
      have other : Kind.conditionalExpression ∉ operandKinds := by decide
      have noUnary : Kind.conditionalExpression ∉ unaryKinds := by decide
      have notBinary : (Expression.conditional test yes no).TakenByBinary terminals :=
        Expression.takenByBinary_of_notMem (by rw [Expression.kind]; exact other)
      exact .ofConditional plain canonical
        (Expression.takenByLeftHandSide_of_notMem (mt (List.mem_append_left _) noUnary))
        (Expression.takenByUnary_of_notMem noUnary) notBinary List.mem_cons_self
        (takenByConditional_conditional canonical testParses yesParses noParses)
  | .assignment target operator value, canonical =>
      .ofAssignment rfl (takenByAssignment_assignment plain canonical
        (target.parses plain canonical.2.1) (value.parses plain canonical.2.2.2.1))
  | .sequence left right, canonical =>
      .ofSequence rfl (takenByExpression_sequence canonical (left.parses plain canonical.1)
        (right.parses plain canonical.2.1))

theorem CallArguments.parses {terminals : Terminals} {last : Nat} (plain : terminals.Plain last) :
    (arguments : CallArguments) → arguments.Canonical → arguments.Parses terminals
  | .none, _ => CallArguments.parses_none
  | .last element, canonical =>
      CallArguments.parses_last canonical.1 canonical.2 (element.parses plain canonical.1)
  | .more element rest, canonical =>
      CallArguments.parses_more canonical.1 canonical.2.1 (element.parses plain canonical.1)
        (rest.parses plain canonical.2.2)

end

/-! ## Streams of tokens -/

theorem Terminals.reads_ofTokens (front back : List Token) :
    (Terminals.ofTokens (front ++ back)).Reads front.length (back.map Token.kind) := by
  induction back generalizing front with
  | nil => trivial
  | cons token rest ih =>
      have further := ih (front ++ [token])
      rw [List.append_assoc, List.length_append, List.length_singleton] at further
      exact ⟨by simp [kindAt, ofTokens], further⟩

theorem TokenStream.Accepts.plain {stream : TokenStream} (accepts : stream.Accepts)
    (unbroken : ∀ token ∈ stream.tokens, token.hasLineBreakBefore = false)
    (noArrow : ∀ token ∈ stream.tokens, token.kind ≠ .fatArrow) :
    (Terminals.ofTokens stream.tokens.toList).Plain stream.eofIndex where
  ends := by simpa using accepts.terminals_endsAt (Nat.zero_le _)
  unbroken position := by
    simp only [Terminals.lineBreakAt, Terminals.ofTokens, List.getElem?_toArray, Array.getElem?_toList]
    cases here : stream.tokens[position]? with
    | none => rfl
    | some token => exact unbroken token (Array.mem_of_getElem? here)
  noArrow position := by
    simp only [Terminals.kindAt, Terminals.ofTokens, List.getElem?_toArray, Array.getElem?_toList]
    cases here : stream.tokens[position]? with
    | none => simp
    | some token => exact noArrow token (Array.mem_of_getElem? here)

/-- What a rule gives with fuel enough, it gives with the fuel of a run. -/
theorem Rule.nestWith_eq_of_gives {terminals : Terminals} {last : Nat} (ends : terminals.EndsAt last)
    (size : terminals.size = last + 1) (rule : Rule) {result : Parse}
    (gives : (Production.call rule.nonterminal).Gives terminals .outermost .start .start result) :
    rule.nonterminal.nestWith Nonterminal.production terminals (Nonterminal.enoughFuel terminals)
      .outermost .start .start = result := by
  obtain ⟨enough, gives⟩ := gives
  have surveyed := rule.surveyed ends size
  have more := Nonterminal.nestWith_eq_of_le
    (Nat.le_max_right enough (Nonterminal.enoughFuel terminals)) rule.nonterminal .outermost .start
    .start (fun out => by rw [out] at surveyed; exact surveyed)
  rw [← more]
  exact gives _ (Nat.le_max_left _ _)

/-- The tokens of a canonical expression, with no line breaks between them, parse to the expression. -/
theorem parseStream_returns_expression {expression : Expression} (canonical : expression.Canonical)
    {text : List Char} {tokens : Array Token} {stream : TokenStream}
    (accepted : TokenStream.ofTokens text tokens = .ok stream)
    (printed : tokens.toList.map Token.kind = expression.tokens ++ [.eof])
    (unbroken : ∀ token ∈ tokens, token.hasLineBreakBefore = false) :
    ∃ tree, parseStream .expression stream = .ok tree ∧ tree.stream = stream ∧
      tree.firstToken = 0 ∧
      tree.shape = Forest.empty.node expression.kind (expression.children 0) := by
  obtain ⟨rfl, accepts⟩ := TokenStream.accepts_of_ofTokens accepted
  have noArrow : ∀ token ∈ tokens, token.kind ≠ .fatArrow := by
    intro token member same
    have listed : Kind.fatArrow ∈ expression.tokens ++ [.eof] := by
      rw [← printed, ← same]
      exact List.mem_map_of_mem member.val
    rcases List.mem_append.mp listed with inside | ended
    · exact expression.fatArrow_notMem canonical inside
    · exact absurd (List.mem_singleton.mp ended) (by decide)
  have plain := accepts.plain unbroken noArrow
  have reads := Terminals.reads_ofTokens [] tokens.toList
  rw [List.nil_append, printed] at reads
  obtain ⟨reads, ended, -⟩ := Terminals.reads_append.mp reads
  have takes : (Production.call .expression).Takes _ .outermost .start .any
      (Place.start.behind expression) _ :=
    (expression.parses plain canonical).takes_closed reads ended (by decide)
  obtain ⟨later, gives, _⟩ := takes .start trivial
  have size := accepts.size_eq
  have count := congrArg List.length printed
  rw [List.length_map, Array.length_toList, List.length_append, List.length_singleton] at count
  have nested := Rule.expression.nestWith_eq_of_gives plain.ends
    (by simpa [Terminals.ofTokens] using size) gives
  refine parseStream_of_nested accepts .expression nested ?_
  change TokenStream.eofIndex _ ≤ 0 + expression.tokens.length
  change tokens.size = _ at size
  omega

/-- An assignment to a name in parentheses. -/
theorem parseStream_returns_assignment :
    let expression : Expression := .assignment (.parenthesized .identifier) .eq .number
    let text := ['(', 'a', ')', '=', '1']
    let token (kind : Kind) (start : Nat) : Token := ⟨.empty, kind, ⟨start, start + 1⟩, .empty⟩
    let tokens : Array Token := #[token .leftParen 0, token .ident 1, token .rightParen 2,
      token .eq 3, token .number 4, ⟨.empty, .eof, ⟨5, 5⟩, .empty⟩]
    let stream : TokenStream := ⟨text, tokens⟩
    expression.Canonical ∧ TokenStream.ofTokens text tokens = .ok stream ∧
    tokens.toList.map Token.kind = expression.tokens ++ [.eof] ∧
    (∀ token ∈ tokens, token.hasLineBreakBefore = false) ∧
    ∃ tree, parseStream .expression stream = .ok tree ∧ tree.stream = stream ∧
      tree.firstToken = 0 ∧
      tree.shape = Forest.empty.node expression.kind (expression.children 0) := by
  intro expression text token tokens stream
  have canonical : expression.Canonical := ⟨by decide, trivial, rfl, trivial, by decide⟩
  have accepted : TokenStream.ofTokens text tokens = .ok stream := rfl
  have printed : tokens.toList.map Token.kind = expression.tokens ++ [.eof] := rfl
  have unbroken : ∀ token ∈ tokens, token.hasLineBreakBefore = false := by decide
  exact ⟨canonical, accepted, printed, unbroken,
    parseStream_returns_expression canonical accepted printed unbroken⟩

end ScriptTree
