import ScriptTree.Proofs.Derivation
import ScriptTree.Proofs.Expression
import ScriptTree.Proofs.Outlook
import ScriptTree.Proofs.ProductionTakes

/-! # Levels of expressions

The nonterminals of expressions call each other level by level, and some of them open a loop. Whatever a
loop takes from behind an expression, its nonterminal takes from before it; so an expression that one
level takes is taken by the levels above it. -/
set_option autoImplicit false
namespace ScriptTree

open Grammar Production

/-! ## Tokens ahead -/

def Terminals.Reads (terminals : Terminals) : Nat → List Kind → Prop
  | _, [] => True
  | position, kind :: rest => terminals.kindAt position = kind ∧ terminals.Reads (position + 1) rest

theorem Terminals.reads_append {terminals : Terminals} {position : Nat} {left right : List Kind} :
    terminals.Reads position (left ++ right) ↔
      terminals.Reads position left ∧ terminals.Reads (position + left.length) right := by
  induction left generalizing position with
  | nil => simp [Reads]
  | cons kind rest ih =>
      simp only [List.cons_append, Reads, ih, List.length_cons, and_assoc, Nat.add_assoc,
        Nat.add_comm 1]

/-- The tokens ahead have neither line breaks between them nor arrows, and end at an index. -/
structure Terminals.Plain (terminals : Terminals) (last : Nat) : Prop where
  ends : terminals.EndsAt last
  unbroken : ∀ position, terminals.lineBreakAt position = false
  noArrow : ∀ position, terminals.kindAt position ≠ .fatArrow

namespace Place

def behind (place : Place) (expression : Expression) : Place :=
  ⟨place.position + expression.tokens.length,
    place.forest.node expression.kind (expression.children place.position),
    some (expression.kind, place.position)⟩

@[simp] theorem position_behind (place : Place) (expression : Expression) :
    (place.behind expression).position = place.position + expression.tokens.length := rfl

theorem eq_behind {place there : Place} {expression : Expression}
    (position : there.position = place.position + expression.tokens.length)
    (forest : there.forest =
      place.forest.node expression.kind (expression.children place.position))
    (completed : there.completed = some (expression.kind, place.position)) :
    there = place.behind expression := by
  obtain ⟨_, _, _⟩ := there
  cases position
  cases forest
  cases completed
  rfl

end Place

/-! ## Where expressions end -/

def linkKinds : List Kind := [
  .dot, .leftBracket, .noSubstitutionTemplate, .templateHead, .leftParen, .questionDot]

def tightKinds : List Kind := linkKinds ++ postfixOperators

def EndsOperand (minimum : Nat) (next : Kind) : Prop :=
  next ∉ tightKinds ∧ ∀ level ∈ operatorLevels, minimum ≤ level.precedence → next ∉ level.operators

def EndsConditional (next : Kind) : Prop := EndsOperand 1 next ∧ next ≠ .question

def EndsAssignment (next : Kind) : Prop := EndsConditional next ∧ next ∉ assignmentOperators

instance (minimum : Nat) (next : Kind) : Decidable (EndsOperand minimum next) :=
  inferInstanceAs (Decidable (_ ∧ _))

instance (next : Kind) : Decidable (EndsConditional next) := inferInstanceAs (Decidable (_ ∧ _))

instance (next : Kind) : Decidable (EndsAssignment next) := inferInstanceAs (Decidable (_ ∧ _))

theorem endsAssignment_closing :
    ∀ next ∈ [Kind.eof, .rightParen, .rightBracket, .comma, .colon], EndsAssignment next := by
  decide

theorem endsConditional_assignmentOperator :
    ∀ next ∈ assignmentOperators, EndsConditional next := by
  decide

/-- An operator ends the operands before it that bind at least as strongly as its left one. -/
theorem endsOperand_operator : ∀ level ∈ operatorLevels, ∀ operator ∈ level.operators,
    ∀ inner ∈ operatorLevels, level.leftMinimum ≤ inner.precedence →
      EndsOperand inner.rightMinimum operator := by
  decide

theorem operator_notMem_tightKinds : ∀ level ∈ operatorLevels, ∀ operator ∈ level.operators,
    operator ∉ tightKinds := by
  decide

theorem rightMinimum_ge : ∀ level ∈ operatorLevels, level.precedence ≤ level.rightMinimum := by
  decide

theorem leftMinimum_ge : ∀ level ∈ operatorLevels, level.precedence ≤ level.leftMinimum := by
  decide

theorem find?_operatorLevels : ∀ (minimum : Precedence), ∀ level ∈ operatorLevels,
    ∀ operator ∈ level.operators, minimum ≤ level.precedence →
      (operatorLevels.filter fun other => minimum ≤ other.precedence).find?
        (fun other => other.operators.contains operator) = some level := by
  decide

theorem level_unique : ∀ level ∈ operatorLevels, ∀ other ∈ operatorLevels,
    ∀ operator ∈ level.operators, operator ∈ other.operators → level = other := by
  decide

/-! ## Arrows are refused -/

def Nonterminal.HasArrow (terminals : Terminals) (nonterminal : Nonterminal) (_ : Scope)
    (_ _ : Place) : Prop :=
  match nonterminal with
  | .arrow => ∃ position, terminals.kindAt position = .fatArrow
  | _ => True

theorem Nonterminal.nestWith_hasArrow (terminals : Terminals) (fuel : Nat) :
    CallsSatisfy (nestWith production terminals fuel) (HasArrow terminals) := by
  apply nestWith_satisfies
  intro nonterminal scope before after derives
  cases nonterminal with
  | arrow =>
      have tail : ∀ {isAsync : Bool} {before after : Place},
          (arrowTail isAsync).Derives terminals (HasArrow terminals) scope before after →
            ∃ position, terminals.kindAt position = .fatArrow := by
        rintro isAsync before after ⟨middle, _, further, ⟨_, ⟨_, refused⟩ | ⟨_, arrow⟩⟩, _⟩
        · exact refused.elim
        · obtain ⟨_, ⟨admitted, _⟩ | ⟨_, _, _, impossible⟩⟩ := arrow
          · exact ⟨middle.position, by simpa [Guard.admits] using admitted⟩
          · exact impossible.elim
      obtain ⟨inner, ⟨_, ⟨_, _, _, derives⟩ | ⟨_, derives⟩⟩, _⟩ := derives
      · exact tail derives
      · exact tail derives
  | _ => trivial

theorem Terminals.Plain.refuses_arrow {terminals : Terminals} {last : Nat}
    (plain : terminals.Plain last) (scope : Scope) (place : Place) (history : History)
    (inside : place.position ≤ last) :
    ∃ later, (Production.call .arrow).Gives terminals scope place history (.refused later) := by
  -- With fuel enough the call ends, and it cannot end in a match.
  have surveyed := Nonterminal.nestWith_surveyed (fun _ _ _ => rfl) plain.ends
    (Nonterminal.cost .arrow (last + 1 - place.position) + 1) .arrow scope place history inside
    (Nat.lt_succ_self _)
  generalize enough : Nonterminal.cost .arrow (last + 1 - place.position) + 1 = fuel at surveyed
  cases parsed : Nonterminal.nestWith Nonterminal.production terminals fuel .arrow scope place history
    with
  | matched after later =>
      obtain ⟨position, arrow⟩ := Nonterminal.nestWith_hasArrow _ _ _ _ _ _ _ _ parsed
      exact absurd arrow (plain.noArrow position)
  | refused later =>
      refine ⟨later, fuel, ?_⟩
      intro more le
      rw [nest, Nonterminal.nestWith_eq_of_le le _ _ _ _ (by simp [parsed]), parsed]
  | outOfFuel =>
      rw [parsed] at surveyed
      exact surveyed.elim

/-! ## What it is to parse an expression -/

namespace Expression

/-- Parentheses around a target are marked. -/
def Marked (expression : Expression) (start : Nat) : Marks := fun targets =>
  match expression with
  | parenthesized inner => inner.isTarget = true → start + 1 ∈ targets
  | _ => True

/-- The token goes on with none of the operators that the expression ends in. -/
def EndsBefore (expression : Expression) (next : Kind) : Prop :=
  next ∉ tightKinds ∧ ∀ left operator right, expression = binary left operator right →
    ∀ level ∈ operatorLevels, operator ∈ level.operators → EndsOperand level.rightMinimum next

section Parses

variable (terminals : Terminals) (expression : Expression)

/-! A nonterminal that opens a loop takes an expression and what the loop takes behind it. -/

def TakenByLeftHandSide : Prop :=
  expression.kind ∈ leftHandSideKinds → ∀ {scope : Scope} {place after : Place} {ensured : Marks},
    terminals.Reads place.position expression.tokens →
      (Production.call (.memberTail true)).Takes terminals scope (place.behind expression)
        (expression.Marked place.position) after ensured →
      (Production.call .leftHandSide).Takes terminals scope place .any after ensured

def TakenByUnary : Prop :=
  expression.kind ∈ unaryKinds → ∀ {scope : Scope} {place : Place},
    terminals.Reads place.position expression.tokens →
      terminals.kindAt (place.behind expression).position ∉ tightKinds →
      (Production.call .unary).Takes terminals scope place .any (place.behind expression)
        (expression.Marked place.position)

def TakenByBinary : Prop :=
  ∀ {minimum : Precedence}, expression.BindsAtLeast minimum → ∀ {scope : Scope}
    {place after : Place} {ensured : Marks}, terminals.Reads place.position expression.tokens →
      expression.EndsBefore (terminals.kindAt (place.behind expression).position) →
      (Production.call (.binaryTail minimum)).Takes terminals scope (place.behind expression)
        (expression.Marked place.position) after ensured →
      (Production.call (.binary minimum)).Takes terminals scope place .any after ensured

def TakenByConditional : Prop :=
  expression.kind ∈ .conditionalExpression :: operandKinds → ∀ {scope : Scope} {place : Place},
    terminals.Reads place.position expression.tokens →
      EndsConditional (terminals.kindAt (place.behind expression).position) →
      (expression.kind = .conditionalExpression →
        terminals.kindAt (place.behind expression).position ∉ assignmentOperators) →
      (Production.call .conditional).Takes terminals scope place .any (place.behind expression)
        (expression.Marked place.position)

def TakenByAssignment : Prop :=
  expression.kind ≠ .sequenceExpression → ∀ {scope : Scope} {place : Place},
    terminals.Reads place.position expression.tokens →
      EndsAssignment (terminals.kindAt (place.behind expression).position) →
      (Production.call .assignment).Takes terminals scope place .any (place.behind expression)
        (expression.Marked place.position)

def TakenByExpression : Prop :=
  ∀ {scope : Scope} {place after : Place} {ensured : Marks},
    terminals.Reads place.position expression.tokens →
      EndsAssignment (terminals.kindAt (place.behind expression).position) →
      (Production.call .sequenceTail).Takes terminals scope (place.behind expression)
        (expression.Marked place.position) after ensured →
      (Production.call .expression).Takes terminals scope place .any after ensured

structure Parses : Prop where
  leftHandSide : expression.TakenByLeftHandSide terminals
  unary : expression.TakenByUnary terminals
  binary : expression.TakenByBinary terminals
  conditional : expression.TakenByConditional terminals
  assignment : expression.TakenByAssignment terminals
  expression : expression.TakenByExpression terminals

end Parses
end Expression

/-! ## Loops that end -/

section Stops

variable {terminals : Terminals} {scope : Scope} {place : Place} {marks : Marks}

theorem takes_memberTail_nothing (stops : terminals.kindAt place.position ∉ linkKinds) :
    (Production.call (.memberTail true)).Takes terminals scope place marks place marks := by
  refine .call (.select_otherwise ?_ .empty)
  intro targets _ entry member
  simp only [linkKinds, List.mem_cons, List.not_mem_nil, or_false, not_or] at stops
  simp only [if_true, List.cons_append, List.nil_append, List.mem_cons, List.not_mem_nil, or_false]
    at member
  rcases member with rfl | rfl | rfl | rfl | rfl <;> simp [Guard.admits, stops]

theorem takes_binaryTail_nothing {minimum : Precedence}
    (stops : EndsOperand minimum (terminals.kindAt place.position)) :
    (Production.call (.binaryTail minimum)).Takes terminals scope place marks place marks := by
  refine .call (.select_otherwise ?_ .empty)
  intro targets _ entry member
  obtain ⟨level, listed, rfl⟩ := List.mem_map.mp member
  obtain ⟨isLevel, strong⟩ := List.mem_filter.mp listed
  have other := stops.2 level isLevel (of_decide_eq_true strong)
  simpa [Guard.admits] using other

theorem takes_sequenceTail_nothing (stops : terminals.kindAt place.position ≠ .comma) :
    (Production.call .sequenceTail).Takes terminals scope place marks place marks :=
  .call (.branch_no (fun _ _ => by simp [Guard.admits, stops]) .empty)

end Stops

/-! ## From one level to the next -/

section Levels

variable {terminals : Terminals} {last : Nat} {expression : Expression} {scope : Scope} {place : Place}

theorem Expression.first_of_reads (canonical : expression.Canonical)
    (reads : terminals.Reads place.position expression.tokens) :
    terminals.kindAt place.position ∈ primaryStarts ++ unaryOperators ∧
      (expression.kind ∈ leftHandSideKinds → terminals.kindAt place.position ∈ primaryStarts) := by
  obtain ⟨first, rest, same, start⟩ := expression.exists_first canonical
  rw [same] at reads
  rw [reads.1]
  exact start

theorem takes_unary_of_postfixed {after : Place} {ensured : Marks}
    (first : terminals.kindAt place.position ∈ primaryStarts)
    (takes : (Production.call .postfixed).Takes terminals scope place .any after ensured) :
    (Production.call .unary).Takes terminals scope place .any after ensured := by
  have others : ∀ kind ∈ primaryStarts, kind ∉ unaryOperators ∧ kind ≠ .awaitKw := by decide
  obtain ⟨noUnary, noAwait⟩ := others _ first
  refine .call (.branch_no (fun _ _ => Guard.rejects_of_notMem noUnary) ?_)
  exact .branch_no (fun _ _ => by simp [Guard.admits, noAwait]) takes

theorem Expression.TakenByLeftHandSide.takenByUnary (canonical : expression.Canonical)
    (isLeftHandSide : expression.kind ∈ leftHandSideKinds)
    (taken : expression.TakenByLeftHandSide terminals) : expression.TakenByUnary terminals := by
  intro _ scope place reads stops
  have first := (expression.first_of_reads canonical reads).2 isLeftHandSide
  have noLink := mt (List.mem_append_left postfixOperators) stops
  have noPostfix := mt (List.mem_append_right linkKinds) stops
  refine takes_unary_of_postfixed first (.call (.seq (taken isLeftHandSide reads
    (takes_memberTail_nothing noLink)) (.branch_no ?_ .empty)))
  intro _ _
  rw [Guard.admits, Bool.and_eq_false_iff]
  exact .inl (Guard.rejects_of_notMem noPostfix)

theorem Expression.TakenByUnary.takenByBinary (isUnary : expression.kind ∈ unaryKinds)
    (taken : expression.TakenByUnary terminals) : expression.TakenByBinary terminals := by
  intro minimum _ scope place after ensured reads ends further
  exact .call (.seq (taken isUnary reads ends.1) further)

theorem Expression.endsBefore_of_bindsAtLeast {minimum : Nat} {next : Kind}
    (binds : expression.BindsAtLeast minimum) (ends : EndsOperand minimum next) :
    expression.EndsBefore next := by
  refine ⟨ends.1, ?_⟩
  rintro left operator right rfl level isLevel member
  rcases binds with unary | ⟨other, isOther, strong, _, _, _, same, also⟩
  · exact absurd (show Kind.binaryExpression ∈ unaryKinds from unary) (by decide)
  · cases same
    obtain rfl := level_unique level isLevel other isOther operator member also
    have more := rightMinimum_ge level isLevel
    exact ⟨ends.1, fun further isFurther stronger =>
      ends.2 further isFurther (Nat.le_trans strong (Nat.le_trans more stronger))⟩

/-- An operand of any operator binds strongly enough for the loosest one. -/
theorem Expression.Canonical.bindsAtLeast_one (canonical : expression.Canonical)
    (isOperand : expression.kind ∈ operandKinds) : expression.BindsAtLeast 1 := by
  rcases List.mem_append.mp isOperand with unary | binary
  · exact .inl unary
  · cases expression with
    | binary left operator right =>
        obtain ⟨_, _, level, isLevel, member, _⟩ := canonical
        have least : ∀ level ∈ operatorLevels, 1 ≤ level.precedence.val := by decide
        exact .inr ⟨level, isLevel, least level isLevel, left, operator, right, rfl, member⟩
    | _ => exact absurd (List.mem_singleton.mp binary) (by simp [kind])

theorem Expression.TakenByBinary.takenByConditional (canonical : expression.Canonical)
    (isOperand : expression.kind ∈ operandKinds) (taken : expression.TakenByBinary terminals) :
    expression.TakenByConditional terminals := by
  intro _ scope place reads ends _
  have binds := canonical.bindsAtLeast_one isOperand
  refine .call (.seq (taken binds reads (Expression.endsBefore_of_bindsAtLeast binds ends.1)
    (takes_binaryTail_nothing ends.1)) ?_)
  exact .branch_no (fun _ _ => by simpa [Guard.admits] using ends.2) .empty

theorem takes_assignment_of_plain (plain : terminals.Plain last) {after : Place} {ensured : Marks}
    (first : terminals.kindAt place.position ∈ primaryStarts ++ unaryOperators)
    (takes : (Production.call .plainAssignment).Takes terminals scope place .any after ensured) :
    (Production.call .assignment).Takes terminals scope place .any after ensured := by
  have others : ∀ kind ∈ primaryStarts ++ unaryOperators, kind ≠ .yieldKw ∧ kind ≠ .eof := by
    decide
  obtain ⟨noYield, noEnd⟩ := others _ first
  have inside : place.position ≤ last := by
    have before := mt (plain.ends place.position).mpr noEnd
    omega
  refine .call (.branch_no (fun _ _ => by simp [Guard.admits, noYield]) ?_)
  refine .branch ?_ (takes.weaken (fun _ _ => trivial) fun _ => id)
  -- The tokens may look like an arrow, which may even have failed here before.
  intro history _
  obtain ⟨refusal, refuses⟩ := plain.refuses_arrow scope place history inside
  obtain ⟨earlier, follows⟩ := refuses.onceOrElse (.call .plainAssignment)
  obtain ⟨later, gives, ensures⟩ := takes earlier trivial
  exact ⟨later, follows _ gives, ensures⟩

theorem Expression.TakenByConditional.takenByAssignment (plain : terminals.Plain last)
    (canonical : expression.Canonical)
    (isConditional : expression.kind ∈ .conditionalExpression :: operandKinds)
    (taken : expression.TakenByConditional terminals) : expression.TakenByAssignment terminals := by
  intro _ scope place reads ends
  refine takes_assignment_of_plain plain (expression.first_of_reads canonical reads).1 ?_
  refine .call (.seq (taken isConditional reads ends.1 fun _ => ends.2) ?_)
  exact .branch_no (fun _ _ => by
    rw [Guard.admits, Bool.and_eq_false_iff]
    exact .inl (by simpa [Guard.admits] using ends.2)) .empty

theorem Expression.TakenByAssignment.takenByExpression
    (noSequence : expression.kind ≠ .sequenceExpression)
    (taken : expression.TakenByAssignment terminals) : expression.TakenByExpression terminals := by
  intro scope place after ensured reads ends further
  exact .call (.seq (taken noSequence reads ends) further)

/-! Whatever is no operand is taken by none of the nonterminals of operands. -/

theorem Expression.takenByLeftHandSide_of_notMem (other : expression.kind ∉ leftHandSideKinds) :
    expression.TakenByLeftHandSide terminals :=
  fun member => absurd member other

theorem Expression.takenByUnary_of_notMem (other : expression.kind ∉ unaryKinds) :
    expression.TakenByUnary terminals :=
  fun member => absurd member other

theorem Expression.takenByBinary_of_notMem (other : expression.kind ∉ operandKinds) :
    expression.TakenByBinary terminals := by
  intro minimum binds
  rcases binds with unary | ⟨_, _, _, _, _, _, rfl, _⟩
  · exact absurd (List.mem_append_left _ unary) other
  · exact absurd (show Kind.binaryExpression ∈ operandKinds by decide) other

theorem Expression.takenByConditional_of_notMem
    (other : expression.kind ∉ .conditionalExpression :: operandKinds) :
    expression.TakenByConditional terminals :=
  fun member => absurd member other

namespace Expression.Parses

theorem ofSequence (isSequence : expression.kind = .sequenceExpression)
    (taken : expression.TakenByExpression terminals) : expression.Parses terminals where
  leftHandSide := takenByLeftHandSide_of_notMem (by rw [isSequence]; decide)
  unary := takenByUnary_of_notMem (by rw [isSequence]; decide)
  binary := takenByBinary_of_notMem (by rw [isSequence]; decide)
  conditional := takenByConditional_of_notMem (by rw [isSequence]; decide)
  assignment := fun noSequence => absurd isSequence noSequence
  expression := taken

theorem ofAssignment (isAssignment : expression.kind = .assignmentExpression)
    (taken : expression.TakenByAssignment terminals) : expression.Parses terminals where
  leftHandSide := takenByLeftHandSide_of_notMem (by rw [isAssignment]; decide)
  unary := takenByUnary_of_notMem (by rw [isAssignment]; decide)
  binary := takenByBinary_of_notMem (by rw [isAssignment]; decide)
  conditional := takenByConditional_of_notMem (by rw [isAssignment]; decide)
  assignment := taken
  expression := taken.takenByExpression (by rw [isAssignment]; decide)

theorem ofConditional (plain : terminals.Plain last) (canonical : expression.Canonical)
    (leftHandSide : expression.TakenByLeftHandSide terminals)
    (unary : expression.TakenByUnary terminals) (binary : expression.TakenByBinary terminals)
    (isConditional : expression.kind ∈ .conditionalExpression :: operandKinds)
    (conditional : expression.TakenByConditional terminals) : expression.Parses terminals := by
  have taken := conditional.takenByAssignment plain canonical isConditional
  have noSequence : expression.kind ≠ .sequenceExpression := by
    intro same
    rw [same] at isConditional
    exact absurd isConditional (by decide)
  exact ⟨leftHandSide, unary, binary, conditional, taken, taken.takenByExpression noSequence⟩

theorem ofBinary (plain : terminals.Plain last) (canonical : expression.Canonical)
    (leftHandSide : expression.TakenByLeftHandSide terminals)
    (unary : expression.TakenByUnary terminals) (isOperand : expression.kind ∈ operandKinds)
    (binary : expression.TakenByBinary terminals) : expression.Parses terminals :=
  ofConditional plain canonical leftHandSide unary binary (List.mem_cons_of_mem _ isOperand)
    (binary.takenByConditional canonical isOperand)

theorem ofUnary (plain : terminals.Plain last) (canonical : expression.Canonical)
    (leftHandSide : expression.TakenByLeftHandSide terminals)
    (isUnary : expression.kind ∈ unaryKinds) (unary : expression.TakenByUnary terminals) :
    expression.Parses terminals :=
  ofBinary plain canonical leftHandSide unary (List.mem_append_left _ isUnary)
    (unary.takenByBinary isUnary)

theorem ofLeftHandSide (plain : terminals.Plain last) (canonical : expression.Canonical)
    (isLeftHandSide : expression.kind ∈ leftHandSideKinds)
    (leftHandSide : expression.TakenByLeftHandSide terminals) : expression.Parses terminals :=
  ofUnary plain canonical leftHandSide (List.mem_append_left _ isLeftHandSide)
    (leftHandSide.takenByUnary canonical isLeftHandSide)

end Expression.Parses

theorem Expression.Parses.takes_closed (parses : expression.Parses terminals) {closing : Kind}
    (reads : terminals.Reads place.position expression.tokens)
    (next : terminals.kindAt (place.behind expression).position = closing)
    (closes : closing ∈ [Kind.eof, .rightParen, .rightBracket]) :
    (Production.call .expression).Takes terminals scope place .any (place.behind expression)
      (expression.Marked place.position) := by
  have ends : ∀ kind ∈ [Kind.eof, .rightParen, .rightBracket],
      EndsAssignment kind ∧ kind ≠ .comma := by
    decide
  obtain ⟨endsAssignment, noComma⟩ := ends closing closes
  exact parses.expression reads (next ▸ endsAssignment) (takes_sequenceTail_nothing (next ▸ noComma))

end Levels
end ScriptTree
