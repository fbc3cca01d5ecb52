import ScriptTree.Proofs.Levels

/-! # Forms of expressions

Every form of expression is taken at its level if its parts are taken at theirs. -/
set_option autoImplicit false
namespace ScriptTree

open Grammar Production

variable {terminals : Terminals} {last : Nat} {expression : Expression} {scope : Scope} {place : Place}

/-! ## Primary expressions -/

theorem Expression.takenByLeftHandSide_of_primary
    (taken : ∀ {scope : Scope} {place : Place}, terminals.Reads place.position expression.tokens →
      terminals.kindAt place.position ≠ .newKw ∧
        (Production.call .primary).Takes terminals scope place .any (place.behind expression)
          (expression.Marked place.position)) : expression.TakenByLeftHandSide terminals := by
  intro _ scope place after ensured reads further
  obtain ⟨noNew, takes⟩ := taken reads
  exact .call (.seq (.branch_no (fun _ _ => by simp [Guard.admits, noNew]) takes) further)

theorem takes_identifier (next : terminals.kindAt place.position = .ident) :
    (Production.call .primary).Takes terminals scope place .any (place.behind .identifier)
      (Expression.identifier.Marked place.position) := by
  have name : Production.identifier.Takes terminals scope place.inside .any
      (place.inside.behindToken .ident) .any :=
    .branch_yes (fun _ _ => by simp [Guard.admits, Place.inside, next, ParseState.isIdentifierAt])
      (.take next)
  refine .call (.select (.identifier 0, .call .identifierReference) ?_ ?_)
  · intro _ _
    simp [Guard.admits, next, ParseState.isIdentifierAt]
  · exact .call (.node name)

theorem takes_literal {literal : Expression} {kind : Kind}
    (isLiteral : literal = .number ∧ kind = .number ∨ literal = .string ∧ kind = .string)
    (next : terminals.kindAt place.position = kind) :
    (Production.call .primary).Takes terminals scope place .any (place.behind literal)
      (literal.Marked place.position) := by
  refine .call (.select (.next 0 [.nullKw, .trueKw, .falseKw, .number, .string, .regex],
    .node .literal .take) ?_ ?_)
  · intro _ _
    rcases isLiteral with ⟨_, rfl⟩ | ⟨_, rfl⟩ <;> simp [Guard.admits, next]
  · have token : Production.take.Takes terminals scope place.inside .any
        (place.inside.behindToken kind) .any := .take next
    rcases isLiteral with ⟨rfl, rfl⟩ | ⟨rfl, rfl⟩ <;> exact .node token

/-- What may be assigned to is found assignable once it is complete. -/
theorem Expression.admits_target (terminals : Terminals) (scope : Scope) {start : Nat}
    {targets : List Nat} (isTarget : expression.isTarget = true)
    (marked : expression.Marked start targets)
    (completed : place.completed = some (expression.kind, start)) :
    Guard.admits terminals scope place targets (.completed simpleTargets) = true ∨
      Guard.admits terminals scope place targets .completedTarget = true := by
  simp only [Guard.admits, completed, Option.map_some, Option.getD_some]
  cases expression with
  | identifier | dot | bracket => exact .inl (by simp [kind, simpleTargets])
  | parenthesized inner =>
      have member : start + 1 ∈ targets := marked isTarget
      exact .inr (by simp [kind, member])
  | _ => cases isTarget

theorem Expression.kind_mem_of_isTarget : (expression : Expression) → expression.isTarget = true →
    expression.kind ∈ operandKinds
  | .identifier, _ | .dot _ _, _ | .bracket _ _, _ | .parenthesized _, _ => by simp only [kind]; decide

theorem takes_parenthesized {inner : Expression} (parses : inner.Parses terminals)
    (reads : terminals.Reads place.position (Expression.parenthesized inner).tokens) :
    (Production.call .primary).Takes terminals scope place .any
      (place.behind (.parenthesized inner))
      ((Expression.parenthesized inner).Marked place.position) := by
  obtain ⟨opening, reads⟩ := reads
  obtain ⟨reads, closing, -⟩ := Terminals.reads_append.mp reads
  let opened := place.inside.behindToken .leftParen
  let closed := (opened.behind inner).behindToken .rightParen
  have takesInner : (Production.call .expression).Takes terminals scope opened .any
      (opened.behind inner) (inner.Marked opened.position) :=
    parses.takes_closed reads closing (by decide)
  -- Parentheses that stay unmarked hold nothing that may be assigned to.
  have marks : (Production.branch (.or (.completed simpleTargets) .completedTarget) .markTarget
      .empty).Takes terminals scope closed (inner.Marked opened.position) closed
      ((Expression.parenthesized inner).Marked place.position) := by
    refine .branch ?_ ?_
    · have completed : closed.completed = some (inner.kind, opened.position) := rfl
      exact (Takes.markTarget completed).weaken (fun _ => id) fun _ member _ => member
    · refine Takes.empty.weaken (fun _ => id) ?_
      rintro targets ⟨marked, rejects⟩ isTarget
      rw [Guard.admits, Bool.or_eq_false_iff] at rejects
      have completed : closed.completed = some (inner.kind, opened.position) := rfl
      rcases Expression.admits_target terminals scope isTarget marked completed with admits | admits
      · rw [admits] at rejects
        cases rejects.1
      · rw [admits] at rejects
        cases rejects.2
  refine .call (.select (.nextIs .leftParen, .call .parenthesized) ?_ ?_)
  · intro _ _
    simp [Guard.admits, opening]
  · refine .call (.cast (.node (.seq (.expect opening) (.seq takesInner
      (.seq (.expect closing) marks)))) (Place.eq_behind ?_ rfl rfl))
    simp only [opened, closed, Place.position_addNode, Place.position_behindToken,
      Place.position_behind, Place.position_inside, Expression.tokens, List.length_cons,
      List.length_append, List.length_nil]
    omega

/-! ## Member accesses and calls -/

theorem Expression.takenByLeftHandSide_of_turn {object : Expression} {rest : List Kind}
    (parses : object.Parses terminals) (isLeftHandSide : object.kind ∈ leftHandSideKinds)
    (printed : expression.tokens = object.tokens ++ rest)
    (unmarked : ∀ start targets, expression.Marked start targets)
    (turn : ∀ {scope : Scope} {place after : Place} {ensured : Marks},
      terminals.Reads (place.behind object).position rest →
        (Production.call (.memberTail true)).Takes terminals scope (place.behind expression) .any after
          ensured →
        (Production.call (.memberTail true)).Takes terminals scope (place.behind object) .any after
          ensured) :
    expression.TakenByLeftHandSide terminals := by
  intro _ scope place after ensured reads further
  rw [printed] at reads
  obtain ⟨objectReads, restReads⟩ := Terminals.reads_append.mp reads
  have turned := turn restReads (further.weaken (fun targets _ => unmarked _ targets) fun _ => id)
  exact parses.leftHandSide isLeftHandSide objectReads
    (turned.weaken (fun _ _ => trivial) fun _ => id)

theorem takes_memberTail_dot {object : Expression} {name : Kind} {after : Place} {ensured : Marks}
    (isName : name ∈ [Kind.ident, .privateName] ++ keywords)
    (reads : terminals.Reads (place.behind object).position [.dot, name])
    (further : (Production.call (.memberTail true)).Takes terminals scope
      (place.behind (.dot object name)) .any after ensured) :
    (Production.call (.memberTail true)).Takes terminals scope (place.behind object) .any after
      ensured := by
  obtain ⟨dot, named, -⟩ := reads
  have link : (Production.wrap .dotMemberExpression (.seq .take memberName)).Takes terminals scope
      (place.behind object) .any (place.behind (.dot object name)) .any := by
    have takesName : memberName.Takes terminals scope ((place.behind object).inside.behindToken .dot)
        .any (((place.behind object).inside.behindToken .dot).addNode .propertyName
          (((place.behind object).inside.behindToken .dot).inside.behindToken name)) .any :=
      .node (.branch_yes (fun _ _ => Guard.admits_of_mem named isName) (.take named))
    refine (Takes.wrap rfl (.seq (.take dot) takesName)).cast (Place.eq_behind ?_ rfl rfl)
    simp only [Place.position_wrapNode, Place.position_addNode, Place.position_behindToken,
      Place.position_behind, Place.position_inside, Expression.tokens, List.length_append,
      List.length_cons, List.length_nil]
    omega
  refine .call (.select (.nextIs .dot, .seq (.wrap .dotMemberExpression (.seq .take memberName))
    (.call (.memberTail true))) ?_ (.seq link further))
  intro _ _
  simp [Guard.admits, show terminals.kindAt (place.position + object.tokens.length) = .dot from dot]

theorem takes_memberTail_bracket {object index : Expression} {after : Place} {ensured : Marks}
    (parses : index.Parses terminals)
    (reads : terminals.Reads (place.behind object).position
      (.leftBracket :: (index.tokens ++ [.rightBracket])))
    (further : (Production.call (.memberTail true)).Takes terminals scope
      (place.behind (.bracket object index)) .any after ensured) :
    (Production.call (.memberTail true)).Takes terminals scope (place.behind object) .any after
      ensured := by
  obtain ⟨opening, reads⟩ := reads
  obtain ⟨reads, closing, -⟩ := Terminals.reads_append.mp reads
  let opened := (place.behind object).inside.behindToken .leftBracket
  have takesIndex : (Production.call .expression).Takes terminals scope opened .any
      (opened.behind index) (index.Marked opened.position) :=
    parses.takes_closed reads closing (by decide)
  have link : (Production.wrap .bracketMemberExpression
      (series [.take, .call .expression, expect .rightBracket])).Takes terminals scope
      (place.behind object) .any (place.behind (.bracket object index)) .any := by
    refine (Takes.wrap rfl (.seq (.take opening) (.seq takesIndex.forget
      (.expect closing)))).cast (Place.eq_behind ?_ rfl rfl)
    simp only [opened, Place.position_wrapNode, Place.position_behindToken,
      Place.position_behind, Place.position_inside, Expression.tokens, List.length_append,
      List.length_cons, List.length_nil]
    omega
  refine .call (.select (.nextIs .leftBracket, .seq (.wrap .bracketMemberExpression
    (series [.take, .call .expression, expect .rightBracket])) (.call (.memberTail true))) ?_
      (.seq link further))
  intro _ _
  simp [Guard.admits,
    show terminals.kindAt (place.position + object.tokens.length) = .leftBracket from opening]

/-! ## Arguments -/

def Place.behindArguments : Place → CallArguments → Place
  | place, .none => place
  | place, .last element => place.behind element
  | place, .more element rest => ((place.behind element).behindToken .comma).behindArguments rest

theorem Place.behindArguments_eq (place : Place) : (arguments : CallArguments) →
    (place.behindArguments arguments).position = place.position + arguments.tokens.length ∧
      (place.behindArguments arguments).forest = arguments.items place.forest place.position
  | .none => ⟨rfl, rfl⟩
  | .last element => ⟨rfl, rfl⟩
  | .more element rest => by
      obtain ⟨position, forest⟩ :=
        ((place.behind element).behindToken .comma).behindArguments_eq rest
      refine ⟨?_, forest⟩
      rw [behindArguments, position, CallArguments.tokens, List.length_append, List.length_cons,
        position_behindToken, position_behind]
      omega

def CallArguments.Parses (terminals : Terminals) (arguments : CallArguments) : Prop :=
  ∀ (scope : Scope) (place : Place), terminals.Reads place.position arguments.tokens →
    terminals.kindAt (place.behindArguments arguments).position = .rightParen →
    (Production.call (.items .arguments)).Takes terminals scope place .any
      (place.behindArguments arguments) .any

theorem takes_items_of_element {element : Expression} (canonical : element.Canonical)
    (noSequence : element.kind ≠ .sequenceExpression) (parses : element.Parses terminals)
    (reads : terminals.Reads place.position element.tokens)
    (ends : EndsAssignment (terminals.kindAt (place.behind element).position)) {after : Place}
    (further : (Production.branch (.nextIs .comma) (.seq .take (.call (.items .arguments)))
      (.expected .comma)).Takes terminals scope (place.behind element) .any after .any) :
    (Production.call (.items .arguments)).Takes terminals scope place .any after .any := by
  have first := (element.first_of_reads canonical reads).1
  have others : ∀ kind ∈ primaryStarts ++ unaryOperators,
      kind ∉ [Kind.rightParen] ∧ kind ∉ [Kind.dot3] := by decide
  obtain ⟨noParen, noSpread⟩ := others _ first
  refine .call (.branch_no (fun _ _ => Guard.rejects_of_notMem noParen) (.seq ?_ further))
  exact .call (.branch_no (fun _ _ => Guard.rejects_of_notMem noSpread)
    (parses.assignment noSequence reads ends).forget)

theorem CallArguments.parses_none : CallArguments.none.Parses terminals :=
  fun _ _ _ next => .call (.branch_yes (fun _ _ => Guard.admits_of_mem next (by decide)) .empty)

theorem CallArguments.parses_last {element : Expression} (canonical : element.Canonical)
    (noSequence : element.kind ≠ .sequenceExpression) (parses : element.Parses terminals) :
    (CallArguments.last element).Parses terminals := by
  intro scope place reads next
  have closes : terminals.kindAt (place.behind element).position = .rightParen := next
  refine takes_items_of_element canonical noSequence parses reads ?_ (.branch_no ?_ .expected)
  · rw [closes]
    exact endsAssignment_closing _ (by decide)
  · intro _ _
    exact Guard.rejects_of_notMem (by rw [closes]; decide)

theorem CallArguments.parses_more {element : Expression} {rest : CallArguments}
    (canonical : element.Canonical) (noSequence : element.kind ≠ .sequenceExpression)
    (parses : element.Parses terminals) (restParses : rest.Parses terminals) :
    (CallArguments.more element rest).Parses terminals := by
  intro scope place reads next
  obtain ⟨elementReads, comma, restReads⟩ := Terminals.reads_append.mp reads
  have separates : terminals.kindAt (place.behind element).position = .comma := comma
  refine takes_items_of_element canonical noSequence parses elementReads ?_ (.branch_yes ?_
    (.seq (.take separates) (restParses scope _ restReads next)))
  · rw [separates]
    exact endsAssignment_closing _ (by decide)
  · intro _ _
    exact Guard.admits_of_mem separates (by decide)

theorem takes_memberTail_call {callee : Expression} {arguments : CallArguments} {after : Place}
    {ensured : Marks} (parses : arguments.Parses terminals)
    (reads : terminals.Reads (place.behind callee).position
      (.leftParen :: (arguments.tokens ++ [.rightParen])))
    (further : (Production.call (.memberTail true)).Takes terminals scope
      (place.behind (.call callee arguments)) .any after ensured) :
    (Production.call (.memberTail true)).Takes terminals scope (place.behind callee) .any after
      ensured := by
  obtain ⟨opening, reads⟩ := reads
  obtain ⟨reads, closing, -⟩ := Terminals.reads_append.mp reads
  let opened := (place.behind callee).inside.inside.behindToken .leftParen
  obtain ⟨position, forest⟩ := opened.inside.behindArguments_eq arguments
  have closes : terminals.kindAt (opened.inside.behindArguments arguments).position = .rightParen := by
    rw [position]
    exact closing
  let listed := opened.addList (opened.inside.behindArguments arguments)
  have items : (Production.list (.call (.items .arguments))).Takes terminals scope opened .any listed
      .any := .list (parses scope _ reads closes)
  have link : (Production.wrap .callExpression (.call .arguments)).Takes terminals scope
      (place.behind callee) .any (place.behind (.call callee arguments)) .any := by
    refine (Takes.wrap rfl (.call (.node (.seq (.expect opening) (.seq items
      (.expect closes)))))).cast (Place.eq_behind ?_ ?_ rfl)
    · simp only [listed, opened, position, Place.position_wrapNode, Place.position_addNode,
        Place.position_addList, Place.position_behindToken, Place.position_behind,
        Place.position_inside, Expression.tokens, List.length_append, List.length_cons,
        List.length_nil]
      omega
    · change (place.behind callee).forest.wrapLast .callExpression (Forest.empty.node .arguments
        ((opened.forest.list (opened.inside.behindArguments arguments).forest).token
          (opened.inside.behindArguments arguments).position .rightParen)) = _
      rw [forest, position]
      rfl
  refine .call (.select (.nextIs .leftParen, .seq (.wrap .callExpression (.call .arguments))
    (.call (.memberTail true))) ?_ (.seq link further))
  intro _ _
  simp [Guard.admits,
    show terminals.kindAt (place.position + callee.tokens.length) = .leftParen from opening]

/-! ## Operators -/

theorem takenByUnary_unary {operator : Kind} {operand : Expression}
    (isOperator : operator ∈ unaryOperators) (isUnary : operand.kind ∈ unaryKinds)
    (parses : operand.Parses terminals) :
    (Expression.unary operator operand).TakenByUnary terminals := by
  intro _ scope place reads stops
  obtain ⟨next, operandReads⟩ := reads
  let inside := place.inside.behindToken operator
  have position : (inside.behind operand).position =
      (place.behind (.unary operator operand)).position := by
    simp only [inside, Place.position_behindToken, Place.position_behind, Place.position_inside,
      Expression.tokens, List.length_cons]
    omega
  have takesOperand : (Production.call .unary).Takes terminals scope inside .any
      (inside.behind operand) (operand.Marked inside.position) :=
    parses.unary isUnary operandReads (position ▸ stops)
  refine .call (.branch_yes (fun _ _ => Guard.admits_of_mem next isOperator) ?_)
  exact (Takes.node (.seq (.take next) takesOperand.forget)).cast
    (Place.eq_behind position rfl rfl)

theorem takenByUnary_postfixed {operand : Expression} {operator : Kind}
    (plain : terminals.Plain last) (canonical : operand.Canonical)
    (isOperator : operator ∈ postfixOperators)
    (isLeftHandSide : operand.kind ∈ leftHandSideKinds) (parses : operand.Parses terminals) :
    (Expression.postfixed operand operator).TakenByUnary terminals := by
  intro _ scope place reads _
  obtain ⟨operandReads, next, -⟩ := Terminals.reads_append.mp reads
  have follows : terminals.kindAt (place.behind operand).position = operator := next
  have first := (operand.first_of_reads canonical operandReads).2 isLeftHandSide
  have others : ∀ kind ∈ postfixOperators, kind ∉ linkKinds := by decide
  have takesOperand : (Production.call .leftHandSide).Takes terminals scope place .any
      (place.behind operand) (operand.Marked place.position) :=
    parses.leftHandSide isLeftHandSide operandReads
      (takes_memberTail_nothing (follows ▸ others operator isOperator))
  have wraps : (Production.wrap .postfixExpression .take).Takes terminals scope
      (place.behind operand) (operand.Marked place.position)
      (place.behind (.postfixed operand operator)) (operand.Marked place.position) := by
    refine (Takes.wrap rfl (.take follows)).cast (Place.eq_behind ?_ rfl rfl)
    simp only [Place.position_wrapNode, Place.position_behindToken, Place.position_behind,
      Place.position_inside, Expression.tokens, List.length_append, List.length_singleton]
    omega
  refine (takes_unary_of_postfixed first (.call (.seq takesOperand (.branch_yes ?_ wraps)))).forget
  intro _ _
  exact Guard.admits_and.mpr
    ⟨Guard.admits_of_mem follows isOperator, by simp [Guard.admits, plain.unbroken]⟩

theorem Expression.BindsAtLeast.weaken {minimum stronger : Nat}
    (binds : expression.BindsAtLeast stronger) (le : minimum ≤ stronger) :
    expression.BindsAtLeast minimum := by
  rcases binds with unary | ⟨level, isLevel, strong, further⟩
  · exact .inl unary
  · exact .inr ⟨level, isLevel, Nat.le_trans le strong, further⟩

theorem Expression.BindsAtLeast.level_of_binary {minimum : Nat} {left right : Expression}
    {operator : Kind} (binds : (binary left operator right).BindsAtLeast minimum)
    {level : OperatorLevel} (isLevel : level ∈ operatorLevels) (member : operator ∈ level.operators) :
    minimum ≤ level.precedence := by
  rcases binds with unary | ⟨other, isOther, strong, _, _, _, same, also⟩
  · exact absurd (show Kind.binaryExpression ∈ unaryKinds from unary) (by decide)
  · cases same
    rwa [level_unique level isLevel other isOther operator member also]

theorem Expression.endsBefore_operator {level : OperatorLevel} (isLevel : level ∈ operatorLevels)
    {operator : Kind} (member : operator ∈ level.operators)
    (binds : expression.BindsAtLeast level.leftMinimum) : expression.EndsBefore operator := by
  refine ⟨operator_notMem_tightKinds level isLevel operator member, ?_⟩
  rintro left inner right rfl other isOther also
  exact endsOperand_operator level isLevel operator member other isOther
    (binds.level_of_binary isOther also)

/-! An operator between two operands. -/

theorem Place.position_behind_operator (place : Place) (left : Expression) (operator : Kind)
    (right : Expression) {whole : Expression}
    (printed : whole.tokens = left.tokens ++ operator :: right.tokens) :
    (place.behind whole).position =
      (((place.behind left).inside.behindToken operator).behind right).position := by
  simp only [position_behindToken, position_behind, position_inside, printed, List.length_append,
    List.length_cons]
  omega

/-- The left operand is taken already; a node is put around it. -/
theorem takes_wrap_operator {left right whole : Expression} {kind operator : Kind}
    {operand : Nonterminal} (printed : whole.tokens = left.tokens ++ operator :: right.tokens)
    (built : whole.children place.position =
      ((Forest.empty.node left.kind (left.children place.position)).token
        (place.position + left.tokens.length) operator).node right.kind
          (right.children (place.position + left.tokens.length + 1)))
    (named : whole.kind = kind) (next : terminals.kindAt (place.behind left).position = operator)
    (takes : (Production.call operand).Takes terminals scope
      ((place.behind left).inside.behindToken operator) .any
      (((place.behind left).inside.behindToken operator).behind right) .any) :
    (Production.wrap kind (.seq .take (.call operand))).Takes terminals scope (place.behind left) .any
      (place.behind whole) .any := by
  subst named
  refine (Takes.wrap rfl (.seq (.take next) takes)).cast (Place.eq_behind ?_ ?_ rfl)
  · exact (place.position_behind_operator left operator right printed).symm
  · rw [built]
    rfl

/-- An operator behind its left operand is taken by the loop, with the right operand. -/
theorem takes_binaryTail_operator {left right : Expression} {operator : Kind}
    {minimum : Precedence} {level : OperatorLevel} (isLevel : level ∈ operatorLevels)
    (member : operator ∈ level.operators) (strong : minimum ≤ level.precedence)
    (binds : right.BindsAtLeast level.rightMinimum) (parses : right.Parses terminals)
    (reads : terminals.Reads (place.behind left).position (operator :: right.tokens))
    (ends : EndsOperand level.rightMinimum
      (terminals.kindAt (place.behind (.binary left operator right)).position))
    {after : Place} {ensured : Marks}
    (further : (Production.call (.binaryTail minimum)).Takes terminals scope
      (place.behind (.binary left operator right)) .any after ensured) :
    (Production.call (.binaryTail minimum)).Takes terminals scope (place.behind left) .any after
      ensured := by
  obtain ⟨next, reads⟩ := reads
  let inside := (place.behind left).inside.behindToken operator
  rw [place.position_behind_operator left operator right rfl] at ends
  have takesRight : (Production.call (.binary level.rightMinimum)).Takes terminals scope inside .any
      (inside.behind right) (right.Marked inside.position) :=
    parses.binary binds reads (Expression.endsBefore_of_bindsAtLeast binds ends)
      (takes_binaryTail_nothing ends)
  have wraps : (Production.wrap .binaryExpression
      (.seq .take (.call (.binary level.rightMinimum)))).Takes terminals scope (place.behind left)
      .any (place.behind (.binary left operator right)) .any :=
    takes_wrap_operator rfl rfl rfl next takesRight.forget
  refine .call (.select (.next 0 level.operators, .seq (.wrap .binaryExpression
    (.seq .take (.call (.binary level.rightMinimum)))) (.call (.binaryTail minimum))) ?_
      (.seq wraps further))
  intro targets _
  have looks : (fun other : OperatorLevel => Guard.admits terminals scope (place.behind left) targets
      (.next 0 other.operators)) = fun other => other.operators.contains operator := by
    funext other
    rw [Guard.admits, Nat.add_zero, next]
  rw [List.find?_map]
  change ((operatorLevels.filter fun other => minimum ≤ other.precedence).find?
    fun other => Guard.admits terminals scope (place.behind left) targets
      (.next 0 other.operators)).map _ = _
  rw [looks, find?_operatorLevels minimum level isLevel operator member strong]
  rfl

theorem takenByBinary_binary {left right : Expression} {operator : Kind}
    (canonical : (Expression.binary left operator right).Canonical)
    (leftParses : left.Parses terminals) (rightParses : right.Parses terminals) :
    (Expression.binary left operator right).TakenByBinary terminals := by
  intro minimum binds scope place after ensured reads ends further
  obtain ⟨_, _, level, isLevel, member, leftBinds, rightBinds⟩ := canonical
  obtain ⟨leftReads, rightReads⟩ := Terminals.reads_append.mp reads
  -- The left operand binds as strongly as the whole, so one loop takes both operators.
  have strong := binds.level_of_binary isLevel member
  have next : terminals.kindAt (place.behind left).position = operator := rightReads.1
  have tail := takes_binaryTail_operator isLevel member strong rightBinds rightParses rightReads
    (ends.2 left operator right rfl level isLevel member)
    (further.weaken (fun _ _ => trivial) fun _ => id)
  exact leftParses.binary
    (leftBinds.weaken (Nat.le_trans strong (leftMinimum_ge level isLevel))) leftReads
    (next ▸ Expression.endsBefore_operator isLevel member leftBinds)
    (tail.weaken (fun _ _ => trivial) fun _ => id)

/-! ## Conditionals, assignments and sequences -/

theorem takenByConditional_conditional {test yes no : Expression}
    (canonical : (Expression.conditional test yes no).Canonical) (testParses : test.Parses terminals)
    (yesParses : yes.Parses terminals) (noParses : no.Parses terminals) :
    (Expression.conditional test yes no).TakenByConditional terminals := by
  intro _ scope place reads ends noAssignment
  obtain ⟨testCanonical, isOperand, _, yesKind, _, noKind⟩ := canonical
  obtain ⟨testReads, question, reads⟩ := Terminals.reads_append.mp reads
  obtain ⟨yesReads, colon, noReads⟩ := Terminals.reads_append.mp reads
  let asked := (place.behind test).inside.behindToken .question
  let answered := (asked.behind yes).behindToken .colon
  have position : (answered.behind no).position =
      (place.behind (.conditional test yes no)).position := by
    simp only [asked, answered, Place.position_behindToken, Place.position_behind,
      Place.position_inside, Expression.tokens, List.length_append, List.length_cons]
    omega
  have testEnds : EndsOperand 1 (terminals.kindAt (place.behind test).position) := by
    rw [show terminals.kindAt (place.behind test).position = .question from question]
    decide
  have yesEnds : EndsAssignment (terminals.kindAt (asked.behind yes).position) := by
    rw [show terminals.kindAt (asked.behind yes).position = .colon from colon]
    decide
  have noEnds : EndsAssignment (terminals.kindAt (answered.behind no).position) := by
    rw [position]
    exact ⟨ends, noAssignment rfl⟩
  have binds := testCanonical.bindsAtLeast_one isOperand
  have takesTest : (Production.call (.binary 1)).Takes terminals scope place .any (place.behind test)
      (test.Marked place.position) :=
    testParses.binary binds testReads (Expression.endsBefore_of_bindsAtLeast binds testEnds)
      (takes_binaryTail_nothing testEnds)
  have takesYes : (Production.call .assignment).Takes terminals scope asked .any (asked.behind yes)
      .any := (yesParses.assignment yesKind yesReads yesEnds).forget
  have takesNo : (Production.call .assignment).Takes terminals scope answered .any
      (answered.behind no) .any := (noParses.assignment noKind noReads noEnds).forget
  have wraps := (Takes.wrap rfl (.seq (.take question) (.seq takesYes (.seq (.expect colon)
    takesNo)))).cast (Place.eq_behind position rfl rfl)
  refine .call (.seq takesTest.forget (.branch_yes ?_ wraps.forget))
  intro _ _
  exact Guard.admits_of_mem question List.mem_cons_self

theorem takenByAssignment_assignment (plain : terminals.Plain last) {target value : Expression}
    {operator : Kind} (canonical : (Expression.assignment target operator value).Canonical)
    (targetParses : target.Parses terminals) (valueParses : value.Parses terminals) :
    (Expression.assignment target operator value).TakenByAssignment terminals := by
  intro _ scope place reads ends
  obtain ⟨isOperator, targetCanonical, isTarget, _, valueKind⟩ := canonical
  obtain ⟨targetReads, next, valueReads⟩ := Terminals.reads_append.mp reads
  let inside := (place.behind target).inside.behindToken operator
  rw [place.position_behind_operator target operator value rfl] at ends
  have follows : terminals.kindAt (place.behind target).position = operator := next
  have isOperand := target.kind_mem_of_isTarget isTarget
  have noConditional : target.kind ≠ .conditionalExpression := by
    intro same
    rw [same] at isOperand
    exact absurd isOperand (by decide)
  have takesTarget : (Production.call .conditional).Takes terminals scope place .any
      (place.behind target) (target.Marked place.position) :=
    targetParses.conditional (List.mem_cons_of_mem _ isOperand) targetReads
      (follows ▸ endsConditional_assignmentOperator operator isOperator)
      fun same => absurd same noConditional
  have takesValue : (Production.call .assignment).Takes terminals scope inside .any
      (inside.behind value) .any :=
    (valueParses.assignment valueKind valueReads ends).forget
  have wraps : (Production.wrap .assignmentExpression (.seq .take (.call .assignment))).Takes terminals
      scope (place.behind target) .any (place.behind (.assignment target operator value)) .any :=
    takes_wrap_operator rfl rfl rfl next takesValue
  refine takes_assignment_of_plain plain (target.first_of_reads targetCanonical targetReads).1
    (.call (.seq takesTarget (.branch_yes ?_ (wraps.weaken (fun _ _ => trivial) fun _ _ => trivial))))
  intro targets marked
  have completed : (place.behind target).completed = some (target.kind, place.position) := rfl
  refine Guard.admits_and.mpr ⟨Guard.admits_of_mem follows isOperator, Guard.admits_or.mpr ?_⟩
  rcases Expression.admits_target terminals scope isTarget marked completed with
    simple | parenthesized
  · exact .inl simple
  · exact .inr (Guard.admits_or.mpr (.inr parenthesized))

theorem takenByExpression_sequence {left right : Expression}
    (canonical : (Expression.sequence left right).Canonical) (leftParses : left.Parses terminals)
    (rightParses : right.Parses terminals) :
    (Expression.sequence left right).TakenByExpression terminals := by
  intro scope place after ensured reads ends further
  obtain ⟨_, _, rightKind⟩ := canonical
  obtain ⟨leftReads, comma, rightReads⟩ := Terminals.reads_append.mp reads
  let inside := (place.behind left).inside.behindToken .comma
  rw [place.position_behind_operator left .comma right rfl] at ends
  have leftEnds : EndsAssignment (terminals.kindAt (place.behind left).position) := by
    rw [show terminals.kindAt (place.behind left).position = .comma from comma]
    decide
  have takesRight : (Production.call .assignment).Takes terminals scope inside .any
      (inside.behind right) .any :=
    (rightParses.assignment rightKind rightReads ends).forget
  have wraps : (Production.wrap .sequenceExpression (.seq .take (.call .assignment))).Takes terminals
      scope (place.behind left) .any (place.behind (.sequence left right)) .any :=
    takes_wrap_operator rfl rfl rfl comma takesRight
  refine leftParses.expression leftReads leftEnds (.call (.branch_yes ?_ (.seq
    (wraps.weaken (fun _ _ => trivial) fun _ _ => trivial) further)))
  intro _ _
  exact Guard.admits_of_mem comma List.mem_cons_self

end ScriptTree
