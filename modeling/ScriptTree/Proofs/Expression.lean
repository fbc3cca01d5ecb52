import ScriptTree.Proofs.Operators

/-! # Expressions

Expressions apart from any text: their tokens in order, the forest they are in a tree, and when they
need no more parentheses than they have. -/
set_option autoImplicit false
namespace ScriptTree

open Grammar

mutual

/-- An expression. A name, an operator and a literal are known by the kind of their token. -/
inductive Expression where
  | identifier
  | number
  | string
  | parenthesized (inner : Expression)
  | dot (object : Expression) (name : Kind)
  | bracket (object index : Expression)
  | call (callee : Expression) (arguments : CallArguments)
  | unary (operator : Kind) (operand : Expression)
  | postfixed (operand : Expression) (operator : Kind)
  | binary (left : Expression) (operator : Kind) (right : Expression)
  | conditional (test yes no : Expression)
  | assignment (target : Expression) (operator : Kind) (value : Expression)
  | sequence (left right : Expression)

/-- The arguments of a call. A comma may end them. -/
inductive CallArguments where
  | none
  | last (element : Expression)
  | more (element : Expression) (rest : CallArguments)

end

namespace Expression

def kind : Expression → Kind
  | identifier => .identifierReference
  | number | string => .literal
  | parenthesized _ => .parenthesizedExpression
  | dot _ _ => .dotMemberExpression
  | bracket _ _ => .bracketMemberExpression
  | call _ _ => .callExpression
  | unary _ _ => .unaryExpression
  | postfixed _ _ => .postfixExpression
  | binary _ _ _ => .binaryExpression
  | conditional _ _ _ => .conditionalExpression
  | assignment _ _ _ => .assignmentExpression
  | sequence _ _ => .sequenceExpression

end Expression

/-! ## Printing -/

mutual

def Expression.tokens : Expression → List Kind
  | .identifier => [.ident]
  | .number => [.number]
  | .string => [.string]
  | .parenthesized inner => .leftParen :: (inner.tokens ++ [.rightParen])
  | .dot object name => object.tokens ++ [.dot, name]
  | .bracket object index => object.tokens ++ .leftBracket :: (index.tokens ++ [.rightBracket])
  | .call callee arguments => callee.tokens ++ .leftParen :: (arguments.tokens ++ [.rightParen])
  | .unary operator operand => operator :: operand.tokens
  | .postfixed operand operator => operand.tokens ++ [operator]
  | .binary left operator right => left.tokens ++ operator :: right.tokens
  | .conditional test yes no =>
      test.tokens ++ .question :: (yes.tokens ++ .colon :: no.tokens)
  | .assignment target operator value => target.tokens ++ operator :: value.tokens
  | .sequence left right => left.tokens ++ .comma :: right.tokens

def CallArguments.tokens : CallArguments → List Kind
  | .none => []
  | .last element => element.tokens
  | .more element rest => element.tokens ++ .comma :: rest.tokens

end

mutual

def Expression.children : Expression → Nat → Forest
  | .identifier, start => Forest.empty.token start .ident
  | .number, start => Forest.empty.token start .number
  | .string, start => Forest.empty.token start .string
  | .parenthesized inner, start =>
      ((Forest.empty.token start .leftParen).node inner.kind (inner.children (start + 1))).token
        (start + 1 + inner.tokens.length) .rightParen
  | .dot object name, start =>
      let point := start + object.tokens.length
      ((Forest.empty.node object.kind (object.children start)).token point .dot).node .propertyName
        (Forest.empty.token (point + 1) name)
  | .bracket object index, start =>
      let opening := start + object.tokens.length
      (((Forest.empty.node object.kind (object.children start)).token opening .leftBracket).node
        index.kind (index.children (opening + 1))).token (opening + 1 + index.tokens.length)
          .rightBracket
  | .call callee arguments, start =>
      let opening := start + callee.tokens.length
      (Forest.empty.node callee.kind (callee.children start)).node .arguments
        (((Forest.empty.token opening .leftParen).list
          (arguments.items .empty (opening + 1))).token (opening + 1 + arguments.tokens.length)
            .rightParen)
  | .unary operator operand, start =>
      (Forest.empty.token start operator).node operand.kind (operand.children (start + 1))
  | .postfixed operand operator, start =>
      (Forest.empty.node operand.kind (operand.children start)).token
        (start + operand.tokens.length) operator
  | .binary left operator right, start =>
      let middle := start + left.tokens.length
      ((Forest.empty.node left.kind (left.children start)).token middle operator).node right.kind
        (right.children (middle + 1))
  | .conditional test yes no, start =>
      let question := start + test.tokens.length
      let colon := question + 1 + yes.tokens.length
      ((((Forest.empty.node test.kind (test.children start)).token question .question).node yes.kind
        (yes.children (question + 1))).token colon .colon).node no.kind (no.children (colon + 1))
  | .assignment target operator value, start =>
      let middle := start + target.tokens.length
      ((Forest.empty.node target.kind (target.children start)).token middle operator).node value.kind
        (value.children (middle + 1))
  | .sequence left right, start =>
      let middle := start + left.tokens.length
      ((Forest.empty.node left.kind (left.children start)).token middle .comma).node right.kind
        (right.children (middle + 1))

def CallArguments.items : CallArguments → Forest → Nat → Forest
  | .none, before, _ => before
  | .last element, before, start => before.node element.kind (element.children start)
  | .more element rest, before, start =>
      let comma := start + element.tokens.length
      rest.items ((before.node element.kind (element.children start)).token comma .comma) (comma + 1)

end

/-! ## Canonical expressions -/

def postfixOperators : List Kind := [.plus2, .minus2]

namespace Expression

/-- An operand whose operator, if it has one, binds at least as strongly as `minimum`. -/
def BindsAtLeast (minimum : Nat) (expression : Expression) : Prop :=
  expression.kind ∈ unaryKinds ∨
    ∃ level ∈ operatorLevels, minimum ≤ level.precedence ∧
      ∃ left operator right, expression = binary left operator right ∧ operator ∈ level.operators

/-- An identifier, a member access, or parentheses around one. -/
def isTarget : Expression → Bool
  | identifier | dot _ _ | bracket _ _ => true
  | parenthesized inner => inner.isTarget
  | _ => false

end Expression

mutual

/-- Every operand is one that may stand where it does. -/
def Expression.Canonical : Expression → Prop
  | .identifier | .number | .string => True
  | .parenthesized inner => inner.Canonical
  | .dot object name =>
      object.Canonical ∧ object.kind ∈ leftHandSideKinds ∧
        name ∈ [Kind.ident, .privateName] ++ Production.keywords
  | .bracket object index =>
      object.Canonical ∧ object.kind ∈ leftHandSideKinds ∧ index.Canonical
  | .call callee arguments =>
      callee.Canonical ∧ callee.kind ∈ leftHandSideKinds ∧ arguments.Canonical
  | .unary operator operand =>
      operator ∈ unaryOperators ∧ operand.Canonical ∧ operand.kind ∈ unaryKinds
  | .postfixed operand operator =>
      operator ∈ postfixOperators ∧ operand.Canonical ∧ operand.kind ∈ leftHandSideKinds
  | .binary left operator right =>
      left.Canonical ∧ right.Canonical ∧ ∃ level ∈ operatorLevels, operator ∈ level.operators ∧
        left.BindsAtLeast level.leftMinimum ∧ right.BindsAtLeast level.rightMinimum
  | .conditional test yes no =>
      test.Canonical ∧ test.kind ∈ operandKinds ∧ yes.Canonical ∧
        yes.kind ≠ .sequenceExpression ∧ no.Canonical ∧ no.kind ≠ .sequenceExpression
  | .assignment target operator value =>
      operator ∈ assignmentOperators ∧ target.Canonical ∧ target.isTarget = true ∧
        value.Canonical ∧ value.kind ≠ .sequenceExpression
  | .sequence left right =>
      left.Canonical ∧ right.Canonical ∧ right.kind ≠ .sequenceExpression

/-- No argument is a sequence without parentheses. -/
def CallArguments.Canonical : CallArguments → Prop
  | .none => True
  | .last element => element.Canonical ∧ element.kind ≠ .sequenceExpression
  | .more element rest =>
      element.Canonical ∧ element.kind ≠ .sequenceExpression ∧ rest.Canonical

end

/-! ## First tokens -/

def primaryStarts : List Kind := [.ident, .number, .string, .leftParen]

theorem Expression.exists_first : (expression : Expression) → expression.Canonical →
    ∃ first rest, expression.tokens = first :: rest ∧ first ∈ primaryStarts ++ unaryOperators ∧
      (expression.kind ∈ leftHandSideKinds → first ∈ primaryStarts)
  | .identifier, _ => ⟨_, _, rfl, by decide, fun _ => by decide⟩
  | .number, _ => ⟨_, _, rfl, by decide, fun _ => by decide⟩
  | .string, _ => ⟨_, _, rfl, by decide, fun _ => by decide⟩
  | .parenthesized inner, _ => ⟨_, _, rfl, by decide, fun _ => by decide⟩
  | .dot object name, canonical => by
      obtain ⟨first, rest, same, _, primary⟩ := object.exists_first canonical.1
      have start := primary canonical.2.1
      exact ⟨first, _, by rw [tokens, same]; rfl, List.mem_append_left _ start, fun _ => start⟩
  | .bracket object index, canonical => by
      obtain ⟨first, rest, same, _, primary⟩ := object.exists_first canonical.1
      have start := primary canonical.2.1
      exact ⟨first, _, by rw [tokens, same]; rfl, List.mem_append_left _ start, fun _ => start⟩
  | .call callee arguments, canonical => by
      obtain ⟨first, rest, same, _, primary⟩ := callee.exists_first canonical.1
      have start := primary canonical.2.1
      exact ⟨first, _, by rw [tokens, same]; rfl, List.mem_append_left _ start, fun _ => start⟩
  | .unary operator operand, canonical =>
      ⟨operator, _, rfl, List.mem_append_right _ canonical.1, fun other =>
          absurd (show Kind.unaryExpression ∈ leftHandSideKinds from other) (by decide)⟩
  | .postfixed operand operator, canonical => by
      obtain ⟨first, rest, same, start, _⟩ := operand.exists_first canonical.2.1
      exact ⟨first, _, by rw [tokens, same]; rfl, start, fun other =>
          absurd (show Kind.postfixExpression ∈ leftHandSideKinds from other) (by decide)⟩
  | .binary left operator right, canonical => by
      obtain ⟨first, rest, same, start, _⟩ := left.exists_first canonical.1
      exact ⟨first, _, by rw [tokens, same]; rfl, start, fun other =>
          absurd (show Kind.binaryExpression ∈ leftHandSideKinds from other) (by decide)⟩
  | .conditional test yes no, canonical => by
      obtain ⟨first, rest, same, start, _⟩ := test.exists_first canonical.1
      exact ⟨first, _, by rw [tokens, same]; rfl, start, fun other =>
          absurd (show Kind.conditionalExpression ∈ leftHandSideKinds from other) (by decide)⟩
  | .assignment target operator value, canonical => by
      obtain ⟨first, rest, same, start, _⟩ := target.exists_first canonical.2.1
      exact ⟨first, _, by rw [tokens, same]; rfl, start, fun other =>
          absurd (show Kind.assignmentExpression ∈ leftHandSideKinds from other) (by decide)⟩
  | .sequence left right, canonical => by
      obtain ⟨first, rest, same, start, _⟩ := left.exists_first canonical.1
      exact ⟨first, _, by rw [tokens, same]; rfl, start, fun other =>
          absurd (show Kind.sequenceExpression ∈ leftHandSideKinds from other) (by decide)⟩

/-! ## No arrows -/

mutual

theorem Expression.fatArrow_notMem : (expression : Expression) → expression.Canonical →
    .fatArrow ∉ expression.tokens
  | .identifier, _ | .number, _ | .string, _ => by simp [Expression.tokens]
  | .parenthesized inner, canonical => by
      simp [Expression.tokens, inner.fatArrow_notMem canonical]
  | .dot object name, canonical => by
      have other : ∀ kind ∈ [Kind.ident, .privateName] ++ Production.keywords, .fatArrow ≠ kind := by
        decide
      simp [Expression.tokens, object.fatArrow_notMem canonical.1, other name canonical.2.2]
  | .bracket object index, canonical => by
      simp [Expression.tokens, object.fatArrow_notMem canonical.1, index.fatArrow_notMem canonical.2.2]
  | .call callee arguments, canonical => by
      simp [Expression.tokens, callee.fatArrow_notMem canonical.1,
        arguments.fatArrow_notMem canonical.2.2]
  | .unary operator operand, canonical => by
      have other : ∀ kind ∈ unaryOperators, .fatArrow ≠ kind := by decide
      simp [Expression.tokens, operand.fatArrow_notMem canonical.2.1, other operator canonical.1]
  | .postfixed operand operator, canonical => by
      have other : ∀ kind ∈ postfixOperators, .fatArrow ≠ kind := by decide
      simp [Expression.tokens, operand.fatArrow_notMem canonical.2.1, other operator canonical.1]
  | .binary left operator right, canonical => by
      obtain ⟨leftCanonical, rightCanonical, level, isLevel, member, _⟩ := canonical
      have other : ∀ level ∈ operatorLevels, ∀ kind ∈ level.operators, .fatArrow ≠ kind := by decide
      simp [Expression.tokens, left.fatArrow_notMem leftCanonical,
        right.fatArrow_notMem rightCanonical, other level isLevel operator member]
  | .conditional test yes no, canonical => by
      simp [Expression.tokens, test.fatArrow_notMem canonical.1, yes.fatArrow_notMem canonical.2.2.1,
        no.fatArrow_notMem canonical.2.2.2.2.1]
  | .assignment target operator value, canonical => by
      have other : ∀ kind ∈ assignmentOperators, .fatArrow ≠ kind := by decide
      simp [Expression.tokens, target.fatArrow_notMem canonical.2.1,
        value.fatArrow_notMem canonical.2.2.2.1, other operator canonical.1]
  | .sequence left right, canonical => by
      simp [Expression.tokens, left.fatArrow_notMem canonical.1, right.fatArrow_notMem canonical.2.1]

theorem CallArguments.fatArrow_notMem : (arguments : CallArguments) → arguments.Canonical →
    .fatArrow ∉ arguments.tokens
  | .none, _ => by simp [CallArguments.tokens]
  | .last element, canonical => element.fatArrow_notMem canonical.1
  | .more element rest, canonical => by
      simp [CallArguments.tokens, element.fatArrow_notMem canonical.1,
        rest.fatArrow_notMem canonical.2.2]

end

end ScriptTree
