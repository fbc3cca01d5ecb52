import ScriptTree.Grammar.Rules
import ScriptTree.Proofs.Forest

/-! # Operators and their operands

What an expression node may hold: which expressions may stand beside an operator, before a point, a
bracket or a parenthesis, and after `new`. -/
set_option autoImplicit false
namespace ScriptTree

open Grammar

/-! ## The constituents of a node -/

/-- What stands in one place of a node or a list. -/
inductive Constituent where
  | token (position : Nat) (kind : Kind)
  | hole
  | node (kind : Kind) (children : Forest)
  | list (items : Forest)

namespace Forest

def constituents : Forest → List Constituent
  | empty => []
  | token before position kind => before.constituents ++ [.token position kind]
  | hole before => before.constituents ++ [.hole]
  | node before kind children => before.constituents ++ [.node kind children]
  | list before items => before.constituents ++ [.list items]

@[simp] theorem constituents_append (left right : Forest) :
    (left ++ right).constituents = left.constituents ++ right.constituents := by
  induction right with
  | empty => simp [constituents]
  | token before position kind ih => simp [constituents, ih]
  | hole before ih => simp [constituents, ih]
  | node before kind children ih _ => simp [constituents, ih]
  | list before items ih _ => simp [constituents, ih]

end Forest

/-! ## Kinds of expressions -/

def primaryKinds : List Kind := [
  .thisExpression, .superExpression, .literal, .templateLiteral, .arrayLiteral, .objectLiteral,
  .parenthesizedExpression, .functionExpression, .generatorExpression, .classExpression,
  .identifierReference]

def leftHandSideKinds : List Kind :=
  primaryKinds ++ [.newExpression, .dotMemberExpression, .bracketMemberExpression, .callExpression,
    .taggedTemplate]

def unaryKinds : List Kind :=
  leftHandSideKinds ++ [.unaryExpression, .awaitExpression, .postfixExpression]

def operandKinds : List Kind := unaryKinds ++ [.binaryExpression]

def assignmentKinds : List Kind :=
  operandKinds ++ [.conditionalExpression, .assignmentExpression, .arrowFunction, .yieldExpression]

/-! ## Precedence -/

def Grammar.OperatorLevel.leftMinimum (level : OperatorLevel) : Nat :=
  if level.nestsRight then level.precedence + 1 else level.precedence

/-- A binary expression with an operator of the level. -/
def Grammar.OperatorLevel.Joins (level : OperatorLevel) (kind : Kind) (children : Forest) : Prop :=
  kind = .binaryExpression ∧ ∃ left leftInside position operator right rightInside,
    children.constituents =
      [.node left leftInside, .token position operator, .node right rightInside] ∧
    operator ∈ level.operators

/-- An operand whose operator, if it has one, binds at least as strongly as `minimum`. -/
def BindsAtLeast (minimum : Nat) (kind : Kind) (children : Forest) : Prop :=
  kind ∈ unaryKinds ∨
    ∃ level ∈ operatorLevels, minimum ≤ level.precedence ∧ level.Joins kind children

/-- An operator that comes too late for the right operand of another one binds no stronger than that
one, and weaker where operators of its level nest to the right. -/
theorem leftMinimum_le_of_lt : ∀ inner ∈ operatorLevels, ∀ outer ∈ operatorLevels,
    outer.precedence < inner.rightMinimum → outer.leftMinimum ≤ inner.precedence := by
  decide

/-! ## Canonical nodes -/

/-- From a node to the object of a member access or the tag of a template, and so on. -/
inductive Leftwards : Kind × Forest → Kind × Forest → Prop where
  | here (node : Kind × Forest) : Leftwards node node
  | object {kind object : Kind} {children inside : Forest} {rest : List Constituent}
      {reached : Kind × Forest}
      (access : kind ∈ [.dotMemberExpression, .bracketMemberExpression, .taggedTemplate])
      (holds : children.constituents = .node object inside :: rest)
      (further : Leftwards (object, inside) reached) : Leftwards (kind, children) reached

def IsOptionalLink (node : Kind × Forest) : Prop :=
  node.1 ∈ [.dotMemberExpression, .bracketMemberExpression, .callExpression] ∧
  ∃ object inside position rest,
    node.2.constituents = .node object inside :: .token position .questionDot :: rest

/-- A callee of `new`: along its objects and tags there is no call and no optional link. -/
def IsPlainCallee (kind : Kind) (children : Forest) : Prop :=
  ∀ reached, Leftwards (kind, children) reached →
    reached.1 ≠ .callExpression ∧ ¬IsOptionalLink reached

def IsCanonical (kind : Kind) (children : Forest) : Prop :=
  match kind with
  | .binaryExpression =>
      ∃ level ∈ operatorLevels, ∃ left leftInside position operator right rightInside,
        children.constituents =
          [.node left leftInside, .token position operator, .node right rightInside] ∧
        operator ∈ level.operators ∧ BindsAtLeast level.leftMinimum left leftInside ∧
        BindsAtLeast level.rightMinimum right rightInside
  | .sequenceExpression =>
      ∃ left leftInside position right rightInside,
        children.constituents =
          [.node left leftInside, .token position .comma, .node right rightInside] ∧
        right ≠ .sequenceExpression
  | .conditionalExpression =>
      ∃ test testInside question yes yesInside colon no noInside,
        children.constituents =
          [.node test testInside, .token question .question, .node yes yesInside,
            .token colon .colon, .node no noInside] ∧
        test ∈ operandKinds ∧ yes ≠ .sequenceExpression ∧ no ≠ .sequenceExpression
  | .unaryExpression | .awaitExpression =>
      ∃ position operator argument inside,
        children.constituents = [.token position operator, .node argument inside] ∧
        argument ∈ unaryKinds
  | .postfixExpression =>
      ∃ operand inside position operator,
        children.constituents = [.node operand inside, .token position operator] ∧
        operand ∈ leftHandSideKinds
  | .dotMemberExpression | .bracketMemberExpression | .callExpression | .taggedTemplate =>
      ∃ object inside rest,
        children.constituents = .node object inside :: rest ∧ object ∈ leftHandSideKinds
  | .newExpression =>
      ∃ position callee inside rest,
        children.constituents = .token position .newKw :: .node callee inside :: rest ∧
        IsPlainCallee callee inside
  | _ => True

def operatorKinds : List Kind := [
  .binaryExpression, .sequenceExpression, .conditionalExpression, .unaryExpression, .awaitExpression,
  .postfixExpression, .dotMemberExpression, .bracketMemberExpression, .callExpression,
  .taggedTemplate, .newExpression]

theorem isCanonical_of_notMem {kind : Kind} (other : kind ∉ operatorKinds) (children : Forest) :
    IsCanonical kind children := by
  unfold IsCanonical
  split <;> trivial

/-! ## Canonical forests -/

namespace Forest

def Canonical (forest : Forest) : Prop := ∀ node ∈ forest.nodes, IsCanonical node.1 node.2

variable {before children items left right : Forest} {position : Nat} {kind : Kind}

@[simp] theorem canonical_empty : Canonical empty := allNodes_empty

@[simp] theorem canonical_token : (before.token position kind).Canonical ↔ before.Canonical := Iff.rfl

@[simp] theorem canonical_hole : before.hole.Canonical ↔ before.Canonical := Iff.rfl

@[simp] theorem canonical_node : (before.node kind children).Canonical ↔
    before.Canonical ∧ IsCanonical kind children ∧ children.Canonical :=
  allNodes_node

@[simp] theorem canonical_list : (before.list items).Canonical ↔
    before.Canonical ∧ items.Canonical :=
  allNodes_list

@[simp] theorem canonical_append : (left ++ right).Canonical ↔ left.Canonical ∧ right.Canonical :=
  allNodes_append

/-- A node around the last one asks for its operands alone. -/
theorem Canonical.wrapLast {forest rest : Forest} (canonical : forest.Canonical)
    (inside : rest.Canonical) (around : ∀ children, IsCanonical kind children) :
    (forest.wrapLast kind rest).Canonical :=
  AllNodes.wrapLast canonical inside fun _ _ _ => around _

end Forest

/-! ## Callees of `new` -/

theorem isPlainCallee_of_notMem {kind : Kind}
    (noAccess : kind ∉ [.dotMemberExpression, .bracketMemberExpression, .taggedTemplate,
      .callExpression]) (children : Forest) : IsPlainCallee kind children := by
  simp only [List.mem_cons, List.not_mem_nil, or_false, not_or] at noAccess
  intro reached leftwards
  cases leftwards with
  | here =>
      refine ⟨noAccess.2.2.2, ?_⟩
      rintro ⟨access, _⟩
      simp [noAccess] at access
  | object access => simp [noAccess] at access

/-- An access through anything but `?.` keeps a callee plain. -/
theorem IsPlainCallee.access {kind object : Kind} {children inside : Forest}
    {rest : List Constituent} (callee : IsPlainCallee object inside)
    (access : kind ∈ [.dotMemberExpression, .bracketMemberExpression, .taggedTemplate])
    (holds : children.constituents = .node object inside :: rest)
    (plain : ∀ position, rest.head? ≠ some (.token position .questionDot)) :
    IsPlainCallee kind children := by
  intro reached leftwards
  cases leftwards with
  | here =>
      refine ⟨by rintro rfl; exact absurd access (by decide), ?_⟩
      rintro ⟨_, _, _, position, more, same⟩
      rw [holds] at same
      cases same
      exact plain position rfl
  | object _ also further =>
      rw [holds] at also
      cases also
      exact callee reached further

end ScriptTree
