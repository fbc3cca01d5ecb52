import ScriptTree.Grammar.Rules
import ScriptTree.Proofs.Verdict

/-! # Where productions may stand

A production is checked against the phase of what surrounds it: in a node anything may follow, in a
list elements and separators alternate, and a tree has one root. A node may be put around another one
only while that one stands at the end, completed last. Every nonterminal of the grammar passes. -/
set_option autoImplicit false
set_option maxRecDepth 4000
namespace ScriptTree

/-- What stands at the end of the innermost open node or list. `headed` says that it is the node
completed last. -/
inductive Phase where
  | inNode (headed : Bool)
  /-- In a list, where an element has to come. -/
  | beforeElement
  | afterElement (headed : Bool)
  /-- In a list that is complete. -/
  | listEnd
  /-- Nothing was taken, and a single node has to come. -/
  | beforeRoot
  | afterRoot (headed : Bool)
  deriving DecidableEq, Repr

namespace Phase

def isHeaded : Phase → Bool
  | inNode headed | afterElement headed | afterRoot headed => headed
  | _ => false

def addToken : Phase → Option Phase
  | inNode _ => some (inNode false)
  | afterElement _ => some beforeElement
  | _ => none

def addNode : Phase → Option Phase
  | inNode _ => some (inNode true)
  | beforeElement => some (afterElement true)
  | beforeRoot => some (afterRoot true)
  | _ => none

def addHole : Phase → Option Phase
  | beforeElement => some (afterElement false)
  | _ => none

def addList : Phase → Option Phase
  | inNode _ => some (inNode false)
  | _ => none

def merge : Phase → Phase → Option Phase
  | inNode first, inNode second => some (inNode (first && second))
  | afterElement first, afterElement second => some (afterElement (first && second))
  | afterRoot first, afterRoot second => some (afterRoot (first && second))
  | beforeRoot, beforeRoot => some beforeRoot
  | beforeElement, beforeElement => some beforeElement
  | beforeElement, afterElement _ | afterElement _, beforeElement
  | listEnd, beforeElement | beforeElement, listEnd
  | listEnd, afterElement _ | afterElement _, listEnd | listEnd, listEnd => some listEnd
  | _, _ => none

end Phase

/-- What a nonterminal does to the end of what surrounds it. -/
inductive Role where
  /-- Adds one node. -/
  | node
  /-- Puts nodes around the last one. -/
  | tail
  /-- Adds anything to a node. -/
  | content
  /-- Fills a list. -/
  | items
  deriving DecidableEq, Repr

def Role.apply : Role → Phase → Option Phase
  | .node, phase => phase.addNode
  | .tail, phase => if phase.isHeaded then some phase else none
  | .content, phase => phase.addList
  | .items, phase => if phase = .beforeElement then some .listEnd else none

def Role.phases : Role → List Phase
  | .node => [.inNode false, .beforeElement, .beforeRoot]
  | .tail => [.inNode true, .afterElement true, .afterRoot true]
  | .content => [.inNode false]
  | .items => [.beforeElement]

namespace Nonterminal

def role : Nonterminal → Role
  | sequenceTail | binaryTail _ | memberTail _ => .tail
  | scriptItems | statementsUntilBrace | switchClauses | clauseStatements | classMembers
  | templateParts => .content
  | items _ => .items
  | _ => .node

/-- The kind of a jump is that of a node; the others have nothing to choose. -/
def isProper : Nonterminal → Bool
  | jumpStatement kind => kind = .continueStatement || kind = .breakStatement
  | _ => true

end Nonterminal

namespace Production

def check : Production → Phase → Verdict Phase
  | .empty, phase => .reaches phase
  | .refuse, _ => .never
  | .take, phase => .ofOption phase.addToken
  | .expected _, phase => .reaches phase
  | .expectedConstruct _, phase => .reaches phase
  | .call nonterminal, phase =>
      if nonterminal.isProper then .ofOption (nonterminal.role.apply phase) else .illegal
  | .seq first second, phase => (first.check phase).andThen second.check
  | .branch _ yes no, phase => (yes.check phase).merge Phase.merge (no.check phase)
  | .node kind body, phase =>
      (body.check (.inNode false)).andThen fun _ =>
        if kind.isNode then .ofOption phase.addNode else .illegal
  | .fork head _ kindYes yes kindNo no, phase =>
      (head.check (.inNode false)).andThen fun middle =>
        ((yes.check middle).merge Phase.merge (no.check middle)).andThen fun _ =>
          if kindYes.isNode && kindNo.isNode then .ofOption phase.addNode else .illegal
  | .wrap kind body, phase =>
      if phase.isHeaded then
        (body.check (.inNode false)).andThen fun _ =>
          if kind.isNode then .reaches phase else .illegal
      else .illegal
  | .orElse first second, phase => (first.check phase).merge Phase.merge (second.check phase)
  | .onceOrElse first second, phase => (first.check phase).merge Phase.merge (second.check phase)
  | .inScope _ body, phase => body.check phase
  | .list body, phase => (body.check .beforeElement).andThen fun _ => .ofOption phase.addList
  | .hole, phase => .ofOption phase.addHole
  | .markTarget, phase => .reaches phase

/-! ### What a check that passes tells -/

section Legal

variable {phase : Phase} {head yes no body : Production} {guard : Guard} {kind kindYes kindNo : Kind}

theorem take_legal (legal : take.check phase ≠ .illegal) :
    ∃ after, phase.addToken = some after ∧ take.check phase = .reaches after := by
  obtain ⟨after, added⟩ := Verdict.ofOption_ne_illegal legal
  exact ⟨after, added, congrArg Verdict.ofOption added⟩

theorem hole_legal (legal : hole.check phase ≠ .illegal) :
    ∃ after, phase.addHole = some after ∧ hole.check phase = .reaches after := by
  obtain ⟨after, added⟩ := Verdict.ofOption_ne_illegal legal
  exact ⟨after, added, congrArg Verdict.ofOption added⟩

theorem call_legal {nonterminal : Nonterminal} (legal : (call nonterminal).check phase ≠ .illegal) :
    nonterminal.isProper = true ∧ ∃ after, nonterminal.role.apply phase = some after ∧
      (call nonterminal).check phase = .reaches after := by
  obtain ⟨proper, after, applied⟩ := Verdict.of_ite_ofOption_ne_illegal legal
  exact ⟨proper, after, applied, (if_pos proper).trans (congrArg Verdict.ofOption applied)⟩

theorem node_legal (legal : (node kind body).check phase ≠ .illegal) :
    body.check (.inNode false) ≠ .illegal ∧ ∀ inside, body.check (.inNode false) = .reaches inside →
      kind.isNode = true ∧ ∃ after, phase.addNode = some after ∧
        (node kind body).check phase = .reaches after := by
  obtain ⟨bodyLegal, nodeLegal⟩ := Verdict.andThen_ne_illegal legal
  refine ⟨bodyLegal, fun inside reached => ?_⟩
  obtain ⟨isNode, after, added⟩ := Verdict.of_ite_ofOption_ne_illegal (nodeLegal inside reached)
  refine ⟨isNode, after, added, ?_⟩
  exact (Verdict.andThen_of_reaches reached).trans
    ((if_pos isNode).trans (congrArg Verdict.ofOption added))

theorem list_legal (legal : (list body).check phase ≠ .illegal) :
    body.check .beforeElement ≠ .illegal ∧ ∀ inside, body.check .beforeElement = .reaches inside →
      ∃ after, phase.addList = some after ∧ (list body).check phase = .reaches after := by
  obtain ⟨bodyLegal, listLegal⟩ := Verdict.andThen_ne_illegal legal
  refine ⟨bodyLegal, fun inside reached => ?_⟩
  obtain ⟨after, added⟩ := Verdict.ofOption_ne_illegal (listLegal inside reached)
  exact ⟨after, added,
    (Verdict.andThen_of_reaches reached).trans (congrArg Verdict.ofOption added)⟩

theorem wrap_legal (legal : (wrap kind body).check phase ≠ .illegal) :
    phase.isHeaded = true ∧ body.check (.inNode false) ≠ .illegal ∧
      ∀ inside, body.check (.inNode false) = .reaches inside →
        kind.isNode = true ∧ (wrap kind body).check phase = .reaches phase := by
  obtain ⟨headed, within⟩ := Verdict.of_ite_ne_illegal legal
  obtain ⟨bodyLegal, wrapLegal⟩ := Verdict.andThen_ne_illegal within
  refine ⟨headed, bodyLegal, fun inside reached => ?_⟩
  have isNode := (Verdict.of_ite_ne_illegal (wrapLegal inside reached)).1
  exact ⟨isNode, (if_pos headed).trans ((Verdict.andThen_of_reaches reached).trans (if_pos isNode))⟩

/-- The two ways of a fork are legal behind its head, and merged they are what the node holds. -/
theorem fork_legal (legal : (fork head guard kindYes yes kindNo no).check phase ≠ .illegal) :
    head.check (.inNode false) ≠ .illegal ∧ ∀ middle, head.check (.inNode false) = .reaches middle →
      (yes.check middle).merge Phase.merge (no.check middle) ≠ .illegal ∧
      ∀ inside, (yes.check middle).merge Phase.merge (no.check middle) = .reaches inside →
        kindYes.isNode = true ∧ kindNo.isNode = true ∧ ∃ after, phase.addNode = some after ∧
          (fork head guard kindYes yes kindNo no).check phase = .reaches after := by
  obtain ⟨headLegal, tailLegal⟩ := Verdict.andThen_ne_illegal legal
  refine ⟨headLegal, fun middle reached => ?_⟩
  obtain ⟨mergeLegal, kindLegal⟩ := Verdict.andThen_ne_illegal (tailLegal middle reached)
  refine ⟨mergeLegal, fun inside merged => ?_⟩
  obtain ⟨areNodes, after, added⟩ := Verdict.of_ite_ofOption_ne_illegal (kindLegal inside merged)
  obtain ⟨isYes, isNo⟩ := Bool.and_eq_true_iff.mp areNodes
  refine ⟨isYes, isNo, after, added, ?_⟩
  exact (Verdict.andThen_of_reaches reached).trans ((Verdict.andThen_of_reaches merged).trans
    ((if_pos areNodes).trans (congrArg Verdict.ofOption added)))

end Legal

end Production

/-! ## The grammar passes -/

namespace Nonterminal

/-- The proper nonterminals, one by one: what the grammar passes is checked over this list. -/
def listed : List Nonterminal :=
  [script, scriptItems, statement, labelledOrExpressionStatement, expressionStatement,
    statementsUntilBrace, block, variableStatement, variableDeclaration, ifStatement, doWhileStatement,
    whileStatement, forStatement, forInStatement, forOfStatement, classicForStatement, forBinding,
    jumpStatement .continueStatement, jumpStatement .breakStatement, returnStatement, withStatement,
    switchStatement, switchClauses, caseClause, defaultClause, clauseStatements, labelledStatement,
    throwStatement, tryStatement, catchClause, functionDeclaration, functionExpression,
    formalParameters, parameter, functionBody, arrowFunction, arrow, classDeclaration,
    classExpression, classBody, classMembers, member .classBody, member .objectLiteral,
    bindingIdentifier, bindingTarget, bindingElement, restElement, arrayBindingElement,
    arrayBindingPattern, objectBindingPattern, objectBindingMember, bindingProperty, shorthandBinding,
    expression, sequenceTail, assignment, plainAssignment, yieldExpression, conditional, unary,
    postfixed, leftHandSide, newExpression, memberTail false, memberTail true, primary, parenthesized,
    identifierReference, arrayLiteral, objectLiteral, objectMember, spreadOrAssignment, spreadElement,
    arguments, templateLiteral, templateParts, items .arrayElements, items .objectMembers,
    items .arguments, items .parameters, items .arrayBindingElements, items .objectBindingMembers,
    items .declarators] ++
  [false, true].flatMap (fun isExpression => [false, true].flatMap fun isAsync =>
    [false, true].map fun isGenerator => function ⟨isExpression, isAsync, isGenerator⟩) ++
  (List.finRange 13).map binary ++ (List.finRange 13).map binaryTail

theorem mem_listed {nonterminal : Nonterminal} (proper : nonterminal.isProper = true) :
    nonterminal ∈ listed := by
  cases nonterminal with
  | jumpStatement kind =>
      simp only [isProper, Bool.or_eq_true, decide_eq_true_eq] at proper
      rcases proper with rfl | rfl <;> decide
  | function form =>
      obtain ⟨isExpression, isAsync, isGenerator⟩ := form
      cases isExpression <;> cases isAsync <;> cases isGenerator <;> decide
  | binary minimum => decide +revert
  | binaryTail minimum => decide +revert
  | member owner => cases owner <;> decide
  | memberTail calls => cases calls <;> decide
  | items shape => cases shape <;> decide
  | _ => decide

theorem check_production (nonterminal : Nonterminal) (proper : nonterminal.isProper) :
    ∀ phase ∈ nonterminal.role.phases,
      nonterminal.production.check phase = .ofOption (nonterminal.role.apply phase) := by
  have passes : ∀ nonterminal ∈ listed, ∀ phase ∈ nonterminal.role.phases,
      nonterminal.production.check phase = .ofOption (nonterminal.role.apply phase) := by decide +kernel
  exact passes nonterminal (mem_listed proper)

end Nonterminal

/-- A call is checked in one of the phases of its role; what is known of the last node of an open node
may be forgotten for it. -/
theorem Role.exists_phase {role : Role} {before after : Phase}
    (applied : role.apply before = some after) :
    ∃ phase ∈ role.phases, role.apply phase = some after ∧
      (phase = before ∨ ∃ headed, before = .inNode headed ∧ phase = .inNode false) := by
  cases role with
  | node =>
      cases before <;> cases applied
      · exact ⟨.inNode false, by decide, rfl, .inr ⟨_, rfl, rfl⟩⟩
      · exact ⟨.beforeElement, by decide, rfl, .inl rfl⟩
      · exact ⟨.beforeRoot, by decide, rfl, .inl rfl⟩
  | tail =>
      simp only [apply] at applied
      split at applied
      · rename_i headed
        cases applied
        refine ⟨before, ?_, by simp [apply, headed], .inl rfl⟩
        cases before <;> simp_all [Phase.isHeaded, phases]
      · cases applied
  | content =>
      cases before <;> cases applied
      exact ⟨.inNode false, by decide, rfl, .inr ⟨_, rfl, rfl⟩⟩
  | items =>
      simp only [apply] at applied
      split at applied
      · rename_i same
        cases applied
        exact ⟨.beforeElement, by decide, rfl, .inl same.symm⟩
      · cases applied

/-! ## What is known of the node completed last -/

namespace Phase

theorem isHeaded_of_addToken {before after : Phase} (added : before.addToken = some after) :
    after.isHeaded = false := by
  cases before <;> cases added <;> rfl

theorem isHeaded_of_addHole {before after : Phase} (added : before.addHole = some after) :
    after.isHeaded = false := by
  cases before <;> cases added
  rfl

theorem isHeaded_of_addList {before after : Phase} (added : before.addList = some after) :
    after.isHeaded = false := by
  cases before <;> cases added
  rfl

theorem isHeaded_of_merge {first second merged : Phase} (joined : first.merge second = some merged)
    (headed : merged.isHeaded = true) : first.isHeaded = true ∧ second.isHeaded = true := by
  cases first <;> cases second <;> cases joined <;> simp_all [isHeaded]

end Phase

end ScriptTree
