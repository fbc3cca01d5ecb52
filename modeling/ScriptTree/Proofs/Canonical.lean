import ScriptTree.Proofs.Matching
import ScriptTree.Proofs.Operators

/-! # Operators nest canonically

Whatever matches adds canonical nodes. A loop over operators keeps what its operand is: how strongly it
binds, and that the next token does not bind more strongly than that. -/
set_option autoImplicit false
set_option maxRecDepth 4000
namespace ScriptTree

open Grammar

/-! ## What nonterminals add -/

def NoOperator (terminals : Terminals) (minimum position : Nat) : Prop :=
  ∀ level ∈ operatorLevels, minimum ≤ level.precedence →
    terminals.kindAt position ∉ level.operators

/-- An operand that another operator may follow: the next token does not continue its right operand. -/
def OperandBefore (terminals : Terminals) (minimum position : Nat) (kind : Kind)
    (children : Forest) : Prop :=
  kind ∈ unaryKinds ∨ ∃ level ∈ operatorLevels, minimum ≤ level.precedence ∧
    level.Joins kind children ∧ NoOperator terminals level.rightMinimum position

/-- An expression that calls may follow, or that is a callee of `new`. -/
def IsCallee (calls : Bool) (kind : Kind) (children : Forest) : Prop :=
  kind ∈ leftHandSideKinds ∧ (calls = false → IsPlainCallee kind children)

namespace Place

def Adds (before after : Place) (property : Kind → Forest → Prop) : Prop :=
  before.forest.Canonical → after.forest.Canonical ∧
    ∃ kind children, after.forest = before.forest.node kind children ∧ property kind children

/-- If the last node has one property, a node in its place has another. -/
def Turns (before after : Place) (required ensured : Kind → Forest → Prop) : Prop :=
  ∀ outer kind children, before.forest = .node outer kind children → before.forest.Canonical →
    required kind children → after.forest.Canonical ∧
      ∃ around inside, after.forest = outer.node around inside ∧ ensured around inside

variable {before middle after : Place} {property required ensured : Kind → Forest → Prop}

theorem Adds.turns (adds : before.Adds middle required) (turns : middle.Turns after required ensured) :
    before.Adds after ensured := by
  intro canonical
  obtain ⟨middleCanonical, kind, children, forest, holds⟩ := adds canonical
  exact turns _ kind children forest middleCanonical holds

theorem Adds.weaken (adds : before.Adds after property)
    (weaker : ∀ kind children, property kind children → ensured kind children) :
    before.Adds after ensured := by
  intro canonical
  obtain ⟨afterCanonical, kind, children, forest, holds⟩ := adds canonical
  exact ⟨afterCanonical, kind, children, forest, weaker kind children holds⟩

theorem Turns.trans {between : Kind → Forest → Prop} (earlier : before.Turns middle required between)
    (later : middle.Turns after between ensured) : before.Turns after required ensured := by
  intro outer kind children forest canonical holds
  obtain ⟨middleCanonical, around, inside, middleForest, middleHolds⟩ :=
    earlier outer kind children forest canonical holds
  exact later outer around inside middleForest middleCanonical middleHolds

theorem Turns.refl (weaker : ∀ kind children, required kind children → ensured kind children) :
    before.Turns before required ensured := by
  intro outer kind children forest canonical holds
  exact ⟨canonical, kind, children, forest, weaker kind children holds⟩

theorem turns_wrapNode {inner : Place} {around : Kind} {first : Nat}
    (insideCanonical : inner.forest.Canonical)
    (holds : ∀ kind children, required kind children →
      IsCanonical around (Forest.empty.node kind children ++ inner.forest) ∧
        ensured around (Forest.empty.node kind children ++ inner.forest)) :
    before.Turns (before.wrapNode around first inner) required ensured := by
  intro outer kind children forest canonical required
  obtain ⟨isCanonical, ensured⟩ := holds kind children required
  rw [forest, Forest.canonical_node] at canonical
  refine ⟨?_, around, _, by rw [wrapNode, forest]; rfl, ensured⟩
  rw [wrapNode, forest, Forest.wrapLast_node]
  simp [canonical.1, canonical.2, isCanonical, insideCanonical]

end Place

namespace Nonterminal

def results : Nonterminal → Option (List Kind)
  | expression => some (.sequenceExpression :: assignmentKinds)
  | assignment | plainAssignment => some assignmentKinds
  | yieldExpression => some [.yieldExpression]
  | arrow | arrowFunction => some [.arrowFunction]
  | conditional => some (.conditionalExpression :: operandKinds)
  | unary | postfixed => some unaryKinds
  | leftHandSide => some leftHandSideKinds
  | newExpression => some [.newExpression]
  | primary => some primaryKinds
  | parenthesized => some [.parenthesizedExpression]
  | identifierReference => some [.identifierReference]
  | arrayLiteral => some [.arrayLiteral]
  | objectLiteral => some [.objectLiteral]
  | templateLiteral => some [.templateLiteral]
  | function form => some [form.kind]
  | functionExpression => some [.functionExpression, .generatorExpression]
  | classExpression => some [.classExpression]
  | arguments => some [.arguments]
  | _ => none

def Nests (terminals : Terminals) (nonterminal : Nonterminal) (_ : Scope) (before after : Place) :
    Prop :=
  match nonterminal with
  | sequenceTail =>
      before.Turns after (fun kind _ => kind ∈ .sequenceExpression :: assignmentKinds) fun kind _ =>
        kind ∈ .sequenceExpression :: assignmentKinds
  | binary minimum =>
      before.Adds after fun kind children =>
        BindsAtLeast minimum kind children ∧ NoOperator terminals minimum after.position
  | binaryTail minimum =>
      before.Turns after (OperandBefore terminals minimum before.position) fun kind children =>
        BindsAtLeast minimum kind children ∧ NoOperator terminals minimum after.position
  | memberTail calls => before.Turns after (IsCallee calls) (IsCallee calls)
  | other =>
      match other.results with
      | some kinds => before.Adds after fun kind _ => kind ∈ kinds
      | none => other.isProper = true → before.forest.Canonical → after.forest.Canonical

end Nonterminal

/-! ## Productions that ask for no operands -/

namespace Production

/-- A production has no node that asks for its operands, and calls nothing that works on the last
node. -/
def isPlain : Production → Bool
  | .empty | .refuse | .take | .expected _ | .expectedConstruct _ | .hole | .markTarget => true
  | .call nonterminal => nonterminal.isProper && nonterminal.role != .tail
  | .seq first second | .branch _ first second | .orElse first second | .onceOrElse first second =>
      first.isPlain && second.isPlain
  | .node kind body | .wrap kind body => !operatorKinds.contains kind && body.isPlain
  | .fork head _ kindYes yes kindNo no =>
      !operatorKinds.contains kindYes && !operatorKinds.contains kindNo && head.isPlain &&
        yes.isPlain && no.isPlain
  | .inScope _ body | .list body => body.isPlain

def results : Production → Option (List Kind)
  | .refuse => some []
  | .call nonterminal => nonterminal.results
  | .seq _ second => if second.results = some [] then some [] else none
  | .branch _ first second | .orElse first second | .onceOrElse first second =>
      match first.results, second.results with
      | some kinds, some others => some (kinds ++ others)
      | _, _ => none
  | .node kind _ => some [kind]
  | .inScope _ body => body.results
  | _ => none

end Production

section Plain

variable {terminals : Terminals} {scope : Scope} {before after : Place}

theorem Nonterminal.Nests.canonical {nonterminal : Nonterminal}
    (nests : nonterminal.Nests terminals scope before after) (proper : nonterminal.isProper = true)
    (noTail : nonterminal.role ≠ .tail) (canonical : before.forest.Canonical) :
    after.forest.Canonical := by
  unfold Nests at nests
  split at nests
  · exact absurd rfl noTail
  · exact (nests canonical).1
  · exact absurd rfl noTail
  · exact absurd rfl noTail
  · split at nests
    · exact (nests canonical).1
    · exact nests proper canonical

theorem Nonterminal.Nests.adds {nonterminal : Nonterminal} {kinds : List Kind}
    (nests : nonterminal.Nests terminals scope before after)
    (results : nonterminal.results = some kinds) : before.Adds after fun kind _ => kind ∈ kinds := by
  unfold Nests at nests
  split at nests
  · cases results
  · cases results
  · cases results
  · cases results
  · rw [results] at nests
    exact nests

theorem Production.canonical_of_derives (production : Production) :
    ∀ (scope : Scope) (before after : Place), production.isPlain = true →
      production.Derives terminals (Nonterminal.Nests terminals) scope before after →
      before.forest.Canonical → after.forest.Canonical := by
  induction production with
  | empty | expected kind | expectedConstruct name | take | hole | markTarget =>
      intro scope before after _ derives canonical
      cases derives
      exact canonical
  | refuse =>
      intro scope before after _ derives
      exact derives.elim
  | call nonterminal =>
      intro scope before after plain derives canonical
      simp only [isPlain, Bool.and_eq_true, bne_iff_ne] at plain
      exact derives.canonical plain.1 plain.2 canonical
  | seq first second firstIh secondIh =>
      intro scope before after plain derives canonical
      simp only [isPlain, Bool.and_eq_true] at plain
      obtain ⟨middle, firstDerives, secondDerives⟩ := derives
      exact secondIh _ _ _ plain.2 secondDerives (firstIh _ _ _ plain.1 firstDerives canonical)
  | branch guard yes no yesIh noIh =>
      intro scope before after plain derives canonical
      simp only [isPlain, Bool.and_eq_true] at plain
      obtain ⟨targets, ⟨_, yesDerives⟩ | ⟨_, noDerives⟩⟩ := derives
      · exact yesIh _ _ _ plain.1 yesDerives canonical
      · exact noIh _ _ _ plain.2 noDerives canonical
  | node kind body ih =>
      intro scope before after plain derives canonical
      simp only [isPlain, Bool.and_eq_true, Bool.not_eq_true', List.contains_eq_mem,
        decide_eq_false_iff_not] at plain
      obtain ⟨inner, bodyDerives, rfl⟩ := derives
      have inside := ih _ before.inside inner plain.2 bodyDerives Forest.canonical_empty
      simp [Place.addNode, canonical, inside, isCanonical_of_notMem plain.1]
  | fork head guard kindYes yes kindNo no headIh yesIh noIh =>
      intro scope before after plain derives canonical
      simp only [isPlain, Bool.and_eq_true, Bool.not_eq_true', List.contains_eq_mem,
        decide_eq_false_iff_not] at plain
      obtain ⟨⟨⟨⟨otherYes, otherNo⟩, headPlain⟩, yesPlain⟩, noPlain⟩ := plain
      obtain ⟨middle, inner, targets, headDerives, tail⟩ := derives
      have between := headIh _ before.inside middle headPlain headDerives Forest.canonical_empty
      rcases tail with ⟨_, yesDerives, rfl⟩ | ⟨_, noDerives, rfl⟩
      · have inside := yesIh _ _ _ yesPlain yesDerives between
        simp [Place.addNode, canonical, inside, isCanonical_of_notMem otherYes]
      · have inside := noIh _ _ _ noPlain noDerives between
        simp [Place.addNode, canonical, inside, isCanonical_of_notMem otherNo]
  | wrap kind body ih =>
      intro scope before after plain derives canonical
      simp only [isPlain, Bool.and_eq_true, Bool.not_eq_true', List.contains_eq_mem,
        decide_eq_false_iff_not] at plain
      obtain ⟨wrapped, first, inner, _, bodyDerives, rfl⟩ := derives
      exact canonical.wrapLast (ih _ before.inside inner plain.2 bodyDerives Forest.canonical_empty)
        (isCanonical_of_notMem plain.1)
  | orElse first second firstIh secondIh | onceOrElse first second firstIh secondIh =>
      intro scope before after plain derives canonical
      simp only [isPlain, Bool.and_eq_true] at plain
      rcases derives with firstDerives | secondDerives
      · exact firstIh _ _ _ plain.1 firstDerives canonical
      · exact secondIh _ _ _ plain.2 secondDerives canonical
  | inScope change body ih =>
      intro scope before after plain derives canonical
      exact ih _ _ _ plain derives canonical
  | list body ih =>
      intro scope before after plain derives canonical
      obtain ⟨inner, bodyDerives, rfl⟩ := derives
      have inside := ih _ before.inside inner plain bodyDerives Forest.canonical_empty
      simp [Place.addList, canonical, inside]

theorem Production.adds_of_derives (production : Production) :
    ∀ (kinds : List Kind) (scope : Scope) (before after : Place), production.isPlain = true →
      production.results = some kinds →
      production.Derives terminals (Nonterminal.Nests terminals) scope before after →
      before.Adds after fun kind _ => kind ∈ kinds := by
  induction production with
  | empty | expected kind | expectedConstruct name | take | hole | markTarget | wrap | list | fork =>
      intro kinds scope before after _ results
      cases results
  | refuse =>
      intro kinds scope before after _ _ derives
      exact derives.elim
  | call nonterminal =>
      intro kinds scope before after _ results derives
      exact derives.adds results
  | seq first second _ secondIh =>
      intro kinds scope before after plain results derives canonical
      simp only [isPlain, Bool.and_eq_true] at plain
      obtain ⟨middle, firstDerives, secondDerives⟩ := derives
      simp only [Production.results] at results
      split at results
      · rename_i never
        -- A production that ends in a refusal adds no node, since it never matches.
        have between := first.canonical_of_derives _ _ _ plain.1 firstDerives canonical
        obtain ⟨_, _, _, _, impossible⟩ := secondIh [] _ _ _ plain.2 never secondDerives between
        cases impossible
      · cases results
  | branch guard yes no yesIh noIh =>
      intro kinds scope before after plain results derives
      simp only [isPlain, Bool.and_eq_true] at plain
      simp only [Production.results] at results
      split at results
      · rename_i some others yesResults noResults
        cases results
        obtain ⟨targets, ⟨_, yesDerives⟩ | ⟨_, noDerives⟩⟩ := derives
        · exact (yesIh _ _ _ _ plain.1 yesResults yesDerives).weaken fun kind _ =>
            List.mem_append_left others
        · exact (noIh _ _ _ _ plain.2 noResults noDerives).weaken fun kind _ =>
            List.mem_append_right some
      · cases results
  | orElse first second firstIh secondIh | onceOrElse first second firstIh secondIh =>
      intro kinds scope before after plain results derives
      simp only [isPlain, Bool.and_eq_true] at plain
      simp only [Production.results] at results
      split at results
      · rename_i some others firstResults secondResults
        cases results
        rcases derives with firstDerives | secondDerives
        · exact (firstIh _ _ _ _ plain.1 firstResults firstDerives).weaken fun kind _ =>
            List.mem_append_left others
        · exact (secondIh _ _ _ _ plain.2 secondResults secondDerives).weaken fun kind _ =>
            List.mem_append_right some
      · cases results
  | node kind body =>
      intro kinds scope before after plain results derives canonical
      have afterCanonical := canonical_of_derives _ _ _ _ plain derives canonical
      cases results
      obtain ⟨inner, _, rfl⟩ := derives
      exact ⟨afterCanonical, kind, inner.forest, rfl, List.mem_singleton.mpr rfl⟩
  | inScope change body ih =>
      intro kinds scope before after plain results derives
      exact ih _ _ _ _ plain results derives

end Plain

/-! ## The productions of expressions -/

section Expressions

variable {terminals : Terminals} {call : Nonterminal → Scope → Place → Place → Prop} {scope : Scope}
  {before after : Place}

theorem BindsAtLeast.operand {minimum : Nat} {kind : Kind} {children : Forest}
    (binds : BindsAtLeast minimum kind children) : kind ∈ operandKinds := by
  rcases binds with unary | ⟨_, _, _, rfl, _⟩
  · exact List.mem_append_left _ unary
  · decide

/-- What an operator finds before it binds strongly enough for its left operand. -/
theorem OperandBefore.left {minimum position : Nat} {kind : Kind} {children : Forest}
    (operand : OperandBefore terminals minimum position kind children) {level : OperatorLevel}
    (member : level ∈ operatorLevels) (next : terminals.kindAt position ∈ level.operators) :
    BindsAtLeast level.leftMinimum kind children := by
  rcases operand with unary | ⟨inner, innerMember, _, joins, ended⟩
  · exact .inl unary
  · refine .inr ⟨inner, innerMember, ?_, joins⟩
    apply leftMinimum_le_of_lt inner innerMember level member
    exact Fin.not_le.mp fun late => ended level member late next

theorem nests_sequenceTail
    (derives : sequenceTail.Derives terminals (Nonterminal.Nests terminals) scope before after) :
    Nonterminal.Nests terminals .sequenceTail scope before after := by
  obtain ⟨_, ⟨admitted, middle, wraps, further⟩ | ⟨_, rfl⟩⟩ := derives
  · obtain ⟨wrapped, first, inner, _, ⟨_, rfl, assigns⟩, rfl⟩ := wraps
    obtain ⟨canonical, right, inside, forest, kinds⟩ :=
      Nonterminal.Nests.adds (show Nonterminal.Nests terminals .assignment scope _ inner from assigns)
        rfl Forest.canonical_empty
    have comma : terminals.kindAt before.position = .comma := by simpa [Guard.admits] using admitted
    refine Place.Turns.trans (Place.turns_wrapNode canonical fun kind children _ => ⟨?_, by simp⟩)
      further
    refine ⟨kind, children, before.position, right, inside, ?_, ?_⟩
    · simp [forest, Place.take, Place.inside, Forest.constituents, comma]
    · rintro rfl
      exact absurd kinds (by decide)
  · exact .refl fun _ _ => id

theorem nests_expression
    (derives : expression.Derives terminals (Nonterminal.Nests terminals) scope before after) :
    Nonterminal.Nests terminals .expression scope before after := by
  obtain ⟨middle, assigns, further⟩ := derives
  exact ((Nonterminal.Nests.adds assigns rfl).weaken fun _ _ => List.mem_cons_of_mem _).turns further

theorem nests_conditional
    (derives : conditional.Derives terminals (Nonterminal.Nests terminals) scope before after) :
    Nonterminal.Nests terminals .conditional scope before after := by
  obtain ⟨middle, test, _, ⟨admitted, wraps⟩ | ⟨_, rfl⟩⟩ := derives
  · obtain ⟨wrapped, first, inner, _, ⟨_, rfl, between, yes, _, colon, no⟩, rfl⟩ := wraps
    obtain ⟨colonKind, rfl⟩ := Production.derives_expect colon
    obtain ⟨yesCanonical, yesKind, yesInside, yesForest, yesKinds⟩ :=
      Nonterminal.Nests.adds yes rfl Forest.canonical_empty
    obtain ⟨noCanonical, noKind, noInside, noForest, noKinds⟩ :=
      Nonterminal.Nests.adds no rfl yesCanonical
    have question : terminals.kindAt middle.position = .question := by
      simpa [Guard.admits] using admitted
    have operand := Place.Adds.weaken test fun kind children holds => holds.1.operand
    refine operand.turns (Place.turns_wrapNode noCanonical fun kind children member => ⟨?_, by simp⟩)
    refine ⟨kind, children, middle.position, yesKind, yesInside, between.position, noKind, noInside,
      ?_, member, ?_, ?_⟩
    · simp [noForest, yesForest, Place.take, Place.inside, Forest.constituents, question, colonKind]
    · rintro rfl
      exact absurd yesKinds (by decide)
    · rintro rfl
      exact absurd noKinds (by decide)
  · exact Place.Adds.weaken test fun _ _ holds => List.mem_cons_of_mem _ holds.1.operand

theorem nests_plainAssignment
    (derives : plainAssignment.Derives terminals (Nonterminal.Nests terminals) scope before after) :
    Nonterminal.Nests terminals .plainAssignment scope before after := by
  obtain ⟨middle, test, _, ⟨_, wraps⟩ | ⟨_, rfl⟩⟩ := derives
  · obtain ⟨wrapped, first, inner, _, ⟨_, rfl, assigns⟩, rfl⟩ := wraps
    obtain ⟨canonical, _⟩ :=
      Nonterminal.Nests.adds (show Nonterminal.Nests terminals .assignment scope _ inner from assigns)
        rfl Forest.canonical_empty
    exact (Nonterminal.Nests.adds test rfl).turns
      (Place.turns_wrapNode canonical fun _ _ _ => ⟨trivial, by decide⟩)
  · refine (Nonterminal.Nests.adds test rfl).weaken fun kind _ member => ?_
    rcases List.mem_cons.mp member with rfl | operand
    · decide
    · exact List.mem_append_left _ operand

/-! ## Operators -/

theorem nests_binary {minimum : Precedence}
    (derives : (binary minimum).Derives terminals (Nonterminal.Nests terminals) scope before after) :
    Nonterminal.Nests terminals (.binary minimum) scope before after := by
  obtain ⟨middle, operand, further⟩ := derives
  exact ((Nonterminal.Nests.adds operand rfl).weaken fun _ _ => .inl).turns further

/-- One turn of the loop puts an operator and its right operand behind the left one; the loop goes on
as long as the operator at hand binds strongly enough. -/
theorem nests_binaryTail {minimum : Precedence}
    (derives :
      (binaryTail minimum).Derives terminals (Nonterminal.Nests terminals) scope before after) :
    Nonterminal.Nests terminals (.binaryTail minimum) scope before after := by
  rcases Production.derives_select derives with ⟨entry, listed, _, admitted, body⟩ | ⟨rejected, rfl⟩
  · obtain ⟨level, filtered, rfl⟩ := List.mem_map.mp listed
    obtain ⟨member, strong⟩ := List.mem_filter.mp filtered
    obtain ⟨_, wraps, further⟩ := body
    obtain ⟨wrapped, first, inner, _, ⟨_, rfl, right⟩, rfl⟩ := wraps
    obtain ⟨canonical, rightKind, rightInside, forest, binds, ended⟩ :=
      (show Place.Adds _ _ _ from right) Forest.canonical_empty
    have next : terminals.kindAt before.position ∈ level.operators := by
      simpa [Guard.admits] using admitted
    have joins : ∀ kind children, (Forest.empty.node kind children ++ inner.forest).constituents =
        [.node kind children, .token before.position (terminals.kindAt before.position),
          .node rightKind rightInside] := by
      intro kind children
      simp [forest, Place.take, Place.inside, Forest.constituents]
    refine Place.Turns.trans (Place.turns_wrapNode canonical fun kind children operand => ⟨?_, ?_⟩)
      further
    · exact ⟨level, member, kind, children, _, _, rightKind, rightInside, joins kind children, next,
        operand.left member next, binds⟩
    · exact .inr ⟨level, member, of_decide_eq_true strong,
        ⟨rfl, kind, children, _, _, rightKind, rightInside, joins kind children, next⟩, ended⟩
  · refine .refl fun kind children operand => ⟨?_, ?_⟩
    · rcases operand with unary | ⟨level, member, strong, joins, _⟩
      · exact .inl unary
      · exact .inr ⟨level, member, strong, joins⟩
    · intro level member strong next
      obtain ⟨_, rejects⟩ := rejected _ (List.mem_map_of_mem (List.mem_filter.mpr
        ⟨member, decide_eq_true strong⟩))
      have admits : level.operators.contains (terminals.kindAt (after.position + 0)) = true := by
        simpa using next
      rw [Guard.admits, admits] at rejects
      cases rejects

theorem nests_unary
    (derives : unary.Derives terminals (Nonterminal.Nests terminals) scope before after) :
    Nonterminal.Nests terminals .unary scope before after := by
  have around : ∀ {kind : Kind} {inner : Place}, kind = .unaryExpression ∨ kind = .awaitExpression →
      Production.Derives terminals (Nonterminal.Nests terminals) (.seq .take (.call .unary)) scope
        before.inside inner →
      before.Adds (before.addNode kind inner) fun kind _ => kind ∈ unaryKinds := by
    intro kind inner member derives canonical
    obtain ⟨_, rfl, operand⟩ := derives
    obtain ⟨innerCanonical, argument, inside, forest, kinds⟩ :=
      Nonterminal.Nests.adds (show Nonterminal.Nests terminals .unary scope _ inner from operand) rfl
        Forest.canonical_empty
    have constituents : inner.forest.constituents =
        [.token before.position (terminals.kindAt before.position), .node argument inside] := by
      simp [forest, Place.take, Place.inside, Forest.constituents]
    have isCanonical : IsCanonical kind inner.forest := by
      rcases member with rfl | rfl <;>
        exact ⟨_, _, argument, inside, constituents, kinds⟩
    refine ⟨by simp [Place.addNode, canonical, innerCanonical, isCanonical], kind, _, rfl, ?_⟩
    rcases member with rfl | rfl <;> decide
  obtain ⟨_, ⟨_, inner, body, rfl⟩ | ⟨_, _, ⟨_, inner, body, rfl⟩ | ⟨_, operand⟩⟩⟩ := derives
  · exact around (.inl rfl) body
  · exact around (.inr rfl) body
  · exact operand

theorem nests_postfixed
    (derives : postfixed.Derives terminals (Nonterminal.Nests terminals) scope before after) :
    Nonterminal.Nests terminals .postfixed scope before after := by
  obtain ⟨middle, operand, _, ⟨_, wraps⟩ | ⟨_, rfl⟩⟩ := derives
  · obtain ⟨wrapped, first, inner, _, rfl, rfl⟩ := wraps
    refine (Nonterminal.Nests.adds operand rfl).turns
      (Place.turns_wrapNode (by simp [Place.take, Place.inside])
        fun kind children member => ⟨?_, by decide⟩)
    exact ⟨kind, children, middle.position, terminals.kindAt middle.position,
      by simp [Place.take, Place.inside, Forest.constituents], member⟩
  · exact (Nonterminal.Nests.adds operand rfl).weaken fun _ _ => List.mem_append_left _

/-! ## Member accesses and `new` -/

theorem adds_newOrPrimary
    (derives : newOrPrimary.Derives terminals (Nonterminal.Nests terminals) scope before after) :
    before.Adds after fun kind _ => kind ∈ .newExpression :: primaryKinds := by
  obtain ⟨_, ⟨_, news⟩ | ⟨_, primary⟩⟩ := derives
  · exact (Nonterminal.Nests.adds news rfl).weaken fun _ _ member => by
      rw [List.mem_singleton.mp member]
      exact List.mem_cons_self
  · exact (Nonterminal.Nests.adds primary rfl).weaken fun _ _ => List.mem_cons_of_mem _

theorem mem_leftHandSideKinds {kind : Kind} (member : kind ∈ .newExpression :: primaryKinds) :
    kind ∈ leftHandSideKinds := by
  rcases List.mem_cons.mp member with rfl | primary
  · decide
  · exact List.mem_append_left _ primary

theorem nests_leftHandSide
    (derives : leftHandSide.Derives terminals (Nonterminal.Nests terminals) scope before after) :
    Nonterminal.Nests terminals .leftHandSide scope before after := by
  obtain ⟨middle, base, further⟩ := derives
  have based : before.Adds middle (IsCallee true) :=
    (adds_newOrPrimary base).weaken fun _ _ member => ⟨mem_leftHandSideKinds member, by simp⟩
  exact (based.turns further).weaken fun _ _ callee => callee.1

/-- A link around an expression; without calls it is an access that is not optional. -/
theorem turns_link {calls : Bool} {around : Kind} {body : Production}
    (derives : (Production.wrap around body).Derives terminals (Nonterminal.Nests terminals) scope
      before after)
    (isPlain : body.isPlain = true)
    (access : around = .callExpression ∧ calls = true ∨
      around ∈ [.dotMemberExpression, .bracketMemberExpression, .taggedTemplate])
    (plain : calls = false → ∀ inner,
      body.Derives terminals (Nonterminal.Nests terminals) scope before.inside inner →
        ∀ position, inner.forest.constituents.head? ≠ some (.token position .questionDot)) :
    before.Turns after (IsCallee calls) (IsCallee calls) := by
  obtain ⟨wrapped, first, inner, _, bodyDerives, rfl⟩ := derives
  have canonical := body.canonical_of_derives _ _ _ isPlain bodyDerives Forest.canonical_empty
  refine Place.turns_wrapNode canonical fun kind children callee => ?_
  have holds : (Forest.empty.node kind children ++ inner.forest).constituents =
      .node kind children :: inner.forest.constituents := by
    simp [Forest.constituents]
  have operand : ∃ object inside rest,
      (Forest.empty.node kind children ++ inner.forest).constituents = .node object inside :: rest ∧
        object ∈ leftHandSideKinds :=
    ⟨kind, children, inner.forest.constituents, holds, callee.1⟩
  rcases access with ⟨rfl, rfl⟩ | access
  · exact ⟨operand, by decide, by simp⟩
  · refine ⟨?_, ?_, fun noCalls =>
      (callee.2 noCalls).access access holds (plain noCalls inner bodyDerives)⟩
    · simp only [List.mem_cons, List.not_mem_nil, or_false] at access
      rcases access with rfl | rfl | rfl <;> exact operand
    · simp only [List.mem_cons, List.not_mem_nil, or_false] at access
      rcases access with rfl | rfl | rfl <;> decide

theorem turns_optionalLink
    (derives : optionalLink.Derives terminals (Nonterminal.Nests terminals) scope before after) :
    before.Turns after (IsCallee true) (IsCallee true) := by
  obtain ⟨_, ⟨_, link⟩ | ⟨_, _, ⟨_, link⟩ | ⟨_, link⟩⟩⟩ := derives
  · exact turns_link link (by decide) (.inr (by decide)) (by simp)
  · exact turns_link link (by decide) (.inl ⟨rfl, rfl⟩) (by simp)
  · exact turns_link link (by decide) (.inr (by decide)) (by simp)

theorem nests_memberTail {calls : Bool}
    (derives : (memberTail calls).Derives terminals (Nonterminal.Nests terminals) scope before after) :
    Nonterminal.Nests terminals (.memberTail calls) scope before after := by
  rcases Production.derives_select derives with ⟨entry, listed, _, admitted, body⟩ | ⟨_, rfl⟩
  · rcases List.mem_append.mp listed with always | optional
    · simp only [List.mem_cons, List.not_mem_nil, or_false] at always
      rcases always with rfl | rfl | rfl
      · obtain ⟨_, link, further⟩ := body
        have dot : terminals.kindAt before.position = .dot := by simpa [Guard.admits] using admitted
        refine (turns_link link (by decide) (.inr (by decide)) ?_).trans further
        rintro _ _ ⟨_, rfl, _, _, rfl⟩ position
        simp [Place.addNode, Place.take, Place.inside, Forest.constituents, dot]
      · obtain ⟨_, link, further⟩ := body
        have bracket : terminals.kindAt before.position = .leftBracket := by
          simpa [Guard.admits] using admitted
        refine (turns_link link (by decide) (.inr (by decide)) ?_).trans further
        rintro _ _ ⟨_, rfl, _, expression, close⟩ position
        obtain ⟨_, _, _, forest, _⟩ := Nonterminal.Nests.adds expression rfl Forest.canonical_empty
        obtain ⟨_, rfl⟩ := Production.derives_expect close
        simp [forest, Place.take, Place.inside, Forest.constituents, bracket]
      · obtain ⟨_, link, further⟩ := body
        refine (turns_link link (by decide) (.inr (by decide)) ?_).trans further
        intro _ inner template position
        obtain ⟨_, _, _, forest, _⟩ := Nonterminal.Nests.adds template rfl Forest.canonical_empty
        simp [forest, Place.inside, Forest.constituents]
    · cases calls with
      | false => simp at optional
      | true =>
          simp only [if_true, List.mem_cons, List.not_mem_nil, or_false] at optional
          rcases optional with rfl | rfl
          · obtain ⟨_, link, further⟩ := body
            exact (turns_link link (by decide) (.inl ⟨rfl, rfl⟩) (by simp)).trans further
          · obtain ⟨_, link, further⟩ := body
            exact (turns_optionalLink link).trans further
  · exact .refl fun _ _ => id

theorem nests_newExpression
    (derives : newExpression.Derives terminals (Nonterminal.Nests terminals) scope before after) :
    Nonterminal.Nests terminals .newExpression scope before after := by
  obtain ⟨inner, ⟨_, new, middle, base, between, access, arguments⟩, rfl⟩ := derives
  obtain ⟨newKind, rfl⟩ := Production.derives_expect new
  have plain : ∀ kind ∈ Kind.newExpression :: primaryKinds,
      kind ∉
        [Kind.dotMemberExpression, .bracketMemberExpression, .taggedTemplate, .callExpression] := by
    decide
  have based : (before.inside.take terminals).Adds middle (IsCallee false) :=
    (adds_newOrPrimary base).weaken fun kind children member =>
      ⟨mem_leftHandSideKinds member, fun _ => isPlainCallee_of_notMem (plain kind member) children⟩
  obtain ⟨canonical, callee, inside, forest, _, isPlain⟩ := based.turns access Forest.canonical_empty
  have holds : between.forest.constituents =
      [.token before.position .newKw, .node callee inside] := by
    simp [forest, Place.take, Place.inside, Forest.constituents, ← newKind]
  have given : inner.forest.Canonical ∧
      ∃ rest, inner.forest.constituents = between.forest.constituents ++ rest := by
    obtain ⟨_, ⟨_, given⟩ | ⟨_, rfl⟩⟩ := arguments
    · obtain ⟨innerCanonical, _, _, innerForest, _⟩ :=
        Nonterminal.Nests.adds given rfl canonical
      exact ⟨innerCanonical, _, by rw [innerForest]; rfl⟩
    · exact ⟨canonical, [], by simp⟩
  obtain ⟨innerCanonical, rest, constituents⟩ := given
  rw [holds] at constituents
  intro outer
  refine ⟨?_, .newExpression, inner.forest, rfl, List.mem_singleton.mpr rfl⟩
  have isCanonical : IsCanonical .newExpression inner.forest :=
    ⟨before.position, callee, inside, rest, constituents, isPlain rfl⟩
  simp [Place.addNode, outer, isCanonical, innerCanonical]

end Expressions

/-! ## Every match -/

def Nonterminal.isPlainResult (nonterminal : Nonterminal) : Bool :=
  nonterminal.production.isPlain &&
    match nonterminal.results with
    | some kinds => nonterminal.production.results.any fun found => found.all kinds.contains
    | none => true

/-- A nonterminal of which no more is said than which kinds of node it adds. -/
def Nonterminal.isOrdinary : Nonterminal → Bool
  | sequenceTail | binary _ | binaryTail _ | memberTail _ => false
  | _ => true

theorem Nonterminal.nests_of_isPlainResult {terminals : Terminals} {scope : Scope}
    {before after : Place} {nonterminal : Nonterminal} (ordinary : nonterminal.isOrdinary = true)
    (known : (nonterminal.results.isNone || nonterminal.isProper) = true)
    (passes : nonterminal.isProper = true → nonterminal.isPlainResult = true)
    (derives : nonterminal.production.Derives terminals (Nests terminals) scope before after) :
    nonterminal.Nests terminals scope before after := by
  unfold Nests
  split
  · cases ordinary
  · cases ordinary
  · cases ordinary
  · cases ordinary
  · split
    · rename_i kinds same
      have proper : nonterminal.isProper = true := by
        simpa [same] using known
      have passes := passes proper
      simp only [isPlainResult, same, Bool.and_eq_true, Option.any_eq_true] at passes
      obtain ⟨isPlain, found, adds, included⟩ := passes
      have given := Production.adds_of_derives _ found _ _ _ isPlain adds derives
      refine given.weaken fun kind _ member => ?_
      have contained := List.all_eq_true.mp included kind member
      simpa using contained
    · intro proper canonical
      have passes := passes proper
      simp only [isPlainResult, Bool.and_eq_true] at passes
      exact Production.canonical_of_derives _ _ _ _ passes.1 derives canonical

theorem Nonterminal.nestWith_nests (terminals : Terminals) (fuel : Nat) :
    CallsSatisfy (nestWith production terminals fuel) (Nests terminals) := by
  apply nestWith_satisfies
  intro nonterminal scope before after derives
  cases nonterminal with
  | expression => exact nests_expression derives
  | sequenceTail => exact nests_sequenceTail derives
  | plainAssignment => exact nests_plainAssignment derives
  | conditional => exact nests_conditional derives
  | binary minimum => exact nests_binary derives
  | binaryTail minimum => exact nests_binaryTail derives
  | unary => exact nests_unary derives
  | postfixed => exact nests_postfixed derives
  | leftHandSide => exact nests_leftHandSide derives
  | memberTail calls => exact nests_memberTail derives
  | newExpression => exact nests_newExpression derives
  | jumpStatement kind =>
      -- The kind is a parameter; the two that are proper are checked one by one.
      refine nests_of_isPlainResult rfl rfl ?_ derives
      intro proper
      simp only [isProper, Bool.or_eq_true, decide_eq_true_eq] at proper
      rcases proper with rfl | rfl <;> decide
  | function form =>
      refine nests_of_isPlainResult rfl rfl (fun _ => ?_) derives
      obtain ⟨isExpression, isAsync, isGenerator⟩ := form
      cases isExpression <;> cases isAsync <;> cases isGenerator <;> decide
  | member owner =>
      refine nests_of_isPlainResult rfl rfl (fun _ => ?_) derives
      cases owner <;> decide
  | items shape =>
      refine nests_of_isPlainResult rfl rfl (fun _ => ?_) derives
      cases shape <;> decide
  | _ => exact nests_of_isPlainResult rfl rfl (fun _ => by decide) derives

/-! ## Trees -/

theorem Rule.Matched.isCanonical {stream : TokenStream} (accepts : stream.Accepts) {rule : Rule}
    {start : Nat} (before : start ≤ stream.eofIndex) {state : ParseState} {kind : Kind}
    {children : Forest}
    (matched : rule.Matched (.ofTokens (stream.tokens.toList.drop start)) (stream.eofIndex - start)
      state kind children) {tree : SyntaxTree}
    (same : tree = (Forest.empty.node kind children).tree stream start) :
    ∀ node < tree.nodes.size, IsCanonical (tree.kind node) (tree.shapeOf node) := by
  obtain ⟨place, later, parsed, forest, _⟩ := matched.nested
  have canonical := (Nonterminal.nestWith_nests _ _ _ _ _ _ _ _ parsed).canonical
    rule.isProper_nonterminal (by rw [rule.role_nonterminal]; decide) Forest.canonical_empty
  have nodes := Forest.nodes_tree matched.built matched.consecutive.1 (matched.liesOn accepts before)
  rw [forest, Forest.Canonical, nodes, ← same] at canonical
  intro node inside
  exact canonical _ (List.mem_map_of_mem (List.mem_range.mpr inside))

/-- In every tree of a match or a parse, operators, member accesses and callees nest as their
precedence says. -/
theorem matchRule_nests_operators {text : List Char} {tokens : Array Token} {stream : TokenStream}
    (accepted : TokenStream.ofTokens text tokens = .ok stream) (rule : Rule) :
    (∀ (position : Nat) (tree : SyntaxTree) (next : Cursor),
      matchRule rule (.atToken stream position) = .ok (tree, next) →
        ∀ node < tree.nodes.size, IsCanonical (tree.kind node) (tree.shapeOf node)) ∧
    ∀ tree : SyntaxTree, parseStream rule stream = .ok tree →
      ∀ node < tree.nodes.size, IsCanonical (tree.kind node) (tree.shapeOf node) := by
  obtain ⟨-, accepts⟩ := TokenStream.accepts_of_ofTokens accepted
  have nested : ∀ (position : Nat) (tree : SyntaxTree) (next : Cursor),
      matchRule rule (.atToken stream position) = .ok (tree, next) →
        ∀ node < tree.nodes.size, IsCanonical (tree.kind node) (tree.shapeOf node) := by
    intro position tree next found
    rcases matchRule_cases accepts rule position with ⟨_, _, none⟩ | ⟨_, _, _, _, matched, given⟩
    · rw [none] at found
      cases found
    · rw [given] at found
      cases found
      exact matched.isCanonical accepts (Cursor.position_atToken_le stream position) rfl
  refine ⟨nested, ?_⟩
  intro tree parsed
  rcases parseStream_cases accepts rule with ⟨_, refused, _⟩ | ⟨_, next, given, found, _⟩
  · rw [refused] at parsed
    cases parsed
  · rw [given] at parsed
    cases parsed
    exact nested 0 tree next found

/-- A sum as the left operand of another one. -/
theorem matchRule_nests_sums :
    let text := ['1', '-', '2', '-', '3']
    let token (kind : Kind) (start : Nat) : Token := ⟨.empty, kind, ⟨start, start + 1⟩, .empty⟩
    let tokens : Array Token := #[token .number 0, token .minus 1, token .number 2, token .minus 3,
      token .number 4, ⟨.empty, .eof, ⟨5, 5⟩, .empty⟩]
    let stream : TokenStream := ⟨text, tokens⟩
    TokenStream.ofTokens text tokens = .ok stream ∧
    ∃ tree, parseStream .expression stream = .ok tree ∧
      tree.kind SyntaxTree.root = .binaryExpression ∧
      ∀ node < tree.nodes.size, IsCanonical (tree.kind node) (tree.shapeOf node) := by
  intro text token tokens stream
  have accepted : TokenStream.ofTokens text tokens = .ok stream := rfl
  have parsed : (parseStream .expression stream).toOption.map (fun tree => tree.kind SyntaxTree.root) =
      some .binaryExpression := by decide +kernel
  refine ⟨accepted, ?_⟩
  cases result : parseStream .expression stream with
  | error failure =>
      rw [result] at parsed
      cases parsed
  | ok tree =>
      rw [result] at parsed
      exact ⟨tree, rfl, Option.some.inj parsed,
        (matchRule_nests_operators accepted .expression).2 tree result⟩

end ScriptTree
