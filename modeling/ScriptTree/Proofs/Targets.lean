import ScriptTree.Proofs.Forgetting

/-! # Targets of assignments

The left side of an assignment is a name, a member access, an array or object literal before a plain
`=`, or parentheses. That the parentheses hold something to assign to is what their mark says; the mark
is right wherever no word depends on the scope. -/
set_option autoImplicit false
set_option maxRecDepth 4000
namespace ScriptTree

/-! ## Assignments -/

/-- Whether the children of an assignment begin with something to assign to; `assignable` says which
parentheses are. -/
def Forest.isAssignment (assignable : Forest → Bool) : Forest → Bool
  | .node (.token (.node .empty target inside) _ operator) _ _ =>
      Grammar.simpleTargets.contains target ||
        target == .parenthesizedExpression && assignable inside ||
        operator == .eq && [Kind.arrayLiteral, .objectLiteral].contains target
  | _ => false

/-- The assignments of a tree are to simple targets, to literals before a plain `=`, and to assignable
parentheses. -/
def SyntaxTree.AssignsTo (tree : SyntaxTree) (assignable : Forest → Bool) : Prop :=
  ∀ node < tree.nodes.size, tree.kind node = .assignmentExpression →
    (tree.shapeOf node).isAssignment assignable = true

instance (tree : SyntaxTree) (assignable : Forest → Bool) : Decidable (tree.AssignsTo assignable) :=
  inferInstanceAs (Decidable (∀ node < tree.nodes.size, tree.kind node = .assignmentExpression →
    (tree.shapeOf node).isAssignment assignable = true))

/-! ## Forests of assignments -/

namespace Forest

def AssignsTo (assignable : Forest → Bool) (forest : Forest) : Prop :=
  ∀ node ∈ forest.nodes, node.1 = .assignmentExpression → node.2.isAssignment assignable = true

variable {assignable : Forest → Bool} {before children items left right : Forest} {position : Nat}
  {kind : Kind}

@[simp] theorem assignsTo_empty : AssignsTo assignable empty := by simp [AssignsTo, nodes]

@[simp] theorem assignsTo_token :
    (before.token position kind).AssignsTo assignable ↔ before.AssignsTo assignable := Iff.rfl

@[simp] theorem assignsTo_hole : before.hole.AssignsTo assignable ↔ before.AssignsTo assignable :=
  Iff.rfl

@[simp] theorem assignsTo_node : (before.node kind children).AssignsTo assignable ↔
    before.AssignsTo assignable ∧
      (kind = .assignmentExpression → children.isAssignment assignable = true) ∧
      children.AssignsTo assignable := by
  simp only [AssignsTo, nodes, List.mem_append, List.mem_cons, or_imp, forall_and, forall_eq]

@[simp] theorem assignsTo_list : (before.list items).AssignsTo assignable ↔
    before.AssignsTo assignable ∧ items.AssignsTo assignable := by
  simp only [AssignsTo, nodes, List.mem_append, or_imp, forall_and]

@[simp] theorem assignsTo_append : (left ++ right).AssignsTo assignable ↔
    left.AssignsTo assignable ∧ right.AssignsTo assignable := by
  simp only [AssignsTo, nodes_append, List.mem_append, or_imp, forall_and]

theorem AssignsTo.wrapLast {forest rest : Forest} (assigns : forest.AssignsTo assignable)
    (inside : rest.AssignsTo assignable) (other : kind ≠ .assignmentExpression) :
    (forest.wrapLast kind rest).AssignsTo assignable := by
  cases forest with
  | node before inner children =>
      rw [assignsTo_node] at assigns
      simp only [wrapLast_node, assignsTo_node, assignsTo_append, assignsTo_empty, true_and]
      exact ⟨assigns.1, fun same => absurd same other, assigns.2, inside⟩
  | empty | token before position inner | hole before | list before items => exact assigns

end Forest

/-! ## Productions -/

def Production.assignsNothing : Production → Bool
  | .call nonterminal => nonterminal.isProper
  | .seq first second | .branch _ first second | .orElse first second | .onceOrElse first second =>
      first.assignsNothing && second.assignsNothing
  | .node kind body | .wrap kind body => kind != .assignmentExpression && body.assignsNothing
  | .fork head _ kindYes yes kindNo no =>
      kindYes != .assignmentExpression && kindNo != .assignmentExpression && head.assignsNothing &&
        yes.assignsNothing && no.assignsNothing
  | .inScope _ body | .list body => body.assignsNothing
  | _ => true

theorem Nonterminal.assignsNothing_production (nonterminal : Nonterminal)
    (proper : nonterminal.isProper = true) (other : nonterminal ≠ .plainAssignment) :
    nonterminal.production.assignsNothing = true := by
  have passes : ∀ nonterminal ∈ listed, nonterminal ≠ .plainAssignment →
      nonterminal.production.assignsNothing = true := by decide +kernel
  exact passes nonterminal (mem_listed proper) other

section Assigns

variable {terminals : Terminals} {assignable : Forest → Bool} {scope : Scope}
  {before middle after inner : Place}

/-- A nonterminal keeps what is known of assignments, and what it adds fits its scope. -/
def Nonterminal.Assigns (assignable : Forest → Bool) (terminals : Terminals) (nonterminal : Nonterminal)
    (scope : Scope) (before after : Place) : Prop :=
  (nonterminal.isProper = true → before.forest.AssignsTo assignable →
    after.forest.AssignsTo assignable) ∧
  nonterminal.Scopes terminals scope before after

theorem Production.assignsTo_of_derives (production : Production) :
    ∀ (scope : Scope) (before after : Place), production.assignsNothing = true →
      production.Derives terminals (Nonterminal.Assigns assignable terminals) scope before after →
      before.forest.AssignsTo assignable → after.forest.AssignsTo assignable := by
  induction production with
  | empty | expected kind | expectedConstruct name | take | hole | markTarget =>
      intro scope before after _ derives assigns
      cases derives
      exact assigns
  | refuse =>
      intro scope before after _ derives
      exact derives.elim
  | call nonterminal =>
      intro scope before after proper derives assigns
      exact derives.1 proper assigns
  | seq first second firstIh secondIh =>
      intro scope before after nothing derives assigns
      obtain ⟨firstNothing, secondNothing⟩ := Bool.and_eq_true_iff.mp nothing
      obtain ⟨middle, firstDerives, secondDerives⟩ := derives
      exact secondIh _ _ _ secondNothing secondDerives (firstIh _ _ _ firstNothing firstDerives assigns)
  | branch guard yes no yesIh noIh =>
      intro scope before after nothing derives assigns
      obtain ⟨yesNothing, noNothing⟩ := Bool.and_eq_true_iff.mp nothing
      obtain ⟨targets, ⟨_, yesDerives⟩ | ⟨_, noDerives⟩⟩ := derives
      · exact yesIh _ _ _ yesNothing yesDerives assigns
      · exact noIh _ _ _ noNothing noDerives assigns
  | node kind body ih =>
      intro scope before after nothing derives assigns
      obtain ⟨other, bodyNothing⟩ := Bool.and_eq_true_iff.mp nothing
      obtain ⟨inner, bodyDerives, rfl⟩ := derives
      have within := ih _ before.inside inner bodyNothing bodyDerives Forest.assignsTo_empty
      exact Forest.assignsTo_node.mpr
        ⟨assigns, fun same => absurd same (bne_iff_ne.mp other), within⟩
  | fork head guard kindYes yes kindNo no headIh yesIh noIh =>
      intro scope before after nothing derives assigns
      simp only [assignsNothing, Bool.and_eq_true, bne_iff_ne] at nothing
      obtain ⟨⟨⟨⟨otherYes, otherNo⟩, headNothing⟩, yesNothing⟩, noNothing⟩ := nothing
      obtain ⟨middle, inner, targets, headDerives, tail⟩ := derives
      have between := headIh _ before.inside middle headNothing headDerives Forest.assignsTo_empty
      rcases tail with ⟨_, yesDerives, rfl⟩ | ⟨_, noDerives, rfl⟩
      · exact Forest.assignsTo_node.mpr ⟨assigns, fun same => absurd same otherYes,
          yesIh _ _ _ yesNothing yesDerives between⟩
      · exact Forest.assignsTo_node.mpr ⟨assigns, fun same => absurd same otherNo,
          noIh _ _ _ noNothing noDerives between⟩
  | wrap kind body ih =>
      intro scope before after nothing derives assigns
      obtain ⟨other, bodyNothing⟩ := Bool.and_eq_true_iff.mp nothing
      obtain ⟨wrapped, first, inner, _, bodyDerives, rfl⟩ := derives
      exact assigns.wrapLast (ih _ before.inside inner bodyNothing bodyDerives Forest.assignsTo_empty)
        (bne_iff_ne.mp other)
  | orElse first second firstIh secondIh | onceOrElse first second firstIh secondIh =>
      intro scope before after nothing derives assigns
      obtain ⟨firstNothing, secondNothing⟩ := Bool.and_eq_true_iff.mp nothing
      rcases derives with firstDerives | secondDerives
      · exact firstIh _ _ _ firstNothing firstDerives assigns
      · exact secondIh _ _ _ secondNothing secondDerives assigns
  | inScope change body ih =>
      intro scope before after nothing derives assigns
      exact ih _ _ _ nothing derives assigns
  | list body ih =>
      intro scope before after nothing derives assigns
      obtain ⟨inner, bodyDerives, rfl⟩ := derives
      exact Forest.assignsTo_list.mpr
        ⟨assigns, ih _ before.inside inner nothing bodyDerives Forest.assignsTo_empty⟩

/-! ## Assignments themselves -/

/-- What may be assigned to by the check on the node completed last, if marks are to be trusted. -/
theorem Grammar.isAssignment_of_admits (scope : Scope) {targets : List Nat} {kind valueKind : Kind}
    {inside value : Forest} {first position : Nat} (completed : middle.completed = some (kind, first))
    (admitted : isAssignmentTarget.admits terminals scope middle targets = true)
    (marked : kind = .parenthesizedExpression → targets.contains (first + 1) = true →
      assignable inside = true) :
    (((Forest.empty.node kind inside).token position (terminals.kindAt middle.position)).node valueKind
      value).isAssignment assignable = true := by
  simp only [isAssignmentTarget, Guard.admits, completed, Option.map_some, Option.getD_some,
    Bool.or_eq_true, Bool.and_eq_true] at admitted
  simp only [Forest.isAssignment, Bool.or_eq_true, Bool.and_eq_true]
  rcases admitted with simple | ⟨literal, plain⟩ | ⟨parentheses, mark⟩
  · exact .inl (.inl simple)
  · exact .inr ⟨by simpa using plain, literal⟩
  · exact .inl (.inr ⟨parentheses, marked (beq_iff_eq.mp parentheses) mark⟩)

theorem assignsTo_assignment {targets : List Nat} {kind wrapped : Kind} {inside : Forest}
    {first : Nat}
    (left : Nonterminal.Assigns assignable terminals .conditional scope before middle)
    (added : before.AddsNode scope middle kind inside)
    (completed : middle.completed = some (wrapped, first))
    (admitted : Grammar.isAssignmentTarget.admits terminals scope middle targets = true)
    (marked : kind = .parenthesizedExpression → targets.contains (before.position + 1) = true →
      assignable inside = true)
    (right : Nonterminal.Assigns assignable terminals .assignment scope (middle.inside.take terminals)
      inner)
    (assigns : before.forest.AssignsTo assignable) :
    (middle.wrapNode .assignmentExpression first inner).forest.AssignsTo assignable := by
  obtain ⟨valueKind, value, valueAdded, _⟩ := right.2.exists_node rfl rfl rfl (by simp)
  have leftAssigns := left.1 rfl assigns
  have rightAssigns := right.1 rfl Forest.assignsTo_empty
  cases completed.symm.trans added.completed
  rw [added.forest, Forest.assignsTo_node] at leftAssigns
  rw [valueAdded.forest, Forest.assignsTo_node] at rightAssigns
  rw [Place.wrapNode, added.forest, valueAdded.forest, Forest.wrapLast_node, Forest.assignsTo_node]
  refine ⟨leftAssigns.1, fun _ => Grammar.isAssignment_of_admits scope completed admitted marked, ?_⟩
  exact Forest.assignsTo_append.mpr
    ⟨Forest.assignsTo_node.mpr ⟨Forest.assignsTo_empty, leftAssigns.2⟩,
      Forest.assignsTo_node.mpr rightAssigns⟩

/-! ## Every match -/

/-- Whatever was marked, assignments are to simple targets, literals and parentheses. -/
theorem Nonterminal.nestWith_assigns (terminals : Terminals) (fuel : Nat) :
    CallsSatisfy (nestWith production terminals fuel) (Assigns (fun _ => true) terminals) := by
  induction fuel with
  | zero =>
      intro nonterminal scope before after history later matched
      cases matched
  | succ fuel ih =>
      intro nonterminal scope before after history later matched
      refine ⟨fun proper assigns => ?_, nestWith_scopes terminals (fuel + 1) _ _ _ _ _ _ matched⟩
      have derives := nonterminal.production.derives_of_nest ih scope before after history later matched
      by_cases isAssignment : nonterminal = .plainAssignment
      · subst isAssignment
        obtain ⟨middle, left, targets, ⟨admitted, _, first, inner, completed, ⟨_, rfl, right⟩, rfl⟩ |
          ⟨_, rfl⟩⟩ := derives
        · obtain ⟨kind, inside, added, _⟩ := left.2.exists_node rfl rfl rfl (by simp)
          exact assignsTo_assignment left added completed (Bool.and_eq_true_iff.mp admitted).2
            (fun _ _ => rfl) right assigns
        · exact left.1 rfl assigns
      · exact Production.assignsTo_of_derives _ _ _ _
          (nonterminal.assignsNothing_production proper isAssignment) derives assigns

/-- The marks of an account are right. -/
theorem Place.AddsNode.isTarget_of_marks {kind : Kind} {inside : Forest}
    (added : before.AddsNode scope middle kind inside)
    (mark : middle.marks.contains (before.position + 1) = true) : inside.isTarget = true := by
  rw [Place.marks, added.completed, added.forest, Forest.last?] at mark
  cases isTarget : inside.isTarget with
  | true => rfl
  | false => simp [isTarget] at mark

theorem Nonterminal.isLocal_assigns (terminals : Terminals) (assignable : Forest → Bool) :
    IsLocal (Assigns assignable terminals) := by
  intro nonterminal scope place after noTail known
  refine ⟨fun proper assigns => ?_, isLocal_scopes terminals _ _ _ _ noTail known.2⟩
  exact Forest.assignsTo_append.mpr ⟨assigns, known.1 proper Forest.assignsTo_empty⟩

/-- In an account, the parentheses on the left side hold something to assign to. -/
theorem Nonterminal.accountWith_assigns (terminals : Terminals) (fuel : Nat) :
    AccountsSatisfy (accountWith production terminals fuel) (Assigns Forest.isTarget terminals) := by
  induction fuel with
  | zero =>
      intro nonterminal scope before after notes matched
      cases matched
  | succ fuel ih =>
      intro nonterminal scope before after notes matched
      refine ⟨fun proper assigns => ?_, accountWith_scopes terminals (fuel + 1) _ _ _ _ _ matched⟩
      have isLocal := isLocal_assigns terminals Forest.isTarget
      by_cases isAssignment : nonterminal = .plainAssignment
      · subst isAssignment
        obtain ⟨middle, _, _, leftMatched, rest, _⟩ := Account.andThen_matched matched
        have left := (Production.call .conditional).derives_of_account isLocal ih _ _ _ _ leftMatched
        simp only [Production.account] at rest
        split at rest
        · rename_i admitted
          cases completed : middle.completed with
          | none =>
              rw [completed] at rest
              cases rest
          | some wrapped =>
              rw [completed] at rest
              obtain ⟨inner, rightMatched, rfl⟩ := Account.close_matched rest
              obtain ⟨_, rfl, right⟩ := (Production.seq .take (.call .assignment)).derives_of_account
                isLocal ih _ _ _ _ rightMatched
              obtain ⟨kind, inside, added, _⟩ := left.2.exists_node rfl rfl rfl (by simp)
              exact assignsTo_assignment left added completed (Bool.and_eq_true_iff.mp admitted).2
                (fun _ mark => added.isTarget_of_marks mark) right assigns
        · cases rest
          exact left.1 rfl assigns
      · exact Production.assignsTo_of_derives _ _ _ _
          (nonterminal.assignsNothing_production proper isAssignment)
          (nonterminal.production.derives_of_account isLocal ih scope before after notes matched) assigns

end Assigns

/-! ## Trees -/

section Trees

variable {stream : TokenStream} {rule : Rule} {start : Nat} {state : ParseState} {kind : Kind}
  {children : Forest}

theorem Rule.Matched.assignsTo (accepts : stream.Accepts) (before : start ≤ stream.eofIndex)
    (matched : rule.Matched (.ofTokens (stream.tokens.toList.drop start)) (stream.eofIndex - start)
      state kind children) {assignable : Forest → Bool}
    (assigns : (Forest.empty.node kind children).AssignsTo assignable) :
    ((Forest.empty.node kind children).tree stream start).AssignsTo assignable := by
  have nodes := Forest.nodes_tree matched.built matched.consecutive.1 (matched.liesOn accepts before)
  rw [Forest.AssignsTo, nodes] at assigns
  intro node inside
  exact assigns _ (List.mem_map_of_mem (List.mem_range.mpr inside))

theorem Rule.Matched.account {terminals : Terminals} {last : Nat} (ends : terminals.EndsAt last)
    (size : terminals.size = last + 1) (noWords : terminals.NoWords)
    (matched : rule.Matched terminals last state kind children) :
    ∃ place notes, rule.nonterminal.accountWith Nonterminal.production terminals
        (Nonterminal.enoughFuel terminals) .outermost (.fresh 0) = .matched place notes ∧
      place.forest = Forest.empty.node kind children := by
  obtain ⟨place, later, parsed, forest, _⟩ := matched.nested
  have does := rule.nestWith_asTold noWords toldLikeProductions_production
    (Nonterminal.enoughFuel terminals)
  rw [parsed] at does
  cases told : rule.nonterminal.accountWith Nonterminal.production terminals
      (Nonterminal.enoughFuel terminals) .outermost (.fresh 0) with
  | matched toldPlace notes =>
      rw [told] at does
      obtain ⟨_, _, ⟨⟩, ⟨_, _, agrees⟩, _⟩ := does
      have same : place.forest = toldPlace.forest := agrees.forest.trans (Forest.empty_append _)
      exact ⟨toldPlace, notes, rfl, same.symm.trans forest⟩
  | refused notes =>
      rw [told] at does
      obtain ⟨_, ⟨⟩, _⟩ := does
  | outOfFuel => exact absurd told (rule.account_ne_outOfFuel noWords ends size)

/-- What a stream allows the assignments of its trees to be to. -/
def TokenStream.Allows (stream : TokenStream) (tree : SyntaxTree) : Prop :=
  tree.AssignsTo (fun _ => true) ∧
  ((∀ token ∈ stream.tokens, token.kind ∉ operatorWords) → tree.AssignsTo Forest.isTarget)

theorem Rule.Matched.allows (accepts : stream.Accepts) (before : start ≤ stream.eofIndex)
    (matched : rule.Matched (.ofTokens (stream.tokens.toList.drop start)) (stream.eofIndex - start)
      state kind children) :
    stream.Allows ((Forest.empty.node kind children).tree stream start) := by
  constructor
  · obtain ⟨place, later, parsed, forest, _⟩ := matched.nested
    have assigns := (Nonterminal.nestWith_assigns _ _ _ _ _ _ _ _ parsed).1 rule.isProper_nonterminal
      Forest.assignsTo_empty
    rw [forest] at assigns
    exact matched.assignsTo accepts before assigns
  · intro noWords
    have start_eq : (Cursor.atToken stream start).position = start := Nat.min_eq_left before
    have ends := Cursor.endsAt_terminals accepts start
    have size := Cursor.size_terminals accepts start
    have scopeFree := (Cursor.atToken stream start).noWords_terminals noWords
    simp only [Cursor.terminals, start_eq] at ends size scopeFree
    obtain ⟨place, notes, told, forest⟩ := matched.account ends size scopeFree
    have assigns := (Nonterminal.accountWith_assigns _ _ _ _ _ _ _ told).1 rule.isProper_nonterminal
      Forest.assignsTo_empty
    rw [forest] at assigns
    exact matched.assignsTo accepts before assigns

/-- In every tree of a match or a parse, assignments are to names, member accesses, literals before a
plain `=`, and parentheses; where no token is a word that depends on the scope, the parentheses are
around one name or member access. -/
theorem matchRule_assigns_to_targets {text : List Char} {tokens : Array Token} {stream : TokenStream}
    (accepted : TokenStream.ofTokens text tokens = .ok stream) (rule : Rule) :
    (∀ (position : Nat) (tree : SyntaxTree) (next : Cursor),
      matchRule rule (.atToken stream position) = .ok (tree, next) → stream.Allows tree) ∧
    ∀ tree : SyntaxTree, parseStream rule stream = .ok tree → stream.Allows tree := by
  obtain ⟨-, accepts⟩ := TokenStream.accepts_of_ofTokens accepted
  exact accepts.holds_of_matched rule fun _ before _ _ _ matched => matched.allows accepts before

/-- Parentheses around a name are assigned to. -/
theorem matchRule_assigns_to_parentheses :
    let text := ['(', 'a', ')', '=', '1']
    let stream := tokenize text
    TokenStream.ofTokens text stream.tokens = .ok stream ∧
    ∃ tree, parseStream .expression stream = .ok tree ∧
      tree.kind SyntaxTree.root = .assignmentExpression ∧ tree.AssignsTo Forest.isTarget := by
  intro text stream
  have accepted : TokenStream.ofTokens text stream.tokens = .ok stream := rfl
  have noWords : ∀ token ∈ stream.tokens, token.kind ∉ operatorWords := by decide +kernel
  have parsed : (parseStream .expression stream).toOption.map (fun tree => tree.kind SyntaxTree.root) =
      some .assignmentExpression := by decide +kernel
  refine ⟨accepted, ?_⟩
  cases result : parseStream .expression stream with
  | error failure =>
      rw [result] at parsed
      cases parsed
  | ok tree =>
      rw [result] at parsed
      have allowed := (matchRule_assigns_to_targets accepted .expression).2 tree result
      exact ⟨tree, rfl, Option.some.inj parsed, allowed.2 noWords⟩

/-- With an `await` a mark outlives its scope: `(await[x])` may be assigned to in the first parameter of
the arrow, since as a call argument it was a member access. -/
theorem matchRule_assigns_to_await :
    let text := ['f', 'o', 'r', '(', 'a', 's', 'y', 'n', 'c', '(', 'a', '=', '(', 'a', 'w', 'a', 'i',
      't', '[', 'x', ']', ')', '=', '1', ')', '=', '>', '\x7b', '\x7d', ';', ';', ')', ';']
    let stream := tokenize text
    TokenStream.ofTokens text stream.tokens = .ok stream ∧
    (parseStream .script stream).toOption.map (fun tree => decide (tree.AssignsTo Forest.isTarget)) =
      some false := by
  intro text stream
  exact ⟨rfl, by decide +kernel⟩

end Trees

end ScriptTree
