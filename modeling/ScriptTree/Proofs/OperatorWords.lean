import ScriptTree.Proofs.Scoping

/-! # Words that act as operators

The productions that take `yield` or `await`, and those that change the scope for a part of what they
take. With them every match gives a tree whose words fit their scopes. -/
set_option autoImplicit false
set_option maxRecDepth 4000
namespace ScriptTree

open Grammar

section Words

variable {terminals : Terminals} {scope : Scope} {before after place : Place}

/-! ## Operators -/

theorem scopes_assignment
    (derives : assignment.Derives terminals (Nonterminal.Scopes terminals) scope before after) :
    Nonterminal.Scopes terminals .assignment scope before after := by
  refine Nonterminal.scopes_of_addsNode rfl ?_ derives
  obtain ⟨_, ⟨admitted, yields⟩ | ⟨_, rest⟩⟩ := derives
  · have on : scope.yieldOperator = true := (Bool.and_eq_true_iff.mp admitted).2
    obtain ⟨kind, inside, added, _⟩ := Nonterminal.Scopes.exists_node yields rfl rfl rfl fun _ => on
    exact ⟨kind, inside, added⟩
  · exact Production.exists_node _ 0 (by decide) (terminals.clear_zero _) rest

theorem scopes_yieldExpression
    (derives : yieldExpression.Derives terminals (Nonterminal.Scopes terminals) scope before after) :
    Nonterminal.Scopes terminals .yieldExpression scope before after := by
  intro _ _ on
  obtain ⟨inner, ⟨_, yields, rest⟩, rfl⟩ := derives
  obtain ⟨word, rfl⟩ := Production.derives_expect yields
  have fits : (before.inside.take terminals).forest.Scoped scope .yieldExpression inner.forest := by
    refine ⟨trivial, fun _ => ?_⟩
    rw [word, Forest.FitsScope, if_pos (on rfl)]
    exact ⟨rfl, rfl⟩
  have behind := Production.scoped_behind _ (by decide) (by decide) fits rest
  refine ⟨.yieldExpression, inner.forest, ⟨rfl, rfl, behind⟩, ?_⟩
  intro known found
  cases found
  rfl

theorem scopes_unary
    (derives : unary.Derives terminals (Nonterminal.Scopes terminals) scope before after) :
    Nonterminal.Scopes terminals .unary scope before after := by
  refine Nonterminal.scopes_of_addsNode rfl ?_ derives
  obtain ⟨_, ⟨admitted, operator⟩ | ⟨_, _, ⟨admitted, awaits⟩ | ⟨_, operand⟩⟩⟩ := derives
  · have clear := Guard.clears_of_admits _ admitted (terminals.clear_zero _)
    exact Production.exists_node _ 1 (by decide) clear operator
  · obtain ⟨isAwait, on⟩ : terminals.kindAt before.position = .awaitKw ∧ scope.awaitOperator = true := by
      simpa [Guard.admits] using admitted
    obtain ⟨inner, ⟨_, rfl, operand⟩, rfl⟩ := awaits
    have fits : (before.inside.take terminals).forest.Scoped scope .awaitExpression inner.forest := by
      refine ⟨trivial, fun _ => ?_⟩
      change Forest.FitsScope _ _ _ _ (terminals.kindAt before.position)
      rw [isAwait, Forest.FitsScope, if_pos on]
      exact .inl ⟨rfl, rfl⟩
    exact ⟨.awaitExpression, inner.forest, rfl, rfl,
      Production.scoped_behind (.call .unary) (by decide) (by decide) fits operand⟩
  · exact Production.exists_node (.call .postfixed) 0 (by decide) (terminals.clear_zero _) operand

theorem scopes_forOfStatement
    (derives : forOfStatement.Derives terminals (Nonterminal.Scopes terminals) scope before after) :
    Nonterminal.Scopes terminals .forOfStatement scope before after := by
  refine Nonterminal.scopes_of_addsNode rfl ?_ derives
  obtain ⟨inner, ⟨_, for', middle, awaits, rest⟩, rfl⟩ := derives
  obtain ⟨isFor, rfl⟩ := Production.derives_expect for'
  have start : (before.inside.take terminals).forest.Scoped scope .forOfStatement inner.forest := by
    refine ⟨trivial, fun _ => Forest.fitsScope_of_notMem ?_⟩
    rw [isFor]
    decide
  have fits : middle.forest.Scoped scope .forOfStatement inner.forest := by
    obtain ⟨_, ⟨on, _, ⟨admitted, rfl⟩ | ⟨_, rfl⟩⟩ | ⟨_, rfl⟩⟩ := awaits
    · have operator : scope.awaitOperator = true := on
      have isAwait : terminals.kindAt (before.inside.take terminals).position = .awaitKw := by
        simpa [Guard.admits] using admitted
      refine ⟨start, fun _ => ?_⟩
      rw [isAwait, Forest.FitsScope, if_pos operator]
      refine .inr ⟨rfl, before.inside.position, ?_⟩
      rw [← isFor]
      rfl
    · exact start
    · exact start
  exact ⟨.forOfStatement, inner.forest, rfl, rfl,
    Production.scoped_behind _ (by decide) (by decide) fits rest⟩

/-! ## Functions -/

theorem exists_functionTail {inner : Scope}
    (derives : (functionTail inner).Derives terminals (Nonterminal.Scopes terminals) scope before
      after) :
    ∃ parameters body,
      after.forest = (before.forest.node .formalParameters parameters).node .functionBody body ∧
      parameters.Scoped inner .formalParameters parameters ∧
      body.Scoped inner .functionBody body := by
  obtain ⟨middle, parameters, body⟩ := derives
  obtain ⟨some, parametersAdded⟩ :=
    Nonterminal.Scopes.exists_inside parameters rfl rfl rfl (by decide) rfl
  obtain ⟨other, bodyAdded⟩ := Nonterminal.Scopes.exists_inside body rfl rfl rfl (by decide) rfl
  exact ⟨some, other, by rw [bodyAdded.forest, parametersAdded.forest], parametersAdded.fits,
    bodyAdded.fits⟩

theorem scoped_function {kind : Kind} {inner : Scope} (isFunction : kind ∈ functionKinds)
    (own : Forest.functionScope kind before.forest = inner)
    (fits : ∀ children, Forest.functionScope kind children = inner →
      before.forest.Scoped scope kind children)
    (derives : (functionTail inner).Derives terminals (Nonterminal.Scopes terminals) scope before
      after) :
    after.forest.Scoped scope kind after.forest := by
  obtain ⟨parameters, body, forest, parametersFit, bodyFit⟩ := exists_functionTail derives
  have whole : Forest.functionScope kind after.forest = inner := by
    rw [forest]
    exact own
  have belongs : ∀ part ∈ [Kind.formalParameters, .functionBody], ∀ earlier : Forest,
      Forest.partScope kind after.forest earlier part scope = inner := by
    intro part member earlier
    have listed : part ∈ scopedParts kind := by
      unfold scopedParts
      split
      · exact List.mem_cons_of_mem _ member
      · exact member
    rw [Forest.partScope, if_pos isFunction, if_pos listed, whole]
  rw [forest] at belongs whole ⊢
  refine ⟨⟨fits _ whole, ?_⟩, ?_⟩
  · rw [belongs _ (by decide)]
    exact parametersFit
  · rw [belongs _ (by decide)]
    exact bodyFit

theorem hasToken_take (kind : Kind) (place : Place) :
    (place.take terminals).forest.hasToken kind =
      (place.forest.hasToken kind || terminals.kindAt place.position == kind) := rfl

theorem Place.scoped_inside (place : Place) {parent : Kind} {children : Forest} :
    place.inside.forest.Scoped scope parent children := trivial

theorem scoped_take {parent : Kind} {children : Forest}
    (fits : place.forest.Scoped scope parent children)
    (other : terminals.kindAt place.position ∉ operatorWords) :
    (place.take terminals).forest.Scoped scope parent children :=
  ⟨fits, fun _ => Forest.fitsScope_of_notMem other⟩

theorem scoped_announcement {form : FunctionForm} {named : Place}
    (derives : (Production.series [
      if form.isAsync then .seq (.expect .asyncKw) (.branch (.lineBreak 0) .refuse .empty) else .empty,
      .expect .functionKw,
      if form.isGenerator then .expect .star else .empty]).Derives terminals
        (Nonterminal.Scopes terminals) scope before.inside named) :
    named.forest.hasToken .asyncKw = form.isAsync ∧
      ∀ children, named.forest.Scoped scope form.kind children := by
  obtain ⟨modified, async, announced, function, star⟩ := derives
  have modifier : modified.forest.hasToken .asyncKw = form.isAsync ∧
      ∀ children, modified.forest.Scoped scope form.kind children := by
    cases isAsync : form.isAsync with
    | false =>
        rw [isAsync] at async
        cases async
        exact ⟨rfl, fun _ => trivial⟩
    | true =>
        rw [isAsync] at async
        obtain ⟨_, token, _, ⟨_, impossible⟩ | ⟨_, rfl⟩⟩ := async
        · exact impossible.elim
        · obtain ⟨word, rfl⟩ := Production.derives_expect token
          exact ⟨by rw [hasToken_take, word]; exact Bool.or_true _,
            fun _ => scoped_take before.scoped_inside (by rw [word]; decide)⟩
  obtain ⟨word, rfl⟩ := Production.derives_expect function
  have further : (modified.take terminals).forest.hasToken .asyncKw = form.isAsync ∧
      ∀ children, (modified.take terminals).forest.Scoped scope form.kind children :=
    ⟨by simp [hasToken_take, word, modifier.1],
      fun _ => scoped_take (modifier.2 _) (by rw [word]; decide)⟩
  cases isGenerator : form.isGenerator with
  | false =>
      rw [isGenerator] at star
      cases star
      exact further
  | true =>
      rw [isGenerator] at star
      obtain ⟨mark, rfl⟩ := Production.derives_expect star
      exact ⟨by simp [hasToken_take, mark, further.1],
        fun _ => scoped_take (further.2 _) (by rw [mark]; decide)⟩

theorem exists_functionName {form : FunctionForm}
    (derives : (functionName form).Derives terminals (Nonterminal.Scopes terminals) scope before
      after) :
    after.forest = before.forest ∨ ∃ name, after.forest = before.forest.node .bindingIdentifier name ∧
      name.Scoped (if form.isExpression then form.scope else scope) .bindingIdentifier name := by
  unfold functionName at derives
  split at derives
  · rename_i isExpression
    rw [if_pos isExpression]
    obtain ⟨_, ⟨_, name⟩ | ⟨_, rfl⟩⟩ := derives
    · obtain ⟨inside, added⟩ := Nonterminal.Scopes.exists_inside name rfl rfl rfl (by decide) rfl
      exact .inr ⟨inside, added.forest, added.fits⟩
    · exact .inl rfl
  · rename_i isDeclaration
    rw [if_neg isDeclaration]
    obtain ⟨inside, added⟩ := Nonterminal.Scopes.exists_inside derives rfl rfl rfl (by decide) rfl
    exact .inr ⟨inside, added.forest, added.fits⟩

theorem mem_functionKinds (form : FunctionForm) : form.kind ∈ functionKinds := by
  unfold FunctionForm.kind
  split <;> decide

theorem functionScope_kind (form : FunctionForm) {children : Forest}
    (async : children.hasToken .asyncKw = form.isAsync) :
    Forest.functionScope form.kind children = form.scope := by
  rw [Forest.functionScope, async, FunctionForm.scope]
  congr 1
  unfold FunctionForm.kind
  split <;> simp [*]

theorem mem_scopedParts_kind (form : FunctionForm) :
    .bindingIdentifier ∈ scopedParts form.kind ↔ form.isExpression = true := by
  unfold FunctionForm.kind
  split <;> simp [*, scopedParts]

theorem scopes_function {form : FunctionForm}
    (derives : (function form).Derives terminals (Nonterminal.Scopes terminals) scope before after) :
    Nonterminal.Scopes terminals (.function form) scope before after := by
  refine Nonterminal.scopes_of_addsNode rfl ?_ derives
  obtain ⟨inner, matched, rfl⟩ := derives
  obtain ⟨modified, async, announced, function, starred, star, named, name, tail⟩ := matched
  obtain ⟨isAsync, fits⟩ := scoped_announcement ⟨modified, async, announced, function, star⟩
  refine ⟨form.kind, inner.forest, rfl, rfl, ?_⟩
  refine scoped_function (mem_functionKinds form) (functionScope_kind form ?_) ?_ tail
  · rcases exists_functionName name with same | ⟨_, same, _⟩ <;> rw [same] <;> exact isAsync
  · intro children own
    rcases exists_functionName name with same | ⟨name, same, nameFits⟩ <;> rw [same]
    · exact fits children
    · refine ⟨fits children, ?_⟩
      rw [Forest.partScope, if_pos (mem_functionKinds form), own]
      simpa only [mem_scopedParts_kind] using nameFits

/-! ## Arrow functions -/

theorem scoped_arrowTail {isAsync : Bool} (async : before.forest.hasToken .asyncKw = isAsync)
    (noArrow : before.forest.hasToken .fatArrow = false)
    (fits : ∀ children, before.forest.Scoped scope .arrowFunction children)
    (derives : (arrowTail isAsync).Derives terminals (Nonterminal.Scopes terminals) scope before
      after) :
    after.forest.Scoped scope .arrowFunction after.forest := by
  obtain ⟨middle, parameters, _, ⟨_, ⟨_, impossible⟩ | ⟨_, arrow⟩⟩, body⟩ := derives
  · exact impossible.elim
  obtain ⟨word, rfl⟩ := Production.derives_expect arrow
  obtain ⟨parametersKind, some, parametersForest, _, parametersFit⟩ : ∃ kind inside,
      before.AddsNode ((ScopeChange.arrowParameters isAsync).apply scope) middle kind inside := by
    obtain ⟨_, ⟨_, list⟩ | ⟨_, name⟩⟩ := parameters
    · exact ⟨_, Nonterminal.Scopes.exists_inside list rfl rfl rfl (by decide) rfl⟩
    · exact ⟨_, Nonterminal.Scopes.exists_inside name rfl rfl rfl (by decide) rfl⟩
  obtain ⟨bodyKind, other, bodyForest, _, bodyFit⟩ : ∃ kind inside,
      (middle.take terminals).AddsNode ⟨false, isAsync⟩ after kind inside := by
    obtain ⟨_, ⟨_, block⟩ | ⟨_, value⟩⟩ := body
    · exact ⟨_, Nonterminal.Scopes.exists_inside block rfl rfl rfl (by decide) rfl⟩
    · obtain ⟨kind, inside, added, _⟩ := Nonterminal.Scopes.exists_node value rfl rfl rfl (by simp)
      exact ⟨kind, inside, added⟩
  have whole : after.forest.hasToken .asyncKw = isAsync := by
    simp [bodyForest, hasToken_take, parametersForest, Forest.hasToken, word, async]
  have handed : ∀ (earlier : Forest) (part : Kind),
      Forest.partScope .arrowFunction after.forest earlier part scope =
        if earlier.hasToken .fatArrow then ⟨false, isAsync⟩
        else (ScopeChange.arrowParameters isAsync).apply scope := by
    intro earlier part
    rw [Forest.partScope, if_neg (by decide), if_pos rfl, whole]
    rfl
  have behind : (middle.take terminals).forest.hasToken .fatArrow = true := by
    simp [hasToken_take, word]
  have forest := bodyForest
  simp only [Place.take, parametersForest, word] at forest behind
  rw [forest] at handed ⊢
  refine ⟨⟨⟨fits _, ?_⟩, fun _ => Forest.fitsScope_of_notMem (by decide)⟩, ?_⟩
  · rw [handed, if_neg (by simp [noArrow])]
    exact parametersFit
  · rw [handed, if_pos behind]
    exact bodyFit

theorem scopes_arrow
    (derives : arrow.Derives terminals (Nonterminal.Scopes terminals) scope before after) :
    Nonterminal.Scopes terminals .arrow scope before after := by
  refine Nonterminal.scopes_of_addsNode rfl ?_ derives
  obtain ⟨inner, ⟨_, ⟨admitted, _, rfl, tail⟩ | ⟨_, tail⟩⟩, rfl⟩ := derives
  · have word : terminals.kindAt before.inside.position = .asyncKw := by
      have first := (Bool.and_eq_true_iff.mp admitted).1
      simpa [Guard.admits] using first
    refine ⟨.arrowFunction, inner.forest, rfl, rfl, scoped_arrowTail ?_ ?_ ?_ tail⟩
    · rw [hasToken_take, word]
      rfl
    · rw [hasToken_take, word]
      rfl
    · intro children
      exact scoped_take before.scoped_inside (by rw [word]; decide)
  · exact ⟨.arrowFunction, inner.forest, rfl, rfl,
      scoped_arrowTail rfl rfl (fun _ => before.scoped_inside) tail⟩

/-! ## Members -/

/-- The key of a member is a node, to which the scope of the member is not handed. -/
theorem exists_propertyKey {allowPrivate : Bool}
    (derives : (Production.propertyKey allowPrivate).Derives terminals (Nonterminal.Scopes terminals)
      scope before after) :
    ∃ kind ∈ [Kind.computedPropertyName, .propertyName], ∃ inside,
      before.AddsNode scope after kind inside := by
  obtain ⟨_, ⟨admitted, computed⟩ | ⟨_, literal⟩⟩ := derives
  · have clear := Guard.clears_of_admits _ admitted (terminals.clear_zero _)
    exact ⟨_, by decide, Production.exists_inside 1 (by decide) clear computed⟩
  · exact ⟨_, by decide, Production.exists_inside 0 rfl (terminals.clear_zero _) literal⟩

/-- Tokens in front of the key of a member. -/
structure Place.Modified (terminals : Terminals) (scope : Scope) (place : Place) (isAsync : Bool) :
    Prop where
  async : place.forest.hasToken .asyncKw = isAsync
  noValue : place.forest.hasToken .eq = false
  fits : ∀ parent children, place.forest.Scoped scope parent children

theorem Place.Modified.take {isAsync : Bool} {word : Kind}
    (modified : place.Modified terminals scope isAsync)
    (next : terminals.kindAt place.position = word) (other : word ∉ .eq :: operatorWords) :
    (place.take terminals).Modified terminals scope (isAsync || word == .asyncKw) := by
  subst next
  obtain ⟨noValue, noWord⟩ := List.ne_and_not_mem_of_not_mem_cons other
  refine ⟨?_, ?_, fun parent children => scoped_take (modified.fits parent children) noWord⟩
  · rw [hasToken_take, modified.async]
  · rw [hasToken_take, modified.noValue]
    exact beq_false_of_ne noValue

theorem Place.Modified.key {isAsync allowPrivate : Bool}
    (modified : before.Modified terminals scope isAsync)
    (derives : (Production.propertyKey allowPrivate).Derives terminals (Nonterminal.Scopes terminals)
      scope before after) :
    after.forest.hasToken .asyncKw = isAsync ∧ after.forest.hasToken .eq = false ∧
      ∀ parent children, parent ∉ [Kind.arrowFunction, .functionExpression, .generatorExpression] →
        after.forest.Scoped scope parent children := by
  obtain ⟨kind, member, inside, forest, _, fits⟩ := exists_propertyKey derives
  rw [forest]
  refine ⟨modified.async, modified.noValue, fun parent children ordinary => ?_⟩
  refine ⟨modified.fits parent children, ?_⟩
  have outer : Forest.partScope parent children before.forest kind scope = scope := by
    simp only [List.mem_cons, List.not_mem_nil, or_false, not_or] at ordinary
    have noPart : kind ∉ scopedParts parent := by
      rw [scopedParts, if_neg (by simp [ordinary])]
      simp only [List.mem_cons, List.not_mem_nil, or_false] at member
      rcases member with rfl | rfl <;> decide
    simp [Forest.partScope, noPart, ordinary, modified.noValue]
  rw [outer]
  exact fits

theorem scopes_method {isAsync allowPrivate : Bool} {kind : Kind} {inner : Scope}
    (isMethod : kind ∈ [Kind.method, .generatorMethod, .getter, .setter])
    (own : inner = ⟨kind == .generatorMethod, isAsync⟩)
    (modified : before.Modified terminals scope isAsync)
    (derives : (Production.seq (.propertyKey allowPrivate) (functionTail inner)).Derives terminals
      (Nonterminal.Scopes terminals) scope before after) :
    after.forest.Scoped scope kind after.forest := by
  obtain ⟨middle, key, tail⟩ := derives
  obtain ⟨async, _, fits⟩ := modified.key key
  have isFunction : kind ∈ functionKinds ∧
      kind ∉ [Kind.arrowFunction, .functionExpression, .generatorExpression] ∧
      [Kind.generatorDeclaration, .generatorExpression, .generatorMethod].contains kind =
        (kind == .generatorMethod) := by
    simp only [List.mem_cons, List.not_mem_nil, or_false] at isMethod
    rcases isMethod with rfl | rfl | rfl | rfl <;> decide
  obtain ⟨listed, ordinary, generator⟩ := isFunction
  refine scoped_function listed ?_ (fun children _ => fits kind children ordinary) tail
  rw [Forest.functionScope, async, generator, own]

theorem scoped_value {owner : MemberOwner} (noValue : before.forest.hasToken .eq = false)
    (fits : ∀ children, before.forest.Scoped scope (valueKind owner) children)
    (derives : (valueTail owner).Derives terminals (Nonterminal.Scopes terminals) scope before after) :
    after.forest.Scoped scope (valueKind owner) after.forest := by
  cases owner with
  | objectLiteral => exact Production.scoped_behind _ (by decide) (by decide) (fits _) derives
  | classBody =>
      obtain ⟨middle, initializer, ending⟩ := derives
      have initialized : ∀ children, middle.forest.Scoped scope .fieldDefinition children := by
        intro children
        obtain ⟨_, ⟨admitted, _, rfl, value⟩ | ⟨_, rfl⟩⟩ := initializer
        · have word : terminals.kindAt before.position = .eq := by
            simpa [Guard.admits] using admitted
          obtain ⟨kind, inside, ⟨forest, _, valueFits⟩, _⟩ :=
            Nonterminal.Scopes.exists_node value rfl rfl rfl (by simp)
          have behind : (before.take terminals).forest.hasToken .eq = true := by
            rw [hasToken_take, word]
            exact Bool.or_true _
          rw [forest]
          refine ⟨scoped_take (fits children) (by rw [word]; decide), ?_⟩
          rw [Forest.partScope, if_neg (by decide), if_neg (by decide), if_pos ⟨rfl, behind⟩]
          exact valueFits
        · exact fits children
      obtain ⟨_, ⟨admitted, rfl⟩ | ⟨_, _, rfl, _, ⟨_, rfl⟩ | ⟨_, impossible⟩⟩⟩ := ending
      · have word : terminals.kindAt middle.position = .semicolon := by
          simpa [Guard.admits] using admitted
        exact scoped_take (initialized _) (by rw [word]; decide)
      · exact initialized _
      · exact impossible.elim

theorem adds_memberAfter {owner : MemberOwner} {modifier : Production} {offset : Nat}
    (modified : ∀ middle,
      modifier.Derives terminals (Nonterminal.Scopes terminals) scope before.inside middle →
        middle.position = before.position + offset ∧ middle.Modified terminals scope false)
    (derives : (memberAfter owner modifier offset).Derives terminals (Nonterminal.Scopes terminals)
      scope before after) :
    ∃ kind inside, before.AddsNode scope after kind inside := by
  -- A modifier stands at the offset, so that what the guards saw there is taken next.
  have next : ∀ {middle : Place} {word : Kind} {targets : List Nat},
      modifier.Derives terminals (Nonterminal.Scopes terminals) scope before.inside middle →
      (Guard.next offset [word]).admits terminals scope before targets = true →
      terminals.kindAt middle.position = word := by
    intro middle word targets modifies admitted
    rw [(modified middle modifies).1]
    simpa [Guard.admits] using admitted
  rcases Production.derives_select derives with ⟨entry, listed, _, admitted, body⟩ | ⟨_, body⟩
  · simp only [List.mem_cons, List.not_mem_nil, or_false] at listed
    rcases listed with rfl | rfl | rfl | rfl | rfl
    · obtain ⟨inner, ⟨middle, modifies, _, rfl, tail⟩, rfl⟩ := body
      have word := next modifies (Bool.and_eq_true_iff.mp admitted).1
      exact ⟨.getter, inner.forest, rfl, rfl, scopes_method (by decide) rfl
        ((modified middle modifies).2.take word (by decide)) tail⟩
    · obtain ⟨inner, ⟨middle, modifies, _, rfl, tail⟩, rfl⟩ := body
      have word := next modifies (Bool.and_eq_true_iff.mp admitted).1
      exact ⟨.setter, inner.forest, rfl, rfl, scopes_method (by decide) rfl
        ((modified middle modifies).2.take word (by decide)) tail⟩
    · obtain ⟨inner, ⟨middle, modifies, _, rfl, _, rfl, tail⟩, rfl⟩ := body
      obtain ⟨first, rest⟩ := Bool.and_eq_true_iff.mp admitted
      have word := next modifies first
      have star : terminals.kindAt (middle.take terminals).position = .star := by
        have second := (Bool.and_eq_true_iff.mp rest).2
        change terminals.kindAt (middle.position + 1) = .star
        rw [(modified middle modifies).1]
        simpa [Guard.admits, Nat.add_assoc] using second
      exact ⟨.generatorMethod, inner.forest, rfl, rfl, scopes_method (by decide) rfl
        (((modified middle modifies).2.take word (by decide)).take star (by decide)) tail⟩
    · obtain ⟨inner, ⟨middle, modifies, _, rfl, tail⟩, rfl⟩ := body
      have word := next modifies (Bool.and_eq_true_iff.mp admitted).1
      exact ⟨.method, inner.forest, rfl, rfl, scopes_method (by decide) rfl
        ((modified middle modifies).2.take word (by decide)) tail⟩
    · obtain ⟨inner, ⟨middle, modifies, _, rfl, tail⟩, rfl⟩ := body
      have star := next modifies admitted
      exact ⟨.generatorMethod, inner.forest, rfl, rfl, scopes_method (by decide) rfl
        ((modified middle modifies).2.take star (by decide)) tail⟩
  · obtain ⟨keyed, inner, _, ⟨middle, modifies, key⟩, ⟨_, tail, rfl⟩ | ⟨_, value, rfl⟩⟩ := body
    · exact ⟨.method, inner.forest, rfl, rfl,
        scopes_method (by decide) rfl (modified middle modifies).2 ⟨keyed, key, tail⟩⟩
    · obtain ⟨_, rfl, value⟩ := value
      obtain ⟨_, noValue, fits⟩ := (modified middle modifies).2.key key
      have ordinary : valueKind owner ∉
          [Kind.arrowFunction, .functionExpression, .generatorExpression] := by
        cases owner <;> decide
      exact ⟨valueKind owner, inner.forest, rfl, rfl,
        scoped_value noValue (fun children => fits _ children ordinary) value⟩

theorem scopes_member {owner : MemberOwner}
    (derives : (member owner).Derives terminals (Nonterminal.Scopes terminals) scope before after) :
    Nonterminal.Scopes terminals (.member owner) scope before after := by
  refine Nonterminal.scopes_of_addsNode rfl ?_ derives
  have unmodified : before.inside.Modified terminals scope false := ⟨rfl, rfl, fun _ _ => trivial⟩
  have plain : ∀ middle,
      Production.empty.Derives terminals (Nonterminal.Scopes terminals) scope before.inside middle →
        middle.position = before.position + 0 ∧ middle.Modified terminals scope false := by
    rintro _ rfl
    exact ⟨rfl, unmodified⟩
  cases owner with
  | objectLiteral => exact adds_memberAfter plain derives
  | classBody =>
      obtain ⟨_, ⟨admitted, modified⟩ | ⟨_, other⟩⟩ := derives
      · have word : terminals.kindAt before.position = .staticKw := by
          have first := (Bool.and_eq_true_iff.mp admitted).1
          simpa [Guard.admits] using first
        refine adds_memberAfter ?_ modified
        rintro _ rfl
        exact ⟨rfl, unmodified.take word (by decide)⟩
      · exact adds_memberAfter plain other

end Words

/-! ## Every match -/

theorem Nonterminal.scopes_of_derives {terminals : Terminals} (nonterminal : Nonterminal)
    (scope : Scope) (before after : Place)
    (derives : nonterminal.production.Derives terminals (Scopes terminals) scope before after) :
    nonterminal.Scopes terminals scope before after := by
  cases nonterminal with
  | assignment => exact scopes_assignment derives
  | yieldExpression => exact scopes_yieldExpression derives
  | unary => exact scopes_unary derives
  | forOfStatement => exact scopes_forOfStatement derives
  | function form => exact scopes_function derives
  | arrow => exact scopes_arrow derives
  | member owner => exact scopes_member derives
  | jumpStatement kind =>
      -- The kind is a parameter; the two that are proper are checked one by one.
      refine scopes_of_keepsScope (fun proper => ?_) derives
      simp only [isProper, Bool.or_eq_true, decide_eq_true_eq] at proper
      rcases proper with rfl | rfl <;> decide
  | binary minimum =>
      have keeps : ∀ minimum : Precedence, (binary minimum).keepsScope = true := by decide
      exact scopes_of_keepsScope (fun _ => keeps minimum) derives
  | binaryTail minimum =>
      have keeps : ∀ minimum : Precedence, (binaryTail minimum).keepsScope = true := by decide
      exact scopes_of_keepsScope (fun _ => keeps minimum) derives
  | memberTail calls =>
      refine scopes_of_keepsScope (fun _ => ?_) derives
      cases calls <;> decide
  | items shape =>
      refine scopes_of_keepsScope (fun _ => ?_) derives
      cases shape <;> decide
  | _ => exact scopes_of_keepsScope (fun _ => by decide) derives

theorem Nonterminal.nestWith_scopes (terminals : Terminals) (fuel : Nat) :
    CallsSatisfy (nestWith production terminals fuel) (Scopes terminals) :=
  nestWith_satisfies scopes_of_derives fuel

/-! ## Trees -/

theorem Rule.Matched.children_scoped {terminals : Terminals} {rule : Rule} {last : Nat}
    {state : ParseState} {kind : Kind} {children : Forest}
    (matched : rule.Matched terminals last state kind children) :
    children.Scoped .outermost kind children := by
  obtain ⟨place, later, parsed, forest, _⟩ := matched.nested
  have scopes := Nonterminal.nestWith_scopes _ _ _ _ _ _ _ _ parsed
  obtain ⟨found, inside, ⟨added, _, fits⟩, _⟩ := scopes.exists_node rule.role_nonterminal
    rule.isProper_nonterminal rule.needs_nonterminal (by cases rule <;> decide)
  cases forest.symm.trans added
  exact fits

theorem Rule.Matched.isScoped {stream : TokenStream} (accepts : stream.Accepts) {rule : Rule}
    {start : Nat} (before : start ≤ stream.eofIndex) {state : ParseState} {kind : Kind}
    {children : Forest}
    (matched : rule.Matched (.ofTokens (stream.tokens.toList.drop start)) (stream.eofIndex - start)
      state kind children) :
    ((Forest.empty.node kind children).tree stream start).IsScoped := by
  have shape := Forest.shape_tree matched.built matched.consecutive.1 (matched.liesOn accepts before)
  rw [SyntaxTree.shape] at shape
  simp only [Forest.node.injEq, true_and] at shape
  rw [SyntaxTree.IsScoped, shape.1, shape.2]
  exact matched.children_scoped

/-- In every tree of a match or a parse, `yield` and `await` are keywords where their scope makes them
operators, and names elsewhere. -/
theorem matchRule_scopes_operators {text : List Char} {tokens : Array Token} {stream : TokenStream}
    (accepted : TokenStream.ofTokens text tokens = .ok stream) (rule : Rule) :
    (∀ (position : Nat) (tree : SyntaxTree) (next : Cursor),
      matchRule rule (.atToken stream position) = .ok (tree, next) → tree.IsScoped) ∧
    ∀ tree : SyntaxTree, parseStream rule stream = .ok tree → tree.IsScoped := by
  obtain ⟨-, accepts⟩ := TokenStream.accepts_of_ofTokens accepted
  exact accepts.holds_of_matched rule fun _ before _ _ _ matched => matched.isScoped accepts before

/-- In the body of a generator `yield` is an operator. -/
theorem matchRule_scopes_yield :
    let text := ['f', 'u', 'n', 'c', 't', 'i', 'o', 'n', '*', 'g', '(', ')', '\x7b', 'y', 'i', 'e', 'l',
      'd', '\x7d']
    let token (kind : Kind) (start stop : Nat) : Token := ⟨.empty, kind, ⟨start, stop⟩, .empty⟩
    let tokens : Array Token := #[token .functionKw 0 8, token .star 8 9, token .ident 9 10,
      token .leftParen 10 11, token .rightParen 11 12, token .leftBrace 12 13, token .yieldKw 13 18,
      token .rightBrace 18 19, token .eof 19 19]
    let stream : TokenStream := ⟨text, tokens⟩
    TokenStream.ofTokens text tokens = .ok stream ∧
    ∃ tree, parseStream .functionDeclaration stream = .ok tree ∧
      tree.kind 5 = .yieldExpression ∧ tree.IsScoped := by
  intro text token tokens stream
  have accepted : TokenStream.ofTokens text tokens = .ok stream := rfl
  have parsed : (parseStream .functionDeclaration stream).toOption.map (fun tree => tree.kind 5) =
      some .yieldExpression := by decide +kernel
  refine ⟨accepted, ?_⟩
  cases result : parseStream .functionDeclaration stream with
  | error failure =>
      rw [result] at parsed
      cases parsed
  | ok tree =>
      rw [result] at parsed
      exact ⟨tree, rfl, Option.some.inj parsed,
        (matchRule_scopes_operators accepted .functionDeclaration).2 tree result⟩

end ScriptTree
