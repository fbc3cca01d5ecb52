import ScriptTree.Proofs.BindingPattern
import ScriptTree.Proofs.RoundTrip

/-! # Printing and parsing of binding patterns

Every list of a pattern is taken by the same loop, if its elements are taken one by one. A member of an
object is first read as a key, and as a shorthand if that fails. So the tokens of a binding element parse
to the element. -/
set_option autoImplicit false
namespace ScriptTree

open Grammar Production

/-! ## Where elements end -/

def Place.past (place : Place) (length : Nat) (kind : Kind) (children : Forest) : Place :=
  ⟨place.position + length, place.forest.node kind children, some (kind, place.position)⟩

@[simp] theorem Place.position_past (place : Place) (length : Nat) (kind : Kind) (children : Forest) :
    (place.past length kind children).position = place.position + length := rfl

theorem Place.eq_past {place there : Place} {length : Nat} {kind : Kind} {children : Forest}
    (position : there.position = place.position + length)
    (forest : there.forest = place.forest.node kind children)
    (completed : there.completed = some (kind, place.position)) : there = place.past length kind children := by
  obtain ⟨_, _, _⟩ := there
  cases position
  cases forest
  cases completed
  rfl

def bindingEnds : List Kind := [.comma, .rightBracket, .rightBrace, .eof]

def targetStarts : List Kind := [.ident, .leftBracket, .leftBrace]

variable {terminals : Terminals} {scope : Scope} {place : Place}

theorem takes_assignment_identifier (next : terminals.kindAt place.position = .ident)
    (ends : terminals.kindAt (place.position + 1) ∈ bindingEnds) :
    (Production.call .assignment).Takes terminals scope place .any (place.behind .identifier) .any := by
  have closes : ∀ kind ∈ bindingEnds, EndsAssignment kind ∧ kind ≠ .fatArrow := by decide
  obtain ⟨ending, noArrow⟩ := closes _ ends
  have reads : terminals.Reads place.position Expression.identifier.tokens := ⟨next, trivial⟩
  have canonical : Expression.identifier.Canonical := trivial
  have isOperand : Expression.identifier.kind ∈ operandKinds := by decide
  have primary : Expression.identifier.TakenByLeftHandSide terminals :=
    Expression.takenByLeftHandSide_of_primary fun reads => ⟨by simp [reads.1], takes_identifier reads.1⟩
  have unary : Expression.identifier.TakenByUnary terminals := primary.takenByUnary canonical (by decide)
  have binary : Expression.identifier.TakenByBinary terminals := unary.takenByBinary (by decide)
  have conditional : Expression.identifier.TakenByConditional terminals :=
    binary.takenByConditional canonical isOperand
  have takes : (Production.call .conditional).Takes terminals scope place .any (place.behind .identifier) .any :=
    (conditional (List.mem_cons_of_mem _ isOperand) reads ending.1 fun _ => ending.2).forget
  refine .call (.branch_no (fun _ _ => by simp [Guard.admits, next]) (.branch_no (fun _ _ => ?_)
    (.call (.seq takes (.branch_no (fun _ _ => ?_) .empty)))))
  · simp [atArrowStart, Guard.admits, next, noArrow]
  · rw [Guard.admits, Bool.and_eq_false_iff]
    exact .inl (Guard.rejects_of_notMem ending.2)

/-- A target that was just completed is given the default that follows it. -/
theorem takes_initializer {length : Nat} {kind : Kind} {children : Forest} (hasDefault : Bool)
    (reads : terminals.Reads (place.position + length) (defaultTokens hasDefault))
    (ends : terminals.kindAt (place.position + (length + (defaultTokens hasDefault).length)) ∈ bindingEnds) :
    initializer.Takes terminals scope (place.past length kind children) .any
      (place.past (length + (defaultTokens hasDefault).length) (initializedKind kind hasDefault)
        (initializedChildren kind children (place.position + length) hasDefault)) .any := by
  cases hasDefault with
  | false =>
      have others : ∀ kind ∈ bindingEnds, kind ∉ [Kind.eq] := by decide
      exact .branch_no (fun _ _ => Guard.rejects_of_notMem (others _ ends)) .expected
  | true =>
      obtain ⟨equals, name, -⟩ := reads
      have takesName : (Production.call .assignment).Takes terminals scope
          ((place.past length kind children).inside.behindToken .eq) .any _ .any :=
        takes_assignment_identifier name ends
      exact .branch_yes (fun _ _ => Guard.admits_of_mem equals List.mem_cons_self)
        (.wrap rfl (.seq (.take equals) takesName))

/-! ## Targets and elements -/

def BindingTarget.Parses (terminals : Terminals) (target : BindingTarget) : Prop :=
  ∀ (scope : Scope) (place : Place), terminals.Reads place.position target.tokens →
    (Production.call .bindingTarget).Takes terminals scope place .any
      (place.past target.tokens.length target.kind (target.children place.position)) .any

def BindingElement.Parses (terminals : Terminals) (element : BindingElement) : Prop :=
  ∀ (scope : Scope) (place : Place), terminals.Reads place.position element.tokens →
    terminals.kindAt (place.position + element.tokens.length) ∈ bindingEnds →
      (Production.call .bindingElement).Takes terminals scope place .any
        (place.past element.tokens.length element.kind (element.children place.position)) .any

theorem takes_bindingIdentifier (next : terminals.kindAt place.position = .ident) :
    (Production.call .bindingIdentifier).Takes terminals scope place .any
      (place.past 1 .bindingIdentifier (Forest.empty.token place.position .ident)) .any := by
  have name : Production.identifier.Takes terminals scope place.inside .any
      (place.inside.behindToken .ident) .any :=
    .branch_yes (fun _ _ => by simp [Guard.admits, Place.inside, next, ParseState.isIdentifierAt])
      (.take next)
  exact .call (.node name)

theorem BindingTarget.parses_name : BindingTarget.name.Parses terminals := by
  intro scope place reads
  refine .call (.select_otherwise ?_ (takes_bindingIdentifier reads.1))
  intro targets _ entry member
  simp only [List.mem_cons, List.not_mem_nil, or_false] at member
  rcases member with rfl | rfl <;> simp [Guard.admits, reads.1]

theorem BindingElement.parses_element {target : BindingTarget} (parses : target.Parses terminals)
    (hasDefault : Bool) : (BindingElement.element target hasDefault).Parses terminals := by
  intro scope place reads ends
  obtain ⟨targetReads, defaultReads⟩ := Terminals.reads_append.mp reads
  rw [tokens, List.length_append] at ends ⊢
  exact .call (.seq (parses scope place targetReads) (takes_initializer hasDefault defaultReads ends))

theorem BindingElement.first_of_reads {element : BindingElement}
    (reads : terminals.Reads place.position element.tokens) :
    terminals.kindAt place.position ∈ targetStarts := by
  obtain ⟨target, hasDefault⟩ := element
  cases target <;> simp [targetStarts, reads.1]

theorem initializedKind_ne_restElement {kind : Kind} (other : kind ≠ .restElement) (hasDefault : Bool) :
    initializedKind kind hasDefault ≠ .restElement := by
  cases hasDefault with
  | false => exact other
  | true => exact nofun

theorem BindingElement.kind_ne_restElement (element : BindingElement) : element.kind ≠ .restElement := by
  obtain ⟨target, hasDefault⟩ := element
  exact initializedKind_ne_restElement (by cases target <;> exact nofun) hasDefault

theorem ObjectBinding.kind_ne_restElement (member : ObjectBinding) : member.kind ≠ .restElement := by
  cases member with
  | property key element => exact nofun
  | shorthand hasDefault => exact initializedKind_ne_restElement (by decide) hasDefault

/-! ## Lists -/

namespace ListShape

/-- A list that a token closes, in which nothing stands behind a rest element. -/
structure BindsUpTo (shape : ListShape) (closing : Kind) : Prop where
  closes : shape.closing? = some closing
  last : shape.last? = some .restElement
  ends : closing ∈ bindingEnds ∧ closing ≠ .comma

/-- An element of a list, in front of a token that may stand behind one. -/
def TakesItem (terminals : Terminals) (shape : ListShape) (tokens : List Kind) (kind : Kind)
    (children : Nat → Forest) : Prop :=
  ∀ (scope : Scope) (place : Place), terminals.Reads place.position tokens →
    terminals.kindAt (place.position + tokens.length) ∈ bindingEnds →
      terminals.kindAt place.position ∉ bindingEnds ∧
        (Production.call shape.element).Takes terminals scope place .any
          (place.past tokens.length kind (children place.position)) .any

def TakesItems (terminals : Terminals) (shape : ListShape) (closing : Kind) (tokens : List Kind)
    (items : Forest → Nat → Forest) : Prop :=
  ∀ (scope : Scope) (place : Place), terminals.Reads place.position tokens →
    terminals.kindAt (place.position + tokens.length) = closing →
      ∃ completed, (Production.call (.items shape)).Takes terminals scope place .any
        ⟨place.position + tokens.length, items place.forest place.position, completed⟩ .any

variable {shape : ListShape} {closing kind : Kind} {tokens others : List Kind} {children : Nat → Forest}
  {items : Forest → Nat → Forest}

namespace BindsUpTo

theorem takesItems_nothing (binds : shape.BindsUpTo closing) :
    shape.TakesItems terminals closing [] fun before _ => before := by
  intro scope place _ next
  refine ⟨place.completed, .call ?_⟩
  simp only [Nonterminal.production, items, binds.closes]
  exact .branch_yes (fun _ _ => Guard.admits_of_mem next List.mem_cons_self) .empty

theorem takes_items (binds : shape.BindsUpTo closing) {middle after : Place}
    (start : terminals.kindAt place.position ∉ bindingEnds)
    (takes : (Production.call shape.element).Takes terminals scope place .any middle .any)
    (further : (Production.branch (.completed [.restElement]) .empty
      (.branch (.nextIs .comma) (.seq .take (.call (.items shape))) (.expected .comma))).Takes terminals
        scope middle .any after .any) :
    (Production.call (.items shape)).Takes terminals scope place .any after .any := by
  refine .call (.select_otherwise (fun targets _ entry member => ?_) ?_)
  · have looks : ∃ kind ∈ bindingEnds, entry.1 = .nextIs kind := by
      rcases List.mem_append.mp member with ended | hole
      · rw [binds.closes] at ended
        cases List.mem_singleton.mp ended
        exact ⟨closing, binds.ends.1, rfl⟩
      · split at hole
        · cases List.mem_singleton.mp hole
          exact ⟨.comma, by decide, rfl⟩
        · cases hole
    obtain ⟨kind, ends, same⟩ := looks
    rw [same]
    refine Guard.rejects_of_notMem fun found => start ?_
    rwa [List.mem_singleton.mp found]
  · rw [binds.last]
    exact .seq takes further

theorem takesItems_last (binds : shape.BindsUpTo closing)
    (item : shape.TakesItem terminals tokens kind children) :
    shape.TakesItems terminals closing tokens fun before start => before.node kind (children start) := by
  intro scope place reads next
  obtain ⟨start, takes⟩ := item scope place reads (next ▸ binds.ends.1)
  have noComma : terminals.kindAt (place.position + tokens.length) ∉ [Kind.comma] := by
    simpa [next] using binds.ends.2
  exact ⟨_, binds.takes_items start takes (.branch (Takes.empty.weaken (fun _ _ => trivial) fun _ => id)
    (.branch_no (fun _ _ => Guard.rejects_of_notMem noComma)
      (Takes.expected.weaken (fun _ _ => trivial) fun _ => id)))⟩

theorem takesItems_more (binds : shape.BindsUpTo closing)
    (item : shape.TakesItem terminals tokens kind children) (other : kind ≠ .restElement)
    (further : shape.TakesItems terminals closing others items) :
    shape.TakesItems terminals closing (tokens ++ .comma :: others) fun before start =>
      items ((before.node kind (children start)).token (start + tokens.length) .comma)
        (start + tokens.length + 1) := by
  intro scope place reads next
  obtain ⟨reads, comma, othersRead⟩ := Terminals.reads_append.mp reads
  have behind : place.position + (tokens ++ .comma :: others).length =
      place.position + tokens.length + 1 + others.length := by
    rw [List.length_append, List.length_cons]
    omega
  rw [behind] at next ⊢
  obtain ⟨start, takes⟩ := item scope place reads (comma ▸ by decide)
  obtain ⟨completed, takesOthers⟩ := further scope
    ((place.past tokens.length kind (children place.position)).behindToken .comma) othersRead next
  refine ⟨completed, binds.takes_items start takes (.branch_no (fun _ _ => ?_) (.branch_yes (fun _ _ => ?_)
    (.seq (.take comma) takesOthers)))⟩
  · simp [Guard.admits, Place.past, other]
  · exact Guard.admits_of_mem comma List.mem_cons_self

end BindsUpTo

theorem arrayBindingElements_bindsUpTo : arrayBindingElements.BindsUpTo .rightBracket :=
  ⟨rfl, rfl, by decide⟩

theorem objectBindingMembers_bindsUpTo : objectBindingMembers.BindsUpTo .rightBrace :=
  ⟨rfl, rfl, by decide⟩

theorem takesItems_hole (further : arrayBindingElements.TakesItems terminals .rightBracket others items) :
    arrayBindingElements.TakesItems terminals .rightBracket (.comma :: others) fun before start =>
      items (before.hole.token start .comma) (start + 1) := by
  intro scope place reads next
  obtain ⟨comma, othersRead⟩ := reads
  have behind : place.position + (Kind.comma :: others).length = place.position + 1 + others.length := by
    rw [List.length_cons]
    omega
  rw [behind] at next ⊢
  obtain ⟨completed, takes⟩ := further scope (place.addHole.behindToken .comma) othersRead next
  refine ⟨completed, .call (.branch_no (fun _ _ => ?_) (.branch_yes (fun _ _ => ?_)
    (.seq .hole (.seq (.take comma) takes))))⟩
  · exact Guard.rejects_of_notMem (by rw [comma]; decide)
  · exact Guard.admits_of_mem comma List.mem_cons_self

end ListShape

/-! ## Elements of lists -/

theorem takes_restElement {target : BindingTarget} (parses : target.Parses terminals)
    (reads : terminals.Reads place.position (.dot3 :: target.tokens)) :
    (Production.call .restElement).Takes terminals scope place .any
      (place.past (target.tokens.length + 1) .restElement
        ((Forest.empty.token place.position .dot3).node target.kind
          (target.children (place.position + 1)))) .any := by
  obtain ⟨dots, reads⟩ := reads
  have takes := parses scope (place.inside.behindToken .dot3) reads
  refine .call (.cast (.node (.seq (.expect dots) takes)) (Place.eq_past ?_ rfl rfl))
  simp only [Place.position_addNode, Place.position_past, Place.position_behindToken, Place.position_inside]
  omega

theorem takesItem_rest {target : BindingTarget} (parses : target.Parses terminals) {shape : ListShape}
    {otherwise : Production}
    (begins : shape.element.production = .branch (.nextIs .dot3) (.call .restElement) otherwise) :
    shape.TakesItem terminals (.dot3 :: target.tokens) .restElement fun start =>
      (Forest.empty.token start .dot3).node target.kind (target.children (start + 1)) := by
  intro scope place reads _
  refine ⟨by rw [reads.1]; decide, .call ?_⟩
  rw [begins]
  exact .branch_yes (fun _ _ => Guard.admits_of_mem reads.1 List.mem_cons_self)
    (takes_restElement parses reads)

theorem BindingElement.Parses.takesItem {element : BindingElement} (parses : element.Parses terminals) :
    ListShape.arrayBindingElements.TakesItem terminals element.tokens element.kind element.children := by
  intro scope place reads ends
  have others : ∀ kind ∈ targetStarts, kind ∉ bindingEnds ∧ kind ∉ [Kind.dot3] := by decide
  obtain ⟨start, noRest⟩ := others _ (first_of_reads reads)
  exact ⟨start, .call (.branch_no (fun _ _ => Guard.rejects_of_notMem noRest)
    (parses scope place reads ends))⟩

/-! ## Members of objects -/

theorem PatternKey.takes (key : PatternKey) (reads : terminals.Reads place.position key.tokens) :
    (propertyKey false).Takes terminals scope place .any
      (place.past key.tokens.length key.kind (key.children place.position)) .any := by
  cases key with
  | named kind isName =>
      have others : ∀ kind ∈ propertyNameKinds false, kind ∉ [Kind.leftBracket] := by decide
      have next : terminals.kindAt place.position = kind := reads.1
      have name : (expectOneOf (propertyNameKinds false) "property name").Takes terminals scope place.inside
          .any (place.inside.behindToken kind) .any :=
        .branch_yes (fun _ _ => Guard.admits_of_mem next isName) (.take next)
      exact .branch_no (fun _ _ => Guard.rejects_of_notMem (next ▸ others kind isName)) (.node name)
  | computed =>
      obtain ⟨opening, name, closing, -⟩ := reads
      have inner : (Production.call .assignment).Takes terminals scope
          (place.inside.behindToken .leftBracket) .any _ .any :=
        takes_assignment_identifier name (closing ▸ by decide)
      exact .branch_yes (fun _ _ => Guard.admits_of_mem opening List.mem_cons_self)
        (.node (.seq (.take opening) (.seq inner (.expect closing))))

namespace ObjectBinding

theorem first_of_reads {member : ObjectBinding} (reads : terminals.Reads place.position member.tokens) :
    terminals.kindAt place.position ∈ .leftBracket :: propertyNameKinds false := by
  cases member with
  | property key element =>
      cases key with
      | named kind isName => exact reads.1 ▸ List.mem_cons_of_mem _ isName
      | computed => exact reads.1 ▸ List.mem_cons_self
  | shorthand hasDefault => exact reads.1 ▸ by decide

theorem takesItem {member : ObjectBinding}
    (takes : ∀ (scope : Scope) (place : Place), terminals.Reads place.position member.tokens →
      terminals.kindAt (place.position + member.tokens.length) ∈ bindingEnds →
        (firstOf [.call .bindingProperty, .call .shorthandBinding]).Takes terminals scope place .any
          (place.past member.tokens.length member.kind (member.children place.position)) .any) :
    ListShape.objectBindingMembers.TakesItem terminals member.tokens member.kind member.children := by
  intro scope place reads ends
  have others : ∀ kind ∈ .leftBracket :: propertyNameKinds false, kind ∉ bindingEnds ∧ kind ∉ [Kind.dot3] := by
    decide
  obtain ⟨start, noRest⟩ := others _ (first_of_reads reads)
  exact ⟨start, .call (.branch_no (fun _ _ => Guard.rejects_of_notMem noRest) (takes scope place reads ends))⟩

theorem takesItem_property (key : PatternKey) {element : BindingElement}
    (parses : element.Parses terminals) :
    ListShape.objectBindingMembers.TakesItem terminals (property key element).tokens
      (property key element).kind (property key element).children := by
  apply takesItem
  intro scope place reads ends
  obtain ⟨keyReads, colon, elementReads⟩ := Terminals.reads_append.mp reads
  have behind : place.position + (property key element).tokens.length =
      place.position + key.tokens.length + 1 + element.tokens.length := by
    rw [tokens, List.length_append, List.length_cons]
    omega
  rw [behind] at ends
  have takesKey : (propertyKey false).Takes terminals scope place.inside .any _ .any := key.takes keyReads
  have takesElement := parses scope
    ((place.inside.past key.tokens.length key.kind (key.children place.position)).behindToken .colon)
    elementReads ends
  refine .orElse_left (.call ((Takes.node (.seq takesKey (.seq (.expect colon) takesElement))).cast
    (Place.eq_past ?_ rfl rfl)))
  rw [behind]
  rfl

/-- A shorthand is first read as a key, behind which the colon is missing. -/
theorem takesItem_shorthand (hasDefault : Bool) :
    ListShape.objectBindingMembers.TakesItem terminals (shorthand hasDefault).tokens
      (shorthand hasDefault).kind (shorthand hasDefault).children := by
  apply takesItem
  intro scope place reads ends
  obtain ⟨name, defaultReads⟩ := reads
  have behind : place.position + (shorthand hasDefault).tokens.length =
      place.position + (1 + (defaultTokens hasDefault).length) := by
    rw [tokens, List.length_cons]
    omega
  rw [behind] at ends
  have noColon : terminals.kindAt (place.position + 1) ≠ .colon := by
    cases hasDefault with
    | false =>
        have others : ∀ kind ∈ bindingEnds, kind ≠ .colon := by decide
        exact others _ ends
    | true => simp [defaultReads.1]
  have isName : Kind.ident ∈ propertyNameKinds false := by decide
  have takesKey : (propertyKey false).Takes terminals scope place.inside .any _ .any :=
    (PatternKey.named .ident isName).takes ⟨name, trivial⟩
  refine Refuses.orElse (.call (.node (.seq takesKey (.seq_left (.expect noColon))))) (.orElse_left (.call ?_))
  refine ((takes_bindingIdentifier name).seq (takes_initializer hasDefault defaultReads ends)).cast ?_
  exact Place.eq_past behind.symm rfl rfl

end ObjectBinding

/-! ## Patterns of any depth -/

theorem ListShape.TakesItems.takes_enclosed {shape : ListShape} {opening closing kind : Kind}
    {tokens : List Kind} {items : Forest → Nat → Forest}
    (takesItems : shape.TakesItems terminals closing tokens items)
    (reads : terminals.Reads place.position (opening :: (tokens ++ [closing]))) :
    (Production.node kind (series [expect opening, .list (.call (.items shape)), expect closing])).Takes
      terminals scope place .any
      (place.past (opening :: (tokens ++ [closing])).length kind
        (((Forest.empty.token place.position opening).list (items .empty (place.position + 1))).token
          (place.position + 1 + tokens.length) closing)) .any := by
  obtain ⟨opens, reads⟩ := reads
  obtain ⟨reads, closes, -⟩ := Terminals.reads_append.mp reads
  obtain ⟨completed, takes⟩ := takesItems scope (place.inside.behindToken opening).inside reads closes
  refine (Takes.node (.seq (.expect opens) (.seq (.list takes) (.expect closes)))).cast
    (Place.eq_past ?_ rfl rfl)
  simp only [Place.position_addNode, Place.position_behindToken, Place.position_addList,
    Place.position_inside, List.length_cons, List.length_append, List.length_nil]
  omega

theorem BindingTarget.parses_array {items : ArrayBindings}
    (takesItems : ListShape.arrayBindingElements.TakesItems terminals .rightBracket items.tokens items.items) :
    (array items).Parses terminals := by
  intro scope place reads
  exact .call (.branch_yes (fun _ _ => Guard.admits_of_mem reads.1 List.mem_cons_self)
    (.call (takesItems.takes_enclosed reads)))

theorem BindingTarget.parses_object {members : ObjectBindings}
    (takesItems : ListShape.objectBindingMembers.TakesItems terminals .rightBrace members.tokens
      members.items) : (object members).Parses terminals := by
  intro scope place reads
  have opening : terminals.kindAt place.position = .leftBrace := reads.1
  exact .call (.branch_no (fun _ _ => Guard.rejects_of_notMem (by rw [opening]; decide))
    (.branch_yes (fun _ _ => Guard.admits_of_mem opening List.mem_cons_self)
      (.call (takesItems.takes_enclosed reads))))

mutual

theorem BindingTarget.parses (terminals : Terminals) : (target : BindingTarget) → target.Parses terminals
  | .name => BindingTarget.parses_name
  | .array items => BindingTarget.parses_array (items.takesItems terminals)
  | .object members => BindingTarget.parses_object (members.takesItems terminals)

theorem BindingElement.parses (terminals : Terminals) : (element : BindingElement) → element.Parses terminals
  | .element target hasDefault => BindingElement.parses_element (target.parses terminals) hasDefault

theorem ArrayBindings.takesItems (terminals : Terminals) : (bindings : ArrayBindings) →
    ListShape.arrayBindingElements.TakesItems terminals .rightBracket bindings.tokens bindings.items
  | .none => ListShape.arrayBindingElements_bindsUpTo.takesItems_nothing
  | .rest target =>
      ListShape.arrayBindingElements_bindsUpTo.takesItems_last (takesItem_rest (target.parses terminals) rfl)
  | .last element =>
      ListShape.arrayBindingElements_bindsUpTo.takesItems_last (element.parses terminals).takesItem
  | .hole others => ListShape.takesItems_hole (others.takesItems terminals)
  | .more element others =>
      ListShape.arrayBindingElements_bindsUpTo.takesItems_more (element.parses terminals).takesItem
        element.kind_ne_restElement (others.takesItems terminals)

theorem ObjectBindings.takesItems (terminals : Terminals) : (bindings : ObjectBindings) →
    ListShape.objectBindingMembers.TakesItems terminals .rightBrace bindings.tokens bindings.items
  | .none => ListShape.objectBindingMembers_bindsUpTo.takesItems_nothing
  | .rest target =>
      ListShape.objectBindingMembers_bindsUpTo.takesItems_last (takesItem_rest (target.parses terminals) rfl)
  | .last member => ListShape.objectBindingMembers_bindsUpTo.takesItems_last (member.takesItem_parsed terminals)
  | .more member others =>
      ListShape.objectBindingMembers_bindsUpTo.takesItems_more (member.takesItem_parsed terminals)
        member.kind_ne_restElement (others.takesItems terminals)

theorem ObjectBinding.takesItem_parsed (terminals : Terminals) : (member : ObjectBinding) →
    ListShape.objectBindingMembers.TakesItem terminals member.tokens member.kind member.children
  | .property key element => ObjectBinding.takesItem_property key (element.parses terminals)
  | .shorthand hasDefault => ObjectBinding.takesItem_shorthand hasDefault

end

/-- The tokens of a binding element parse to the element, wherever the lines break. -/
theorem parseStream_returns_bindingElement {element : BindingElement} {text : List Char}
    {tokens : Array Token} {stream : TokenStream}
    (accepted : TokenStream.ofTokens text tokens = .ok stream)
    (printed : tokens.toList.map Token.kind = element.tokens ++ [.eof]) :
    ∃ tree, parseStream .bindingElement stream = .ok tree ∧ tree.stream = stream ∧
      tree.firstToken = 0 ∧
      tree.shape = Forest.empty.node element.kind (element.children 0) := by
  obtain ⟨rfl, accepts⟩ := TokenStream.accepts_of_ofTokens accepted
  have reads := Terminals.reads_ofTokens [] tokens.toList
  rw [List.nil_append, printed] at reads
  obtain ⟨reads, ended, -⟩ := Terminals.reads_append.mp reads
  have takes := element.parses _ .outermost .start reads (ended ▸ by decide)
  obtain ⟨later, gives, _⟩ := takes .start trivial
  have size := accepts.size_eq
  have count := congrArg List.length printed
  rw [List.length_map, Array.length_toList, List.length_append, List.length_singleton] at count
  have ends := accepts.terminals_endsAt (Nat.zero_le _)
  have nested := Rule.bindingElement.nestWith_eq_of_gives (by simpa using ends)
    (by simpa [Terminals.ofTokens] using size) gives
  refine parseStream_of_nested accepts .bindingElement nested ?_
  change TokenStream.eofIndex _ ≤ 0 + element.tokens.length
  change tokens.size = _ at size
  omega

/-- A pattern with holes, a computed key, a shorthand with a default, commas at the end and a rest, over two
lines. -/
theorem parseStream_returns_destructuring :
    let inner : ArrayBindings := .hole (.more (.element .name true) (.hole .none))
    let members : ObjectBindings := .more (.property .computed (.element (.array inner) false))
      (.more (.shorthand true) (.rest .name))
    let element : BindingElement := .element (.object members) false
    let text := "\x7b[k]:[,a=b,,],c=d,\n...r\x7d".toList
    let stream := tokenize text
    TokenStream.ofTokens text stream.tokens = .ok stream ∧
    stream.tokens.toList.map Token.kind = element.tokens ++ [.eof] ∧
    ∃ tree, parseStream .bindingElement stream = .ok tree ∧ tree.stream = stream ∧
      tree.firstToken = 0 ∧
      tree.shape = Forest.empty.node element.kind (element.children 0) := by
  intro inner members element text stream
  have faultless : TokenStream.fault? text stream.tokens.toList = none := by decide +kernel
  have accepted : TokenStream.ofTokens text stream.tokens = .ok stream := by
    rw [TokenStream.ofTokens, faultless]
    rfl
  have printed : stream.tokens.toList.map Token.kind = element.tokens ++ [.eof] := by decide +kernel
  exact ⟨accepted, printed, parseStream_returns_bindingElement accepted printed⟩

end ScriptTree
