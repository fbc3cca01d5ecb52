import ScriptTree.Proofs.NodeParts

/-! # Drawing the nodes of the grammar

A production is gone through by its form, with what was taken since the innermost node was opened. Each
choice is followed both ways, so a production reaches several sketches, and each node that it closes has
to pass a check. Every nonterminal leaves what is told of it once and for all, and a call is told by that. -/
set_option autoImplicit false
namespace ScriptTree

/-- What was taken since a node was opened, the last part first, and what is known of the next tokens. -/
structure Sketch where
  parts : List Part
  facts : List Fact
  deriving DecidableEq, Repr

/-! ## What nonterminals leave -/

def statementKinds : List Kind := [
  .block, .variableStatement, .emptyStatement, .expressionStatement, .ifStatement, .doWhileStatement,
  .whileStatement, .forStatement, .forInStatement, .forOfStatement, .continueStatement,
  .breakStatement, .returnStatement, .withStatement, .switchStatement, .labelledStatement,
  .throwStatement, .tryStatement, .debuggerStatement, .functionDeclaration, .generatorDeclaration,
  .classDeclaration]

def expressionKinds : List Kind := [
  .identifierReference, .thisExpression, .superExpression, .literal, .templateLiteral,
  .taggedTemplate, .arrayLiteral, .objectLiteral, .parenthesizedExpression, .functionExpression,
  .generatorExpression, .arrowFunction, .classExpression, .dotMemberExpression,
  .bracketMemberExpression, .callExpression, .newExpression, .postfixExpression, .unaryExpression,
  .awaitExpression, .binaryExpression, .conditionalExpression, .assignmentExpression,
  .yieldExpression, .sequenceExpression]

def targetKinds : List Kind := [.bindingIdentifier, .arrayBindingPattern, .objectBindingPattern]

def bindingKinds : List Kind := .initializedBindingElement :: targetKinds

def classMemberKinds : List Kind := [.method, .generatorMethod, .getter, .setter, .fieldDefinition]

def propertyKinds : List Kind :=
  [.pairProperty, .shorthandProperty, .method, .generatorMethod, .getter, .setter, .spreadElement]

def ListShape.elementKinds : ListShape → List Kind
  | arrayElements | arguments => .spreadElement :: expressionKinds
  | objectMembers => propertyKinds
  | parameters | arrayBindingElements => .restElement :: bindingKinds
  | objectBindingMembers => .restElement :: .bindingProperty :: bindingKinds
  | declarators => bindingKinds

namespace Nonterminal

def yields : Nonterminal → List Kind
  | script => [.script]
  | statement | labelledOrExpressionStatement => statementKinds
  | expressionStatement => [.expressionStatement]
  | block => [.block]
  | variableStatement => [.variableStatement]
  | variableDeclaration => [.variableDeclaration]
  | ifStatement => [.ifStatement]
  | doWhileStatement => [.doWhileStatement]
  | whileStatement => [.whileStatement]
  | forStatement => [.forStatement, .forInStatement, .forOfStatement]
  | forInStatement => [.forInStatement]
  | forOfStatement => [.forOfStatement]
  | classicForStatement => [.forStatement]
  | forBinding => .variableDeclaration :: expressionKinds
  | jumpStatement kind => [kind]
  | returnStatement => [.returnStatement]
  | withStatement => [.withStatement]
  | switchStatement => [.switchStatement]
  | caseClause => [.caseClause]
  | defaultClause => [.defaultClause]
  | labelledStatement => [.labelledStatement]
  | throwStatement => [.throwStatement]
  | tryStatement => [.tryStatement]
  | catchClause => [.catchClause]
  | functionDeclaration => [.functionDeclaration, .generatorDeclaration]
  | functionExpression => [.functionExpression, .generatorExpression]
  | function form => [form.kind]
  | formalParameters => [.formalParameters]
  | parameter | arrayBindingElement => .restElement :: bindingKinds
  | functionBody => [.functionBody]
  | arrowFunction | arrow => [.arrowFunction]
  | classDeclaration => [.classDeclaration]
  | classExpression => [.classExpression]
  | classBody => [.classBody]
  | member .classBody => classMemberKinds
  | member .objectLiteral | objectMember => propertyKinds
  | bindingIdentifier => [.bindingIdentifier]
  | bindingTarget => targetKinds
  | bindingElement | shorthandBinding => bindingKinds
  | restElement => [.restElement]
  | arrayBindingPattern => [.arrayBindingPattern]
  | objectBindingPattern => [.objectBindingPattern]
  | objectBindingMember => .restElement :: .bindingProperty :: bindingKinds
  | bindingProperty => [.bindingProperty]
  | identifierReference => [.identifierReference]
  | templateLiteral => [.templateLiteral]
  | arguments => [.arguments]
  | spreadElement => [.spreadElement]
  | spreadOrAssignment => .spreadElement :: expressionKinds
  | _ => expressionKinds

/-- What stands at the end where a nonterminal starts. One that adds to a node is taken to go on with what
it adds itself. -/
def found : Nonterminal → List Part
  | sequenceTail | binaryTail _ | memberTail _ => [.node expressionKinds false]
  | scriptItems => [.several [] statementKinds]
  | statementsUntilBrace => [.several [.rightBrace] statementKinds]
  | switchClauses => [.several [.rightBrace] [.caseClause, .defaultClause]]
  | clauseStatements => [.several [] statementKinds]
  | classMembers => [.several [.semicolon, .rightBrace] classMemberKinds]
  | templateParts => [.several [.templateMiddle, .templateTail] expressionKinds]
  | items shape => [.several [.comma] shape.elementKinds]
  | _ => []

/-- What stands there in its place behind a nonterminal. -/
def left (nonterminal : Nonterminal) : List Part :=
  match nonterminal.role with
  | .node => [.node nonterminal.yields false]
  | _ => if nonterminal = scriptItems then .token [.eof] false :: nonterminal.found else nonterminal.found

/-- What a nonterminal needs to know of the next tokens. -/
def knownFacts (nonterminal : Nonterminal) : List Fact :=
  nonterminal.known.map fun fact => .kind fact.1 fact.2 true

end Nonterminal

/-! ## Sketching productions -/

namespace Part

def isSolid : Part → Bool
  | token _ _ | node _ _ => true
  | list _ | several _ _ => false

/-- Whether a part holds neither the end nor a script. -/
def isInner : Part → Bool
  | token kinds _ => .eof ∉ kinds
  | node kinds _ | list kinds => .script ∉ kinds
  | several tokens nodes => .eof ∉ tokens && .script ∉ nodes

end Part

namespace Sketch

/-- No line terminator is known to precede the next token. -/
def joins (sketch : Sketch) : Bool := sketch.facts.contains (.lineBreak 0 false)

def add (sketch : Sketch) (part : Part) : Sketch := { sketch with parts := part :: sketch.parts }

def learn (sketch : Sketch) (guard : Guard) (holds : Bool) : Sketch :=
  { sketch with facts := guard.told holds ++ sketch.facts }

def inside (sketch : Sketch) : Sketch := { sketch with parts := [] }

/-- What is known to be the next token, by the guard that told it last. -/
def known? (sketch : Sketch) : Option (List Kind) :=
  sketch.facts.findSome? fun
    | .kind 0 kinds true => some kinds
    | _ => none

def take? (sketch : Sketch) : Option Sketch :=
  sketch.known?.map fun kinds =>
    ⟨.token kinds sketch.joins :: sketch.parts, sketch.facts.filterMap Fact.next⟩

def call? (sketch : Sketch) (nonterminal : Nonterminal) : Option Sketch :=
  if nonterminal.isProper && nonterminal.knownFacts.all sketch.facts.contains then
    match nonterminal.role with
    | .node => some ⟨.node nonterminal.yields sketch.joins :: sketch.parts, []⟩
    | .tail =>
        match sketch.parts with
        | .node kinds _ :: parts =>
            if kinds ⊆ expressionKinds then some ⟨.node expressionKinds false :: parts, []⟩ else none
        | _ => none
    | .content | .items => some ⟨nonterminal.left ++ sketch.parts, []⟩
  else none

variable (check : Kind → Sketch → Bool)

def mayClose (kind : Kind) (sketch : Sketch) : Bool :=
  check kind sketch && sketch.parts.any Part.isSolid &&
    (kind = .script || sketch.parts.all Part.isInner)

def addNode? (outer : Sketch) (kind : Kind) (inner : Sketch) : Option (List Sketch) :=
  if inner.mayClose check kind then some [⟨.node [kind] outer.joins :: outer.parts, inner.facts⟩] else none

/-- A node around the last one, which holds besides what another sketch tells. -/
def wrapNode? (outer : Sketch) (kind : Kind) (inner : Sketch) : Option (List Sketch) :=
  match outer.parts with
  | .node kinds _ :: parts =>
      if (⟨inner.parts ++ [.node kinds false], inner.facts⟩ : Sketch).mayClose check kind then
        some [⟨.node [kind] false :: parts, inner.facts⟩]
      else none
  | _ => none

def addList? (outer inner : Sketch) : Option (List Sketch) :=
  match inner.parts with
  | [.several tokens nodes] =>
      if tokens ⊆ [.comma] then some [⟨.list nodes :: outer.parts, inner.facts⟩] else none
  | _ => none

def followAll (next : Sketch → Option (List Sketch)) : List Sketch → Option (List Sketch)
  | [] => some []
  | sketch :: rest =>
      match next sketch, followAll next rest with
      | some first, some others => some (first ++ others)
      | _, _ => none

def follow (reached : Option (List Sketch)) (next : Sketch → Option (List Sketch)) :
    Option (List Sketch) :=
  reached.bind (followAll next)

def both (first second : Option (List Sketch)) : Option (List Sketch) :=
  match first, second with
  | some first, some second => some (first ++ second)
  | _, _ => none

end Sketch

/-- The sketches that a production reaches from one, unless a node that does not pass the check is
closed. -/
def Production.sketches (check : Kind → Sketch → Bool) : Production → Sketch → Option (List Sketch)
  | .empty, sketch | .expected _, sketch | .expectedConstruct _, sketch | .markTarget, sketch =>
      some [sketch]
  | .refuse, _ => some []
  | .take, sketch => sketch.take?.map ([·])
  | .call nonterminal, sketch => (sketch.call? nonterminal).map ([·])
  | .seq first second, sketch => Sketch.follow (first.sketches check sketch) (second.sketches check)
  | .branch guard yes no, sketch =>
      Sketch.both (yes.sketches check (sketch.learn guard true)) (no.sketches check (sketch.learn guard false))
  | .node kind body, sketch =>
      Sketch.follow (body.sketches check sketch.inside) (sketch.addNode? check kind)
  | .fork head guard kindYes yes kindNo no, sketch =>
      Sketch.follow (head.sketches check sketch.inside) fun middle =>
        Sketch.both
          (Sketch.follow (yes.sketches check (middle.learn guard true)) (sketch.addNode? check kindYes))
          (Sketch.follow (no.sketches check (middle.learn guard false)) (sketch.addNode? check kindNo))
  | .wrap kind body, sketch =>
      Sketch.follow (body.sketches check sketch.inside) (sketch.wrapNode? check kind)
  | .orElse first second, sketch | .onceOrElse first second, sketch =>
      Sketch.both (first.sketches check sketch) (second.sketches check sketch)
  | .inScope _ body, sketch => body.sketches check sketch
  | .list body, sketch => Sketch.follow (body.sketches check sketch.inside) sketch.addList?
  | .hole, sketch => some [sketch.add (.several [] [])]

/-- Whether a nonterminal closes only nodes that pass the check, and leaves what is told of it. -/
def Nonterminal.isSketched (check : Kind → Sketch → Bool) (nonterminal : Nonterminal) : Bool :=
  match nonterminal.production.sketches check ⟨nonterminal.found, nonterminal.knownFacts⟩ with
  | some reached => reached.all fun sketch => Part.areWithin sketch.parts nonterminal.left
  | none => false

/-! ## What is drawn -/

/-- A node holds what a sketch that passes a check tells, up to a position behind its last token at which the
facts of the sketch are confirmed. -/
structure Forest.Drawn (check : Kind → Sketch → Bool) (terminals : Terminals) (kind : Kind)
    (children : Forest) : Prop where
  sketched : ∃ sketch start stop, check kind sketch = true ∧ children.Fits terminals sketch.parts ∧
    terminals.Confirms stop sketch.facts ∧ start < stop ∧ children.leaves = terminals.leaves start stop
  noEnd : kind ≠ .script → ∀ leaf ∈ children.leaves, leaf.2 ≠ .eof

theorem Forest.Drawn.leaves_ne_nil {check : Kind → Sketch → Bool} {terminals : Terminals} {kind : Kind}
    {children : Forest} (drawn : children.Drawn check terminals kind) : children.leaves ≠ [] := by
  obtain ⟨_, start, stop, -, -, -, moved, leaves⟩ := drawn.sketched
  rw [leaves, Terminals.leaves]
  simp only [ne_eq, List.map_eq_nil_iff, List.range'_eq_nil_iff]
  omega

/-- A sketch tells what stands at a place behind a base, and every node there is drawn. -/
structure Sketch.Describes (check : Kind → Sketch → Bool) (terminals : Terminals) (base : Forest)
    (sketch : Sketch) (place : Place) : Prop where
  forest : ∃ piece, place.forest = base ++ piece ∧ piece.Fits terminals sketch.parts
  facts : terminals.Confirms place.position sketch.facts
  drawn : place.forest.AllNodes (Forest.Drawn check terminals)
  leaves : ∃ start ≤ place.position, place.forest.leaves = terminals.leaves start place.position

/-! ### Closing a node -/

section Closing

variable {check : Kind → Sketch → Bool} {terminals : Terminals} {part : Part} {parts : List Part}
  {piece forest children : Forest} {tokens nodes : List Kind}

theorem Forest.Scatters.noEnd (scatters : forest.Scatters tokens nodes) (noEof : .eof ∉ tokens)
    (noScript : .script ∉ nodes) (drawn : forest.AllNodes (Drawn check terminals)) :
    ∀ leaf ∈ forest.leaves, leaf.2 ≠ .eof := by
  induction forest with
  | empty => simp [leaves]
  | token before position kind ih =>
      intro leaf member
      rcases List.mem_append.mp member with earlier | last
      · exact ih scatters.1 drawn leaf earlier
      · cases List.mem_singleton.mp last
        exact fun isEof => noEof (isEof ▸ scatters.2)
  | hole before ih => exact ih scatters drawn
  | node before kind children ih _ =>
      obtain ⟨beforeDrawn, nodeDrawn, -⟩ := allNodes_node.mp drawn
      intro leaf member
      rcases List.mem_append.mp member with earlier | inside
      · exact ih scatters.1 beforeDrawn leaf earlier
      · exact nodeDrawn.noEnd (fun isScript => noScript (isScript ▸ scatters.2)) leaf inside
  | list before items => exact scatters.elim

theorem Part.Fits.noEnd (fits : part.Fits terminals piece) (isInner : part.isInner = true)
    (drawn : piece.AllNodes (Forest.Drawn check terminals)) : ∀ leaf ∈ piece.leaves, leaf.2 ≠ .eof := by
  cases part with
  | token kinds joined =>
      obtain ⟨position, kind, member, rfl, -⟩ := fits
      exact Forest.Scatters.noEnd ⟨trivial, member⟩ (of_decide_eq_true isInner) List.not_mem_nil drawn
  | node kinds joined =>
      obtain ⟨kind, member, children, rfl, -⟩ := fits
      exact Forest.Scatters.noEnd ⟨trivial, member⟩ List.not_mem_nil (of_decide_eq_true isInner) drawn
  | list kinds =>
      obtain ⟨items, rfl, scatters⟩ := fits
      have inside := scatters.noEnd (by decide) (of_decide_eq_true isInner)
        (Forest.allNodes_list.mp drawn).2
      simpa [Forest.leaves] using inside
  | several tokens nodes =>
      obtain ⟨noEof, noScript⟩ := Bool.and_eq_true_iff.mp isInner
      exact Forest.Scatters.noEnd fits (of_decide_eq_true noEof) (of_decide_eq_true noScript) drawn

theorem Part.Fits.leaves_ne_nil (fits : part.Fits terminals piece) (isSolid : part.isSolid = true)
    (drawn : piece.AllNodes (Forest.Drawn check terminals)) : piece.leaves ≠ [] := by
  cases part with
  | token kinds joined =>
      obtain ⟨position, kind, member, rfl, -⟩ := fits
      simp [Forest.leaves]
  | node kinds joined =>
      obtain ⟨kind, member, children, rfl, -⟩ := fits
      simpa [Forest.leaves] using (Forest.allNodes_node.mp drawn).2.1.leaves_ne_nil
  | list kinds => cases isSolid
  | several tokens nodes => cases isSolid

theorem Forest.Fits.noEnd (fits : forest.Fits terminals parts) (areInner : parts.all Part.isInner = true)
    (drawn : forest.AllNodes (Drawn check terminals)) : ∀ leaf ∈ forest.leaves, leaf.2 ≠ .eof := by
  induction parts generalizing forest with
  | nil =>
      cases fits
      simp [leaves]
  | cons part parts ih =>
      obtain ⟨before, piece, rfl, last, rest⟩ := fits
      obtain ⟨isInner, others⟩ := Bool.and_eq_true_iff.mp areInner
      obtain ⟨beforeDrawn, pieceDrawn⟩ := allNodes_append.mp drawn
      rw [leaves_append]
      intro leaf member
      rcases List.mem_append.mp member with earlier | inPiece
      · exact ih rest others beforeDrawn leaf earlier
      · exact last.noEnd isInner pieceDrawn leaf inPiece

theorem Forest.Fits.leaves_ne_nil (fits : forest.Fits terminals parts)
    (solid : parts.any Part.isSolid = true) (drawn : forest.AllNodes (Drawn check terminals)) :
    forest.leaves ≠ [] := by
  induction parts generalizing forest with
  | nil => cases solid
  | cons part parts ih =>
      obtain ⟨before, piece, rfl, last, rest⟩ := fits
      obtain ⟨beforeDrawn, pieceDrawn⟩ := allNodes_append.mp drawn
      rw [leaves_append]
      intro none
      obtain ⟨noneBefore, noneInPiece⟩ := List.append_eq_nil_iff.mp none
      rcases Bool.or_eq_true_iff.mp solid with isSolid | others
      · exact last.leaves_ne_nil isSolid pieceDrawn noneInPiece
      · exact ih rest others beforeDrawn noneBefore

theorem Forest.Drawn.close {kind : Kind} {sketch : Sketch} {start stop : Nat}
    (mayClose : sketch.mayClose check kind = true) (fits : children.Fits terminals sketch.parts)
    (facts : terminals.Confirms stop sketch.facts) (drawn : children.AllNodes (Drawn check terminals))
    (leaves : children.leaves = terminals.leaves start stop) : children.Drawn check terminals kind := by
  simp only [Sketch.mayClose, Bool.and_eq_true, Bool.or_eq_true, decide_eq_true_eq] at mayClose
  obtain ⟨⟨passes, solid⟩, inner⟩ := mayClose
  have some := fits.leaves_ne_nil solid drawn
  refine ⟨⟨sketch, start, stop, passes, fits, facts, ?_, leaves⟩, ?_⟩
  · rw [leaves, Terminals.leaves] at some
    simp only [ne_eq, List.map_eq_nil_iff, List.range'_eq_nil_iff] at some
    omega
  · intro isInner
    exact fits.noEnd (inner.resolve_left isInner) drawn

end Closing

/-! ### Steps of a sketch -/

namespace Sketch.Describes

variable {check : Kind → Sketch → Bool} {terminals : Terminals} {base : Forest} {sketch inner : Sketch}
  {before after place : Place} {kind : Kind}

theorem learn {scope : Scope} {targets : List Nat} {guard : Guard} {holds : Bool}
    (describes : sketch.Describes check terminals base place)
    (admits : guard.admits terminals scope place targets = holds) :
    (sketch.learn guard holds).Describes check terminals base place :=
  { describes with facts := (Guard.confirms_told admits).append describes.facts }

theorem inside (describes : sketch.Describes check terminals base place) :
    sketch.inside.Describes check terminals .empty place.inside where
  forest := ⟨.empty, rfl, rfl⟩
  facts := describes.facts
  drawn := Forest.allNodes_empty
  leaves := ⟨place.position, Nat.le_refl _, (terminals.leaves_self _).symm⟩

theorem of_joins (describes : sketch.Describes check terminals base place)
    (joins : sketch.joins = true) : terminals.lineBreakAt place.position = false :=
  describes.facts _ (List.contains_iff_mem.mp joins)

theorem leaves_of_reads (describes : sketch.Describes check terminals base before)
    (reads : before.Reads terminals after) :
    ∃ start ≤ after.position, after.forest.leaves = terminals.leaves start after.position := by
  obtain ⟨start, ordered, leaves⟩ := describes.leaves
  exact ⟨start, Nat.le_trans ordered reads.1,
    by rw [reads.2, leaves, terminals.leaves_append ordered reads.1]⟩

theorem add_piece (piece : Forest) {part : Part} {facts : List Fact}
    (describes : sketch.Describes check terminals base before)
    (forest : after.forest = before.forest ++ piece) (fits : part.Fits terminals piece)
    (confirms : terminals.Confirms after.position facts)
    (drawn : piece.AllNodes (Forest.Drawn check terminals)) (reads : before.Reads terminals after) :
    Describes check terminals base ⟨part :: sketch.parts, facts⟩ after where
  forest := by
    obtain ⟨earlier, found, earlierFits⟩ := describes.forest
    exact ⟨earlier ++ piece, by rw [forest, found, Forest.append_assoc], earlierFits.cons fits⟩
  facts := confirms
  drawn := forest ▸ Forest.allNodes_append.mpr ⟨describes.drawn, drawn⟩
  leaves := describes.leaves_of_reads reads

theorem take {taken : Sketch} (describes : sketch.Describes check terminals base place)
    (takes : sketch.take? = some taken) : taken.Describes check terminals base (place.take terminals) := by
  obtain ⟨kinds, known, rfl⟩ := Option.map_eq_some_iff.mp takes
  obtain ⟨fact, member, told⟩ := List.exists_of_findSome?_eq_some known
  have confirmed := describes.facts fact member
  refine describes.add_piece (Forest.empty.token place.position _) rfl
    ⟨place.position, _, ?_, rfl, describes.of_joins⟩ describes.facts.next Forest.allNodes_empty (.take place)
  split at told
  · cases told
    exact List.contains_iff_mem.mp confirmed
  · cases told

theorem close (describes : inner.Describes check terminals .empty place)
    (reads : before.inside.Reads terminals place) (mayClose : inner.mayClose check kind = true) :
    place.forest.Drawn check terminals kind := by
  obtain ⟨piece, forest, fits⟩ := describes.forest
  rw [Forest.empty_append] at forest
  exact .close mayClose (forest ▸ fits) describes.facts describes.drawn
    (by rw [reads.2]; rfl)

theorem joined_of_reads {children : Forest} (describes : sketch.Describes check terminals base before)
    (reads : before.Reads terminals after)
    (leaves : after.forest.leaves = before.forest.leaves ++ children.leaves)
    (some : children.leaves ≠ []) (joins : sketch.joins = true) :
    ∃ leaf ∈ children.leaves.head?, terminals.lineBreakAt leaf.1 = false := by
  have same : children.leaves = terminals.leaves before.position after.position :=
    List.append_cancel_left (leaves.symm.trans reads.2)
  have moved : after.position - before.position ≠ 0 := by
    intro still
    rw [same, Terminals.leaves, still] at some
    exact some rfl
  refine ⟨(before.position, terminals.kindAt before.position), ?_, describes.of_joins joins⟩
  rw [same, Terminals.leaves, List.head?_map, List.head?_range', if_neg moved]
  rfl

theorem addNode {reached : List Sketch} (outer : sketch.Describes check terminals base before)
    (inside : inner.Describes check terminals .empty place) (reads : before.inside.Reads terminals place)
    (added : sketch.addNode? check kind inner = some reached) :
    ∃ next ∈ reached, next.Describes check terminals base (before.addNode kind place) ∧
      before.Reads terminals (before.addNode kind place) := by
  rw [addNode?] at added
  split at added
  · rename_i mayClose
    cases added
    have around : before.Reads terminals (before.addNode kind place) := reads.close rfl
    have drawn := inside.close reads mayClose
    refine ⟨_, List.mem_singleton_self _, ?_, around⟩
    refine outer.add_piece (Forest.empty.node kind place.forest) rfl
      ⟨kind, List.mem_singleton_self _, _, rfl, outer.joined_of_reads around rfl drawn.leaves_ne_nil⟩
      inside.facts ?_ around
    exact Forest.allNodes_node.mpr ⟨Forest.allNodes_empty, drawn, inside.drawn⟩
  · cases added

theorem exists_last {kinds : List Kind} {joined : Bool} {parts : List Part}
    (describes : sketch.Describes check terminals base place)
    (parts_eq : sketch.parts = .node kinds joined :: parts) :
    ∃ before last children, place.forest = (base ++ before).node last children ∧ last ∈ kinds ∧
      before.Fits terminals parts := by
  obtain ⟨piece, forest, fits⟩ := describes.forest
  rw [parts_eq] at fits
  obtain ⟨before, _, rfl, ⟨last, member, children, rfl, -⟩, rest⟩ := fits
  exact ⟨before, last, children, forest, member, rest⟩

theorem leaves_of_last {rest children : Forest} {last : Kind}
    (describes : sketch.Describes check terminals base place)
    (forest : place.forest = rest.node last children) :
    ∃ start ≤ place.position, children.leaves = terminals.leaves start place.position := by
  have drawn : children.Drawn check terminals last :=
    (Forest.allNodes_node.mp (forest ▸ describes.drawn)).2.1
  obtain ⟨first, ordered, leaves⟩ := describes.leaves
  obtain ⟨_, start, stop, -, -, -, moved, inside⟩ := drawn.sketched
  rw [forest, Forest.leaves, inside] at leaves
  -- Both end with the same token.
  have ends := congrArg List.getLast? leaves
  simp only [Terminals.leaves, List.getLast?_append, List.getLast?_map, List.getLast?_range'] at ends
  rw [if_neg (by omega)] at ends
  split at ends
  · simp at ends
  · simp only [Option.map_some, Option.some_or, Option.some.injEq, Prod.mk.injEq] at ends
    have same : stop = place.position := by omega
    exact ⟨start, by omega, same ▸ inside⟩

theorem wrapNode {reached : List Sketch} {first : Nat}
    (outer : sketch.Describes check terminals base before)
    (inside : inner.Describes check terminals .empty place) (reads : before.inside.Reads terminals place)
    (wrapped : sketch.wrapNode? check kind inner = some reached) :
    ∃ next ∈ reached, next.Describes check terminals base (before.wrapNode kind first place) ∧
      before.Reads terminals (before.wrapNode kind first place) := by
  rw [wrapNode?] at wrapped
  split at wrapped
  · rename_i kinds joined parts parts_eq
    split at wrapped
    · rename_i mayClose
      cases wrapped
      obtain ⟨earlier, last, children, forest, member, rest⟩ := outer.exists_last parts_eq
      obtain ⟨start, ordered, leaves⟩ := outer.leaves_of_last forest
      obtain ⟨piece, pieceForest, pieceFits⟩ := inside.forest
      rw [Forest.empty_append] at pieceForest
      obtain ⟨earlierDrawn, lastDrawn, childrenDrawn⟩ := Forest.allNodes_node.mp (forest ▸ outer.drawn)
      have held : (Forest.empty.node last children ++ place.forest).AllNodes
          (Forest.Drawn check terminals) :=
        Forest.allNodes_append.mpr
          ⟨Forest.allNodes_node.mpr ⟨Forest.allNodes_empty, lastDrawn, childrenDrawn⟩, inside.drawn⟩
      have fits : (Forest.empty.node last children ++ place.forest).Fits terminals
          (inner.parts ++ [.node kinds false]) :=
        (Forest.Fits.single (Part.fits_node member children)).append (pieceForest ▸ pieceFits)
      have heldLeaves : (Forest.empty.node last children ++ place.forest).leaves =
          terminals.leaves start place.position := by
        rw [Forest.leaves_append, reads.2]
        simp only [Forest.leaves, List.nil_append, leaves]
        exact terminals.leaves_append ordered reads.1
      have wraps : (before.wrapNode kind first place).forest =
          (base ++ earlier).node kind (Forest.empty.node last children ++ place.forest) := by
        rw [Place.wrapNode, forest, Forest.wrapLast_node]
      have around : before.Reads terminals (before.wrapNode kind first place) := by
        refine reads.close ?_
        rw [forest, Forest.wrapLast_node]
        simp [Forest.leaves]
      refine ⟨_, List.mem_singleton_self _, ⟨?_, inside.facts, ?_, outer.leaves_of_reads around⟩, around⟩
      · exact ⟨earlier ++ Forest.empty.node kind _, wraps, 
          rest.cons (Part.fits_node (List.mem_singleton_self _) _)⟩
      · rw [wraps]
        exact Forest.allNodes_node.mpr
          ⟨earlierDrawn, .close mayClose fits inside.facts held heldLeaves, held⟩
    · cases wrapped
  · cases wrapped

theorem addList {reached : List Sketch} (outer : sketch.Describes check terminals base before)
    (inside : inner.Describes check terminals .empty place) (reads : before.inside.Reads terminals place)
    (added : sketch.addList? inner = some reached) :
    ∃ next ∈ reached, next.Describes check terminals base (before.addList place) ∧
      before.Reads terminals (before.addList place) := by
  rw [addList?] at added
  split at added
  · rename_i tokens nodes parts_eq
    split at added
    · rename_i commas
      cases added
      obtain ⟨piece, forest, fits⟩ := inside.forest
      rw [Forest.empty_append] at forest
      rw [parts_eq] at fits
      obtain ⟨_, items, rfl, scatters, rfl⟩ := fits
      rw [Forest.empty_append] at forest
      have around : before.Reads terminals (before.addList place) := reads.close rfl
      refine ⟨_, List.mem_singleton_self _, ?_, around⟩
      refine outer.add_piece (Forest.empty.list place.forest) rfl
        ⟨_, rfl, forest ▸ Forest.Scatters.mono scatters commas (List.Subset.refl _)⟩ inside.facts ?_ around
      exact Forest.allNodes_list.mpr ⟨Forest.allNodes_empty, inside.drawn⟩
    · cases added
  · cases added

theorem addHole (describes : sketch.Describes check terminals base place) :
    (sketch.add (.several [] [])).Describes check terminals base place.addHole :=
  describes.add_piece Forest.empty.hole rfl trivial describes.facts Forest.allNodes_empty
    ⟨Nat.le_refl _, (Place.Reads.refl place).2⟩

end Sketch.Describes

/-! ## Every match is drawn -/

namespace Sketch

/-- One of the sketches that were reached tells what stands at a place behind another one. -/
def Leads (check : Kind → Sketch → Bool) (terminals : Terminals) (base : Forest) (reached : List Sketch)
    (before after : Place) : Prop :=
  ∃ sketch ∈ reached, sketch.Describes check terminals base after ∧ before.Reads terminals after

variable {check : Kind → Sketch → Bool} {terminals : Terminals} {base : Forest} {sketch : Sketch}
  {before middle after : Place} {first second : Option (List Sketch)} {reached fewer : List Sketch}

theorem Leads.mono (leads : Leads check terminals base fewer before after) (kept : fewer ⊆ reached) :
    Leads check terminals base reached before after := by
  obtain ⟨sketch, member, told⟩ := leads
  exact ⟨sketch, kept member, told⟩

theorem Leads.precede (leads : Leads check terminals base reached middle after)
    (earlier : before.Reads terminals middle) : Leads check terminals base reached before after := by
  obtain ⟨sketch, member, describes, reads⟩ := leads
  exact ⟨sketch, member, describes, earlier.trans reads⟩

theorem both_eq_some (found : both first second = some reached) :
    ∃ one other, first = some one ∧ second = some other ∧ one ⊆ reached ∧ other ⊆ reached := by
  cases first <;> cases second <;> cases found
  exact ⟨_, _, rfl, rfl, List.subset_append_left _ _, List.subset_append_right _ _⟩

theorem followAll_eq_some {next : Sketch → Option (List Sketch)} {sketches : List Sketch}
    (found : followAll next sketches = some reached) (member : sketch ∈ sketches) :
    ∃ ways, next sketch = some ways ∧ ways ⊆ reached := by
  induction sketches generalizing reached with
  | nil => cases member
  | cons head rest ih =>
      rw [followAll] at found
      split at found
      · rename_i ways others here there
        cases found
        rcases List.mem_cons.mp member with rfl | inRest
        · exact ⟨ways, here, List.subset_append_left _ _⟩
        · obtain ⟨more, next, kept⟩ := ih there inRest
          exact ⟨more, next, List.subset_append_of_subset_right _ kept⟩
      · cases found

/-- What is followed goes on from each sketch that was reached first. -/
theorem follow_eq_some {next : Sketch → Option (List Sketch)} (found : follow first next = some reached) :
    ∃ sketches, first = some sketches ∧
      ∀ sketch ∈ sketches, ∃ ways, next sketch = some ways ∧ ways ⊆ reached := by
  obtain ⟨sketches, same, followed⟩ := Option.bind_eq_some_iff.mp found
  exact ⟨sketches, same, fun sketch member => followAll_eq_some followed member⟩

theorem Leads.addNode {kind : Kind} {inner : Place} {sketches : List Sketch}
    (leads : Leads check terminals .empty sketches before.inside inner)
    (outer : sketch.Describes check terminals base before)
    (added : ∀ inside ∈ sketches, ∃ found, sketch.addNode? check kind inside = some found ∧
      found ⊆ reached) :
    Leads check terminals base reached before (before.addNode kind inner) := by
  obtain ⟨inside, member, describes, reads⟩ := leads
  obtain ⟨ways, adds, kept⟩ := added inside member
  exact Leads.mono (outer.addNode describes reads adds) kept

end Sketch

def Nonterminal.Draws (check : Kind → Sketch → Bool) (terminals : Terminals) (nonterminal : Nonterminal)
    (_ : Scope) (before after : Place) : Prop :=
  nonterminal.isProper = true → ∀ base : Forest,
    Sketch.Describes check terminals base ⟨nonterminal.found, nonterminal.knownFacts⟩ before →
      Sketch.Describes check terminals base ⟨nonterminal.left, []⟩ after ∧ before.Reads terminals after

section Soundness

variable {check : Kind → Sketch → Bool} {terminals : Terminals}

namespace Sketch.Describes

variable {base : Forest} {sketch called : Sketch} {nonterminal : Nonterminal} {scope : Scope}
  {before after : Place}

theorem from_here {parts : List Part} {facts : List Fact}
    (describes : sketch.Describes check terminals base before)
    (known : ∀ fact ∈ facts, fact ∈ sketch.facts) (fits : Forest.empty.Fits terminals parts) :
    Describes check terminals before.forest ⟨parts, facts⟩ before where
  forest := ⟨.empty, rfl, fits⟩
  facts := fun fact member => describes.facts fact (known fact member)
  drawn := describes.drawn
  leaves := describes.leaves

theorem call_node (describes : sketch.Describes check terminals base before)
    (isNode : nonterminal.role = .node) (proper : nonterminal.isProper = true)
    (known : ∀ fact ∈ nonterminal.knownFacts, fact ∈ sketch.facts)
    (draws : nonterminal.Draws check terminals scope before after) :
    Describes check terminals base ⟨.node nonterminal.yields sketch.joins :: sketch.parts, []⟩ after ∧
      before.Reads terminals after := by
  have found : nonterminal.found = [] := by cases nonterminal <;> first | rfl | cases isNode
  have left : nonterminal.left = [.node nonterminal.yields false] := by rw [Nonterminal.left, isNode]
  obtain ⟨told, reads⟩ := draws proper before.forest (found ▸ describes.from_here known rfl)
  obtain ⟨_, added, addedFits⟩ := told.forest
  rw [left] at addedFits
  obtain ⟨_, _, rfl, ⟨kind, member, children, rfl, -⟩, rfl⟩ := addedFits
  have leaves : after.forest.leaves = before.forest.leaves ++ children.leaves := by
    rw [added]
    simp [Forest.leaves]
  rw [Forest.empty_append] at added
  have drawn := (Forest.allNodes_append.mp (added ▸ told.drawn)).2
  have some := (Forest.allNodes_node.mp drawn).2.1.leaves_ne_nil
  exact ⟨describes.add_piece _ added
    ⟨kind, member, children, rfl, describes.joined_of_reads reads leaves some⟩ .nil drawn reads, reads⟩

theorem call_tail {kinds : List Kind} {joined : Bool} {parts : List Part}
    (describes : sketch.Describes check terminals base before)
    (parts_eq : sketch.parts = .node kinds joined :: parts) (isTail : nonterminal.role = .tail)
    (fewer : kinds ⊆ expressionKinds) (proper : nonterminal.isProper = true)
    (known : ∀ fact ∈ nonterminal.knownFacts, fact ∈ sketch.facts)
    (draws : nonterminal.Draws check terminals scope before after) :
    Describes check terminals base ⟨.node expressionKinds false :: parts, []⟩ after ∧
      before.Reads terminals after := by
  have found : nonterminal.found = [.node expressionKinds false] := by
    cases nonterminal <;> first | rfl | cases isTail
  have left : nonterminal.left = [.node expressionKinds false] := by
    cases nonterminal <;> first | rfl | cases isTail
  obtain ⟨earlier, last, children, ends, member, rest⟩ := describes.exists_last parts_eq
  have start : Describes check terminals (base ++ earlier)
      ⟨nonterminal.found, nonterminal.knownFacts⟩ before :=
    { forest := by
        refine ⟨Forest.empty.node last children, ends, ?_⟩
        rw [found]
        exact .single (Part.fits_node (fewer member) children)
      facts := fun fact member => describes.facts fact (known fact member)
      drawn := describes.drawn
      leaves := describes.leaves }
  obtain ⟨told, reads⟩ := draws proper (base ++ earlier) start
  obtain ⟨added, same, addedFits⟩ := told.forest
  rw [left] at addedFits
  exact ⟨⟨⟨earlier ++ added, by rw [same, Forest.append_assoc], rest.append addedFits⟩, .nil, told.drawn,
    told.leaves⟩, reads⟩

theorem call_several (describes : sketch.Describes check terminals base before)
    (adds : nonterminal.role = .content ∨ nonterminal.role = .items) (proper : nonterminal.isProper = true)
    (known : ∀ fact ∈ nonterminal.knownFacts, fact ∈ sketch.facts)
    (draws : nonterminal.Draws check terminals scope before after) :
    Describes check terminals base ⟨nonterminal.left ++ sketch.parts, []⟩ after ∧
      before.Reads terminals after := by
  have found : Forest.empty.Fits terminals nonterminal.found := by
    cases nonterminal <;> first | exact .single trivial | (rcases adds with adds | adds <;> cases adds)
  obtain ⟨piece, forest, fits⟩ := describes.forest
  obtain ⟨told, reads⟩ := draws proper before.forest (describes.from_here known found)
  obtain ⟨added, same, addedFits⟩ := told.forest
  exact ⟨⟨⟨piece ++ added, by rw [same, forest, Forest.append_assoc], fits.append addedFits⟩, .nil,
    told.drawn, told.leaves⟩, reads⟩

theorem call (describes : sketch.Describes check terminals base before)
    (calls : sketch.call? nonterminal = some called)
    (draws : nonterminal.Draws check terminals scope before after) :
    called.Describes check terminals base after ∧ before.Reads terminals after := by
  rw [call?] at calls
  split at calls
  · rename_i may
    obtain ⟨proper, knows⟩ := Bool.and_eq_true_iff.mp may
    have known : ∀ fact ∈ nonterminal.knownFacts, fact ∈ sketch.facts := fun fact member =>
      List.contains_iff_mem.mp (List.all_eq_true.mp knows fact member)
    split at calls
    · rename_i isNode
      cases calls
      exact describes.call_node isNode proper known draws
    · rename_i isTail
      split at calls
      · rename_i kinds joined parts parts_eq
        split at calls
        · rename_i fewer
          cases calls
          exact describes.call_tail parts_eq isTail fewer proper known draws
        · cases calls
      · cases calls
    · rename_i isContent
      cases calls
      exact describes.call_several (.inl isContent) proper known draws
    · rename_i isItems
      cases calls
      exact describes.call_several (.inr isItems) proper known draws
  · cases calls

end Sketch.Describes

/-- A production leads from a sketch to one of those that it is found to reach. -/
theorem Production.leads_of_derives (production : Production) :
    ∀ (sketch : Sketch) (scope : Scope) (before after : Place) (base : Forest) (reached : List Sketch),
      production.sketches check sketch = some reached →
      sketch.Describes check terminals base before →
      production.Derives terminals (Nonterminal.Draws check terminals) scope before after →
      Sketch.Leads check terminals base reached before after := by
  induction production with
  | empty | expected kind | expectedConstruct name | markTarget =>
      intro sketch scope before after base reached found describes derives
      cases found
      cases derives
      exact ⟨sketch, List.mem_singleton_self _, describes, .refl _⟩
  | refuse =>
      intro sketch scope before after base reached _ _ derives
      exact derives.elim
  | take =>
      intro sketch scope before after base reached found describes derives
      obtain ⟨taken, takes, rfl⟩ := Option.map_eq_some_iff.mp found
      cases derives
      exact ⟨taken, List.mem_singleton_self _, describes.take takes, .take before⟩
  | call nonterminal =>
      intro sketch scope before after base reached found describes derives
      obtain ⟨called, calls, rfl⟩ := Option.map_eq_some_iff.mp found
      exact ⟨called, List.mem_singleton_self _, describes.call calls derives⟩
  | seq first second firstIh secondIh =>
      intro sketch scope before after base reached found describes derives
      obtain ⟨sketches, firstFound, further⟩ := Sketch.follow_eq_some found
      obtain ⟨middle, firstDerives, secondDerives⟩ := derives
      obtain ⟨between, member, told, reads⟩ :=
        firstIh sketch scope before middle base sketches firstFound describes firstDerives
      obtain ⟨ways, secondFound, kept⟩ := further between member
      exact ((secondIh between scope middle after base ways secondFound told secondDerives).precede reads).mono kept
  | branch guard yes no yesIh noIh =>
      intro sketch scope before after base reached found describes derives
      obtain ⟨one, other, yesFound, noFound, oneKept, otherKept⟩ := Sketch.both_eq_some found
      obtain ⟨targets, ⟨admitted, yesDerives⟩ | ⟨rejected, noDerives⟩⟩ := derives
      · exact (yesIh _ scope before after base one yesFound (describes.learn admitted) yesDerives).mono oneKept
      · exact (noIh _ scope before after base other noFound (describes.learn rejected) noDerives).mono otherKept
  | node kind body ih =>
      intro sketch scope before after base reached found describes derives
      obtain ⟨sketches, bodyFound, added⟩ := Sketch.follow_eq_some found
      obtain ⟨inner, bodyDerives, rfl⟩ := derives
      exact (ih _ scope before.inside inner .empty sketches bodyFound describes.inside bodyDerives).addNode
        describes added
  | fork head guard kindYes yes kindNo no headIh yesIh noIh =>
      intro sketch scope before after base reached found describes derives
      obtain ⟨middles, headFound, further⟩ := Sketch.follow_eq_some found
      obtain ⟨middle, inner, targets, headDerives, tail⟩ := derives
      obtain ⟨between, member, told, reads⟩ :=
        headIh _ scope before.inside middle .empty middles headFound describes.inside headDerives
      obtain ⟨ways, tails, kept⟩ := further between member
      obtain ⟨one, other, yesFound, noFound, oneKept, otherKept⟩ := Sketch.both_eq_some tails
      rcases tail with ⟨admitted, yesDerives, rfl⟩ | ⟨rejected, noDerives, rfl⟩
      · obtain ⟨sketches, bodyFound, added⟩ := Sketch.follow_eq_some yesFound
        have leads := yesIh _ scope middle inner .empty sketches bodyFound (told.learn admitted) yesDerives
        exact ((leads.precede reads).addNode describes added).mono (List.Subset.trans oneKept kept)
      · obtain ⟨sketches, bodyFound, added⟩ := Sketch.follow_eq_some noFound
        have leads := noIh _ scope middle inner .empty sketches bodyFound (told.learn rejected) noDerives
        exact ((leads.precede reads).addNode describes added).mono (List.Subset.trans otherKept kept)
  | wrap kind body ih =>
      intro sketch scope before after base reached found describes derives
      obtain ⟨sketches, bodyFound, wrapped⟩ := Sketch.follow_eq_some found
      obtain ⟨_, first, inner, _, bodyDerives, rfl⟩ := derives
      obtain ⟨inside, member, told, reads⟩ :=
        ih _ scope before.inside inner .empty sketches bodyFound describes.inside bodyDerives
      obtain ⟨ways, wraps, kept⟩ := wrapped inside member
      exact Sketch.Leads.mono (describes.wrapNode told reads wraps) kept
  | orElse first second firstIh secondIh | onceOrElse first second firstIh secondIh =>
      intro sketch scope before after base reached found describes derives
      obtain ⟨one, other, firstFound, secondFound, oneKept, otherKept⟩ := Sketch.both_eq_some found
      rcases derives with firstDerives | secondDerives
      · exact (firstIh _ scope before after base one firstFound describes firstDerives).mono oneKept
      · exact (secondIh _ scope before after base other secondFound describes secondDerives).mono otherKept
  | inScope change body ih =>
      intro sketch scope before after base reached found describes derives
      exact ih sketch (change.apply scope) before after base reached found describes derives
  | list body ih =>
      intro sketch scope before after base reached found describes derives
      obtain ⟨sketches, bodyFound, added⟩ := Sketch.follow_eq_some found
      obtain ⟨inner, bodyDerives, rfl⟩ := derives
      obtain ⟨inside, member, told, reads⟩ :=
        ih _ scope before.inside inner .empty sketches bodyFound describes.inside bodyDerives
      obtain ⟨ways, adds, kept⟩ := added inside member
      exact Sketch.Leads.mono (describes.addList told reads adds) kept
  | hole =>
      intro sketch scope before after base reached found describes derives
      cases found
      cases derives
      exact ⟨_, List.mem_singleton_self _, describes.addHole, ⟨Nat.le_refl _, (Place.Reads.refl before).2⟩⟩

theorem Nonterminal.nestWith_draws (passes : ∀ nonterminal ∈ listed, nonterminal.isSketched check = true)
    (terminals : Terminals) (fuel : Nat) :
    CallsSatisfy (nestWith production terminals fuel) (Draws check terminals) := by
  apply nestWith_satisfies
  intro nonterminal scope before after derives proper base describes
  have passed := passes nonterminal (mem_listed proper)
  rw [isSketched] at passed
  split at passed
  · rename_i reached found
    obtain ⟨sketch, member, told, reads⟩ := nonterminal.production.leads_of_derives
      ⟨nonterminal.found, nonterminal.knownFacts⟩ scope before after base reached found describes derives
    obtain ⟨piece, forest, fits⟩ := told.forest
    exact ⟨⟨⟨piece, forest, fits.weaken (List.all_eq_true.mp passed sketch member)⟩, .nil, told.drawn,
      told.leaves⟩, reads⟩
  · cases passed

/-- Every node of a match is drawn after a sketch that passes a check, if every sketch of the grammar
does. -/
theorem Rule.Matched.drawn {rule : Rule} {last : Nat} {state : ParseState} {kind : Kind} {children : Forest}
    (matched : rule.Matched terminals last state kind children)
    (passes : ∀ nonterminal ∈ Nonterminal.listed, nonterminal.isSketched check = true) :
    (Forest.empty.node kind children).AllNodes (Forest.Drawn check terminals) := by
  obtain ⟨place, later, parsed, forest, _⟩ := matched.nested
  have known : rule.nonterminal.knownFacts = [] := by
    rw [Nonterminal.knownFacts, rule.known_nonterminal]
    rfl
  have found : rule.nonterminal.found = [] := by cases rule <;> rfl
  have start : Sketch.Describes check terminals .empty
      ⟨rule.nonterminal.found, rule.nonterminal.knownFacts⟩ .start :=
    { forest := ⟨.empty, rfl, found ▸ rfl⟩
      facts := known ▸ .nil
      drawn := Forest.allNodes_empty
      leaves := ⟨0, Nat.le_refl _, rfl⟩ }
  have draws := Nonterminal.nestWith_draws passes terminals _ _ _ _ _ _ _ parsed rule.isProper_nonterminal
    .empty start
  exact forest ▸ draws.1.drawn

end Soundness
end ScriptTree
