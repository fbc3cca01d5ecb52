import ScriptTree.Proofs.Matching

/-! # The scopes of a tree

Every position of a tree has a scope, which functions, arrows and fields change for some of their parts.
Where the scope makes `yield` or `await` an operator, the word is the keyword of one, and elsewhere it
is a name. Most productions hand their scope on and take no such word. -/
set_option autoImplicit false
set_option maxRecDepth 4000
namespace ScriptTree

/-! ## The scope of a position -/

def nameKinds : List Kind := [.identifierReference, .bindingIdentifier, .label]

def operatorWords : List Kind := [.yieldKw, .awaitKw]

def functionKinds : List Kind := [
  .functionDeclaration, .generatorDeclaration, .functionExpression, .generatorExpression, .method,
  .generatorMethod, .getter, .setter]

/-- Nodes in which a part has a scope of its own. -/
def scopingKinds : List Kind := [.arrowFunction, .fieldDefinition] ++ functionKinds

/-- The parts of a function that belong to its scope; the name of an expression does. -/
def scopedParts (function : Kind) : List Kind :=
  if function ∈ [.functionExpression, .generatorExpression] then
    [.bindingIdentifier, .formalParameters, .functionBody]
  else [.formalParameters, .functionBody]

namespace Forest

def hasToken (kind : Kind) : Forest → Bool
  | empty => false
  | token before _ found => before.hasToken kind || found == kind
  | hole before => before.hasToken kind
  | node before _ _ => before.hasToken kind
  | list before _ => before.hasToken kind

def functionScope (function : Kind) (children : Forest) : Scope :=
  ⟨[Kind.generatorDeclaration, .generatorExpression, .generatorMethod].contains function,
    children.hasToken .asyncKw⟩

/-- The scope of a node behind `before` among the children of another one, if that one has the scope
`outer`. -/
def partScope (parent : Kind) (children before : Forest) (part : Kind) (outer : Scope) : Scope :=
  if parent ∈ functionKinds then
    if part ∈ scopedParts parent then functionScope parent children else outer
  else if parent = .arrowFunction then
    if before.hasToken .fatArrow then ⟨false, children.hasToken .asyncKw⟩
    else ⟨outer.yieldOperator, children.hasToken .asyncKw || outer.awaitOperator⟩
  else if parent = .fieldDefinition ∧ before.hasToken .eq then .outermost
  else outer

/-- A word that is a name stands alone in a node for names. -/
def IsName (parent : Kind) (children : Forest) : Prop :=
  parent ∈ nameKinds ∧ ∃ position kind, children = empty.token position kind

/-- A token behind `before` among the children of a node: where it is an operator it is the keyword of
one, or the word of a `for await`, and elsewhere it is a name. -/
def FitsScope (scope : Scope) (parent : Kind) (children before : Forest) : Kind → Prop
  | .yieldKw =>
      if scope.yieldOperator then parent = .yieldExpression ∧ before = empty
      else IsName parent children
  | .awaitKw =>
      if scope.awaitOperator then
        parent = .awaitExpression ∧ before = empty ∨
          parent = .forOfStatement ∧ ∃ position, before = empty.token position .forKw
      else IsName parent children
  | _ => True

/-- The words fit their scopes in a part of the children of a node with a scope. The words that name a
property are exempt. -/
def Scoped : Forest → Scope → Kind → Forest → Prop
  | empty, _, _, _ => True
  | token before _ kind, scope, parent, children =>
      before.Scoped scope parent children ∧
        (parent ≠ .propertyName → FitsScope scope parent children before kind)
  | hole before, scope, parent, children => before.Scoped scope parent children
  | node before kind inside, scope, parent, children =>
      before.Scoped scope parent children ∧
        inside.Scoped (partScope parent children before kind scope) kind inside
  | list before items, scope, parent, children =>
      before.Scoped scope parent children ∧ items.Scoped scope parent children

end Forest

def SyntaxTree.IsScoped (tree : SyntaxTree) : Prop :=
  (tree.shapeOf root).Scoped .outermost (tree.kind root) (tree.shapeOf root)

/-! ## Parts that keep a scope -/

namespace Forest

/-- What may stand in any node that hands its scope on: no operator words, and nodes in the scope. -/
def Plain (scope : Scope) : Forest → Prop
  | empty => True
  | token before _ kind => before.Plain scope ∧ kind ∉ operatorWords
  | hole before => before.Plain scope
  | node before kind inside => before.Plain scope ∧ inside.Scoped scope kind inside
  | list before items => before.Plain scope ∧ items.Plain scope

variable {scope : Scope} {parent : Kind} {children : Forest}

theorem fitsScope_of_notMem {before : Forest} {kind : Kind} (other : kind ∉ operatorWords) :
    FitsScope scope parent children before kind := by
  unfold FitsScope
  split
  · exact absurd (by decide) other
  · exact absurd (by decide) other
  · trivial

theorem partScope_of_notMem (other : parent ∉ scopingKinds) (before : Forest) (part : Kind)
    (outer : Scope) : partScope parent children before part outer = outer := by
  simp only [scopingKinds, List.mem_append, List.mem_cons, List.not_mem_nil, or_false, not_or] at other
  obtain ⟨⟨noArrow, noField⟩, noFunction⟩ := other
  simp [partScope, noArrow, noField, noFunction]

theorem Scoped.append {left right : Forest} (handsOn : parent ∉ scopingKinds)
    (fits : left.Scoped scope parent children) (plain : right.Plain scope) :
    (left ++ right).Scoped scope parent children := by
  induction right generalizing left with
  | empty => exact fits
  | token before position kind ih =>
      exact ⟨ih fits plain.1, fun _ => fitsScope_of_notMem plain.2⟩
  | hole before ih => exact ih fits plain
  | node before kind inside ih _ =>
      refine ⟨ih fits plain.1, ?_⟩
      rw [partScope_of_notMem handsOn]
      exact plain.2
  | list before items ih itemsIh =>
      refine ⟨ih fits plain.1, ?_⟩
      have inList := itemsIh (show empty.Scoped scope parent children from trivial) plain.2
      rwa [empty_append] at inList

theorem Plain.scoped {forest : Forest} (handsOn : parent ∉ scopingKinds)
    (plain : forest.Plain scope) : forest.Scoped scope parent children := by
  have whole := Scoped.append handsOn (show empty.Scoped scope parent children from trivial) plain
  rwa [empty_append] at whole

theorem Plain.append {left right : Forest} (leftPlain : left.Plain scope)
    (rightPlain : right.Plain scope) : (left ++ right).Plain scope := by
  induction right with
  | empty => exact leftPlain
  | token before position kind ih => exact ⟨ih rightPlain.1, rightPlain.2⟩
  | hole before ih => exact ih rightPlain
  | node before kind inside ih _ => exact ⟨ih rightPlain.1, rightPlain.2⟩
  | list before items ih _ => exact ⟨ih rightPlain.1, rightPlain.2⟩

theorem scoped_name {terminals : Terminals} {position : Nat} (isName : parent ∈ nameKinds)
    (identifier : ParseState.isIdentifierAt terminals scope position = true) :
    (empty.token position (terminals.kindAt position)).Scoped scope parent
      (empty.token position (terminals.kindAt position)) := by
  refine ⟨trivial, fun _ => ?_⟩
  have alone : IsName parent (empty.token position (terminals.kindAt position)) :=
    ⟨isName, _, _, rfl⟩
  unfold ParseState.isIdentifierAt at identifier
  unfold FitsScope
  split
  · rename_i found
    rw [found] at identifier
    rw [if_neg (by simpa using identifier)]
    exact alone
  · rename_i found
    rw [found] at identifier
    rw [if_neg (by simpa using identifier)]
    exact alone
  · trivial

end Forest

/-! ## What nonterminals add -/

/-- The kind of node that a nonterminal adds, if its production is one node. -/
def Nonterminal.nodeKind? (nonterminal : Nonterminal) : Option Kind :=
  match nonterminal.production with
  | .node kind _ => some kind
  | _ => none

/-- The next tokens are no operator words, as many as `seen`. -/
def Terminals.Clear (terminals : Terminals) (position seen : Nat) : Prop :=
  ∀ offset < seen, terminals.kindAt (position + offset) ∉ operatorWords

/-- A node that fits a scope was added at a place, and completed last. -/
structure Place.AddsNode (scope : Scope) (before after : Place) (kind : Kind) (inside : Forest) :
    Prop where
  forest : after.forest = before.forest.node kind inside
  completed : after.completed = some (kind, before.position)
  fits : inside.Scoped scope kind inside

/-- The last node, completed last, was put into another one that fits a scope. -/
def Place.Wraps (scope : Scope) (before after : Place) : Prop :=
  ∀ outer kind inside first, before.forest = .node outer kind inside →
    before.completed = some (kind, first) → inside.Scoped scope kind inside →
    ∃ around content, after.forest = outer.node around content ∧
      after.completed = some (around, first) ∧ content.Scoped scope around content

/-- What a nonterminal adds in a scope fits it. A `yield` expression is called only where the word is an
operator. -/
def Nonterminal.Scopes (terminals : Terminals) (nonterminal : Nonterminal) (scope : Scope)
    (before after : Place) : Prop :=
  nonterminal.isProper = true → terminals.Clear before.position nonterminal.needs →
    (nonterminal = .yieldExpression → scope.yieldOperator = true) →
    match nonterminal.role with
    | .node => ∃ kind inside, before.AddsNode scope after kind inside ∧
        ∀ known, nonterminal.nodeKind? = some known → kind = known
    | .tail => before.Wraps scope after
    | .content | .items => ∃ rest, after.forest = before.forest ++ rest ∧ rest.Plain scope

/-! ## Productions that keep their scope -/

/-- What a production added so far. -/
inductive Gain where
  | nothing
  | oneNode
  /-- Anything; `headed` says that it ends in a node. -/
  | anything (headed : Bool)
  deriving DecidableEq, Repr

namespace Gain

def isHeaded : Gain → Bool
  | nothing => false
  | oneNode => true
  | anything headed => headed

def addNode : Gain → Gain
  | nothing => oneNode
  | _ => anything true

def merge : Gain → Gain → Gain
  | nothing, nothing => nothing
  | oneNode, oneNode => oneNode
  | first, second => anything (first.isHeaded && second.isHeaded)

def call (gain : Gain) : Role → Gain
  | .node => gain.addNode
  | .tail => gain
  | .content | .items => anything false

/-- What was added since a position, up to a place; the node at its end was completed last. -/
def Holds (start : Nat) (place : Place) (rest : Forest) : Gain → Prop
  | nothing => rest = .empty ∧ place.position = start
  | oneNode => ∃ kind inside, rest = Forest.empty.node kind inside ∧ place.completed = some (kind, start)
  | anything headed => headed = true → ∃ before kind inside first,
      rest = Forest.node before kind inside ∧ place.completed = some (kind, first)

variable {start : Nat} {place : Place} {rest : Forest} {gain first second : Gain}

theorem Holds.exists_node (holds : gain.Holds start place rest) (headed : gain.isHeaded = true) :
    ∃ before kind inside first, rest = Forest.node before kind inside ∧
      place.completed = some (kind, first) := by
  cases gain with
  | nothing => cases headed
  | oneNode =>
      obtain ⟨kind, inside, same, completed⟩ := holds
      exact ⟨_, kind, inside, start, same, completed⟩
  | anything known => exact holds headed

theorem Holds.anything (holds : gain.Holds start place rest) {headed : Bool}
    (weaker : headed = true → gain.isHeaded = true) : (Gain.anything headed).Holds start place rest :=
  fun known => holds.exists_node (weaker known)

theorem Holds.merge_left (holds : first.Holds start place rest) :
    (first.merge second).Holds start place rest := by
  unfold merge
  split
  · exact holds
  · exact holds
  · exact holds.anything fun known => (Bool.and_eq_true_iff.mp known).1

theorem Holds.merge_right (holds : second.Holds start place rest) :
    (first.merge second).Holds start place rest := by
  unfold merge
  split
  · exact holds
  · exact holds
  · exact holds.anything fun known => (Bool.and_eq_true_iff.mp known).2

theorem Holds.addNode {after : Place} (holds : gain.Holds start place rest) {kind : Kind}
    {inside : Forest} (completed : after.completed = some (kind, place.position)) :
    gain.addNode.Holds start after (rest.node kind inside) := by
  cases gain with
  | nothing =>
      obtain ⟨rfl, rfl⟩ := holds
      exact ⟨kind, inside, rfl, completed⟩
  | oneNode => exact fun _ => ⟨_, _, _, _, rfl, completed⟩
  | anything headed => exact fun _ => ⟨_, _, _, _, rfl, completed⟩

theorem Holds.replace {after : Place} {before inside content : Forest} {kind around : Kind}
    {position : Nat} (holds : gain.Holds start place (before.node kind inside))
    (headed : gain.isHeaded = true) (replaced : place.completed = some (kind, position))
    (completed : after.completed = some (around, position)) :
    gain.Holds start after (before.node around content) := by
  cases gain with
  | nothing => cases headed
  | oneNode =>
      obtain ⟨_, _, same, known⟩ := holds
      cases same
      cases replaced.symm.trans known
      exact ⟨around, content, rfl, completed⟩
  | anything known => exact fun _ => ⟨_, _, _, _, rfl, completed⟩

end Gain

/-- What is known on the way through a production: what it added, and how many of the next tokens are no
operator words. -/
structure Progress where
  gain : Gain
  seen : Nat
  deriving DecidableEq, Repr

namespace Progress

def merge (first second : Progress) : Option Progress :=
  some ⟨first.gain.merge second.gain, min first.seen second.seen⟩

/-- What is known at a place, if a production started at a position behind a forest. -/
def Holds (terminals : Terminals) (scope : Scope) (base : Forest) (start : Nat) (place : Place)
    (progress : Progress) : Prop :=
  terminals.Clear place.position progress.seen ∧
    ∃ rest, place.forest = base ++ rest ∧ rest.Plain scope ∧ progress.gain.Holds start place rest

end Progress

/-- How many of the next tokens are no operator words once a guard holds. -/
def Guard.clears : Guard → Nat → Nat
  | .next offset kinds, seen =>
      if offset = seen ∧ kinds.all (fun kind => !operatorWords.contains kind) then seen + 1 else seen
  | .and first second, seen => second.clears (first.clears seen)
  | _, seen => seen

/-- The next token or nothing. -/
def Production.isWord : Production → Bool
  | .branch _ .take (.seq _ .refuse) => true
  | _ => false

def Production.follow : Production → Progress → Verdict Progress
  | .refuse, _ => .never
  | .take, progress =>
      if progress.seen = 0 then .illegal else .reaches ⟨.anything false, progress.seen - 1⟩
  | .call nonterminal, progress =>
      if nonterminal.isProper && nonterminal != .yieldExpression &&
          nonterminal.needs ≤ progress.seen &&
          (nonterminal.role != .tail || progress.gain.isHeaded) then
        .reaches ⟨progress.gain.call nonterminal.role, 0⟩
      else .illegal
  | .seq first second, progress => (first.follow progress).andThen second.follow
  | .branch guard yes no, progress =>
      (yes.follow ⟨progress.gain, guard.clears progress.seen⟩).merge Progress.merge (no.follow progress)
  | .node kind body, progress =>
      if kind = .propertyName then
        if body.isWord then .reaches ⟨progress.gain.addNode, 0⟩ else .illegal
      else if kind ∈ nameKinds then
        if body = identifier then .reaches ⟨progress.gain.addNode, 0⟩ else .illegal
      else if kind ∈ scopingKinds then .illegal
      else (body.follow ⟨.nothing, progress.seen⟩).andThen fun inner =>
        .reaches ⟨progress.gain.addNode, inner.seen⟩
  | .fork .., _ => .illegal
  | .wrap kind body, progress =>
      if progress.gain.isHeaded && !scopingKinds.contains kind then
        (body.follow ⟨.nothing, progress.seen⟩).andThen fun inner =>
          .reaches ⟨progress.gain, inner.seen⟩
      else .illegal
  | .orElse first second, progress | .onceOrElse first second, progress =>
      (first.follow progress).merge Progress.merge (second.follow progress)
  | .inScope .., _ => .illegal
  | .list body, progress =>
      (body.follow ⟨.nothing, progress.seen⟩).andThen fun inner =>
        .reaches ⟨.anything false, inner.seen⟩
  | .hole, progress => .reaches ⟨.anything false, progress.seen⟩
  | _, progress => .reaches progress

section Follow

variable {terminals : Terminals} {scope : Scope} {base : Forest} {start : Nat}
  {before after place : Place} {progress first second : Progress}

theorem Terminals.clear_zero (terminals : Terminals) (position : Nat) :
    terminals.Clear position 0 :=
  fun _ inside => absurd inside (Nat.not_lt_zero _)

theorem Guard.clears_of_admits (guard : Guard) {targets : List Nat} {seen : Nat}
    (admitted : guard.admits terminals scope place targets = true)
    (clear : terminals.Clear place.position seen) :
    terminals.Clear place.position (guard.clears seen) := by
  induction guard generalizing seen with
  | next offset kinds =>
      simp only [clears]
      split
      · rename_i further
        obtain ⟨rfl, others⟩ := further
        intro index inside
        rcases Nat.lt_succ_iff_lt_or_eq.mp inside with earlier | rfl
        · exact clear index earlier
        · have member : terminals.kindAt (place.position + index) ∈ kinds := by
            simpa [Guard.admits] using admitted
          simpa using List.all_eq_true.mp others _ member
      · exact clear
  | and first second firstIh secondIh =>
      obtain ⟨firstAdmitted, secondAdmitted⟩ := Bool.and_eq_true_iff.mp admitted
      exact secondIh secondAdmitted (firstIh firstAdmitted clear)
  | _ => exact clear

theorem Production.eq_take_of_isWord {call : Nonterminal → Scope → Place → Place → Prop}
    {production : Production} (isWord : production.isWord = true)
    (derives : production.Derives terminals call scope before after) :
    after = before.take terminals := by
  unfold Production.isWord at isWord
  split at isWord
  · obtain ⟨_, ⟨_, taken⟩ | ⟨_, _, _, impossible⟩⟩ := derives
    · exact taken
    · exact impossible.elim
  · cases isWord

namespace Progress.Holds

theorem mergeLeft (holds : first.Holds terminals scope base start place) :
    Holds terminals scope base start place
      ⟨first.gain.merge second.gain, min first.seen second.seen⟩ := by
  obtain ⟨clear, rest, forest, plain, gained⟩ := holds
  exact ⟨fun offset inside => clear offset (Nat.lt_of_lt_of_le inside (Nat.min_le_left _ _)), rest,
    forest, plain, gained.merge_left⟩

theorem mergeRight (holds : second.Holds terminals scope base start place) :
    Holds terminals scope base start place
      ⟨first.gain.merge second.gain, min first.seen second.seen⟩ := by
  obtain ⟨clear, rest, forest, plain, gained⟩ := holds
  exact ⟨fun offset inside => clear offset (Nat.lt_of_lt_of_le inside (Nat.min_le_right _ _)), rest,
    forest, plain, gained.merge_right⟩

theorem take (holds : progress.Holds terminals scope base start place) (seen : progress.seen ≠ 0) :
    Holds terminals scope base start (place.take terminals) ⟨.anything false, progress.seen - 1⟩ := by
  obtain ⟨clear, rest, forest, plain, _⟩ := holds
  refine ⟨?_, rest.token place.position (terminals.kindAt place.position), by simp [Place.take, forest],
    ⟨plain, clear 0 (Nat.pos_of_ne_zero seen)⟩, fun known => nomatch known⟩
  intro offset inside
  have further := clear (offset + 1) (Nat.add_lt_of_lt_sub inside)
  rwa [Nat.add_comm offset, ← Nat.add_assoc] at further

theorem addNode {kind : Kind} {inside : Forest} {seen : Nat}
    (holds : progress.Holds terminals scope base start before)
    (clear : terminals.Clear after.position seen) (adds : before.AddsNode scope after kind inside) :
    Holds terminals scope base start after ⟨progress.gain.addNode, seen⟩ := by
  obtain ⟨_, rest, forest, plain, gained⟩ := holds
  exact ⟨clear, rest.node kind inside, by rw [adds.forest, forest, Forest.append_node],
    ⟨plain, adds.fits⟩, gained.addNode adds.completed⟩

theorem inside (holds : progress.Holds terminals scope base start place) :
    Holds terminals scope .empty place.position place.inside ⟨.nothing, progress.seen⟩ :=
  ⟨holds.1, .empty, rfl, trivial, rfl, rfl⟩

theorem wraps {seen : Nat} (holds : progress.Holds terminals scope base start before)
    (headed : progress.gain.isHeaded = true) (clear : terminals.Clear after.position seen)
    (wrapped : before.Wraps scope after) :
    Holds terminals scope base start after ⟨progress.gain, seen⟩ := by
  obtain ⟨_, rest, forest, plain, gained⟩ := holds
  obtain ⟨earlier, kind, inside, first, rfl, completed⟩ := gained.exists_node headed
  obtain ⟨around, content, added, afterCompleted, fits⟩ :=
    wrapped (base ++ earlier) kind inside first forest completed plain.2
  exact ⟨clear, earlier.node around content, added, ⟨plain.1, fits⟩,
    gained.replace headed completed afterCompleted⟩

theorem addList {inner : Place} {seen : Nat} (holds : progress.Holds terminals scope base start place)
    (clear : terminals.Clear inner.position seen) (plain : inner.forest.Plain scope) :
    Holds terminals scope base start (place.addList inner) ⟨.anything false, seen⟩ := by
  obtain ⟨_, rest, forest, restPlain, _⟩ := holds
  exact ⟨clear, rest.list inner.forest, by simp [Place.addList, forest], ⟨restPlain, plain⟩,
    fun known => nomatch known⟩

theorem addHole (holds : progress.Holds terminals scope base start place) :
    Holds terminals scope base start place.addHole ⟨.anything false, progress.seen⟩ := by
  obtain ⟨clear, rest, forest, plain, _⟩ := holds
  exact ⟨clear, rest.hole, by simp [Place.addHole, forest], plain, fun known => nomatch known⟩

/-- What was added inside of an open node. -/
theorem plain {inner : Place} (holds : progress.Holds terminals scope .empty start inner) :
    inner.forest.Plain scope := by
  obtain ⟨_, rest, forest, plain, _⟩ := holds
  rwa [forest, Forest.empty_append]

theorem call {nonterminal : Nonterminal} (holds : progress.Holds terminals scope base start before)
    (proper : nonterminal.isProper = true) (other : nonterminal ≠ .yieldExpression)
    (needs : nonterminal.needs ≤ progress.seen)
    (headed : nonterminal.role = .tail → progress.gain.isHeaded = true)
    (scopes : nonterminal.Scopes terminals scope before after) :
    Holds terminals scope base start after ⟨progress.gain.call nonterminal.role, 0⟩ := by
  have nothing := terminals.clear_zero after.position
  have called := scopes proper
    (fun offset inside => holds.1 offset (Nat.lt_of_lt_of_le inside needs)) fun same => absurd same other
  cases role : nonterminal.role with
  | node =>
      rw [role] at called
      obtain ⟨kind, inside, adds, _⟩ := called
      exact holds.addNode nothing adds
  | tail =>
      rw [role] at called
      exact holds.wraps (headed role) nothing called
  | content | items =>
      rw [role] at called
      obtain ⟨_, rest, forest, plain, _⟩ := holds
      obtain ⟨more, added, morePlain⟩ := called
      refine ⟨nothing, rest ++ more, ?_, plain.append morePlain, fun known => nomatch known⟩
      rw [added, forest, Forest.append_assoc]

end Progress.Holds

theorem Place.wraps_wrapNode {inner : Place} {kind wrapped : Kind} {first : Nat}
    (completed : before.completed = some (wrapped, first)) (handsOn : kind ∉ scopingKinds)
    (plain : inner.forest.Plain scope) : before.Wraps scope (before.wrapNode kind first inner) := by
  intro outer last inside position forest known fits
  cases completed.symm.trans known
  have whole : (Forest.empty.node wrapped inside ++ inner.forest).Plain scope :=
    Forest.Plain.append ⟨trivial, fits⟩ plain
  exact ⟨kind, _, by rw [Place.wrapNode, forest]; rfl, rfl, whole.scoped handsOn⟩

/-- What is known wherever a verdict says that a production matches. -/
def Progress.Reaches (terminals : Terminals) (scope : Scope) (base : Forest) (start : Nat)
    (place : Place) (verdict : Verdict Progress) : Prop :=
  ∃ reached, verdict = .reaches reached ∧ reached.Holds terminals scope base start place

namespace Progress.Reaches

variable {one other : Verdict Progress}

theorem mergeLeft (legal : one.merge Progress.merge other ≠ .illegal)
    (reaches : Reaches terminals scope base start after one) :
    Reaches terminals scope base start after (one.merge Progress.merge other) := by
  obtain ⟨reached, rfl, holds⟩ := reaches
  obtain ⟨merged, same, rfl | ⟨second, joined⟩⟩ := Verdict.merge_reaches_left legal
  · exact ⟨merged, same, holds⟩
  · cases joined
    exact ⟨_, same, holds.mergeLeft⟩

theorem mergeRight (legal : one.merge Progress.merge other ≠ .illegal)
    (reaches : Reaches terminals scope base start after other) :
    Reaches terminals scope base start after (one.merge Progress.merge other) := by
  obtain ⟨reached, rfl, holds⟩ := reaches
  obtain ⟨merged, same, rfl | ⟨first, joined⟩⟩ := Verdict.merge_reaches_right legal
  · exact ⟨merged, same, holds⟩
  · cases joined
    exact ⟨_, same, holds.mergeRight⟩

end Progress.Reaches

/-- A node that keeps its scope: a property name of one word, a name of one identifier, or what hands
its scope on to all that it holds. -/
theorem Production.reaches_node {kind : Kind} {body : Production} {progress : Progress} {inner : Place}
    (legal : (node kind body).follow progress ≠ .illegal)
    (holds : progress.Holds terminals scope base start before)
    (derives : body.Derives terminals (Nonterminal.Scopes terminals) scope before.inside inner)
    (within : body.follow ⟨.nothing, progress.seen⟩ ≠ .illegal →
      Progress.Reaches terminals scope .empty before.position inner
        (body.follow ⟨.nothing, progress.seen⟩)) :
    Progress.Reaches terminals scope base start (before.addNode kind inner)
      ((node kind body).follow progress) := by
  have nothing := terminals.clear_zero (before.addNode kind inner).position
  simp only [follow] at legal ⊢
  split at legal
  · rename_i isProperty
    split at legal
    · rename_i isWord
      cases eq_take_of_isWord isWord derives
      refine ⟨_, by rw [if_pos isProperty, if_pos isWord], holds.addNode nothing ⟨rfl, rfl, ?_⟩⟩
      exact ⟨trivial, fun other => absurd isProperty other⟩
    · exact absurd rfl legal
  · rename_i noProperty
    split at legal
    · rename_i isName
      split at legal
      · rename_i isIdentifier
        refine ⟨_, by rw [if_neg noProperty, if_pos isName, if_pos isIdentifier],
          holds.addNode nothing ⟨rfl, rfl, ?_⟩⟩
        subst isIdentifier
        obtain ⟨_, ⟨admitted, rfl⟩ | ⟨_, _, _, impossible⟩⟩ := derives
        · exact Forest.scoped_name isName admitted
        · exact impossible.elim
      · exact absurd rfl legal
    · rename_i noName
      split at legal
      · exact absurd rfl legal
      · rename_i handsOn
        obtain ⟨bodyLegal, _⟩ := Verdict.andThen_ne_illegal legal
        obtain ⟨reached, same, innerHolds⟩ := within bodyLegal
        refine ⟨⟨progress.gain.addNode, reached.seen⟩, ?_,
          holds.addNode innerHolds.1 ⟨rfl, rfl, innerHolds.plain.scoped handsOn⟩⟩
        rw [if_neg noProperty, if_neg noName, if_neg handsOn, same, Verdict.andThen]

/-- A production that keeps its scope adds what fits it, if what it calls does. -/
theorem Production.reaches_of_derives (production : Production) :
    ∀ (progress : Progress) (base : Forest) (start : Nat) (before after : Place),
      production.follow progress ≠ .illegal → progress.Holds terminals scope base start before →
      production.Derives terminals (Nonterminal.Scopes terminals) scope before after →
      Progress.Reaches terminals scope base start after (production.follow progress) := by
  induction production with
  | empty | expected kind | expectedConstruct name | markTarget =>
      intro progress base start before after _ holds derives
      cases derives
      exact ⟨progress, rfl, holds⟩
  | refuse =>
      intro progress base start before after _ _ derives
      exact derives.elim
  | take =>
      intro progress base start before after legal holds derives
      cases derives
      simp only [follow] at legal ⊢
      split at legal
      · exact absurd rfl legal
      · rename_i seen
        exact ⟨_, by rw [if_neg seen], holds.take seen⟩
  | call nonterminal =>
      intro progress base start before after legal holds derives
      simp only [follow] at legal ⊢
      split at legal
      · rename_i fits
        rw [if_pos fits]
        simp only [Bool.and_eq_true, bne_iff_ne, decide_eq_true_eq, Bool.or_eq_true] at fits
        obtain ⟨⟨⟨proper, other⟩, needs⟩, headed⟩ := fits
        exact ⟨_, rfl, holds.call proper other needs
          (fun isTail => headed.resolve_left fun noTail => noTail isTail) derives⟩
      · exact absurd rfl legal
  | seq first second firstIh secondIh =>
      intro progress base start before after legal holds derives
      obtain ⟨firstLegal, secondLegal⟩ := Verdict.andThen_ne_illegal legal
      obtain ⟨middle, firstDerives, secondDerives⟩ := derives
      obtain ⟨between, reached, middleHolds⟩ :=
        firstIh progress base start before middle firstLegal holds firstDerives
      have later := secondIh between base start middle after (secondLegal between reached) middleHolds
        secondDerives
      rwa [follow, reached, Verdict.andThen]
  | branch guard yes no yesIh noIh =>
      intro progress base start before after legal holds derives
      obtain ⟨yesLegal, noLegal⟩ := Verdict.merge_ne_illegal legal
      obtain ⟨targets, ⟨admitted, yesDerives⟩ | ⟨_, noDerives⟩⟩ := derives
      · have seen : Progress.Holds terminals scope base start before
            ⟨progress.gain, guard.clears progress.seen⟩ :=
          ⟨guard.clears_of_admits admitted holds.1, holds.2⟩
        exact (yesIh _ base start before after yesLegal seen yesDerives).mergeLeft legal
      · exact (noIh _ base start before after noLegal holds noDerives).mergeRight legal
  | node kind body ih =>
      intro progress base start before after legal holds derives
      obtain ⟨inner, bodyDerives, rfl⟩ := derives
      exact reaches_node legal holds bodyDerives fun bodyLegal =>
        ih _ .empty _ before.inside inner bodyLegal holds.inside bodyDerives
  | fork =>
      intro progress base start before after legal
      exact absurd rfl legal
  | wrap kind body ih =>
      intro progress base start before after legal holds derives
      simp only [follow] at legal ⊢
      split at legal
      · rename_i fits
        obtain ⟨bodyLegal, _⟩ := Verdict.andThen_ne_illegal legal
        obtain ⟨wrapped, first, inner, completed, bodyDerives, rfl⟩ := derives
        obtain ⟨reached, same, innerHolds⟩ :=
          ih _ .empty _ before.inside inner bodyLegal holds.inside bodyDerives
        obtain ⟨headed, handsOn⟩ := Bool.and_eq_true_iff.mp fits
        refine ⟨⟨progress.gain, reached.seen⟩, by rw [if_pos fits, same, Verdict.andThen],
          holds.wraps headed innerHolds.1 ?_⟩
        exact Place.wraps_wrapNode completed (by simpa using handsOn) innerHolds.plain
      · exact absurd rfl legal
  | orElse first second firstIh secondIh | onceOrElse first second firstIh secondIh =>
      intro progress base start before after legal holds derives
      obtain ⟨firstLegal, secondLegal⟩ := Verdict.merge_ne_illegal legal
      rcases derives with firstDerives | secondDerives
      · exact (firstIh progress base start before after firstLegal holds firstDerives).mergeLeft legal
      · exact
          (secondIh progress base start before after secondLegal holds secondDerives).mergeRight legal
  | inScope =>
      intro progress base start before after legal
      exact absurd rfl legal
  | list body ih =>
      intro progress base start before after legal holds derives
      obtain ⟨bodyLegal, _⟩ := Verdict.andThen_ne_illegal legal
      obtain ⟨inner, bodyDerives, rfl⟩ := derives
      obtain ⟨reached, same, innerHolds⟩ :=
        ih _ .empty _ before.inside inner bodyLegal holds.inside bodyDerives
      exact ⟨⟨.anything false, reached.seen⟩, by rw [follow, same, Verdict.andThen],
        holds.addList innerHolds.1 innerHolds.plain⟩
  | hole =>
      intro progress base start before after _ holds derives
      cases derives
      exact ⟨_, rfl, holds.addHole⟩

/-- A production adds one node, told that so many of the next tokens are no operator words. -/
def Production.addsNode (production : Production) (seen : Nat) : Bool :=
  match production.follow ⟨.nothing, seen⟩ with
  | .illegal => false
  | .never => true
  | .reaches progress => progress.gain == .oneNode

theorem Production.exists_node (production : Production) (seen : Nat)
    (adds : production.addsNode seen = true) (clear : terminals.Clear before.position seen)
    (derives : production.Derives terminals (Nonterminal.Scopes terminals) scope before after) :
    ∃ kind inside, before.AddsNode scope after kind inside := by
  unfold addsNode at adds
  have legal : production.follow ⟨.nothing, seen⟩ ≠ .illegal := by
    intro illegal
    rw [illegal] at adds
    cases adds
  obtain ⟨reached, same, _, rest, forest, plain, gained⟩ :=
    production.reaches_of_derives _ before.forest before.position before after legal
      ⟨clear, .empty, rfl, trivial, rfl, rfl⟩ derives
  rw [same] at adds
  rw [beq_iff_eq.mp adds] at gained
  obtain ⟨kind, inside, rfl, completed⟩ := gained
  exact ⟨kind, inside, forest, completed, plain.2⟩

theorem Production.exists_inside {kind : Kind} {body : Production} (seen : Nat)
    (adds : (node kind body).addsNode seen = true) (clear : terminals.Clear before.position seen)
    (derives : (node kind body).Derives terminals (Nonterminal.Scopes terminals) scope before after) :
    ∃ inside, before.AddsNode scope after kind inside := by
  obtain ⟨known, inside, added⟩ := exists_node _ seen adds clear derives
  obtain ⟨inner, _, rfl⟩ := derives
  cases added.forest
  exact ⟨inner.forest, added⟩

/-- In a node that hands its scope on, what comes behind a part that fits only has to keep the scope. -/
theorem Production.scoped_behind (production : Production) {kind : Kind}
    (legal : production.follow ⟨.nothing, 0⟩ ≠ .illegal) (handsOn : kind ∉ scopingKinds)
    (fits : before.forest.Scoped scope kind after.forest)
    (derives : production.Derives terminals (Nonterminal.Scopes terminals) scope before after) :
    after.forest.Scoped scope kind after.forest := by
  obtain ⟨_, _, _, rest, forest, plain, _⟩ :=
    production.reaches_of_derives _ before.forest before.position before after legal
      ⟨terminals.clear_zero _, .empty, rfl, trivial, rfl, rfl⟩ derives
  have whole := fits.append handsOn plain
  rwa [← forest] at whole

/-! ## Nonterminals that keep their scope -/

/-- A nonterminal that adds a node and needs to know nothing of the next tokens. -/
theorem Nonterminal.Scopes.exists_node {nonterminal : Nonterminal}
    (scopes : nonterminal.Scopes terminals scope before after) (isNode : nonterminal.role = .node)
    (proper : nonterminal.isProper = true) (needs : nonterminal.needs = 0)
    (other : nonterminal = .yieldExpression → scope.yieldOperator = true) :
    ∃ kind inside, before.AddsNode scope after kind inside ∧
      ∀ known, nonterminal.nodeKind? = some known → kind = known := by
  have called := scopes proper (by rw [needs]; exact terminals.clear_zero _) other
  rwa [isNode] at called

/-- A node of a known kind, in the scope of a call. -/
theorem Nonterminal.Scopes.exists_inside {nonterminal : Nonterminal} {kind : Kind}
    (scopes : nonterminal.Scopes terminals scope before after) (isNode : nonterminal.role = .node)
    (proper : nonterminal.isProper = true) (needs : nonterminal.needs = 0)
    (other : nonterminal ≠ .yieldExpression) (known : nonterminal.nodeKind? = some kind) :
    ∃ inside, before.AddsNode scope after kind inside := by
  obtain ⟨found, inside, added, same⟩ :=
    scopes.exists_node isNode proper needs fun same => absurd same other
  cases same kind known
  exact ⟨inside, added⟩

theorem Nonterminal.forest_of_nodeKind? {call : Nonterminal → Scope → Place → Place → Prop}
    {nonterminal : Nonterminal} {kind : Kind} (known : nonterminal.nodeKind? = some kind)
    (derives : nonterminal.production.Derives terminals call scope before after) :
    ∃ inside, after.forest = before.forest.node kind inside := by
  unfold nodeKind? at known
  split at known
  · rename_i production
    cases known
    rw [production] at derives
    obtain ⟨inner, _, rfl⟩ := derives
    exact ⟨inner.forest, rfl⟩
  · cases known

def Nonterminal.keepsScope (nonterminal : Nonterminal) : Bool :=
  match nonterminal.role with
  | .node => nonterminal.production.addsNode nonterminal.needs
  | .tail =>
      match nonterminal.production.follow ⟨.oneNode, 0⟩ with
      | .reaches progress => progress.gain == .oneNode
      | _ => false
  | .content | .items => nonterminal.production.follow ⟨.nothing, 0⟩ != .illegal

theorem Nonterminal.scopes_of_addsNode {nonterminal : Nonterminal} (isNode : nonterminal.role = .node)
    (adds : ∃ kind inside, before.AddsNode scope after kind inside)
    (derives : nonterminal.production.Derives terminals (Nonterminal.Scopes terminals) scope before
      after) : nonterminal.Scopes terminals scope before after := by
  intro _ _ _
  rw [isNode]
  obtain ⟨kind, inside, added⟩ := adds
  refine ⟨kind, inside, added, ?_⟩
  intro known found
  obtain ⟨_, same⟩ := forest_of_nodeKind? found derives
  cases added.forest.symm.trans same
  rfl

theorem Nonterminal.scopes_of_keepsScope {nonterminal : Nonterminal}
    (keeps : nonterminal.isProper = true → nonterminal.keepsScope = true)
    (derives : nonterminal.production.Derives terminals (Nonterminal.Scopes terminals) scope before
      after) : nonterminal.Scopes terminals scope before after := by
  intro proper clear yields
  have passes := keeps proper
  unfold keepsScope at passes
  cases role : nonterminal.role with
  | node =>
      rw [role] at passes
      have added := Production.exists_node _ _ passes clear derives
      have scopes := scopes_of_addsNode role added derives proper clear yields
      rwa [role] at scopes
  | tail =>
      rw [role] at passes
      intro outer kind inside first forest completed fits
      cases followed : nonterminal.production.follow ⟨.oneNode, 0⟩ with
      | reaches progress =>
          obtain ⟨_, same, _, rest, afterForest, plain, gained⟩ :=
            nonterminal.production.reaches_of_derives ⟨.oneNode, 0⟩ outer first before after
              (by simp [followed])
              ⟨terminals.clear_zero _, Forest.empty.node kind inside, forest, ⟨trivial, fits⟩, kind,
                inside, rfl, completed⟩ derives
          cases followed.symm.trans same
          simp only [followed, beq_iff_eq] at passes
          rw [passes] at gained
          obtain ⟨around, content, rfl, afterCompleted⟩ := gained
          exact ⟨around, content, afterForest, afterCompleted, plain.2⟩
      | illegal => simp [followed] at passes
      | never => simp [followed] at passes
  | content | items =>
      rw [role] at passes
      obtain ⟨_, _, _, rest, forest, plain, _⟩ :=
        nonterminal.production.reaches_of_derives ⟨.nothing, 0⟩ before.forest before.position before
          after (bne_iff_ne.mp passes) ⟨terminals.clear_zero _, .empty, rfl, trivial, rfl, rfl⟩ derives
      exact ⟨rest, forest, plain⟩

end Follow

end ScriptTree
