import ScriptTree.Proofs.Derivation
import ScriptTree.Proofs.Discipline

/-! # What a match covers

A match adds to what is open a forest that a builder accepts, and its leaves are the tokens from where
it started to where it ended, each once and in order. -/
set_option autoImplicit false
namespace ScriptTree

/-! ## Tokens between two positions -/

/-- The tokens from one position up to another, as leaves. -/
def Terminals.leaves (terminals : Terminals) (first stop : Nat) : List (Nat × Kind) :=
  (List.range' first (stop - first)).map fun position => (position, terminals.kindAt position)

theorem Terminals.leaves_self (terminals : Terminals) (position : Nat) :
    terminals.leaves position position = [] := by
  simp [leaves]

theorem Terminals.leaves_append (terminals : Terminals) {first middle stop : Nat}
    (earlier : first ≤ middle) (later : middle ≤ stop) :
    terminals.leaves first middle ++ terminals.leaves middle stop = terminals.leaves first stop := by
  have start : middle = first + (middle - first) := by omega
  have count : stop - first = (middle - first) + (stop - middle) := by omega
  simp only [leaves]
  rw [← List.map_append, count, ← List.range'_append_1, ← start]

/-- What was taken between two places are the tokens between them. -/
def Place.Reads (terminals : Terminals) (before after : Place) : Prop :=
  before.position ≤ after.position ∧
    after.forest.leaves =
      before.forest.leaves ++ terminals.leaves before.position after.position

namespace Place.Reads

variable {terminals : Terminals} {before middle after : Place}

theorem refl (place : Place) : place.Reads terminals place :=
  ⟨Nat.le_refl _, by rw [terminals.leaves_self, List.append_nil]⟩

theorem trans (earlier : before.Reads terminals middle) (later : middle.Reads terminals after) :
    before.Reads terminals after := by
  refine ⟨Nat.le_trans earlier.1 later.1, ?_⟩
  rw [later.2, earlier.2, List.append_assoc, terminals.leaves_append earlier.1 later.1]

theorem take (place : Place) : place.Reads terminals (place.take terminals) := by
  refine ⟨Nat.le_succ _, ?_⟩
  simp [Place.take, Forest.leaves, Terminals.leaves]

theorem close {inner : Place} {forest : Forest} {completed : Option (Kind × Nat)}
    (reads : before.inside.Reads terminals inner)
    (leaves : forest.leaves = before.forest.leaves ++ inner.forest.leaves) :
    before.Reads terminals ⟨inner.position, forest, completed⟩ :=
  ⟨reads.1, by rw [leaves, reads.2]; rfl⟩

end Place.Reads

/-! ## Forests in a phase -/

/-- The node completed last is the last one. -/
def Place.IsHeaded (place : Place) : Prop :=
  ∃ before kind children first,
    place.forest = .node before kind children ∧ place.completed = some (kind, first)

namespace Phase

def Admits : Phase → Forest → Prop
  | inNode _, forest => forest.WellBuilt false
  | beforeElement, forest => forest.WellBuilt true ∧ forest.expectsElement = some true
  | afterElement _, forest => forest.WellBuilt true ∧ forest.expectsElement = some false
  | listEnd, forest => forest.WellBuilt true ∧ forest.expectsElement ≠ none
  | beforeRoot, forest => forest = .empty
  | afterRoot _, forest =>
      ∃ kind children, forest = Forest.empty.node kind children ∧ forest.WellBuilt false

def Fits (phase : Phase) (place : Place) : Prop :=
  phase.Admits place.forest ∧ (phase.isHeaded = true → place.IsHeaded)

variable {phase after merged first second : Phase} {place : Place} {forest : Forest}

theorem Admits.merge_left (joined : first.merge second = some merged) (admits : first.Admits forest) :
    merged.Admits forest := by
  cases first <;> cases second <;> cases joined <;> simp_all [Admits]

theorem Admits.merge_right (joined : first.merge second = some merged)
    (admits : second.Admits forest) :
    merged.Admits forest := by
  cases first <;> cases second <;> cases joined <;> simp_all [Admits]

theorem Fits.merge_left (joined : first.merge second = some merged) (fits : first.Fits place) :
    merged.Fits place :=
  ⟨fits.1.merge_left joined, fun headed => fits.2 (isHeaded_of_merge joined headed).1⟩

theorem Fits.merge_right (joined : first.merge second = some merged) (fits : second.Fits place) :
    merged.Fits place :=
  ⟨fits.1.merge_right joined, fun headed => fits.2 (isHeaded_of_merge joined headed).2⟩

theorem Fits.take {terminals : Terminals} (fits : phase.Fits place)
    (added : phase.addToken = some after) : after.Fits (place.take terminals) := by
  refine ⟨?_, by simp [isHeaded_of_addToken added]⟩
  have admits := fits.1
  cases phase <;> cases added <;>
    simp_all [Admits, Place.take, Forest.WellBuilt, Forest.expectsElement]

theorem Fits.addHole (fits : phase.Fits place) (added : phase.addHole = some after) :
    after.Fits place.addHole := by
  refine ⟨?_, by simp [isHeaded_of_addHole added]⟩
  have admits := fits.1
  cases phase <;> cases added
  simp_all [Admits, Place.addHole, Forest.WellBuilt, Forest.expectsElement]

theorem Fits.addNode {inner : Place} {kind : Kind} (fits : phase.Fits place)
    (added : phase.addNode = some after) (isNode : kind.isNode = true)
    (built : inner.forest.WellBuilt false) : after.Fits (place.addNode kind inner) := by
  refine ⟨?_, fun _ => ⟨_, _, _, _, rfl, rfl⟩⟩
  have admits := fits.1
  cases phase <;> cases added <;>
    simp_all [Admits, Place.addNode, Forest.WellBuilt, Forest.expectsElement]

theorem Fits.addList {inner : Place} (fits : phase.Fits place) (added : phase.addList = some after)
    (built : inner.forest.WellBuilt true) (alternates : inner.forest.expectsElement ≠ none) :
    after.Fits (place.addList inner) := by
  refine ⟨?_, by simp [isHeaded_of_addList added]⟩
  have admits := fits.1
  cases phase <;> cases added
  exact ⟨rfl, admits, built, alternates⟩

theorem Fits.wrapNode {inner : Place} {kind : Kind} (first : Nat) (fits : phase.Fits place)
    (headed : phase.isHeaded = true) (isNode : kind.isNode = true)
    (built : inner.forest.WellBuilt false) : phase.Fits (place.wrapNode kind first inner) := by
  obtain ⟨before, wrapped, children, _, forest, _⟩ := fits.2 headed
  have admits := fits.1
  rw [forest] at admits
  have around : ∀ {inList : Bool}, (before.node wrapped children).WellBuilt inList →
      (before.node kind (Forest.empty.node wrapped children ++ inner.forest)).WellBuilt inList := by
    intro inList whole
    exact ⟨whole.1, isNode, Forest.WellBuilt.append ⟨trivial, whole.2⟩ built⟩
  refine ⟨?_, fun _ => ⟨before, kind, _, first, by rw [Place.wrapNode, forest]; rfl, rfl⟩⟩
  rw [Place.wrapNode, forest, Forest.wrapLast_node]
  cases phase with
  | inNode headed => exact around admits
  | beforeElement => cases headed
  | afterElement headed => exact ⟨around admits.1, admits.2⟩
  | listEnd => cases headed
  | beforeRoot => cases headed
  | afterRoot headed =>
      obtain ⟨_, _, same, whole⟩ := admits
      cases same
      exact ⟨_, _, rfl, around whole⟩

def context : Phase → Option Bool
  | inNode _ => some false
  | beforeElement | afterElement _ | listEnd => some true
  | beforeRoot | afterRoot _ => none

theorem Admits.inNode (admits : phase.Admits forest) (context : phase.context = some false) :
    forest.WellBuilt false := by
  cases phase <;> cases context
  exact admits

theorem Admits.inList (admits : phase.Admits forest) (context : phase.context = some true) :
    forest.WellBuilt true ∧ forest.expectsElement ≠ none := by
  cases phase <;> cases context
  · exact ⟨admits.1, by simp [admits.2]⟩
  · exact ⟨admits.1, by simp [admits.2]⟩
  · exact admits

theorem context_of_addToken (added : phase.addToken = some after) : after.context = phase.context := by
  cases phase <;> cases added <;> rfl

theorem context_of_addNode (added : phase.addNode = some after) : after.context = phase.context := by
  cases phase <;> cases added <;> rfl

theorem context_of_addHole (added : phase.addHole = some after) : after.context = phase.context := by
  cases phase <;> cases added
  rfl

theorem context_of_addList (added : phase.addList = some after) : after.context = phase.context := by
  cases phase <;> cases added
  rfl

theorem context_of_merge (joined : first.merge second = some merged) :
    merged.context = first.context ∧ merged.context = second.context := by
  cases first <;> cases second <;> cases joined <;> exact ⟨rfl, rfl⟩

end Phase

/-! ## Matches keep what is open in order -/

/-- A match between two places that a check of its production foresaw. -/
def Covers (terminals : Terminals) (phase : Phase) (verdict : Verdict Phase) (before after : Place) :
    Prop :=
  ∃ reached, verdict = .reaches reached ∧ reached.context = phase.context ∧ reached.Fits after ∧
    before.Reads terminals after

namespace Covers

variable {terminals : Terminals} {phase : Phase} {before after : Place}

theorem unchanged (fits : phase.Fits before) :
    Covers terminals phase (.reaches phase) before before :=
  ⟨phase, rfl, rfl, fits, .refl before⟩

theorem mergeLeft {one other : Verdict Phase} (legal : one.merge Phase.merge other ≠ .illegal)
    (covers : Covers terminals phase one before after) :
    Covers terminals phase (one.merge Phase.merge other) before after := by
  obtain ⟨reached, rfl, context, fits, reads⟩ := covers
  obtain ⟨merged, same, rfl | ⟨second, joined⟩⟩ := Verdict.merge_reaches_left legal
  · exact ⟨merged, same, context, fits, reads⟩
  · exact ⟨merged, same, (Phase.context_of_merge joined).1.trans context, fits.merge_left joined,
      reads⟩

theorem mergeRight {one other : Verdict Phase} (legal : one.merge Phase.merge other ≠ .illegal)
    (covers : Covers terminals phase other before after) :
    Covers terminals phase (one.merge Phase.merge other) before after := by
  obtain ⟨reached, rfl, context, fits, reads⟩ := covers
  obtain ⟨merged, same, rfl | ⟨first, joined⟩⟩ := Verdict.merge_reaches_right legal
  · exact ⟨merged, same, context, fits, reads⟩
  · exact ⟨merged, same, (Phase.context_of_merge joined).2.trans context, fits.merge_right joined,
      reads⟩

end Covers

def Nonterminal.Covering (terminals : Terminals) (nonterminal : Nonterminal) (_ : Scope)
    (before after : Place) : Prop :=
  ∀ phase reached : Phase, nonterminal.isProper = true →
    nonterminal.role.apply phase = some reached → phase.Fits before →
      Covers terminals phase (.reaches reached) before after

def Production.IsCovered (terminals : Terminals) (production : Production) : Prop :=
  ∀ (phase : Phase) (scope : Scope) (before after : Place),
    production.check phase ≠ .illegal → phase.Fits before →
    production.Derives terminals (Nonterminal.Covering terminals) scope before after →
    Covers terminals phase (production.check phase) before after

namespace Production.IsCovered

variable {terminals : Terminals} {one two body : Production}

theorem take : IsCovered terminals .take := by
  intro phase scope before after legal fits derives
  cases derives
  obtain ⟨reached, added, reaches⟩ := take_legal legal
  exact ⟨reached, reaches, Phase.context_of_addToken added, fits.take added, .take before⟩

theorem hole : IsCovered terminals .hole := by
  intro phase scope before after legal fits derives
  cases derives
  obtain ⟨reached, added, reaches⟩ := hole_legal legal
  exact ⟨reached, reaches, Phase.context_of_addHole added, fits.addHole added,
    ⟨Nat.le_refl _, (Place.Reads.refl before).2⟩⟩

theorem call (nonterminal : Nonterminal) : IsCovered terminals (.call nonterminal) := by
  intro phase scope before after legal fits derives
  obtain ⟨proper, reached, applied, reaches⟩ := call_legal legal
  rw [reaches]
  exact derives phase reached proper applied fits

theorem seq (oneCovered : IsCovered terminals one) (twoCovered : IsCovered terminals two) :
    IsCovered terminals (.seq one two) := by
  intro phase scope before after legal fits derives
  obtain ⟨oneLegal, twoLegal⟩ := Verdict.andThen_ne_illegal legal
  obtain ⟨middle, oneDerives, twoDerives⟩ := derives
  obtain ⟨between, checked, context, middleFits, reads⟩ :=
    oneCovered phase scope before middle oneLegal fits oneDerives
  obtain ⟨reached, rest, laterContext, afterFits, laterReads⟩ :=
    twoCovered between scope middle after (twoLegal between checked) middleFits twoDerives
  exact ⟨reached, (Verdict.andThen_of_reaches checked).trans rest, laterContext.trans context,
    afterFits, reads.trans laterReads⟩

theorem branch (guard : Guard) (yesCovered : IsCovered terminals one)
    (noCovered : IsCovered terminals two) : IsCovered terminals (.branch guard one two) := by
  intro phase scope before after legal fits derives
  obtain ⟨yesLegal, noLegal⟩ := Verdict.merge_ne_illegal legal
  obtain ⟨targets, ⟨_, yesDerives⟩ | ⟨_, noDerives⟩⟩ := derives
  · exact (yesCovered phase scope before after yesLegal fits yesDerives).mergeLeft legal
  · exact (noCovered phase scope before after noLegal fits noDerives).mergeRight legal

theorem node (kind : Kind) (bodyCovered : IsCovered terminals body) :
    IsCovered terminals (.node kind body) := by
  intro phase scope before after legal fits derives
  obtain ⟨bodyLegal, nodeLegal⟩ := node_legal legal
  obtain ⟨inner, bodyDerives, rfl⟩ := derives
  obtain ⟨inside, checked, context, innerFits, reads⟩ := bodyCovered (.inNode false) scope
    before.inside inner bodyLegal ⟨trivial, by simp [Phase.isHeaded]⟩ bodyDerives
  obtain ⟨isNode, reached, added, reaches⟩ := nodeLegal inside checked
  exact ⟨reached, reaches, Phase.context_of_addNode added,
    fits.addNode added isNode (innerFits.1.inNode context), reads.close rfl⟩

theorem fork (guard : Guard) (kindYes kindNo : Kind) (headCovered : IsCovered terminals body)
    (yesCovered : IsCovered terminals one) (noCovered : IsCovered terminals two) :
    IsCovered terminals (.fork body guard kindYes one kindNo two) := by
  intro phase scope before after legal fits derives
  obtain ⟨headLegal, tailLegal⟩ := fork_legal legal
  obtain ⟨middle, inner, targets, headDerives, tailDerives⟩ := derives
  obtain ⟨between, checked, context, middleFits, reads⟩ := headCovered (.inNode false) scope
    before.inside middle headLegal ⟨trivial, by simp [Phase.isHeaded]⟩ headDerives
  obtain ⟨mergeLegal, kindLegal⟩ := tailLegal between checked
  obtain ⟨yesLegal, noLegal⟩ := Verdict.merge_ne_illegal mergeLegal
  have close : ∀ kind : Kind,
      (kindYes.isNode = true → kindNo.isNode = true → kind.isNode = true) →
      Covers terminals between ((one.check between).merge Phase.merge (two.check between)) middle
        inner →
      Covers terminals phase ((Production.fork body guard kindYes one kindNo two).check phase) before
        (before.addNode kind inner) := by
    rintro kind isNode ⟨inside, merged, insideContext, innerFits, laterReads⟩
    obtain ⟨isYes, isNo, reached, added, reaches⟩ := kindLegal inside merged
    exact ⟨reached, reaches, Phase.context_of_addNode added,
      fits.addNode added (isNode isYes isNo) (innerFits.1.inNode (insideContext.trans context)),
      (reads.trans laterReads).close rfl⟩
  rcases tailDerives with ⟨_, yesDerives, rfl⟩ | ⟨_, noDerives, rfl⟩
  · exact close kindYes (fun isNode _ => isNode)
      ((yesCovered between scope middle inner yesLegal middleFits yesDerives).mergeLeft mergeLegal)
  · exact close kindNo (fun _ isNode => isNode)
      ((noCovered between scope middle inner noLegal middleFits noDerives).mergeRight mergeLegal)

theorem wrap (kind : Kind) (bodyCovered : IsCovered terminals body) :
    IsCovered terminals (.wrap kind body) := by
  intro phase scope before after legal fits derives
  obtain ⟨headed, bodyLegal, wrapLegal⟩ := wrap_legal legal
  obtain ⟨wrapped, first, inner, completed, bodyDerives, rfl⟩ := derives
  obtain ⟨inside, checked, context, innerFits, reads⟩ := bodyCovered (.inNode false) scope
    before.inside inner bodyLegal ⟨trivial, by simp [Phase.isHeaded]⟩ bodyDerives
  obtain ⟨isNode, reaches⟩ := wrapLegal inside checked
  refine ⟨phase, reaches, rfl, fits.wrapNode first headed isNode (innerFits.1.inNode context),
    reads.close ?_⟩
  obtain ⟨earlier, last, children, _, forest, _⟩ := fits.2 headed
  rw [forest]
  simp [Forest.leaves]

theorem list (bodyCovered : IsCovered terminals body) : IsCovered terminals (.list body) := by
  intro phase scope before after legal fits derives
  obtain ⟨bodyLegal, listLegal⟩ := list_legal legal
  obtain ⟨inner, bodyDerives, rfl⟩ := derives
  obtain ⟨inside, checked, context, innerFits, reads⟩ := bodyCovered .beforeElement scope
    before.inside inner bodyLegal ⟨⟨trivial, rfl⟩, by simp [Phase.isHeaded]⟩ bodyDerives
  obtain ⟨reached, added, reaches⟩ := listLegal inside checked
  obtain ⟨built, alternates⟩ := innerFits.1.inList context
  exact ⟨reached, reaches, Phase.context_of_addList added, fits.addList added built alternates,
    reads.close rfl⟩

end Production.IsCovered

theorem Production.covers_of_derives {terminals : Terminals} (production : Production) :
    production.IsCovered terminals := by
  induction production with
  | empty | expected kind | expectedConstruct name | markTarget =>
      intro phase scope before after _ fits derives
      cases derives
      exact .unchanged fits
  | refuse =>
      intro phase scope before after _ _ derives
      exact derives.elim
  | take => exact .take
  | call nonterminal => exact .call nonterminal
  | seq one two oneCovered twoCovered => exact oneCovered.seq twoCovered
  | branch guard yes no yesCovered noCovered => exact yesCovered.branch guard noCovered
  | node kind body covered => exact covered.node kind
  | fork head guard kindYes yes kindNo no headCovered yesCovered noCovered =>
      exact headCovered.fork guard kindYes kindNo yesCovered noCovered
  | wrap kind body covered => exact covered.wrap kind
  | orElse one two oneCovered twoCovered | onceOrElse one two oneCovered twoCovered =>
      intro phase scope before after legal fits derives
      obtain ⟨oneLegal, twoLegal⟩ := Verdict.merge_ne_illegal legal
      rcases derives with oneDerives | twoDerives
      · exact (oneCovered phase scope before after oneLegal fits oneDerives).mergeLeft legal
      · exact (twoCovered phase scope before after twoLegal fits twoDerives).mergeRight legal
  | inScope change body covered =>
      intro phase scope before after legal fits derives
      exact covered phase (change.apply scope) before after legal fits derives
  | list body covered => exact covered.list
  | hole => exact .hole

theorem Nonterminal.nestWith_covers (terminals : Terminals) (fuel : Nat) :
    CallsSatisfy (nestWith production terminals fuel) (Covering terminals) := by
  apply nestWith_satisfies
  intro nonterminal scope before after derives phase reached proper applied fits
  obtain ⟨calledIn, member, reaches, same⟩ := Role.exists_phase applied
  have checked := nonterminal.check_production proper calledIn member
  rw [reaches, Verdict.ofOption] at checked
  have context : calledIn.context = phase.context := by
    rcases same with rfl | ⟨_, rfl, rfl⟩ <;> rfl
  have calledFits : calledIn.Fits before := by
    rcases same with rfl | ⟨_, rfl, rfl⟩
    · exact fits
    · exact ⟨fits.1, by simp [Phase.isHeaded]⟩
  obtain ⟨last, reachesLast, lastContext, lastFits, reads⟩ :=
    nonterminal.production.covers_of_derives calledIn scope before after (by simp [checked]) calledFits
      derives
  rw [checked] at reachesLast
  cases reachesLast
  exact ⟨reached, rfl, lastContext.trans context, lastFits, reads⟩

/-- A nonterminal that adds a node, matched on its own, gives one node that covers what it took. -/
theorem Nonterminal.node_of_nestWith {terminals : Terminals} {fuel : Nat} {nonterminal : Nonterminal}
    {scope : Scope} {place : Place} {history later : History} (isNode : nonterminal.role = .node)
    (proper : nonterminal.isProper = true)
    (matched : nestWith production terminals fuel nonterminal scope .start history =
      .matched place later) :
    ∃ kind children, place.forest = Forest.empty.node kind children ∧
      place.forest.WellBuilt false ∧ place.forest.leaves = terminals.leaves 0 place.position := by
  have covers := nestWith_covers terminals fuel nonterminal scope .start place history later matched
    .beforeRoot (.afterRoot true) proper (by rw [isNode]; rfl) ⟨rfl, by simp [Phase.isHeaded]⟩
  obtain ⟨_, ⟨⟩, _, ⟨⟨kind, children, forest, built⟩, _⟩, _, leaves⟩ := covers
  exact ⟨kind, children, forest, built, by simpa [Place.start, Forest.leaves] using leaves⟩

end ScriptTree
