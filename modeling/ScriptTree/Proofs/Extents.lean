import ScriptTree.Proofs.Response
import ScriptTree.Proofs.Spans

/-! # Where matches end

Two matches of a nonterminal from one position may have different histories, and still mostly end at one
position. An expression may end in front of an assignment operator or of an arrow that another match goes
on with; whatever needs no history ends where the text says. -/
set_option autoImplicit false
set_option maxRecDepth 4000
namespace ScriptTree

open Grammar

/-! ## Endings -/

/-- What is known of the ends of two matches. -/
inductive Ending where
  /-- They are the same. -/
  | fixed
  /-- They are the same, or one match stopped in front of an operator. -/
  | loose
  deriving DecidableEq, Repr

/-- In front of these a match may stop that another one goes on with. -/
def haltKinds : List Kind := .fatArrow :: (assignmentOperators ++ identifierKinds)

/-- An assignment operator comes next, or an arrow, or the parameter of one. -/
def Terminals.HaltsAt (terminals : Terminals) (position : Nat) : Prop :=
  terminals.kindAt position ∈ Kind.fatArrow :: assignmentOperators ∨
    terminals.kindAt position ∈ identifierKinds ∧ terminals.kindAt (position + 1) = .fatArrow

theorem Terminals.HaltsAt.mem {terminals : Terminals} {position : Nat}
    (halts : terminals.HaltsAt position) : terminals.kindAt position ∈ haltKinds := by
  simp only [haltKinds, List.mem_cons, List.mem_append]
  rcases halts with among | ⟨identifier, -⟩
  · exact (List.mem_cons.mp among).imp_right .inl
  · exact .inr (.inr identifier)

namespace Ending

def Relates (terminals : Terminals) : Ending → Nat → Nat → Prop
  | fixed, one, other => one = other
  | loose, one, other => one = other ∨ terminals.HaltsAt one ∨ terminals.HaltsAt other

def join : Ending → Ending → Ending
  | fixed, fixed => fixed
  | _, _ => loose

def covers : Ending → Ending → Bool
  | loose, fixed => false
  | _, _ => true

end Ending

/-- Whether a guard looks at the tokens and the scope alone. -/
def Guard.isPlain : Guard → Bool
  | next _ _ | lineBreak _ | identifier _ | yieldOperator | awaitOperator => true
  | completed _ | completedTarget => false
  | not guard => guard.isPlain
  | and first second | or first second => first.isPlain && second.isPlain

/-- Whether a production ends with the bracket that is open where it starts. -/
def Production.closes (production : Production) (bracket : Bracket) : Bool :=
  match production.watched (bareWatch .nothing) ([bracket], []) with
  | .reaches (stack, _) => stack = []
  | .never | .illegal => false

/-- How a nonterminal ends, for those in a loop head and in no bracket; the loose ones where `yield` is no
operator. -/
def Nonterminal.ending : Nonterminal → Option Ending
  | leftHandSide | newExpression | memberTail _ | primary | identifierReference | bindingIdentifier
  | parenthesized | arrayLiteral | objectLiteral | templateLiteral | functionExpression | function _
  | formalParameters | functionBody | classExpression | classBody | arguments | unary | postfixed
  | binary _ | binaryTail _ | bindingTarget | arrayBindingPattern | objectBindingPattern => some .fixed
  | assignment | plainAssignment | conditional | arrow | bindingElement | items .declarators
  | variableDeclaration => some .loose
  | _ => none

/-- How a production ends, if that can be told; `yields` tells whether `yield` may be an operator. -/
def Production.ending : Bool → Production → Option Ending
  | _, .empty | _, .refuse | _, .take | _, .expected _ | _, .expectedConstruct _ | _, .hole
  | _, .markTarget => some .fixed
  | yields, .call nonterminal =>
      match nonterminal.ending with
      | some .loose => if yields then none else some .loose
      | other => other
  | yields, .seq first second =>
      match first.ending yields with
      | some .fixed => if Bracket.all.any second.closes then some .fixed else second.ending yields
      | some .loose =>
          if second.respond haltKinds (Nonterminal.respond haltKinds) ≠ .moves then
            (second.ending yields).map fun _ => .loose
          else none
      | none => none
  | yields, .branch guard yes no =>
      if guard.isPlain then
        match yes.ending yields, no.ending yields with
        | some one, some other => some (one.join other)
        | _, _ => none
      else none
  | yields, .node _ body | yields, .wrap _ body | yields, .list body => body.ending yields
  | yields, .inScope (.arrowParameters _) body => body.ending yields
  | _, .inScope (.enter scope) body => body.ending scope.yieldOperator
  | yields, .orElse first .refuse => first.ending yields
  | _, .orElse _ _ | _, .onceOrElse _ _ | _, .fork _ _ _ _ _ _ => none

/-- What the grammar ends as is told, the choice between an arrow and another expression apart. -/
theorem Nonterminal.ending_production : ∀ nonterminal ∈ listed, ∀ ending, nonterminal.ending = some ending →
    nonterminal ≠ .assignment → nonterminal ≠ .plainAssignment →
    ∃ found, nonterminal.production.ending (ending ≠ .loose) = some found ∧ found.covers ending = true := by
  have checked : ∀ nonterminal ∈ listed, nonterminal ≠ .assignment → nonterminal ≠ .plainAssignment →
      (match nonterminal.ending with
        | some ending =>
            match nonterminal.production.ending (ending ≠ .loose) with
            | some found => found.covers ending
            | none => false
        | none => true) = true := by
    decide +kernel
  intro nonterminal member ending ends notAssignment notPlain
  have passed := checked nonterminal member notAssignment notPlain
  rw [ends] at passed
  dsimp only at passed
  split at passed
  · rename_i found ends
    exact ⟨found, ends, passed⟩
  · cases passed

/-! ## Two matches -/

/-- A match within some fuel, whatever the histories are. -/
def Nonterminal.Matches (terminals : Terminals) (fuel : Nat) (nonterminal : Nonterminal) (scope : Scope)
    (before after : Place) : Prop :=
  ∃ history later,
    nonterminal.nestWith production terminals fuel scope before history = .matched after later

section Matches

variable {terminals : Terminals} {fuel other : Nat} {nonterminal : Nonterminal} {scope : Scope}
  {before after before' after' : Place}

namespace Nonterminal.Matches

theorem derives (matched : nonterminal.Matches terminals fuel scope before after) :
    ∃ less, fuel = less + 1 ∧
      nonterminal.production.Derives terminals (Matches terminals less) scope before after := by
  obtain ⟨history, later, matched⟩ := matched
  cases fuel with
  | zero => cases matched
  | succ less =>
      exact ⟨less, rfl, nonterminal.production.derives_of_nest
        (fun _ _ _ _ history later found => ⟨history, later, found⟩) _ _ _ _ _ matched⟩

theorem spans (matched : nonterminal.Matches terminals fuel scope before after) :
    nonterminal.Spans terminals scope before after := by
  obtain ⟨history, later, matched⟩ := matched
  exact Nonterminal.nestWith_spans terminals fuel _ _ _ _ _ _ matched

theorem heeds (matched : nonterminal.Matches terminals fuel scope before after) :
    nonterminal.Heeds terminals scope before after := by
  obtain ⟨history, later, matched⟩ := matched
  exact Nonterminal.nestWith_heeds terminals fuel _ _ _ _ _ _ matched

end Nonterminal.Matches

theorem Guard.admits_eq_of_isPlain {place there : Place} {targets others : List Nat} {guard : Guard}
    (plain : guard.isPlain = true) (same : place.position = there.position) :
    guard.admits terminals scope place targets = guard.admits terminals scope there others := by
  induction guard with
  | next | lineBreak | identifier => simp only [admits, same]
  | yieldOperator | awaitOperator => rfl
  | completed | completedTarget => cases plain
  | not guard ih => simp only [admits, ih plain]
  | and first second firstIh secondIh | or first second firstIh secondIh =>
      obtain ⟨firstPlain, secondPlain⟩ := Bool.and_eq_true_iff.mp plain
      simp only [admits, firstIh firstPlain, secondIh secondPlain]

/-- What ends with an open bracket leaves nothing bare up to there. -/
theorem Production.spans_of_closes {production : Production} {bracket : Bracket}
    (closes : production.closes bracket = true)
    (derives : production.Derives terminals (Nonterminal.Matches terminals fuel) scope before after) :
    terminals.Spans .nothing [bracket] before.position [] after.position := by
  rw [Production.closes] at closes
  split at closes
  · rename_i stack ahead reaches
    cases of_decide_eq_true closes
    have legal : production.watched (bareWatch .nothing) ([bracket], []) ≠ .illegal := by simp [reaches]
    obtain ⟨reached, found, _, spans⟩ := production.spans_of_derives ([bracket], []) scope before after
      legal .nil (derives.imp fun _ _ _ _ => Nonterminal.Matches.spans)
    rw [reaches] at found
    cases found
    exact spans
  · cases closes
  · cases closes

end Matches

namespace Ending.Relates

variable {terminals : Terminals} {ending found : Ending} {one another : Nat}

theorem loosen (relates : found.Relates terminals one another) : loose.Relates terminals one another := by
  cases found with
  | fixed => exact .inl relates
  | loose => exact relates

theorem covered (relates : found.Relates terminals one another) (covers : found.covers ending = true) :
    ending.Relates terminals one another := by
  cases ending with
  | fixed =>
      cases found with
      | fixed => exact relates
      | loose => cases covers
  | loose => exact relates.loosen

theorem join_left (relates : found.Relates terminals one another) :
    (found.join ending).Relates terminals one another := by
  cases found <;> cases ending <;> first | exact relates | exact .inl relates

theorem join_right (relates : found.Relates terminals one another) :
    (ending.join found).Relates terminals one another := by
  cases found <;> cases ending <;> first | exact relates | exact .inl relates

end Ending.Relates

section TwoRuns

variable {terminals : Terminals} {fuel other : Nat}

def CallsEnd (terminals : Terminals) (fuel : Nat) : Prop :=
  ∀ (nonterminal : Nonterminal) (ending : Ending), nonterminal.ending = some ending →
    ∀ (other : Nat) (scope : Scope) (before after before' after' : Place),
    (ending = .loose → scope.yieldOperator = false) → before.position = before'.position →
    nonterminal.Matches terminals fuel scope before after →
    nonterminal.Matches terminals other scope before' after' →
      ending.Relates terminals after.position after'.position

/-- Two matches of the production from one position end as its ending says. -/
def Production.HasEnding (terminals : Terminals) (fuel other : Nat) (production : Production) : Prop :=
  ∀ (yields : Bool) (ending : Ending) (scope : Scope) (before after before' after' : Place),
    production.ending yields = some ending → (yields = false → scope.yieldOperator = false) →
    before.position = before'.position →
    production.Derives terminals (Nonterminal.Matches terminals fuel) scope before after →
    production.Derives terminals (Nonterminal.Matches terminals other) scope before' after' →
      ending.Relates terminals after.position after'.position

namespace Production.HasEnding

theorem call (calls : CallsEnd terminals fuel) (nonterminal : Nonterminal) :
    (Production.call nonterminal).HasEnding terminals fuel other := by
  intro yields ending scope before after before' after' ends plain same one another
  rw [Production.ending] at ends
  split at ends
  · rename_i isLoose
    split at ends
    · cases ends
    · rename_i noYield
      cases ends
      exact calls nonterminal _ isLoose _ _ _ _ _ _ (fun _ => plain (Bool.eq_false_iff.mpr noYield))
        same one another
  · rename_i isFixed
    refine calls nonterminal _ ends _ _ _ _ _ _ (fun isLoose => ?_) same one another
    rw [isLoose] at ends
    exact absurd ends isFixed

theorem seq {one two : Production} (oneEnding : one.HasEnding terminals fuel other)
    (twoEnding : two.HasEnding terminals fuel other) :
    (Production.seq one two).HasEnding terminals fuel other := by
  rintro yields ending scope before after before' after' ends plain same ⟨middle, first₁, second₁⟩
    ⟨middle', first₂, second₂⟩
  rw [Production.ending] at ends
  split at ends
  · rename_i firstEnds
    have between : middle.position = middle'.position :=
      oneEnding yields _ scope _ _ _ _ firstEnds plain same first₁ first₂
    split at ends
    · rename_i closes
      cases ends
      obtain ⟨bracket, -, closes⟩ := List.any_eq_true.mp closes
      exact (between ▸ spans_of_closes closes second₁).stop_eq (spans_of_closes closes second₂)
    · exact twoEnding yields _ scope _ _ _ _ ends plain between second₁ second₂
  · rename_i firstEnds
    split at ends
    · rename_i responds
      obtain ⟨found, secondEnds, rfl⟩ := Option.map_eq_some_iff.mp ends
      have stays {fuel : Nat} {middle after : Place} (halts : terminals.HaltsAt middle.position)
          (derives : two.Derives terminals (Nonterminal.Matches terminals fuel) scope middle after) :
          after.position = middle.position := by
        have allows := two.allows_of_derives Nonterminal.responseDepth scope middle after
          halts.mem (derives.imp fun _ _ _ _ => Nonterminal.Matches.heeds)
        exact allows.eq_of_ne_moves responds
      rcases oneEnding yields _ scope _ _ _ _ firstEnds plain same first₁ first₂ with
        between | halts | halts
      · exact (twoEnding yields _ scope _ _ _ _ secondEnds plain between second₁ second₂).loosen
      · exact .inr (.inl (stays halts second₁ ▸ halts))
      · exact .inr (.inr (stays halts second₂ ▸ halts))
    · cases ends
  · cases ends

theorem branch (guard : Guard) {yes no : Production} (yesEnds : yes.HasEnding terminals fuel other)
    (noEnds : no.HasEnding terminals fuel other) :
    (Production.branch guard yes no).HasEnding terminals fuel other := by
  rintro yields ending scope before after before' after' ends plain same ⟨targets, one⟩
    ⟨others, another⟩
  rw [Production.ending] at ends
  split at ends
  · rename_i isPlain
    have agrees : guard.admits terminals scope before targets =
        guard.admits terminals scope before' others := Guard.admits_eq_of_isPlain isPlain same
    rw [agrees] at one
    split at ends
    · rename_i yesEnding noEnding yesTold noTold
      cases ends
      rcases one with ⟨admitted, one⟩ | ⟨rejected, one⟩ <;>
        rcases another with ⟨admits, another⟩ | ⟨rejects, another⟩
      · exact (yesEnds yields _ scope _ _ _ _ yesTold plain same one another).join_left
      · rw [admitted] at rejects
        cases rejects
      · rw [rejected] at admits
        cases admits
      · exact (noEnds yields _ scope _ _ _ _ noTold plain same one another).join_right
    · cases ends
  · cases ends

end Production.HasEnding

theorem Production.relates_of_derives (calls : CallsEnd terminals fuel) (production : Production) :
    production.HasEnding terminals fuel other := by
  induction production with
  | empty | expected kind | expectedConstruct name | markTarget | hole =>
      rintro yields ending scope before after before' after' ⟨⟩ _ same ⟨⟩ ⟨⟩
      exact same
  | refuse =>
      intro yields ending scope before after before' after' _ _ _ one _
      exact one.elim
  | take =>
      rintro yields ending scope before after before' after' ⟨⟩ _ same ⟨⟩ ⟨⟩
      exact congrArg (· + 1) same
  | call nonterminal => exact .call calls nonterminal
  | seq first second firstIh secondIh => exact firstIh.seq secondIh
  | branch guard yes no yesIh noIh => exact yesIh.branch guard noIh
  | node kind body ih | list body ih =>
      rintro yields ending scope before after before' after' ends plain same ⟨inner, one, rfl⟩
        ⟨inner', another, rfl⟩
      exact ih yields _ scope before.inside inner before'.inside inner' ends plain same one another
  | wrap kind body ih =>
      rintro yields ending scope before after before' after' ends plain same ⟨_, _, inner, _, one, rfl⟩
        ⟨_, _, inner', _, another, rfl⟩
      exact ih yields _ scope before.inside inner before'.inside inner' ends plain same one another
  | inScope change body ih =>
      intro yields ending scope before after before' after' ends plain same one another
      cases change with
      | enter scope =>
          exact ih scope.yieldOperator _ scope _ _ _ _ ends id same one another
      | arrowParameters isAsync =>
          exact ih yields _ ((ScopeChange.arrowParameters isAsync).apply scope) _ _ _ _ ends plain same one
            another
  | orElse first second firstIh secondIh =>
      intro yields ending scope before after before' after' ends plain same one another
      cases second with
      | refuse =>
          exact firstIh yields _ scope _ _ _ _ ends plain same (one.resolve_right id)
            (another.resolve_right id)
      | _ => cases ends
  | onceOrElse first second | fork head guard kindYes yes kindNo no =>
      intro yields ending scope before after before' after' ends
      cases ends

end TwoRuns

end ScriptTree
