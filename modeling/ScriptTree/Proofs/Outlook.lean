import ScriptTree.Parse.Run
import ScriptTree.Proofs.Discipline
import ScriptTree.Proofs.Nesting

/-! # What lies ahead

A survey of a production keeps count of the tokens that surely lie before the end, and of whether one
was taken. The productions of the grammar take no token they do not know to be there, only a script
takes the end, and no call comes back to itself without a token in between. So a parse stays within the
tokens, and fuel that grows with the tokens ahead is enough. -/
set_option autoImplicit false
set_option maxRecDepth 4000
namespace ScriptTree

/-- What is known of the position of a parse, and of what it took since its nonterminal was called. -/
inductive Outlook where
  /-- At least so many tokens lie before the end. -/
  | within (ahead : Nat) (moved : Bool)
  | atEnd (moved : Bool)
  /-- The end was taken. -/
  | past
  deriving DecidableEq, Repr

namespace Outlook

def ahead : Outlook → Nat
  | within count _ => count
  | _ => 0

def moved : Outlook → Bool
  | within _ moved | atEnd moved => moved
  | past => true

def sees (count : Nat) : Outlook → Outlook
  | within ahead moved => within (max ahead count) moved
  | other => other

def ends : Outlook → Outlook
  | within _ moved => atEnd moved
  | other => other

def take : Outlook → Option Outlook
  | within (ahead + 1) _ => some (within ahead true)
  | atEnd _ => some past
  | _ => none

def follow (outlook : Outlook) : Outlook → Outlook
  | within ahead moved => within ahead (outlook.moved || moved)
  | atEnd moved => atEnd (outlook.moved || moved)
  | past => past

def merge : Outlook → Outlook → Option Outlook
  | past, past => some past
  | past, _ | _, past => none
  | first, second => some (within (min first.ahead second.ahead) (first.moved && second.moved))

end Outlook

def Guard.outlook : Guard → Bool → Outlook → Outlook
  | .next offset kinds, holds, outlook =>
      if kinds.contains .eof = holds then
        if offset = 0 ∧ kinds = [.eof] ∧ holds then outlook.ends else outlook
      else outlook.sees (offset + 1)
  | .identifier offset, true, outlook => outlook.sees (offset + 1)
  | .not guard, holds, outlook => guard.outlook (!holds) outlook
  | .and first second, true, outlook => second.outlook true (first.outlook true outlook)
  | .or first second, false, outlook => second.outlook false (first.outlook false outlook)
  | _, _, outlook => outlook

namespace Nonterminal

def needs : Nonterminal → Nat
  | jumpStatement _ => 1
  | _ => 0

/-- What is known after a match. Tails and lists may take nothing, lists of declarators excepted. -/
def outlook : Nonterminal → Outlook
  | script | scriptItems => .past
  | items .declarators => .within 0 true
  | sequenceTail | binaryTail _ | memberTail _ | clauseStatements | items _ => .within 0 false
  | _ => .within 0 true

/-- A nonterminal that is called before a token was taken has a lower rank. -/
def rank : Nonterminal → Nat
  | variableStatement | forStatement | switchClauses | functionDeclaration | functionExpression
  | arrow | classMembers | bindingTarget | shorthandBinding | memberTail _ | objectMember => 1
  | arrowFunction | bindingElement | objectBindingMember | primary => 2
  | parameter | arrayBindingElement | leftHandSide => 3
  | forBinding | postfixed => 4
  | unary => 5
  | binary _ => 6
  | conditional => 7
  | plainAssignment => 8
  | assignment => 9
  | expression | spreadOrAssignment => 10
  | expressionStatement | templateParts | items _ => 11
  | labelledOrExpressionStatement => 12
  | statement => 13
  | scriptItems | statementsUntilBrace | clauseStatements => 14
  | script => 15
  | _ => 0

end Nonterminal

theorem Nonterminal.rank_lt (nonterminal : Nonterminal) : nonterminal.rank < callDepth := by
  unfold rank
  split <;> decide

def Production.survey (rank : Nat) : Production → Outlook → Verdict Outlook
  | .empty, outlook => .reaches outlook
  | .refuse, _ => .never
  | .take, outlook => .ofOption outlook.take
  | .expected _, outlook => .reaches outlook
  | .expectedConstruct _, outlook => .reaches outlook
  | .call nonterminal, outlook =>
      if outlook ≠ .past ∧ nonterminal.needs ≤ outlook.ahead ∧
          (outlook.moved ∨ nonterminal.rank < rank) then
        .reaches (outlook.follow nonterminal.outlook)
      else .illegal
  | .seq first second, outlook => (first.survey rank outlook).andThen (second.survey rank)
  | .branch guard yes no, outlook =>
      (yes.survey rank (guard.outlook true outlook)).merge Outlook.merge
        (no.survey rank (guard.outlook false outlook))
  | .node _ body, outlook => body.survey rank outlook
  | .fork head guard _ yes _ no, outlook =>
      (head.survey rank outlook).andThen fun middle =>
        (yes.survey rank (guard.outlook true middle)).merge Outlook.merge
          (no.survey rank (guard.outlook false middle))
  | .wrap _ body, outlook => body.survey rank outlook
  | .orElse first second, outlook =>
      (first.survey rank outlook).merge Outlook.merge (second.survey rank outlook)
  | .onceOrElse first second, outlook =>
      (first.survey rank outlook).merge Outlook.merge (second.survey rank outlook)
  | .inScope _ body, outlook => body.survey rank outlook
  | .list body, outlook => body.survey rank outlook
  | .hole, outlook => .reaches outlook
  | .markTarget, outlook => .reaches outlook

/-! ## The grammar passes -/

theorem Nonterminal.survey_production (nonterminal : Nonterminal) :
    nonterminal.production.survey nonterminal.rank (.within nonterminal.needs false) =
      .reaches nonterminal.outlook := by
  have passes : ∀ other ∈ listed, other.production.survey other.rank (.within other.needs false) =
      .reaches other.outlook := by decide +kernel
  cases nonterminal with
  | jumpStatement kind => rfl
  | _ => exact passes _ (mem_listed rfl)

/-! ## What is known is so -/

/-- The end comes at the index `last`, and not before. -/
def Terminals.EndsAt (terminals : Terminals) (last : Nat) : Prop :=
  ∀ position, terminals.kindAt position = .eof ↔ last ≤ position

namespace Outlook

/-- A parse that was at `start` is at a position now, and the end comes at `last`. -/
def Holds (last start position : Nat) : Outlook → Prop
  | within ahead moved =>
      start ≤ position ∧ position + ahead ≤ last ∧ (moved = true → start < position)
  | atEnd moved => start ≤ position ∧ position = last ∧ (moved = true → start < position)
  | past => start ≤ last ∧ position = last + 1

variable {last start position : Nat} {outlook merged first second : Outlook}

theorem Holds.bounds (holds : outlook.Holds last start position) (inside : outlook ≠ .past) :
    start ≤ position ∧ position + outlook.ahead ≤ last ∧
      (outlook.moved = true → start < position) := by
  cases outlook with
  | within count moved => exact holds
  | atEnd moved => exact ⟨holds.1, Nat.le_of_eq holds.2.1, holds.2.2⟩
  | past => exact absurd rfl inside

theorem Holds.moves (holds : outlook.Holds last start position) (moved : outlook.moved = true) :
    start < position := by
  cases outlook with
  | within count _ => exact holds.2.2 moved
  | atEnd _ => exact holds.2.2 moved
  | past => exact holds.2 ▸ Nat.lt_succ_of_le holds.1

theorem Holds.sees {count : Nat} (holds : outlook.Holds last start position)
    (seen : position + count ≤ last) : (outlook.sees count).Holds last start position := by
  cases outlook with
  | within ahead moved =>
      obtain ⟨before, fits, moves⟩ := holds
      exact ⟨before, by omega, moves⟩
  | atEnd moved => exact holds
  | past => exact holds

theorem Holds.ends (holds : outlook.Holds last start position) (there : last ≤ position) :
    outlook.ends.Holds last start position := by
  cases outlook with
  | within ahead moved =>
      obtain ⟨before, fits, moves⟩ := holds
      exact ⟨before, by omega, moves⟩
  | atEnd moved => exact holds
  | past => exact holds

theorem Holds.take {after : Outlook} (holds : outlook.Holds last start position)
    (taken : outlook.take = some after) : after.Holds last start (position + 1) := by
  cases outlook with
  | within ahead moved =>
      obtain ⟨before, fits, _⟩ := holds
      cases ahead with
      | zero => cases taken
      | succ ahead =>
          cases taken
          exact ⟨by omega, by omega, by omega⟩
  | atEnd moved =>
      obtain ⟨before, rfl, _⟩ := holds
      cases taken
      exact ⟨before, rfl⟩
  | past => cases taken

theorem Holds.follow {middle : Nat} (holds : first.Holds last start middle) (inside : first ≠ .past)
    (later : second.Holds last middle position) : (first.follow second).Holds last start position := by
  obtain ⟨before, fits, moves⟩ := holds.bounds inside
  have since : ∀ moved : Bool, middle ≤ position → (moved = true → middle < position) →
      (first.moved || moved) = true → start < position := by
    intro moved goesOn movesOn known
    rcases Bool.or_eq_true_iff.mp known with earlier | now
    · exact Nat.lt_of_lt_of_le (moves earlier) goesOn
    · exact Nat.lt_of_le_of_lt before (movesOn now)
  cases second with
  | within count moved =>
      obtain ⟨goesOn, fitsOn, movesOn⟩ := later
      exact ⟨Nat.le_trans before goesOn, fitsOn, since moved goesOn movesOn⟩
  | atEnd moved =>
      obtain ⟨goesOn, there, movesOn⟩ := later
      exact ⟨Nat.le_trans before goesOn, there, since moved goesOn movesOn⟩
  | past => exact ⟨by omega, later.2⟩

theorem Holds.weaken {count : Nat} {moved : Bool} (holds : outlook.Holds last start position)
    (inside : outlook ≠ .past) (fewer : count ≤ outlook.ahead)
    (weaker : moved = true → outlook.moved = true) :
    (within count moved).Holds last start position := by
  obtain ⟨before, fits, moves⟩ := holds.bounds inside
  exact ⟨before, by omega, fun known => moves (weaker known)⟩

theorem merge_eq (joined : first.merge second = some merged) :
    (first = second ∧ merged = first) ∨
      (first ≠ .past ∧ second ≠ .past ∧
        merged = within (min first.ahead second.ahead) (first.moved && second.moved)) := by
  cases first <;> cases second <;> cases joined <;> simp

theorem Holds.merge_left (joined : first.merge second = some merged)
    (holds : first.Holds last start position) : merged.Holds last start position := by
  rcases merge_eq joined with ⟨_, rfl⟩ | ⟨inside, _, rfl⟩
  · exact holds
  · exact holds.weaken inside (Nat.min_le_left _ _) fun known => (Bool.and_eq_true_iff.mp known).1

theorem Holds.merge_right (joined : first.merge second = some merged)
    (holds : second.Holds last start position) : merged.Holds last start position := by
  rcases merge_eq joined with ⟨rfl, rfl⟩ | ⟨_, inside, rfl⟩
  · exact holds
  · exact holds.weaken inside (Nat.min_le_right _ _) fun known => (Bool.and_eq_true_iff.mp known).2

end Outlook

theorem Guard.holds_outlook {terminals : Terminals} {last : Nat} (ends : terminals.EndsAt last)
    {scope : Scope} {place : Place} {targets : List Nat} (guard : Guard) {value : Bool} {start : Nat}
    {outlook : Outlook} (admits : guard.admits terminals scope place targets = value)
    (holds : outlook.Holds last start place.position) :
    (guard.outlook value outlook).Holds last start place.position := by
  have before : ∀ offset, terminals.kindAt (place.position + offset) ≠ .eof →
      place.position + (offset + 1) ≤ last := by
    intro offset other
    have further := mt (ends (place.position + offset)).mpr other
    omega
  induction guard generalizing value outlook with
  | next offset kinds =>
      simp only [Guard.admits] at admits
      simp only [Guard.outlook]
      split
      · split
        · rename_i same known
          obtain ⟨rfl, rfl, rfl⟩ := known
          exact holds.ends ((ends place.position).mp (by simpa using admits))
        · exact holds
      · rename_i differs
        refine holds.sees (before offset ?_)
        intro other
        rw [other] at admits
        exact differs admits
  | identifier offset =>
      cases value with
      | false => exact holds
      | true =>
          refine holds.sees (before offset ?_)
          intro other
          simp only [Guard.admits] at admits
          unfold ParseState.isIdentifierAt at admits
          rw [other] at admits
          exact absurd admits Bool.false_ne_true
  | not guard ih =>
      simp only [Guard.admits] at admits
      exact ih (by simp [← admits]) holds
  | and first second firstIh secondIh =>
      cases value with
      | false => exact holds
      | true =>
          simp only [Guard.admits, Bool.and_eq_true] at admits
          exact secondIh admits.2 (firstIh admits.1 holds)
  | or first second firstIh secondIh =>
      cases value with
      | true => exact holds
      | false =>
          simp only [Guard.admits, Bool.or_eq_false_iff] at admits
          exact secondIh admits.2 (firstIh admits.1 holds)
  | lineBreak offset => cases value <;> exact holds
  | yieldOperator => cases value <;> exact holds
  | awaitOperator => cases value <;> exact holds
  | completed kinds => cases value <;> exact holds
  | completedTarget => cases value <;> exact holds

def Verdict.Foresees (verdict : Verdict Outlook) (last start position : Nat) : Prop :=
  ∃ outlook, verdict = .reaches outlook ∧ outlook.Holds last start position

namespace Verdict.Foresees

variable {one other : Verdict Outlook} {last start position : Nat}

theorem mergeLeft (legal : one.merge Outlook.merge other ≠ .illegal)
    (foresees : one.Foresees last start position) :
    (one.merge Outlook.merge other).Foresees last start position := by
  obtain ⟨outlook, rfl, holds⟩ := foresees
  obtain ⟨merged, same, rfl | ⟨second, joined⟩⟩ := Verdict.merge_reaches_left legal
  · exact ⟨merged, same, holds⟩
  · exact ⟨merged, same, holds.merge_left joined⟩

theorem mergeRight (legal : one.merge Outlook.merge other ≠ .illegal)
    (foresees : other.Foresees last start position) :
    (one.merge Outlook.merge other).Foresees last start position := by
  obtain ⟨outlook, rfl, holds⟩ := foresees
  obtain ⟨merged, same, rfl | ⟨first, joined⟩⟩ := Verdict.merge_reaches_right legal
  · exact ⟨merged, same, holds⟩
  · exact ⟨merged, same, holds.merge_right joined⟩

end Verdict.Foresees

/-! ## Parses that were surveyed -/

/-- A parse has fuel enough, and what a survey of it foresaw is so after a match. -/
def Surveyed (last start : Nat) (verdict : Verdict Outlook) : Parse → Prop
  | .matched place _ =>
      ∃ outlook, verdict = .reaches outlook ∧ outlook.Holds last start place.position
  | .refused _ => True
  | .outOfFuel => False

namespace Surveyed

variable {last start : Nat} {parse : Parse}

theorem mergeLeft {one other : Verdict Outlook} (legal : one.merge Outlook.merge other ≠ .illegal)
    (surveyed : Surveyed last start one parse) :
    Surveyed last start (one.merge Outlook.merge other) parse := by
  cases parse with
  | matched place history => exact Verdict.Foresees.mergeLeft legal surveyed
  | refused history => exact surveyed
  | outOfFuel => exact surveyed

theorem mergeRight {one other : Verdict Outlook} (legal : one.merge Outlook.merge other ≠ .illegal)
    (surveyed : Surveyed last start other parse) :
    Surveyed last start (one.merge Outlook.merge other) parse := by
  cases parse with
  | matched place history => exact Verdict.Foresees.mergeRight legal surveyed
  | refused history => exact surveyed
  | outOfFuel => exact surveyed

theorem andThen {first rest : Verdict Outlook} {next : Place → History → Parse}
    (surveyed : Surveyed last start first parse)
    (later : ∀ (place : Place) (history : History) (outlook : Outlook), first = .reaches outlook →
      outlook.Holds last start place.position → Surveyed last start rest (next place history)) :
    Surveyed last start rest (parse.andThen next) := by
  cases parse with
  | matched place history =>
      obtain ⟨outlook, reached, holds⟩ := surveyed
      exact later place history outlook reached holds
  | refused history => trivial
  | outOfFuel => exact surveyed.elim

theorem close {verdict : Verdict Outlook} {built : Place → Place}
    (surveyed : Surveyed last start verdict parse)
    (same : ∀ place, (built place).position = place.position) :
    Surveyed last start verdict (parse.andThen fun inner later => .matched (built inner) later) := by
  refine surveyed.andThen ?_
  intro place history outlook reached holds
  exact ⟨outlook, reached, by rwa [same]⟩

theorem orElse {one other : Verdict Outlook} {otherwise : History → Parse}
    (legal : one.merge Outlook.merge other ≠ .illegal) (surveyed : Surveyed last start one parse)
    (second : ∀ history, Surveyed last start other (otherwise history)) :
    Surveyed last start (one.merge Outlook.merge other) (parse.orElse otherwise) := by
  cases parse with
  | matched place history => exact surveyed.mergeLeft legal
  | refused history => exact (second history).mergeRight legal
  | outOfFuel => exact surveyed.elim

end Surveyed

/-- The fuel that a nonterminal needs where so many tokens are left, the end included. -/
def Nonterminal.cost (nonterminal : Nonterminal) (left : Nat) : Nat :=
  callDepth * left + nonterminal.rank

/-- With so much fuel, calls are surveyed. -/
def CallsSurveyed (last fuel : Nat) (call : Nonterminal → Scope → Place → History → Parse) : Prop :=
  ∀ (nonterminal : Nonterminal) (scope : Scope) (place : Place) (history : History),
    place.position + nonterminal.needs ≤ last →
    nonterminal.cost (last + 1 - place.position) < fuel →
    Surveyed last place.position (.reaches nonterminal.outlook) (call nonterminal scope place history)

/-- A call has fuel enough: a token was taken since the start, or it goes down in rank. -/
theorem Production.surveyed_call {last fuel : Nat} {call : Nonterminal → Scope → Place → History → Parse}
    (calls : CallsSurveyed last fuel call) {start rank : Nat}
    (enough : Nonterminal.callDepth * (last + 1 - start) + rank ≤ fuel) (nonterminal : Nonterminal)
    {outlook : Outlook} (scope : Scope) {place : Place} (history : History)
    (legal : (Production.call nonterminal).survey rank outlook ≠ .illegal)
    (holds : outlook.Holds last start place.position) :
    Surveyed last start ((Production.call nonterminal).survey rank outlook)
      (call nonterminal scope place history) := by
  have fits := (Verdict.of_ite_ne_illegal legal).1
  have follows : (Production.call nonterminal).survey rank outlook =
      .reaches (outlook.follow nonterminal.outlook) := if_pos fits
  obtain ⟨inside, needs, lower⟩ := fits
  obtain ⟨before, ahead, moves⟩ := holds.bounds inside
  have cost : nonterminal.cost (last + 1 - place.position) < fuel := by
    have bound := nonterminal.rank_lt
    simp only [Nonterminal.cost, Nonterminal.callDepth] at enough bound ⊢
    rcases lower with moved | lower
    · have further := moves moved
      omega
    · omega
  have surveyed := calls nonterminal scope place history (by omega) cost
  rw [follows]
  cases parsed : call nonterminal scope place history with
  | matched after later =>
      rw [parsed] at surveyed
      obtain ⟨reached, ⟨⟩, afterHolds⟩ := surveyed
      exact ⟨_, rfl, holds.follow inside afterHolds⟩
  | refused later => trivial
  | outOfFuel =>
      rw [parsed] at surveyed
      exact surveyed.elim

theorem Production.surveyed_nest {terminals : Terminals} {last fuel : Nat}
    (ends : terminals.EndsAt last) {call : Nonterminal → Scope → Place → History → Parse}
    (calls : CallsSurveyed last fuel call) {start rank : Nat}
    (enough : Nonterminal.callDepth * (last + 1 - start) + rank ≤ fuel) (production : Production) :
    ∀ (outlook : Outlook) (scope : Scope) (place : Place) (history : History),
      production.survey rank outlook ≠ .illegal → outlook.Holds last start place.position →
      Surveyed last start (production.survey rank outlook)
        (production.nest terminals call scope place history) := by
  induction production with
  | empty | expected kind | expectedConstruct name | hole | markTarget =>
      intro outlook scope place history _ holds
      exact ⟨outlook, rfl, holds⟩
  | refuse =>
      intro outlook scope place history _ _
      trivial
  | take =>
      intro outlook scope place history legal holds
      obtain ⟨after, taken⟩ := Verdict.ofOption_ne_illegal legal
      exact ⟨after, by rw [survey, taken, Verdict.ofOption], holds.take taken⟩
  | call nonterminal =>
      intro outlook scope place history legal holds
      exact surveyed_call calls enough nonterminal scope history legal holds
  | seq first second firstIh secondIh =>
      intro outlook scope place history legal holds
      obtain ⟨firstLegal, secondLegal⟩ := Verdict.andThen_ne_illegal legal
      refine (firstIh outlook scope place history firstLegal holds).andThen ?_
      intro middle meanwhile between reached middleHolds
      rw [survey, reached, Verdict.andThen]
      exact secondIh between scope middle meanwhile (secondLegal between reached) middleHolds
  | branch guard yes no yesIh noIh =>
      intro outlook scope place history legal holds
      obtain ⟨yesLegal, noLegal⟩ := Verdict.merge_ne_illegal legal
      simp only [nest]
      split
      · rename_i admitted
        exact (yesIh _ scope place history yesLegal
          (guard.holds_outlook ends admitted holds)).mergeLeft legal
      · rename_i rejected
        exact (noIh _ scope place history noLegal
          (guard.holds_outlook ends (by simpa using rejected) holds)).mergeRight legal
  | node kind body ih =>
      intro outlook scope place history legal holds
      exact (ih outlook scope place.inside history legal holds).close fun _ => rfl
  | fork head guard kindYes yes kindNo no headIh yesIh noIh =>
      intro outlook scope place history legal holds
      obtain ⟨headLegal, tailLegal⟩ := Verdict.andThen_ne_illegal legal
      refine (headIh outlook scope place.inside history headLegal holds).andThen ?_
      intro middle meanwhile between reached middleHolds
      have mergeLegal := tailLegal between reached
      obtain ⟨yesLegal, noLegal⟩ := Verdict.merge_ne_illegal mergeLegal
      rw [survey, reached, Verdict.andThen]
      split
      · rename_i admitted
        exact ((yesIh _ scope middle meanwhile yesLegal
          (guard.holds_outlook ends admitted middleHolds)).mergeLeft mergeLegal).close fun _ => rfl
      · rename_i rejected
        exact ((noIh _ scope middle meanwhile noLegal
          (guard.holds_outlook ends (by simpa using rejected) middleHolds)).mergeRight
            mergeLegal).close fun _ => rfl
  | wrap kind body ih =>
      intro outlook scope place history legal holds
      simp only [nest]
      cases place.completed with
      | none => trivial
      | some wrapped => exact (ih outlook scope place.inside history legal holds).close fun _ => rfl
  | orElse first second firstIh secondIh =>
      intro outlook scope place history legal holds
      obtain ⟨firstLegal, secondLegal⟩ := Verdict.merge_ne_illegal legal
      exact (firstIh outlook scope place history firstLegal holds).orElse legal fun later =>
        secondIh outlook scope place later secondLegal holds
  | onceOrElse first second firstIh secondIh =>
      intro outlook scope place history legal holds
      obtain ⟨firstLegal, secondLegal⟩ := Verdict.merge_ne_illegal legal
      simp only [nest]
      split
      · exact (secondIh outlook scope place history secondLegal holds).mergeRight legal
      · exact (firstIh outlook scope place history firstLegal holds).orElse legal fun later =>
          secondIh outlook scope place _ secondLegal holds
  | inScope change body ih =>
      intro outlook scope place history legal holds
      exact ih outlook (change.apply scope) place history legal holds
  | list body ih =>
      intro outlook scope place history legal holds
      exact (ih outlook scope place.inside history legal holds).close fun _ => rfl

/-- Calls are surveyed in a grammar whose productions are surveyed like those of the nonterminals. -/
theorem Nonterminal.nestWith_surveyed {grammar : Nonterminal → Production}
    (same : ∀ nonterminal rank outlook,
      (grammar nonterminal).survey rank outlook = nonterminal.production.survey rank outlook)
    {terminals : Terminals} {last : Nat} (ends : terminals.EndsAt last) (fuel : Nat) :
    CallsSurveyed last fuel (nestWith grammar terminals fuel) := by
  induction fuel with
  | zero =>
      intro nonterminal scope place history _ enough
      exact absurd enough (Nat.not_lt_zero _)
  | succ fuel ih =>
      intro nonterminal scope place history fits enough
      have checked := nonterminal.survey_production
      rw [← same] at checked
      have surveyed := (grammar nonterminal).surveyed_nest ends ih (Nat.le_of_lt_succ enough)
        (.within nonterminal.needs false) scope place history (by simp [checked])
        ⟨Nat.le_refl _, fits, by simp⟩
      rw [checked] at surveyed
      exact surveyed

end ScriptTree
