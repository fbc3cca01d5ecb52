import ScriptTree.Proofs.Memory

/-! # Parses and their accounts

Where no word depends on the scope, a parse from a sound history does what an account tells: it matches,
refuses and ends at the same place, and its history is the one before with the notes of the account.
What an account leaves out is what stands before the place where a call starts, so a production may look
at the node completed last only where it has one of its own. -/
set_option autoImplicit false
set_option maxRecDepth 4000
namespace ScriptTree

/-! ## Nodes that are looked at -/

def Guard.asksNode : Guard → Bool
  | .completed _ | .completedTarget => true
  | .not guard => guard.asksNode
  | .and first second | .or first second => first.asksNode || second.asksNode
  | _ => false

/-- What is known behind either of two ways is known behind both. -/
def Verdict.both (first second : Bool) : Option Bool := some (first && second)

/-- Checks that a production looks at a node, or puts another one around it, only where it stands at the
end, completed last; the verdict is whether one stands there behind the production. Parentheses are left
out, as they alone mark targets. -/
@[simp] def Production.settle : Production → Bool → Verdict Bool
  | .refuse, _ => .never
  | .take, _ | .hole, _ => .reaches false
  | .call nonterminal, headed =>
      if nonterminal.isProper then
        match nonterminal.role with
        | .node => .reaches true
        | .tail => if headed then .reaches true else .illegal
        | .content | .items => .reaches false
      else .illegal
  | .seq first second, headed => (first.settle headed).andThen second.settle
  | .branch guard yes no, headed =>
      if guard.asksNode && !headed then .illegal
      else (yes.settle headed).merge Verdict.both (no.settle headed)
  | .node kind body, _ =>
      if kind = .parenthesizedExpression then .illegal
      else (body.settle false).andThen fun _ => .reaches true
  | .fork head guard kindYes yes kindNo no, _ =>
      if guard.asksNode || kindYes == .parenthesizedExpression ||
          kindNo == .parenthesizedExpression then .illegal
      else
        (head.settle false).andThen fun middle =>
          ((yes.settle middle).merge Verdict.both (no.settle middle)).andThen fun _ => .reaches true
  | .wrap kind body, headed =>
      if headed && kind != .parenthesizedExpression then
        (body.settle false).andThen fun _ => .reaches true
      else .illegal
  | .orElse first second, headed | .onceOrElse first second, headed =>
      (first.settle headed).merge Verdict.both (second.settle headed)
  | .inScope _ body, headed => body.settle headed
  | .list body, _ => (body.settle false).andThen fun _ => .reaches false
  | .markTarget, _ => .illegal
  | _, headed => .reaches headed

/-- Whether nothing but arrows is tried once, and these only if `memo` says so. -/
@[simp] def Production.triesOnce (memo : Bool) : Production → Bool
  | .onceOrElse first second => memo && first == .call .arrow && second.triesOnce memo
  | .seq first second | .branch _ first second | .orElse first second =>
      first.triesOnce memo && second.triesOnce memo
  | .node _ body | .wrap _ body | .inScope _ body | .list body => body.triesOnce memo
  | .fork head _ _ yes _ no => head.triesOnce memo && yes.triesOnce memo && no.triesOnce memo
  | _ => true

namespace Nonterminal

theorem settle_production (nonterminal : Nonterminal) (proper : nonterminal.isProper = true)
    (other : nonterminal ≠ .parenthesized) :
    nonterminal.production.settle (nonterminal.role == .tail) =
      .reaches (nonterminal.role == .node || nonterminal.role == .tail) := by
  have passes : ∀ nonterminal ∈ listed, nonterminal ≠ .parenthesized →
      nonterminal.production.settle (nonterminal.role == .tail) =
        .reaches (nonterminal.role == .node || nonterminal.role == .tail) := by decide +kernel
  exact passes nonterminal (mem_listed proper) other

theorem triesOnce_production (nonterminal : Nonterminal) :
    nonterminal.production.triesOnce true = true := by
  have passes : ∀ other ∈ listed, other.production.triesOnce true = true := by decide +kernel
  cases nonterminal with
  | jumpStatement kind => rfl
  | _ => exact passes _ (mem_listed rfl)

end Nonterminal

/-! ## Places that are told -/

section Agreement

variable {terminals : Terminals} {base : Forest} {history later : History} {told place : Place}
  {kind : Kind} {first : Nat} {content : Forest} {headed : Bool}

/-- The node completed last is the one that is told, and its parentheses have the mark they should. -/
structure Place.SameNode (terminals : Terminals) (history : History) (told place : Place) (kind : Kind)
    (first : Nat) (content : Forest) : Prop where
  toldLast : told.completed = some (kind, first)
  last : place.completed = some (kind, first)
  holds : told.forest.last? = some content
  reads : kind = .parenthesizedExpression → terminals.Parenthesizes first content
  marked : kind = .parenthesizedExpression → content.isTarget = true → first + 1 ∈ history.targets

/-- A place that is told, apart from what was taken before; `headed` says that a node stands at the
end. -/
structure Place.Told (terminals : Terminals) (base : Forest) (headed : Bool) (history : History)
    (told place : Place) : Prop where
  position : place.position = told.position
  forest : place.forest = base ++ told.forest
  node : headed = true → ∃ before kind first content, told.forest = .node before kind content ∧
    told.SameNode terminals history place kind first content

namespace Place

theorem SameNode.follows {notes : List Note}
    (same : told.SameNode terminals history place kind first content)
    (follows : history.Follows later notes) : told.SameNode terminals later place kind first content :=
  { same with
    marked := fun isParentheses isTarget =>
      (follows.targets _).mpr (.inl (same.marked isParentheses isTarget)) }

theorem Told.follows {notes : List Note} (agrees : told.Told terminals base headed history place)
    (follows : history.Follows later notes) : told.Told terminals base headed later place where
  position := agrees.position
  forest := agrees.forest
  node := by
    intro known
    obtain ⟨before, kind, first, content, forest, same⟩ := agrees.node known
    exact ⟨before, kind, first, content, forest, same.follows follows⟩

theorem Told.weaken {less : Bool} (agrees : told.Told terminals base headed history place)
    (weaker : less = true → headed = true) : told.Told terminals base less history place :=
  ⟨agrees.position, agrees.forest, fun known => agrees.node (weaker known)⟩

theorem Told.inside (agrees : told.Told terminals base headed history place) :
    told.inside.Told terminals .empty false history place.inside :=
  ⟨agrees.position, rfl, by simp⟩

theorem Told.take (agrees : told.Told terminals base headed history place) :
    (told.take terminals).Told terminals base false history (place.take terminals) where
  position := congrArg (· + 1) agrees.position
  forest := by simp [Place.take, agrees.position, agrees.forest]
  node := by simp

theorem Told.addHole (agrees : told.Told terminals base headed history place) :
    told.addHole.Told terminals base false history place.addHole where
  position := agrees.position
  forest := by simp [Place.addHole, agrees.forest]
  node := by simp

variable {toldInner inner after : Place} {innerHeaded : Bool}

theorem Told.join (agrees : told.Told terminals base headed history place) {behind : Bool}
    (further : toldInner.Told terminals place.forest behind later after) :
    (told.join toldInner).Told terminals base behind later after where
  position := further.position
  forest := by rw [further.forest, agrees.forest, Forest.append_assoc, Place.join]
  node := by
    intro known
    obtain ⟨before, kind, first, content, forest, same⟩ := further.node known
    have joined : (told.join toldInner).forest = (told.forest ++ before).node kind content := by
      rw [Place.join, forest, Forest.append_node]
    refine ⟨_, kind, first, content, joined, ?_⟩
    exact { same with holds := by rw [joined, Forest.last?] }

theorem Told.addList (agrees : told.Told terminals base headed history place)
    (within : toldInner.Told terminals .empty innerHeaded later inner) :
    (told.addList toldInner).Told terminals base false later (place.addList inner) where
  position := within.position
  forest := by simp [Place.addList, agrees.forest, within.forest]
  node := by simp

theorem Told.addNode (agrees : told.Told terminals base headed history place)
    (within : toldInner.Told terminals .empty innerHeaded later inner)
    (other : kind ≠ .parenthesizedExpression) :
    (told.addNode kind toldInner).Told terminals base true later (place.addNode kind inner) where
  position := within.position
  forest := by simp [Place.addNode, agrees.forest, within.forest]
  node := fun _ => ⟨_, kind, told.position, toldInner.forest, rfl, rfl,
    by rw [Place.addNode, agrees.position], rfl, fun same => absurd same other,
    fun same => absurd same other⟩

theorem Told.wrapNode (agrees : told.Told terminals base true history place)
    (within : toldInner.Told terminals .empty innerHeaded later inner)
    {around : Kind}
    (other : around ≠ .parenthesizedExpression) :
    (told.wrapNode around first toldInner).Told terminals base true later
      (place.wrapNode around first inner) := by
  obtain ⟨before, kind, position, content, forest, _⟩ := agrees.node rfl
  have wrapped : (told.wrapNode around first toldInner).forest =
      before.node around (Forest.empty.node kind content ++ toldInner.forest) := by
    rw [Place.wrapNode, forest, Forest.wrapLast_node]
  refine ⟨within.position, ?_, fun _ => ⟨before, around, first, _, wrapped, rfl, rfl, ?_,
    fun same => absurd same other, fun same => absurd same other⟩⟩
  · simp [Place.wrapNode, agrees.forest, forest, within.forest]
  · rw [wrapped, Forest.last?]

end Place

/-! ## Guards -/

theorem Place.SameNode.marks_eq (same : told.SameNode terminals history place kind first content) :
    told.marks = if content.isTarget then [first + 1] else [] := by
  rw [Place.marks, same.toldLast, same.holds]

/-- The parentheses completed last are marked if they hold something to assign to. -/
theorem Place.SameNode.contains_eq (noWords : terminals.NoWords) (sound : history.Sound terminals)
    (same : told.SameNode terminals history place .parenthesizedExpression first content) :
    history.targets.contains (first + 1) = told.marks.contains (first + 1) := by
  rw [same.marks_eq]
  cases isTarget : content.isTarget with
  | true => simpa using same.marked rfl isTarget
  | false =>
      refine Bool.eq_false_iff.mpr fun listed => ?_
      obtain ⟨other, found, equal, reads, assignable⟩ :=
        sound.targets _ (List.contains_iff_mem.mp listed)
      cases equal
      rw [(same.reads rfl).unique noWords reads, assignable] at isTarget
      cases isTarget

theorem Guard.admits_told (noWords : terminals.NoWords) (sound : history.Sound terminals)
    (position : place.position = told.position) (scope : Scope) (guard : Guard)
    (node : guard.asksNode = true → ∃ kind first content,
      told.SameNode terminals history place kind first content) :
    guard.admits terminals scope place history.targets =
      guard.admits terminals scope told told.marks := by
  induction guard with
  | next offset kinds => rw [admits, admits, position]
  | lineBreak offset => rw [admits, admits, position]
  | identifier offset => rw [admits, admits, position]
  | yieldOperator => rfl
  | awaitOperator => rfl
  | completed kinds =>
      obtain ⟨kind, first, content, same⟩ := node rfl
      rw [admits, admits, same.toldLast, same.last]
  | completedTarget =>
      obtain ⟨kind, first, content, same⟩ := node rfl
      simp only [admits, same.toldLast, same.last, Option.map_some, Option.getD_some]
      by_cases isParentheses : kind = .parenthesizedExpression
      · subst isParentheses
        rw [same.contains_eq noWords sound]
      · rw [beq_false_of_ne isParentheses, Bool.false_and, Bool.false_and]
  | not guard ih => rw [admits, admits, ih node]
  | and first second firstIh secondIh =>
      rw [admits, admits, firstIh fun asks => node (by simp [asksNode, asks]),
        secondIh fun asks => node (by simp [asksNode, asks])]
  | or first second firstIh secondIh =>
      rw [admits, admits, firstIh fun asks => node (by simp [asksNode, asks]),
        secondIh fun asks => node (by simp [asksNode, asks])]

/-! ## Parses that do what is told -/

/-- A parse does what an account tells: where it matches, the places agree, and its history is the one
before with the notes of the account. Without a table of failed arrows it runs out of fuel where the
account does. -/
def AsTold (terminals : Terminals) (memo : Bool) (agree : History → Place → Place → Prop)
    (history : History) (parse : Parse) : Account → Prop
  | .matched told notes => ∃ place later, parse = .matched place later ∧ agree later told place ∧
      history.Follows later notes ∧ later.Sound terminals
  | .refused notes => ∃ later, parse = .refused later ∧ history.Follows later notes ∧
      later.Sound terminals
  | .outOfFuel => memo = true ∨ parse = .outOfFuel

def Place.Settled (terminals : Terminals) (base : Forest) (verdict : Verdict Bool) (history : History)
    (told place : Place) : Prop :=
  ∃ headed, verdict = .reaches headed ∧ told.Told terminals base headed history place

namespace Place.Settled

variable {one other : Verdict Bool}

theorem mergeLeft (legal : one.merge Verdict.both other ≠ .illegal)
    (settled : told.Settled terminals base one history place) :
    told.Settled terminals base (one.merge Verdict.both other) history place := by
  obtain ⟨headed, rfl, agrees⟩ := settled
  obtain ⟨merged, same, rfl | ⟨second, joined⟩⟩ := Verdict.merge_reaches_left legal
  · exact ⟨merged, same, agrees⟩
  · cases joined
    exact ⟨_, same, agrees.weaken fun known => (Bool.and_eq_true_iff.mp known).1⟩

theorem mergeRight (legal : one.merge Verdict.both other ≠ .illegal)
    (settled : told.Settled terminals base other history place) :
    told.Settled terminals base (one.merge Verdict.both other) history place := by
  obtain ⟨headed, rfl, agrees⟩ := settled
  obtain ⟨merged, same, rfl | ⟨second, joined⟩⟩ := Verdict.merge_reaches_right legal
  · exact ⟨merged, same, agrees⟩
  · cases joined
    exact ⟨_, same, agrees.weaken fun known => (Bool.and_eq_true_iff.mp known).2⟩

end Place.Settled

namespace AsTold

variable {memo : Bool} {agree between : History → Place → Place → Prop} {meanwhile : History}
  {parse : Parse} {account : Account} {notes : List Note}

theorem behind (does : AsTold terminals memo agree meanwhile parse account)
    (follows : history.Follows meanwhile notes) :
    AsTold terminals memo agree history parse (account.behind notes) := by
  cases account with
  | matched told more =>
      obtain ⟨place, later, matched, agrees, further, sound⟩ := does
      exact ⟨place, later, matched, agrees, follows.append further, sound⟩
  | refused more =>
      obtain ⟨later, refused, further, sound⟩ := does
      exact ⟨later, refused, follows.append further, sound⟩
  | outOfFuel => exact does

theorem weaken (does : AsTold terminals memo between history parse account)
    (weaker : ∀ later told place, between later told place → agree later told place) :
    AsTold terminals memo agree history parse account := by
  cases account with
  | matched told notes =>
      obtain ⟨place, later, matched, agrees, rest⟩ := does
      exact ⟨place, later, matched, weaker _ _ _ agrees, rest⟩
  | refused notes => exact does
  | outOfFuel => exact does

theorem andThen {next : Place → History → Parse} {further : Place → Account}
    (does : AsTold terminals memo between history parse account)
    (later : ∀ told notes place meanwhile, account = .matched told notes →
      parse = .matched place meanwhile → between meanwhile told place →
      history.Follows meanwhile notes → meanwhile.Sound terminals →
      AsTold terminals memo agree meanwhile (next place meanwhile) (further told)) :
    AsTold terminals memo agree history (parse.andThen next) (account.andThen further) := by
  cases account with
  | matched told notes =>
      obtain ⟨place, meanwhile, rfl, agrees, follows, sound⟩ := does
      exact (later told notes place meanwhile rfl rfl agrees follows sound).behind follows
  | refused notes =>
      obtain ⟨meanwhile, rfl, rest⟩ := does
      exact ⟨meanwhile, rfl, rest⟩
  | outOfFuel =>
      rcases does with remembers | rfl
      · exact .inl remembers
      · exact .inr rfl

theorem close {closed toldClosed : Place → Place}
    (does : AsTold terminals memo between history parse account)
    (closes : ∀ notes later told place, account = .matched told notes → history.Follows later notes →
      between later told place → agree later (toldClosed told) (closed place)) :
    AsTold terminals memo agree history
      (parse.andThen fun inner later => .matched (closed inner) later)
      (account.andThen fun inner => .matched (toldClosed inner) []) := by
  refine does.andThen ?_
  intro told notes place meanwhile matched _ agrees follows sound
  exact ⟨_, meanwhile, rfl, closes _ _ _ _ matched follows agrees, .refl meanwhile, sound⟩

theorem orElse {otherwise : History → Parse} {second : Account}
    (does : AsTold terminals memo agree history parse account)
    (later : ∀ meanwhile notes, account = .refused notes → history.Follows meanwhile notes →
      meanwhile.Sound terminals → AsTold terminals memo agree meanwhile (otherwise meanwhile) second) :
    AsTold terminals memo agree history (parse.orElse otherwise) (account.orElse second) := by
  cases account with
  | matched told notes =>
      obtain ⟨place, meanwhile, rfl, rest⟩ := does
      exact ⟨place, meanwhile, rfl, rest⟩
  | refused notes =>
      obtain ⟨meanwhile, rfl, follows, sound⟩ := does
      exact (later meanwhile notes rfl follows sound).behind follows
  | outOfFuel =>
      rcases does with remembers | rfl
      · exact .inl remembers
      · exact .inr rfl

end AsTold

/-! ## Productions -/

/-- What calls do is told: of a tail, from the node on that it is put around, and of others from their
position on. -/
structure CallsTold (terminals : Terminals) (memo : Bool)
    (call : Nonterminal → Scope → Place → History → Parse)
    (account : Nonterminal → Scope → Place → Account) : Prop where
  tail : ∀ (nonterminal : Nonterminal) (scope : Scope) (base : Forest) (history : History)
    (told place : Place), nonterminal.isProper = true → nonterminal.role = .tail →
    told.Told terminals base true history place → history.Sound terminals →
    AsTold terminals memo (Place.Settled terminals base (.reaches true)) history
      (call nonterminal scope place history) (account nonterminal scope told)
  other : ∀ (nonterminal : Nonterminal) (scope : Scope) (history : History) (place : Place),
    nonterminal.isProper = true → nonterminal.role ≠ .tail → history.Sound terminals →
    AsTold terminals memo
      (Place.Settled terminals place.forest (.reaches (nonterminal.role == .node))) history
      (call nonterminal scope place history) (account nonterminal scope (.fresh place.position))

theorem AsTold.join {memo : Bool} {verdict : Verdict Bool} {parse : Parse} {account : Account}
    (does : AsTold terminals memo (Place.Settled terminals place.forest verdict) history parse account)
    (agrees : told.Told terminals base headed history place) :
    AsTold terminals memo (Place.Settled terminals base verdict) history parse
      (account.andThen fun after => .matched (told.join after) []) := by
  cases account with
  | matched after notes =>
      obtain ⟨reached, later, rfl, ⟨behind, same, further⟩, follows, sound⟩ := does
      exact ⟨reached, later, rfl, ⟨behind, same, agrees.join further⟩, by simpa using follows, sound⟩
  | refused notes => exact does
  | outOfFuel => exact does

theorem History.Refuses.accountWith {position : Nat} {scope : Scope}
    (refuses : history.Refuses terminals position scope) (fuel : Nat) :
    Nonterminal.accountWith Nonterminal.production terminals fuel .arrow scope (.fresh position) =
        .outOfFuel ∨
      ∃ notes, Nonterminal.accountWith Nonterminal.production terminals fuel .arrow scope
          (.fresh position) = .refused notes ∧ ∀ note ∈ notes, history.Knows note := by
  obtain ⟨more, notes, refused, known⟩ := refuses
  have alike := Nonterminal.accountWith_alike Nonterminal.isBlind_production fuel more .arrow scope
    scope (.fresh position) (.inl rfl : terminals.SameScopes scope scope)
  rw [refused] at alike
  cases result : Nonterminal.accountWith Nonterminal.production terminals fuel .arrow scope
      (.fresh position) with
  | matched place other =>
      rw [result] at alike
      cases alike
  | refused other =>
      rw [result] at alike
      cases alike with
      | refused same => exact .inr ⟨other, rfl, same rfl ▸ known⟩
  | outOfFuel => exact .inl rfl

/-- What a production does is told, wherever its check passes. -/
def Production.IsTold (terminals : Terminals) (memo : Bool) (fuel : Nat)
    (call : Nonterminal → Scope → Place → History → Parse) (production : Production) : Prop :=
  ∀ (headed : Bool) (base : Forest) (scope : Scope) (history : History) (told place : Place),
    production.settle headed ≠ .illegal → production.triesOnce memo = true →
    told.Told terminals base headed history place → history.Sound terminals →
    AsTold terminals memo (Place.Settled terminals base (production.settle headed)) history
      (production.nest terminals call scope place history)
      (production.account terminals
        (Nonterminal.accountWith Nonterminal.production terminals fuel) scope told)

namespace Production.IsTold

variable {memo : Bool} {fuel : Nat} {call : Nonterminal → Scope → Place → History → Parse}
  {first second yes no head body : Production}

theorem expected (kind : Kind) : IsTold terminals memo fuel call (.expected kind) := by
  intro headed base scope history told place _ _ agrees sound
  have follows := history.follows_expect place.position kind
  refine ⟨place, _, rfl, ⟨headed, rfl, agrees.follows follows⟩, ?_, sound.expect _ _⟩
  rwa [← agrees.position]

theorem expectedConstruct (name : String) :
    IsTold terminals memo fuel call (.expectedConstruct name) := by
  intro headed base scope history told place _ _ agrees sound
  have follows := history.follows_expectConstruct place.position name
  refine ⟨place, _, rfl, ⟨headed, rfl, agrees.follows follows⟩, ?_, sound.expectConstruct _ _⟩
  rwa [← agrees.position]

theorem ofCall (calls : CallsTold terminals memo call
      (Nonterminal.accountWith Nonterminal.production terminals fuel)) (nonterminal : Nonterminal) :
    IsTold terminals memo fuel call (.call nonterminal) := by
  intro headed base scope history told place legal _ agrees sound
  simp only [settle, account, nest] at legal ⊢
  split at legal
  · rename_i proper
    rw [if_pos proper]
    have other := fun noTail => (calls.other nonterminal scope history place proper noTail sound)
    cases role : nonterminal.role with
    | tail =>
        rw [role] at legal
        simp only at legal ⊢
        split at legal
        · rename_i isHeaded
          subst isHeaded
          exact calls.tail nonterminal scope base history told place proper role agrees sound
        · exact absurd rfl legal
    | node | content | items =>
        rw [role] at other
        rw [agrees.position] at other
        exact (other (by decide)).join agrees
  · exact absurd rfl legal

theorem seq (firstTold : IsTold terminals memo fuel call first)
    (secondTold : IsTold terminals memo fuel call second) :
    IsTold terminals memo fuel call (.seq first second) := by
  intro headed base scope history told place legal tries agrees sound
  obtain ⟨firstTries, secondTries⟩ := Bool.and_eq_true_iff.mp tries
  obtain ⟨firstLegal, secondLegal⟩ := Verdict.andThen_ne_illegal legal
  refine (firstTold headed base scope history told place firstLegal firstTries agrees sound).andThen ?_
  rintro middleTold _ middle meanwhile _ _ ⟨between, reached, middleAgrees⟩ _ middleSound
  rw [settle, reached, Verdict.andThen]
  exact secondTold between base scope meanwhile middleTold middle (secondLegal between reached)
    secondTries middleAgrees middleSound

theorem branch (noWords : terminals.NoWords) (guard : Guard)
    (yesTold : IsTold terminals memo fuel call yes) (noTold : IsTold terminals memo fuel call no) :
    IsTold terminals memo fuel call (.branch guard yes no) := by
  intro headed base scope history told place legal tries agrees sound
  obtain ⟨yesTries, noTries⟩ := Bool.and_eq_true_iff.mp tries
  simp only [settle] at legal ⊢
  split at legal
  · exact absurd rfl legal
  · rename_i asks
    obtain ⟨yesLegal, noLegal⟩ := Verdict.merge_ne_illegal legal
    have same := guard.admits_told noWords sound agrees.position scope fun known => by
      obtain ⟨_, kind, first, content, _, same⟩ := agrees.node (by simpa [known] using asks)
      exact ⟨kind, first, content, same⟩
    rw [if_neg asks]
    simp only [nest, account, same]
    split
    · exact (yesTold headed base scope history told place yesLegal yesTries agrees sound).weaken
        fun _ _ _ => Place.Settled.mergeLeft legal
    · exact (noTold headed base scope history told place noLegal noTries agrees sound).weaken
        fun _ _ _ => Place.Settled.mergeRight legal

theorem node (kind : Kind) (bodyTold : IsTold terminals memo fuel call body) :
    IsTold terminals memo fuel call (.node kind body) := by
  intro headed base scope history told place legal tries agrees sound
  simp only [settle] at legal ⊢
  split at legal
  · exact absurd rfl legal
  · rename_i other
    obtain ⟨bodyLegal, _⟩ := Verdict.andThen_ne_illegal legal
    rw [if_neg other]
    refine (bodyTold false .empty scope history told.inside place.inside bodyLegal tries
      agrees.inside sound).close ?_
    rintro _ later toldInner inner _ follows ⟨_, reached, within⟩
    exact ⟨true, by rw [reached, Verdict.andThen], (agrees.follows follows).addNode within other⟩

theorem fork (noWords : terminals.NoWords) (guard : Guard) (kindYes kindNo : Kind)
    (headTold : IsTold terminals memo fuel call head) (yesTold : IsTold terminals memo fuel call yes)
    (noTold : IsTold terminals memo fuel call no) :
    IsTold terminals memo fuel call (.fork head guard kindYes yes kindNo no) := by
  intro headed base scope history told place legal tries agrees sound
  simp only [triesOnce, Bool.and_eq_true] at tries
  obtain ⟨⟨headTries, yesTries⟩, noTries⟩ := tries
  simp only [settle] at legal ⊢
  split at legal
  · exact absurd rfl legal
  · rename_i plain
    rw [if_neg plain]
    simp only [Bool.or_eq_true, beq_iff_eq, not_or] at plain
    obtain ⟨⟨asks, otherYes⟩, otherNo⟩ := plain
    obtain ⟨headLegal, tailLegal⟩ := Verdict.andThen_ne_illegal legal
    refine (headTold false .empty scope history told.inside place.inside headLegal headTries
      agrees.inside sound).andThen ?_
    rintro middleTold _ middle meanwhile _ _ ⟨between, reached, middleAgrees⟩ follows middleSound
    obtain ⟨mergeLegal, _⟩ := Verdict.andThen_ne_illegal (tailLegal between reached)
    obtain ⟨yesLegal, noLegal⟩ := Verdict.merge_ne_illegal mergeLegal
    have same := guard.admits_told noWords middleSound middleAgrees.position scope
      fun known => absurd known asks
    have meanwhileAgrees := agrees.follows follows
    rw [reached, Verdict.andThen]
    simp only [same]
    split
    · refine ((yesTold between .empty scope meanwhile middleTold middle yesLegal yesTries middleAgrees
        middleSound).weaken fun _ _ _ => Place.Settled.mergeLeft mergeLegal).close ?_
      rintro _ later toldInner inner _ further ⟨_, merged, within⟩
      exact ⟨true, by rw [merged, Verdict.andThen],
        (meanwhileAgrees.follows further).addNode within otherYes⟩
    · refine ((noTold between .empty scope meanwhile middleTold middle noLegal noTries middleAgrees
        middleSound).weaken fun _ _ _ => Place.Settled.mergeRight mergeLegal).close ?_
      rintro _ later toldInner inner _ further ⟨_, merged, within⟩
      exact ⟨true, by rw [merged, Verdict.andThen],
        (meanwhileAgrees.follows further).addNode within otherNo⟩

theorem wrap (kind : Kind) (bodyTold : IsTold terminals memo fuel call body) :
    IsTold terminals memo fuel call (.wrap kind body) := by
  intro headed base scope history told place legal tries agrees sound
  simp only [settle] at legal ⊢
  split at legal
  · rename_i fits
    rw [if_pos fits]
    obtain ⟨isHeaded, other⟩ := Bool.and_eq_true_iff.mp fits
    subst isHeaded
    obtain ⟨bodyLegal, _⟩ := Verdict.andThen_ne_illegal legal
    obtain ⟨_, _, first, _, _, same⟩ := agrees.node rfl
    simp only [nest, account, same.toldLast, same.last]
    refine (bodyTold false .empty scope history told.inside place.inside bodyLegal tries
      agrees.inside sound).close ?_
    rintro _ later toldInner inner _ follows ⟨_, reached, within⟩
    exact ⟨true, by rw [reached, Verdict.andThen],
      (agrees.follows follows).wrapNode within (bne_iff_ne.mp other)⟩
  · exact absurd rfl legal

theorem orElse (firstTold : IsTold terminals memo fuel call first)
    (secondTold : IsTold terminals memo fuel call second) :
    IsTold terminals memo fuel call (.orElse first second) := by
  intro headed base scope history told place legal tries agrees sound
  obtain ⟨firstTries, secondTries⟩ := Bool.and_eq_true_iff.mp tries
  obtain ⟨firstLegal, secondLegal⟩ := Verdict.merge_ne_illegal legal
  refine ((firstTold headed base scope history told place firstLegal firstTries agrees sound).weaken
    fun _ _ _ => Place.Settled.mergeLeft legal).orElse ?_
  intro meanwhile notes _ follows later
  exact (secondTold headed base scope meanwhile told place secondLegal secondTries
    (agrees.follows follows) later).weaken fun _ _ _ => Place.Settled.mergeRight legal

theorem onceOrElse (firstTold : IsTold terminals memo fuel call first)
    (secondTold : IsTold terminals memo fuel call second) :
    IsTold terminals memo fuel call (.onceOrElse first second) := by
  intro headed base scope history told place legal tries agrees sound
  simp only [triesOnce, Bool.and_eq_true, beq_iff_eq] at tries
  obtain ⟨⟨remembers, rfl⟩, secondTries⟩ := tries
  obtain ⟨firstLegal, secondLegal⟩ := Verdict.merge_ne_illegal legal
  have again : ∀ meanwhile notes, history.Follows meanwhile notes → meanwhile.Sound terminals →
      AsTold terminals memo
        (Place.Settled terminals base ((Production.onceOrElse (.call .arrow) second).settle headed))
        meanwhile (second.nest terminals call scope place meanwhile)
        (second.account terminals
          (Nonterminal.accountWith Nonterminal.production terminals fuel) scope told) := by
    intro meanwhile notes follows later
    exact (secondTold headed base scope meanwhile told place secondLegal secondTries
      (agrees.follows follows) later).weaken fun _ _ _ => Place.Settled.mergeRight legal
  simp only [nest]
  split
  · rename_i failed
    -- The account tries the arrow once more, and notes nothing that the history does not know.
    have refuses := (sound.arrows _ _ (List.contains_iff_mem.mp failed)).accountWith fuel
    rw [agrees.position] at refuses
    rcases refuses with unfinished | ⟨notes, refused, known⟩
    · simp only [account, unfinished]
      exact .inl remembers
    · simp only [account, refused]
      exact (again history [] (.refl history) sound).behind (History.follows_of_knows known)
  · refine ((firstTold headed base scope history told place firstLegal rfl agrees sound).weaken
      fun _ _ _ => Place.Settled.mergeLeft legal).orElse ?_
    intro meanwhile notes refused follows later
    have arrowRefused := Account.close_refused refused
    rw [← agrees.position] at arrowRefused
    have remembered := meanwhile.follows_rememberArrow place.position scope
    have does := (again _ _ (follows.append remembered) (later.rememberArrow
      ⟨fuel, notes, arrowRefused, fun _ => follows.knows_of_mem⟩)).behind remembered
    rwa [Account.behind_nil] at does

theorem list (bodyTold : IsTold terminals memo fuel call body) :
    IsTold terminals memo fuel call (.list body) := by
  intro headed base scope history told place legal tries agrees sound
  obtain ⟨bodyLegal, _⟩ := Verdict.andThen_ne_illegal legal
  refine (bodyTold false .empty scope history told.inside place.inside bodyLegal tries agrees.inside
    sound).close ?_
  rintro _ later toldInner inner _ follows ⟨_, reached, within⟩
  exact ⟨false, by rw [settle, reached, Verdict.andThen], (agrees.follows follows).addList within⟩

end Production.IsTold

theorem Production.asTold_nest (noWords : terminals.NoWords) {memo : Bool} {fuel : Nat}
    {call : Nonterminal → Scope → Place → History → Parse}
    (calls : CallsTold terminals memo call
      (Nonterminal.accountWith Nonterminal.production terminals fuel)) (production : Production) :
    production.IsTold terminals memo fuel call := by
  induction production with
  | empty =>
      intro headed base scope history told place _ _ agrees sound
      exact ⟨place, history, rfl, ⟨headed, rfl, agrees⟩, .refl history, sound⟩
  | refuse =>
      intro headed base scope history told place _ _ _ sound
      exact ⟨history, rfl, .refl history, sound⟩
  | take =>
      intro headed base scope history told place _ _ agrees sound
      exact ⟨_, history, rfl, ⟨false, rfl, agrees.take⟩, .refl history, sound⟩
  | hole =>
      intro headed base scope history told place _ _ agrees sound
      exact ⟨_, history, rfl, ⟨false, rfl, agrees.addHole⟩, .refl history, sound⟩
  | markTarget =>
      intro headed base scope history told place legal
      exact absurd rfl legal
  | expected kind => exact .expected kind
  | expectedConstruct name => exact .expectedConstruct name
  | call nonterminal => exact .ofCall calls nonterminal
  | seq first second firstIh secondIh => exact .seq firstIh secondIh
  | branch guard yes no yesIh noIh => exact .branch noWords guard yesIh noIh
  | node kind body ih => exact .node kind ih
  | fork head guard kindYes yes kindNo no headIh yesIh noIh =>
      exact .fork noWords guard kindYes kindNo headIh yesIh noIh
  | wrap kind body ih => exact .wrap kind ih
  | orElse first second firstIh secondIh => exact .orElse firstIh secondIh
  | onceOrElse first second firstIh secondIh => exact .onceOrElse firstIh secondIh
  | inScope change body ih =>
      intro headed base scope history told place legal tries agrees sound
      exact ih headed base (change.apply scope) history told place legal tries agrees sound
  | list body ih => exact .list ih

/-! ## Parentheses -/

theorem Production.account_expect {call : Nonterminal → Scope → Place → Account} {scope : Scope}
    {before after : Place} {notes : List Note}
    (matched : (expect kind).account terminals call scope before = .matched after notes) :
    terminals.kindAt before.position = kind ∧ after = before.take terminals := by
  simp only [expect, account] at matched
  split at matched
  · rename_i admitted
    cases matched
    exact ⟨by simpa [Guard.admits] using admitted, rfl⟩
  · cases matched

theorem Production.nest_expect {call : Nonterminal → Scope → Place → History → Parse} {scope : Scope}
    {before after : Place}
    (matched : (expect kind).nest terminals call scope before history = .matched after later) :
    after = before.take terminals ∧ later = history := by
  simp only [expect, nest] at matched
  split at matched
  · cases matched
    exact ⟨rfl, rfl⟩
  · cases matched

theorem Place.SameNode.take (same : told.SameNode terminals history place kind first content) :
    (told.take terminals).SameNode terminals history (place.take terminals) kind first content :=
  ⟨same.toldLast, same.last, same.holds, same.reads, same.marked⟩

theorem Place.SameNode.admits_holdsTarget {scope : Scope} {opening closing : Nat}
    (same : told.SameNode terminals history place kind first content)
    (forest : told.forest =
      ((Forest.empty.token opening .leftParen).node kind content).token closing .rightParen) :
    Guard.admits terminals scope told told.marks
        (.or (.completed Grammar.simpleTargets) .completedTarget) =
      told.forest.isTarget := by
  simp only [Guard.admits, same.toldLast, same.marks_eq, forest, Forest.isTarget, Option.map_some,
    Option.getD_some]
  cases content.isTarget <;> simp

theorem Production.account_seq {call : Nonterminal → Scope → Place → Account} {scope : Scope}
    {before middle : Place} {notes : List Note} {one : Production}
    (matched : one.account terminals call scope before = .matched middle notes) (other : Production) :
    (seq one other).account terminals call scope before =
      (other.account terminals call scope middle).behind notes := by
  rw [account, matched, Account.andThen]

/-- The mark of parentheses, once they are complete. -/
def Grammar.markIfTarget : Production :=
  .branch (.or (.completed simpleTargets) .completedTarget) .markTarget .empty

/-- Parentheses are read if their parts are: a mark is set or not. -/
theorem Terminals.reads_of_parts {fuel first : Nat} {scope : Scope} {opened held closed : Place}
    {openNotes heldNotes closedNotes : List Note}
    (opens : (Production.expect .leftParen).account terminals
      (Nonterminal.accountWith Nonterminal.production terminals fuel) scope (.fresh first) =
        .matched opened openNotes)
    (holds : (Production.call .expression).account terminals
      (Nonterminal.accountWith Nonterminal.production terminals fuel) scope opened =
        .matched held heldNotes)
    (closes : (Production.expect .rightParen).account terminals
      (Nonterminal.accountWith Nonterminal.production terminals fuel) scope held =
        .matched closed closedNotes) :
    terminals.Parenthesizes first closed.forest := by
  have marks : ∃ notes, Grammar.markIfTarget.account terminals
      (Nonterminal.accountWith Nonterminal.production terminals fuel) scope closed =
        .matched closed notes := by
    simp only [Grammar.markIfTarget, Production.account]
    split
    · exact ⟨_, rfl⟩
    · exact ⟨_, rfl⟩
  obtain ⟨markNotes, marks⟩ := marks
  have body := Production.account_seq opens
    (.seq (.call .expression) (.seq (.expect .rightParen) Grammar.markIfTarget))
  rw [Production.account_seq holds, Production.account_seq closes, marks] at body
  have whole := congrArg
    (Account.andThen · fun inner =>
      .matched ((Place.fresh first).addNode .parenthesizedExpression inner) []) body
  exact ⟨fuel + 1, scope, _, _, whole, rfl⟩

/-- Inside of parentheses that were opened at a position, a parse is where it is told to be, and has
marked them if they hold something to assign to. -/
structure Place.ToldInside (terminals : Terminals) (first : Nat) (history : History)
    (told inner : Place) : Prop where
  position : inner.position = told.position
  forest : inner.forest = told.forest
  reads : terminals.Parenthesizes first told.forest
  marked : told.forest.isTarget = true → first + 1 ∈ history.targets

theorem AsTold.markIfTarget {memo : Bool} {call : Nonterminal → Scope → Place → History → Parse}
    {account : Nonterminal → Scope → Place → Account} {scope : Scope}
    {opening closing : Nat} (noWords : terminals.NoWords) (sound : history.Sound terminals)
    (position : place.position = told.position) (sameForest : place.forest = told.forest)
    (same : told.SameNode terminals history place kind (first + 1) content)
    (forest : told.forest =
      ((Forest.empty.token opening .leftParen).node kind content).token closing .rightParen)
    (reads : terminals.Parenthesizes first told.forest) :
    AsTold terminals memo (Place.ToldInside terminals first) history
      (Grammar.markIfTarget.nest terminals call scope place history)
      (Grammar.markIfTarget.account terminals account scope told) := by
  have admits := Guard.admits_told noWords sound position scope
    (.or (.completed Grammar.simpleTargets) .completedTarget)
    fun _ => ⟨kind, first + 1, content, same⟩
  simp only [Grammar.markIfTarget, Production.nest, Production.account, admits,
    same.admits_holdsTarget forest]
  split
  · rename_i isTarget
    have follows := history.follows_markTarget place
    have notes : told.targetNotes = [.target (first + 1)] := by
      rw [Place.targetNotes, same.toldLast]
    have placeNotes : place.targetNotes = [.target (first + 1)] := by
      rw [Place.targetNotes, same.last]
    rw [placeNotes] at follows
    rw [notes]
    refine ⟨place, _, rfl, ⟨position, sameForest, reads, fun _ => ?_⟩, follows, ?_⟩
    · exact (follows.targets _).mpr (.inr List.mem_cons_self)
    · refine sound.follows follows ?_ ?_
      · rw [same.last]
        rfl
      · intro mark noted
        cases List.mem_singleton.mp noted
        exact ⟨first, _, rfl, reads, isTarget⟩
  · rename_i noTarget
    exact ⟨place, history, rfl, ⟨position, sameForest, reads, fun isTarget => absurd isTarget noTarget⟩,
      .refl history, sound⟩

theorem Production.asTold_parenthesized (noWords : terminals.NoWords) {memo : Bool} {fuel : Nat}
    {call : Nonterminal → Scope → Place → History → Parse}
    (calls : CallsTold terminals memo call
      (Nonterminal.accountWith Nonterminal.production terminals fuel)) (scope : Scope)
    (place : Place) (sound : history.Sound terminals) :
    AsTold terminals memo (Place.Settled terminals place.forest (.reaches true)) history
      (Grammar.parenthesized.nest terminals call scope place history)
      (Grammar.parenthesized.account terminals
        (Nonterminal.accountWith Nonterminal.production terminals fuel) scope
        (.fresh place.position)) := by
  have generic := asTold_nest noWords calls
  have started : (Place.fresh place.position).inside.Told terminals .empty false history place.inside :=
    ⟨rfl, rfl, by simp⟩
  have body : AsTold terminals memo (Place.ToldInside terminals place.position) history
      ((seq (expect .leftParen) (seq (.call .expression)
        (seq (expect .rightParen) Grammar.markIfTarget))).nest terminals call scope place.inside history)
      ((seq (expect .leftParen) (seq (.call .expression)
        (seq (expect .rightParen) Grammar.markIfTarget))).account terminals
        (Nonterminal.accountWith Nonterminal.production terminals fuel) scope
        (.fresh place.position)) := by
    refine (generic (expect .leftParen) false .empty scope history _ _ (by decide) rfl started
      sound).andThen ?_
    rintro opened _ openPlace openHistory opens _ ⟨_, _, openAgrees⟩ _ openSound
    refine (generic (.call .expression) false .empty scope openHistory _ _ (by decide) rfl
      (openAgrees.weaken (by simp)) openSound).andThen ?_
    rintro held _ heldPlace heldHistory holds _ ⟨_, ⟨⟩, heldAgrees⟩ _ heldSound
    refine (generic (expect .rightParen) true .empty scope heldHistory _ _ (by decide) rfl
      heldAgrees heldSound).andThen ?_
    rintro closed _ closedPlace closedHistory closes closedNest ⟨_, _, closedAgrees⟩ _ closedSound
    have reads := Terminals.reads_of_parts opens holds closes
    obtain ⟨opening, rfl⟩ := account_expect opens
    obtain ⟨closing, rfl⟩ := account_expect closes
    obtain ⟨rfl, rfl⟩ := nest_expect closedNest
    have scopes := derives_of_account (Nonterminal.isLocal_scopes terminals)
      (Nonterminal.accountWith_scopes terminals fuel) (.call .expression) scope _ _ _ holds
    obtain ⟨kind, content, ⟨forest, completed, _⟩, _⟩ :=
      Nonterminal.Scopes.exists_node scopes rfl rfl rfl (by simp)
    obtain ⟨_, _, _, _, sameForest, same⟩ := heldAgrees.node rfl
    cases forest.symm.trans sameForest
    cases completed.symm.trans same.toldLast
    have shape : (held.take terminals).forest =
        ((Forest.empty.token place.position .leftParen).node kind content).token held.position
          .rightParen := by
      rw [Place.take, closing, forest, Place.take, opening]
      rfl
    exact AsTold.markIfTarget noWords closedSound closedAgrees.position
      (by simpa using closedAgrees.forest) same.take shape reads
  refine body.close ?_
  rintro notes later told inner _ _ ⟨position, forest, reads, marked⟩
  refine ⟨true, rfl, position, ?_, fun _ => ⟨.empty, _, place.position, told.forest, ?_, rfl, rfl, rfl,
    fun _ => reads, fun _ => marked⟩⟩
  · simp [Place.addNode, forest, Place.fresh]
  · rfl

/-! ## Every parse -/

/-- The productions of a grammar are told and checked like those of the nonterminals. -/
structure ToldLikeProductions (memo : Bool) (grammar : Nonterminal → Production) : Prop where
  account : ∀ (nonterminal : Nonterminal) (terminals : Terminals)
    (call : Nonterminal → Scope → Place → Account) (scope : Scope) (place : Place),
    (grammar nonterminal).account terminals call scope place =
      nonterminal.production.account terminals call scope place
  settle : ∀ (nonterminal : Nonterminal) (headed : Bool),
    (grammar nonterminal).settle headed = nonterminal.production.settle headed
  triesOnce : ∀ nonterminal, (grammar nonterminal).triesOnce memo = true
  parentheses : grammar .parenthesized = Grammar.parenthesized

theorem toldLikeProductions_production : ToldLikeProductions true Nonterminal.production :=
  ⟨fun _ _ _ _ _ => rfl, fun _ _ => rfl, Nonterminal.triesOnce_production, rfl⟩

theorem Nonterminal.nestWith_asTold (noWords : terminals.NoWords) {memo : Bool}
    {grammar : Nonterminal → Production} (like : ToldLikeProductions memo grammar) (fuel : Nat) :
    CallsTold terminals memo (nestWith grammar terminals fuel)
      (accountWith production terminals fuel) := by
  induction fuel with
  | zero => exact ⟨fun _ _ _ _ _ _ _ _ _ _ => .inr rfl, fun _ _ _ _ _ _ _ => .inr rfl⟩
  | succ fuel ih =>
      constructor
      · intro nonterminal scope base history told place proper isTail agrees sound
        have known := nonterminal.settle_production proper (by rintro rfl; cases isTail)
        rw [isTail, ← like.settle] at known
        have checked : (grammar nonterminal).settle true = .reaches true := known
        have does := (grammar nonterminal).asTold_nest noWords ih true base scope history told place
          (fun illegal => nomatch checked.symm.trans illegal) (like.triesOnce nonterminal) agrees sound
        rw [checked, like.account] at does
        exact does
      · intro nonterminal scope history place proper noTail sound
        by_cases isParentheses : nonterminal = .parenthesized
        · subst isParentheses
          have does := Production.asTold_parenthesized noWords ih scope place sound
          rw [← like.parentheses, like.account] at does
          exact does
        · have checked := nonterminal.settle_production proper isParentheses
          rw [beq_false_of_ne noTail, Bool.or_false, ← like.settle] at checked
          have started : (Place.fresh place.position).Told terminals place.forest false history place :=
            ⟨rfl, rfl, by simp⟩
          have does := (grammar nonterminal).asTold_nest noWords ih false place.forest scope history _
            place (fun illegal => nomatch checked.symm.trans illegal) (like.triesOnce nonterminal)
            started sound
          rw [checked, like.account] at does
          exact does

end Agreement

end ScriptTree
