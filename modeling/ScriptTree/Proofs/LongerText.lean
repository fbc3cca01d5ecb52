import ScriptTree.Proofs.ForHeads
import ScriptTree.Proofs.Unseen

/-! # Statements in front of more text

A statement that matches up to a last semicolon, with the end of the text behind it, matches in the same
way if more text follows, as long as that does not start with `else`. -/
set_option autoImplicit false
set_option maxRecDepth 4000
namespace ScriptTree

open Grammar

namespace Production

/-- Goes through a production outside of brackets, in which it takes no semicolon there; what is known of the
next tokens behind it. -/
def clear (ahead : Ahead) (production : Production) : Option Ahead :=
  if production.looksInFront false false then
    match production.watched (bareWatch .noSemicolon) ([], ahead) with
    | .reaches ([], rest) => some rest
    | _ => none
  else none

def refusesEnd (production : Production) : Bool :=
  production.respond [.eof] (Nonterminal.respond [.eof]) = .refuses

/-- Whether a production that matches at the end of the text takes nothing there, nor where more follows than
`else`. -/
def isQuiet : Production → Bool
  | .empty | .expected _ | .expectedConstruct _ => true
  | .seq first second => (Production.seq first second).refusesEnd || (first.isQuiet && second.isQuiet)
  | .branch guard yes no =>
      (Production.branch guard yes no).refusesEnd || (guard = .nextIs .elseKw && no.isQuiet)
  | production => production.refusesEnd

end Production

/-- The statements that stand outside of brackets where they may take a semicolon. -/
def Nonterminal.isCarried : Nonterminal → Bool
  | statement | labelledOrExpressionStatement | expressionStatement | variableStatement | ifStatement
  | doWhileStatement | whileStatement | forStatement | jumpStatement _ | returnStatement | withStatement
  | labelledStatement | throwStatement => true
  | _ => false

/-- Whether a production that matches up to the semicolon matches if more text follows. -/
def Production.carries : Ahead → Production → Bool
  | _, .refuse => true
  | ahead, .take => ahead.any fun fact => fact.1 = 0 && Bracket.readAny [] fact.2 = some []
  | ahead, .call nonterminal =>
      nonterminal.isCarried && nonterminal.isProper && nonterminal.known.all ahead.contains ||
        ((Production.call nonterminal).clear ahead).isSome
  | ahead, .seq first second =>
      match first.clear ahead with
      | some rest => second.carries rest
      | none => first.carries ahead && (second.carries [] && second.isQuiet)
  | ahead, .branch guard yes no =>
      guard.staysInFront false && (yes.carries (guard.facts ++ ahead) && no.carries ahead)
  | ahead, .node _ body => body.carries ahead
  | ahead, .orElse first second =>
      ((first.clear ahead).isSome || first = .call .variableStatement || second = .refuse) &&
        (first.carries ahead && second.carries ahead)
  | ahead, production => (production.clear ahead).isSome

theorem Nonterminal.carries_production : ∀ nonterminal ∈ listed, nonterminal.isCarried = true →
    nonterminal ≠ .forStatement → nonterminal.production.carries nonterminal.known = true := by
  decide +kernel

/-! ## Two texts, one of which ends -/

/-- A text that ends behind a semicolon, and one that goes on there, though not with `else`. -/
structure Terminals.GoesOn (first second : Terminals) (last : Nat) : Prop extends
    first.AgreeTo second last where
  ended : first.kindAt (last + 1) = .eof
  noElse : second.kindAt (last + 1) ≠ .elseKw

/-- A place outside of brackets, in front of the semicolon or right behind it. -/
structure Place.ComesBy (terminals : Terminals) (last : Nat) (place : Place) : Prop where
  before : place.position ≤ last + 1
  opened : terminals.openAt place.position = some []
  completed : ∀ node ∈ place.completed, node.2 ≤ last

theorem Place.StandsIn.comesBy {terminals : Terminals} {last : Nat} {place : Place}
    (stands : place.StandsIn terminals last []) : place.ComesBy terminals last :=
  ⟨Nat.le_succ_of_le stands.before, stands.opened, stands.completed⟩

theorem Place.ComesBy.standsIn {terminals : Terminals} {last : Nat} {place : Place}
    (comes : place.ComesBy terminals last) (before : place.position ≤ last) :
    place.StandsIn terminals last [] :=
  ⟨before, comes.opened, comes.completed⟩

/-- A match of the text that ends is one of the other text. -/
def Parse.Carried (terminals : Terminals) (last : Nat) (one other : Parse) : Prop :=
  ∀ after later, one = .matched after later →
    other = .matched after later ∧ after.ComesBy terminals last ∧ later.StaysBefore last

section Carrying

variable {first second : Terminals} {last : Nat}
  {call other : Nonterminal → Scope → Place → History → Parse}

def CallsCarry (first : Terminals) (last : Nat)
    (call other : Nonterminal → Scope → Place → History → Parse) : Prop :=
  ∀ (nonterminal : Nonterminal) (place : Place) (history : History), nonterminal.isProper = true →
    nonterminal.isCarried = true → first.Shows place.position nonterminal.known →
    place.StandsIn first last [] → history.StaysBefore last →
    Parse.Carried first last (call nonterminal .outermost place history)
      (other nonterminal .outermost place history)

theorem Production.refuses_of_refusesEnd {production : Production} {scope : Scope} {place after : Place}
    {history later : History} (heeds : CallsSatisfy call (Nonterminal.Heeds first))
    (ended : first.kindAt place.position = .eof) (refuses : production.refusesEnd = true) :
    production.nest first call scope place history ≠ .matched after later := by
  intro matched
  have allows := production.allows_of_derives Nonterminal.responseDepth scope place after
    (List.mem_singleton.mpr ended) (production.derives_of_nest heeds _ _ _ _ _ matched)
  have same : production.respond [.eof] (Nonterminal.respond [.eof]) = .refuses :=
    of_decide_eq_true refuses
  change (production.respond [.eof] (Nonterminal.respond [.eof])).Allows _ _ at allows
  rw [same] at allows
  exact allows

/-- A quiet production leaves the place as it is, on both texts. -/
theorem Production.nest_of_isQuiet (heeds : CallsSatisfy call (Nonterminal.Heeds first))
    (production : Production) :
    ∀ (scope : Scope) (place after : Place) (history later : History), production.isQuiet = true →
      first.kindAt place.position = .eof → second.kindAt place.position ≠ .elseKw →
      production.nest first call scope place history = .matched after later →
      history.StaysBefore last →
        production.nest second other scope place history = .matched after later ∧ after = place ∧
          later.StaysBefore last := by
  induction production with
  | empty =>
      rintro scope place after history later _ _ _ ⟨⟩ fair
      exact ⟨rfl, rfl, fair⟩
  | expected kind | expectedConstruct name =>
      rintro scope place after history later _ _ _ ⟨⟩ fair
      exact ⟨rfl, rfl, fair.arrows, fair.targets⟩
  | seq one another oneIh anotherIh =>
      intro scope place after history later quiet ended noElse matched fair
      rcases Bool.or_eq_true_iff.mp quiet with refuses | quiet
      · exact absurd matched (refuses_of_refusesEnd heeds ended refuses)
      obtain ⟨oneQuiet, anotherQuiet⟩ := Bool.and_eq_true_iff.mp quiet
      obtain ⟨middle, meanwhile, oneMatched, rest⟩ := Parse.andThen_matched matched
      obtain ⟨same, rfl, fair⟩ := oneIh scope _ _ _ _ oneQuiet ended noElse oneMatched fair
      rw [nest, same]
      exact anotherIh scope _ _ _ _ anotherQuiet ended noElse rest fair
  | branch guard yes no yesIh noIh =>
      intro scope place after history later quiet ended noElse matched fair
      rcases Bool.or_eq_true_iff.mp quiet with refuses | quiet
      · exact absurd matched (refuses_of_refusesEnd heeds ended refuses)
      obtain ⟨isElse, noQuiet⟩ := Bool.and_eq_true_iff.mp quiet
      cases of_decide_eq_true isElse
      have rejects {terminals : Terminals} (not : terminals.kindAt place.position ≠ .elseKw) :
          (Guard.nextIs .elseKw).admits terminals scope place history.targets = false := by
        simpa [Guard.admits] using not
      rw [nest, rejects (by simp [ended])] at matched
      rw [nest, rejects noElse]
      exact noIh scope _ _ _ _ noQuiet ended noElse matched fair
  | refuse | take | call | node | fork | wrap | orElse | onceOrElse | inScope | list | hole | markTarget =>
      intro scope place after history later quiet ended _ matched _
      exact absurd matched (refuses_of_refusesEnd heeds ended quiet)

structure Production.Clears (terminals : Terminals) (last : Nat) (ahead : Ahead) (after : Place)
    (later : History) : Prop where
  stands : after.StandsIn terminals last []
  shows : terminals.Shows after.position ahead
  history : later.StaysBefore last

theorem Production.agree_clear (agree : first.AgreeTo second last)
    (calls : CallsAgree first last call other) (scope : Scope) {production : Production}
    {ahead rest : Ahead} {place : Place} {history : History} (clear : production.clear ahead = some rest)
    (stands : place.StandsIn first last []) (shows : first.Shows place.position ahead)
    (fair : history.StaysBefore last) :
    Parse.Agree (Clears first last rest) (History.StaysBefore last)
      (production.nest first call scope place history)
      (production.nest second other scope place history) := by
  rw [Production.clear] at clear
  split at clear
  · rename_i looks
    split at clear
    · rename_i reaches
      cases clear
      have legal : production.watched (bareWatch .noSemicolon) ([], ahead) ≠ .illegal := by simp [reaches]
      refine (production.agree_nest agree calls false ([], ahead) [] scope place history legal looks
        ⟨fun allows => Bool.noConfusion allows, fun apart => Bool.noConfusion apart, stands, shows,
          fair⟩).imp ?_
      intro after later goes
      obtain ⟨reached, found, shows, stands⟩ := goes.reaches
      rw [reaches] at found
      cases found
      exact ⟨stands, shows, goes.history⟩
    · cases clear
  · cases clear

theorem Parse.Agree.carried {reached : Place → History → Prop} {left : History → Prop} {one two : Parse}
    (agree : Parse.Agree reached left one two)
    (comes : ∀ after later, reached after later → after.ComesBy first last ∧ later.StaysBefore last) :
    Parse.Carried first last one two := by
  rintro after later rfl
  exact ⟨agree.1.symm, comes after later agree.2⟩

theorem Production.Clears.comes {rest : Ahead} {after : Place} {later : History}
    (clears : Clears first last rest after later) :
    after.ComesBy first last ∧ later.StaysBefore last :=
  ⟨clears.stands.comesBy, clears.history⟩

theorem Production.carried_of_clear (agree : first.AgreeTo second last)
    (calls : CallsAgree first last call other) {production : Production} {ahead : Ahead} {scope : Scope}
    {place : Place} {history : History} (clear : (production.clear ahead).isSome = true)
    (stands : place.StandsIn first last []) (shows : first.Shows place.position ahead)
    (fair : history.StaysBefore last) :
    Parse.Carried first last (production.nest first call scope place history)
      (production.nest second other scope place history) := by
  obtain ⟨rest, clear⟩ := Option.isSome_iff_exists.mp clear
  exact (agree_clear agree calls scope clear stands shows fair).carried fun _ _ => Clears.comes

/-- A declaration with its end does the same on both texts, even if it fails. -/
def CallsDeclare (first : Terminals) (last : Nat)
    (call other : Nonterminal → Scope → Place → History → Parse) : Prop :=
  ∀ (place : Place) (history : History), place.StandsIn first last [] → history.StaysBefore last →
    Parse.Agree (fun _ _ => True) (History.StaysBefore last)
      (call .variableStatement .outermost place history)
      (other .variableStatement .outermost place history)

/-- Where a production carries, what it does outside of brackets is the same if more text follows. -/
def Production.IsCarried (first second : Terminals) (last : Nat)
    (call other : Nonterminal → Scope → Place → History → Parse) (production : Production) : Prop :=
  ∀ (ahead : Ahead) (place : Place) (history : History), production.carries ahead = true →
    place.StandsIn first last [] → first.Shows place.position ahead → history.StaysBefore last →
    Parse.Carried first last (production.nest first call .outermost place history)
      (production.nest second other .outermost place history)

namespace Production.IsCarried

variable {one another : Production}

theorem seq (goesOn : first.GoesOn second last) (heeds : CallsSatisfy call (Nonterminal.Heeds first))
    (calls : CallsAgree first last call other) (oneCarried : one.IsCarried first second last call other)
    (anotherCarried : another.IsCarried first second last call other) :
    (Production.seq one another).IsCarried first second last call other := by
  intro ahead place history carries stands shows fair after later matched
  obtain ⟨middle, meanwhile, oneMatched, rest⟩ := Parse.andThen_matched matched
  rw [Production.carries] at carries
  split at carries
  · rename_i behind clear
    obtain ⟨same, known⟩ :=
      agree_clear goesOn.toAgreeTo calls .outermost clear stands shows fair
    rw [oneMatched] at same known
    rw [nest, ← same]
    exact anotherCarried behind middle meanwhile carries known.stands known.shows known.history _ _ rest
  · simp only [Bool.and_eq_true] at carries
    obtain ⟨oneCarries, anotherCarries, quiet⟩ := carries
    obtain ⟨same, comes, fair⟩ := oneCarried ahead place history oneCarries stands shows fair _ _ oneMatched
    rw [nest, same]
    by_cases before : middle.position ≤ last
    · exact anotherCarried [] middle meanwhile anotherCarries (comes.standsIn before) .nil fair _ _ rest
    · have there : middle.position = last + 1 :=
        Nat.le_antisymm comes.before (Nat.not_le.mp before)
      obtain ⟨sameRest, rfl, fair⟩ := another.nest_of_isQuiet heeds .outermost _ _ _ _ quiet
        (there ▸ goesOn.ended) (there ▸ goesOn.noElse) rest fair
      exact ⟨sameRest, comes, fair⟩

/-- A way that is refused is refused on both texts, unless nothing else is tried. -/
theorem orElse (goesOn : first.GoesOn second last) (calls : CallsAgree first last call other)
    (declare : CallsDeclare first last call other)
    (oneCarried : one.IsCarried first second last call other)
    (anotherCarried : another.IsCarried first second last call other) :
    (Production.orElse one another).IsCarried first second last call other := by
  intro ahead place history carries stands shows fair after later matched
  simp only [Production.carries, Bool.and_eq_true] at carries
  obtain ⟨isExact, oneCarries, anotherCarries⟩ := carries
  cases oneParsed : one.nest first call .outermost place history with
  | matched middle meanwhile =>
      obtain ⟨same, known⟩ := oneCarried ahead place history oneCarries stands shows fair _ _ oneParsed
      rw [nest, oneParsed] at matched
      cases matched
      exact ⟨by rw [nest, same]; rfl, known⟩
  | outOfFuel =>
      rw [nest, oneParsed] at matched
      cases matched
  | refused meanwhile =>
      rw [nest, oneParsed] at matched
      have refuses : another = .refuse ∨ one.nest second other .outermost place history =
          .refused meanwhile ∧ meanwhile.StaysBefore last := by
        simp only [Bool.or_eq_true, decide_eq_true_eq] at isExact
        rcases isExact with (clear | rfl) | isRefuse
        · obtain ⟨rest, clear⟩ := Option.isSome_iff_exists.mp clear
          have agrees := agree_clear goesOn.toAgreeTo calls .outermost clear stands shows fair
          rw [oneParsed] at agrees
          exact .inr ⟨agrees.1.symm, agrees.2⟩
        · have agrees := declare place history stands fair
          rw [show call .variableStatement .outermost place history = .refused meanwhile from oneParsed]
            at agrees
          exact .inr ⟨agrees.1.symm, agrees.2⟩
        · exact .inl isRefuse
      rcases refuses with rfl | ⟨same, fair⟩
      · cases matched
      · rw [nest, same]
        exact anotherCarried ahead place meanwhile anotherCarries stands shows fair _ _ matched

end Production.IsCarried

theorem Production.carried_nest (goesOn : first.GoesOn second last)
    (heeds : CallsSatisfy call (Nonterminal.Heeds first)) (calls : CallsAgree first last call other)
    (carry : CallsCarry first last call other) (declare : CallsDeclare first last call other)
    (production : Production) : production.IsCarried first second last call other := by
  induction production with
  | refuse =>
      rintro ahead place history _ _ _ _ after later ⟨⟩
  | take =>
      rintro ahead place history carries stands shows fair after later ⟨⟩
      obtain ⟨⟨offset, kinds⟩, member, reads⟩ := List.any_eq_true.mp carries
      simp only [Bool.and_eq_true, decide_eq_true_eq] at reads
      obtain ⟨rfl, reads⟩ := reads
      have here : first.kindAt place.position ∈ kinds := shows _ member
      refine ⟨by rw [nest, Place.take, Place.take, goesOn.kinds _ stands.before], ?_, fair⟩
      exact ⟨Nat.succ_le_succ stands.before,
        Terminals.openAt_succ stands.opened (Bracket.readKind_of_readAny reads here), stands.completed⟩
  | call nonterminal =>
      intro ahead place history carries stands shows fair
      rcases Bool.or_eq_true_iff.mp carries with carries | clear
      · simp only [Bool.and_eq_true] at carries
        obtain ⟨⟨isCarried, proper⟩, known⟩ := carries
        refine carry nonterminal place history proper isCarried (shows.of_subset fun fact member => ?_)
          stands fair
        simpa using List.all_eq_true.mp known fact member
      · exact carried_of_clear goesOn.toAgreeTo calls clear stands shows fair
  | seq one another oneIh anotherIh => exact oneIh.seq goesOn heeds calls anotherIh
  | branch guard yes no yesIh noIh =>
      intro ahead place history carries stands shows fair
      simp only [Production.carries, Bool.and_eq_true] at carries
      obtain ⟨guardStays, yesCarries, noCarries⟩ := carries
      have same := goesOn.admits_eq guardStays stands.before (fun apart => absurd apart Bool.false_ne_true)
        .outermost history.targets
      simp only [nest, ← same]
      split
      · rename_i admitted
        exact yesIh _ place history yesCarries stands ((Guard.shows_facts admitted).append shows) fair
      · exact noIh _ place history noCarries stands shows fair
  | node kind body ih =>
      intro ahead place history carries stands shows fair after later matched
      obtain ⟨inner, meanwhile, bodyMatched, result⟩ := Parse.andThen_matched matched
      cases result
      obtain ⟨same, comes, fair⟩ := ih ahead place.inside history carries stands.inside shows fair _ _
        bodyMatched
      refine ⟨by rw [nest, same]; rfl, ⟨comes.before, comes.opened, ?_⟩, fair⟩
      rintro node ⟨⟩
      exact stands.before
  | orElse one another oneIh anotherIh => exact oneIh.orElse goesOn calls declare anotherIh
  | empty | expected kind | expectedConstruct name | fork | wrap | onceOrElse | inScope | list | hole
  | markTarget =>
      intro ahead place history carries stands shows fair
      exact carried_of_clear goesOn.toAgreeTo calls carries stands shows fair

/-! ## Declarations -/

theorem Production.agree_semicolon (agree : first.AgreeTo second last) {scope : Scope} {place : Place}
    {history : History} (stands : place.StandsIn first last []) (fair : history.StaysBefore last) :
    Parse.Agree (fun _ _ => True) (History.StaysBefore last)
      (semicolon.nest first call scope place history)
      (semicolon.nest second other scope place history) := by
  have stays (guard : Guard) (front : guard.staysInFront false = true) (targets : List Nat) :
      guard.admits first scope place targets = guard.admits second scope place targets :=
    agree.admits_eq front stands.before nofun scope targets
  simp only [semicolon, nest, Parse.andThen]
  rw [← stays _ (by decide), ← stays _ (by decide)]
  split
  · exact ⟨by rw [Place.take, Place.take, agree.kinds _ stands.before], trivial⟩
  · split
    · exact ⟨rfl, trivial⟩
    · exact ⟨rfl, fair.arrows, fair.targets⟩

theorem Nonterminal.nestWith_declares (agree : first.AgreeTo second last) (fuel : Nat) :
    CallsDeclare first last (nestWith production first fuel) (nestWith production second fuel) := by
  intro place history stands fair
  cases fuel with
  | zero => exact ⟨rfl, trivial⟩
  | succ fuel =>
      have declares := nestWith_agree agree fuel variableDeclaration [] .outermost place.inside history rfl
        (fun _ => rfl) .nil stands.inside fair
      exact (declares.andThen fun _ _ _ returns =>
        Production.agree_semicolon agree returns.stands returns.history).close fun _ _ _ => trivial

/-! ## The forms of `for` -/

theorem Production.nest_series_append {terminals : Terminals} {scope : Scope} (body part : Production)
    (rest : List Production) (place : Place) (history : History) :
    (series (part :: rest ++ [body])).nest terminals call scope place history =
      ((series (part :: rest)).nest terminals call scope place history).andThen
        (body.nest terminals call scope) := by
  induction rest generalizing part place history with
  | nil => rfl
  | cons next rest ih =>
      change (part.nest terminals call scope place history).andThen
          ((series (next :: rest ++ [body])).nest terminals call scope) =
        ((part.nest terminals call scope place history).andThen
          ((series (next :: rest)).nest terminals call scope)).andThen (body.nest terminals call scope)
      cases part.nest terminals call scope place history with
      | matched middle meanwhile => exact ih next middle meanwhile
      | refused meanwhile => rfl
      | outOfFuel => rfl

/-- What a form of a `for` statement does on the two texts. It may fail behind its head on the text that
ends, and not on the other. -/
inductive ForOutcome (first : Terminals) (last : Nat) (head : List Production) (place : Place)
    (one other : Parse) : Prop
  | refused (history : History) (fair : history.StaysBefore last) (isOne : one = .refused history)
      (isOther : other = .refused history)
  | matched (carried : one.Carried first last other) (after : Place) (later : History)
      (isOne : one = .matched after later)
  | failed (later : History) (isOne : one = .refused later)
      (headed : Production.Heads first head place)
  | outOfFuel (isOne : one = .outOfFuel)

section Forms

variable {fuel : Nat} {form : Nonterminal} {kind : Kind} {part : Production} {rest : List Production}
  {place : Place} {history : History}

theorem Nonterminal.heads_of_nestWith
    (shape : form.production = .node kind (Production.series (part :: rest ++ [.call .statement])))
    {after : Place} {later : History}
    (matched : form.nestWith production first fuel .outermost place history = .matched after later) :
    Production.Heads first (part :: rest) place := by
  cases fuel with
  | zero => cases matched
  | succ fuel =>
      rw [nestWith, shape, Production.nest, Production.nest_series_append] at matched
      obtain ⟨inner, _, matched, -⟩ := Parse.andThen_matched matched
      obtain ⟨middle, meanwhile, headed, -⟩ := Parse.andThen_matched matched
      exact ⟨fuel, middle, (Production.series (part :: rest)).derives_of_nest
        (fun _ _ _ _ history later found => ⟨history, later, found⟩) _ _ _ _ _ headed⟩

theorem Nonterminal.forOutcome (goesOn : first.GoesOn second last)
    (carry : ∀ less < fuel,
      CallsCarry first last (nestWith production first less) (nestWith production second less))
    (shape : form.production = .node kind (Production.series (part :: rest ++ [.call .statement])))
    (clear : (Production.series (part :: rest)).clear [] = some [])
    (stands : place.StandsIn first last []) (fair : history.StaysBefore last) :
    ForOutcome first last (part :: rest) place
      (form.nestWith production first fuel .outermost place history)
      (form.nestWith production second fuel .outermost place history) := by
  cases fuel with
  | zero => exact .outOfFuel rfl
  | succ fuel =>
      obtain ⟨same, known⟩ := Production.agree_clear goesOn.toAgreeTo
        (nestWith_agree goesOn.toAgreeTo fuel) .outermost clear stands.inside .nil fair
      rw [nestWith, nestWith, shape, Production.nest, Production.nest, Production.nest_series_append,
        Production.nest_series_append, ← same]
      cases headed : (Production.series (part :: rest)).nest first (nestWith production first fuel)
          .outermost place.inside history with
      | refused meanwhile =>
          rw [headed] at known
          exact .refused meanwhile known rfl rfl
      | outOfFuel => exact .outOfFuel rfl
      | matched middle meanwhile =>
          rw [headed] at known
          have carried := carry fuel (Nat.lt_succ_self fuel) .statement middle meanwhile rfl rfl .nil
            known.stands known.history
          simp only [Parse.andThen, Production.nest]
          cases parsed : nestWith production first fuel .statement .outermost middle meanwhile with
          | matched inner later =>
              obtain ⟨isOther, comes, fair⟩ := carried inner later parsed
              refine .matched ?_ _ later rfl
              rintro _ _ ⟨⟩
              rw [isOther]
              refine ⟨rfl, ⟨comes.before, comes.opened, ?_⟩, fair⟩
              rintro node ⟨⟩
              exact stands.before
          | refused later =>
              exact .failed later rfl ⟨fuel, middle, (Production.series (part :: rest)).derives_of_nest
                (fun _ _ _ _ history later found => ⟨history, later, found⟩) _ _ _ _ _ headed⟩
          | outOfFuel => exact .outOfFuel rfl

/-- If a head excludes what is tried behind its form, the choice between them is carried. -/
theorem ForOutcome.carried {head : List Production} {one two : Parse} {otherwise others : History → Parse}
    (outcome : ForOutcome first last head place one two)
    (excludes : Production.Heads first head place → ∀ meanwhile after later,
      otherwise meanwhile ≠ .matched after later)
    (further : ∀ meanwhile, meanwhile.StaysBefore last →
      Parse.Carried first last (otherwise meanwhile) (others meanwhile)) :
    Parse.Carried first last (one.orElse otherwise) (two.orElse others) := by
  intro after later found
  cases outcome with
  | refused meanwhile fair isOne isTwo =>
      rw [isOne] at found
      rw [isTwo]
      exact further meanwhile fair after later found
  | matched carried inner behind isOne =>
      rw [isOne] at found
      obtain ⟨isTwo, known⟩ := carried after later (isOne.trans found)
      rw [isTwo]
      exact ⟨rfl, known⟩
  | failed meanwhile isOne headed =>
      rw [isOne] at found
      exact absurd found (excludes headed meanwhile after later)
  | outOfFuel isOne =>
      rw [isOne] at found
      cases found

theorem Nonterminal.nestWith_forStatement (terminals : Terminals) :
    forStatement.nestWith production terminals (fuel + 1) .outermost place history =
      (forInStatement.nestWith production terminals fuel .outermost place history).orElse fun later =>
        (forOfStatement.nestWith production terminals fuel .outermost place later).orElse fun later =>
          (classicForStatement.nestWith production terminals fuel .outermost place later).orElse .refused :=
  rfl

/-- The first form that matches where the text ends is the first one where more follows: no form behind it
has a head there. -/
theorem Nonterminal.forStatement_carried (goesOn : first.GoesOn second last)
    (carry : ∀ less < fuel,
      CallsCarry first last (nestWith production first less) (nestWith production second less))
    (stands : place.StandsIn first last []) (fair : history.StaysBefore last) :
    Parse.Carried first last (forStatement.nestWith production first fuel .outermost place history)
      (forStatement.nestWith production second fuel .outermost place history) := by
  cases fuel with
  | zero => exact nofun
  | succ fuel =>
      have fewer : ∀ less < fuel,
          CallsCarry first last (nestWith production first less) (nestWith production second less) :=
        fun less lt => carry less (Nat.lt_succ_of_lt lt)
      rw [nestWith_forStatement, nestWith_forStatement]
      refine (forOutcome goesOn fewer production_forIn (by decide +kernel) stands fair).carried ?_ ?_
      · intro headed meanwhile after later found
        rcases Parse.orElse_matched found with found | ⟨_, found⟩
        · exact headed.not_forIn_and_forOf (heads_of_nestWith production_forOf found)
        · rcases Parse.orElse_matched found with found | ⟨_, found⟩
          · exact headed.not_forIn_and_classicFor (heads_of_nestWith production_classicFor found)
          · cases found
      intro meanwhile fair
      refine (forOutcome goesOn fewer production_forOf (by decide +kernel) stands fair).carried ?_ ?_
      · intro headed meanwhile after later found
        rcases Parse.orElse_matched found with found | ⟨_, found⟩
        · exact headed.not_forOf_and_classicFor (heads_of_nestWith production_classicFor found)
        · cases found
      intro meanwhile fair
      refine (forOutcome goesOn fewer production_classicFor (by decide +kernel) stands fair).carried ?_ ?_
      · intro _ meanwhile after later found
        cases found
      · intro meanwhile _ after later found
        cases found

end Forms

/-- Statements outside of brackets that match up to the semicolon match if more text follows. -/
theorem Nonterminal.nestWith_carries (goesOn : first.GoesOn second last) (fuel : Nat) :
    CallsCarry first last (nestWith production first fuel) (nestWith production second fuel) := by
  induction fuel using Nat.strongRecOn with
  | ind fuel ih =>
      intro nonterminal place history proper isCarried shows stands fair
      by_cases isFor : nonterminal = .forStatement
      · subst isFor
        exact forStatement_carried goesOn ih stands fair
      cases fuel with
      | zero => exact nofun
      | succ fuel =>
          have carries := carries_production nonterminal (mem_listed proper) isCarried isFor
          exact nonterminal.production.carried_nest goesOn (nestWith_heeds first fuel)
            (nestWith_agree goesOn.toAgreeTo fuel) (ih fuel (Nat.lt_succ_self fuel))
            (nestWith_declares goesOn.toAgreeTo fuel) _ place history carries stands shows fair

end Carrying

end ScriptTree
