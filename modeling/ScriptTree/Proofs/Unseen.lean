import ScriptTree.Proofs.Boundary

/-! # What stands behind a semicolon is not seen

Two runs of a production over texts that agree up to a semicolon are one run, if the production takes no
such semicolon outside of brackets or stands in a bracket itself: it does not come past the semicolon,
whether it matches or not. -/
set_option autoImplicit false
namespace ScriptTree

/-! ## Places in front of the semicolon -/

/-- A place in front of a semicolon, with the brackets that are open there. -/
structure Place.StandsIn (terminals : Terminals) (last : Nat) (stack : List Bracket) (place : Place) :
    Prop where
  before : place.position ≤ last
  opened : terminals.openAt place.position = some stack
  completed : ∀ node ∈ place.completed, node.2 ≤ last

structure History.StaysBefore (last : Nat) (history : History) : Prop where
  arrows : ∀ entry ∈ history.failedArrows, entry.1 ≤ last
  targets : ∀ target ∈ history.targets, target ≤ last

namespace Place.StandsIn

variable {terminals : Terminals} {last : Nat} {stack : List Bracket} {place inner : Place}

theorem inside (stands : place.StandsIn terminals last stack) :
    place.inside.StandsIn terminals last stack := ⟨stands.before, stands.opened, stands.completed⟩

theorem addNode {kind : Kind} (stands : inner.StandsIn terminals last stack)
    (before : place.position ≤ last) : (place.addNode kind inner).StandsIn terminals last stack := by
  refine ⟨stands.before, stands.opened, ?_⟩
  rintro node ⟨⟩
  exact before

theorem wrapNode {kind : Kind} {first : Nat} (stands : inner.StandsIn terminals last stack)
    (before : first ≤ last) : (place.wrapNode kind first inner).StandsIn terminals last stack := by
  refine ⟨stands.before, stands.opened, ?_⟩
  rintro node ⟨⟩
  exact before

theorem addList (stands : inner.StandsIn terminals last stack) :
    (place.addList inner).StandsIn terminals last stack :=
  ⟨stands.before, stands.opened, stands.completed⟩

end Place.StandsIn

/-! ## One run -/

/-- Two parses with one outcome, of which something is known. -/
def Parse.Agree (reached : Place → History → Prop) (left : History → Prop) (one other : Parse) : Prop :=
  one = other ∧
    match one with
    | .matched place history => reached place history
    | .refused history => left history
    | .outOfFuel => True

namespace Parse.Agree

variable {reached further : Place → History → Prop} {left : History → Prop} {one other : Parse}

theorem andThen {next later : Place → History → Parse} (agree : Agree reached left one other)
    (goesOn : ∀ place history, one = .matched place history → reached place history →
      Agree further left (next place history) (later place history)) :
    Agree further left (one.andThen next) (other.andThen later) := by
  obtain ⟨rfl, known⟩ := agree
  cases one with
  | matched place history => exact goesOn place history rfl known
  | refused history => exact ⟨rfl, known⟩
  | outOfFuel => exact ⟨rfl, trivial⟩

theorem orElse {otherwise second : History → Parse} (agree : Agree reached left one other)
    (implies : ∀ place history, reached place history → further place history)
    (goesOn : ∀ history, left history → Agree further left (otherwise history) (second history)) :
    Agree further left (one.orElse otherwise) (other.orElse second) := by
  obtain ⟨rfl, known⟩ := agree
  cases one with
  | matched place history => exact ⟨rfl, implies place history known⟩
  | refused history => exact goesOn history known
  | outOfFuel => exact ⟨rfl, trivial⟩

theorem imp (agree : Agree reached left one other)
    (implies : ∀ place history, reached place history → further place history) :
    Agree further left one other := by
  obtain ⟨rfl, known⟩ := agree
  cases one with
  | matched place history => exact ⟨rfl, implies place history known⟩
  | refused history => exact ⟨rfl, known⟩
  | outOfFuel => exact ⟨rfl, trivial⟩

end Parse.Agree

section Runs

variable {first second : Terminals} {last : Nat}

/-- Inside of a bracket no place is that of the semicolon. -/
theorem Place.StandsIn.ne_last (agree : first.AgreeTo second last) {stack : List Bracket} {place : Place}
    (stands : place.StandsIn first last stack) (some : stack ≠ []) : place.position ≠ last := by
  intro here
  have opened := stands.opened
  rw [here, agree.closed] at opened
  exact some (Option.some.inj opened).symm

/-- What a call reaches: the brackets in front of it are open again. -/
structure Nonterminal.Returns (terminals : Terminals) (last : Nat) (base : List Bracket) (after : Place)
    (later : History) : Prop where
  stands : after.StandsIn terminals last base
  history : later.StaysBefore last

/-- Calls over the two texts are one, if they take no semicolon outside of brackets. -/
def CallsAgree (first : Terminals) (last : Nat)
    (call other : Nonterminal → Scope → Place → History → Parse) : Prop :=
  ∀ (nonterminal : Nonterminal) (base : List Bracket) (scope : Scope) (place : Place)
    (history : History), nonterminal.isProper = true →
    (base = [] → nonterminal.mayTakeSemicolon = false) →
    first.Shows place.position nonterminal.known →
    place.StandsIn first last (nonterminal.opened ++ base) → history.StaysBefore last →
    Parse.Agree (Nonterminal.Returns first last base) (History.StaysBefore last)
      (call nonterminal scope place history) (other nonterminal scope place history)

structure Production.Goes (terminals : Terminals) (last : Nat) (base : List Bracket)
    (verdict : Verdict (List Bracket × Ahead)) (after : Place) (later : History) : Prop where
  reaches : ∃ reached, verdict = .reaches reached ∧ terminals.Shows after.position reached.2 ∧
    after.StandsIn terminals last (reached.1 ++ base)
  history : later.StaysBefore last

namespace Production.Goes

variable {terminals : Terminals} {bareness : Bareness} {base : List Bracket}
  {state : List Bracket × Ahead} {one other : Verdict (List Bracket × Ahead)} {place : Place}
  {later : History}

theorem stay (stands : place.StandsIn terminals last (state.1 ++ base))
    (shows : terminals.Shows place.position state.2) (history : later.StaysBefore last) :
    Goes terminals last base (.reaches state) place later :=
  ⟨⟨state, rfl, shows, stands⟩, history⟩

theorem mergeLeft (legal : one.merge Watch.join other ≠ .illegal)
    (goes : Goes terminals last base one place later) :
    Goes terminals last base (one.merge Watch.join other) place later := by
  obtain ⟨⟨reached, rfl, shows, stands⟩, history⟩ := goes
  refine ⟨?_, history⟩
  obtain ⟨merged, same, rfl | ⟨joining, joined⟩⟩ := Verdict.merge_reaches_left legal
  · exact ⟨_, same, shows, stands⟩
  · rw [Watch.join] at joined
    split at joined
    · cases joined
      exact ⟨_, same, shows.meet_left, stands⟩
    · cases joined

theorem mergeRight (legal : one.merge Watch.join other ≠ .illegal)
    (goes : Goes terminals last base other place later) :
    Goes terminals last base (one.merge Watch.join other) place later := by
  obtain ⟨⟨reached, rfl, shows, stands⟩, history⟩ := goes
  refine ⟨?_, history⟩
  obtain ⟨merged, same, rfl | ⟨joining, joined⟩⟩ := Verdict.merge_reaches_right legal
  · exact ⟨_, same, shows, stands⟩
  · rw [Watch.join] at joined
    split at joined
    · rename_i sameState
      cases joined
      exact ⟨_, same, shows.meet_right, sameState ▸ stands⟩
    · cases joined

theorem leave {stack : List Bracket} {kind : Kind} {after : Place}
    (goes : Goes terminals last (stack ++ base) one place later)
    (legal : (one.andThen fun ended => .ofOption ((bareWatch bareness).leave kind stack ended)) ≠
      .illegal)
    (position : after.position = place.position)
    (stands : place.StandsIn terminals last (stack ++ base) →
      after.StandsIn terminals last (stack ++ base)) :
    Goes terminals last base
      (one.andThen fun ended => .ofOption ((bareWatch bareness).leave kind stack ended)) after later := by
  obtain ⟨⟨ended, rfl, shows, inside⟩, history⟩ := goes
  rw [Verdict.andThen] at legal ⊢
  obtain ⟨reached, left⟩ := Verdict.ofOption_ne_illegal legal
  obtain ⟨-, closes, rfl⟩ := Watch.leave_eq_some left
  have closed : ended.1 = [] := of_decide_eq_true closes
  rw [left]
  exact ⟨⟨_, rfl, position ▸ shows, stands (by simpa [closed] using inside)⟩, history⟩

end Production.Goes

variable {bareness : Bareness}

theorem Production.goes_take (agree : first.AgreeTo second last) {base : List Bracket}
    {state : List Bracket × Ahead} {place : Place} {history : History}
    (encloses : bareness.allows .semicolon = true → base ≠ [])
    (legal : Verdict.ofOption ((bareWatch bareness).takeNext state) ≠ .illegal)
    (stands : place.StandsIn first last (state.1 ++ base))
    (shows : first.Shows place.position state.2) (fair : history.StaysBefore last) :
    place.take first = place.take second ∧
      Goes first last base (.ofOption ((bareWatch bareness).takeNext state)) (place.take first)
        history := by
  obtain ⟨reached, found⟩ := Verdict.ofOption_ne_illegal legal
  obtain ⟨kinds, member, takes, rest⟩ := Watch.takeNext_eq_some found
  have here : first.kindAt place.position ∈ kinds := shows _ member
  simp only [bareWatch] at takes
  split at takes
  · rename_i allowed
    simp only [Bool.or_eq_true, decide_eq_true_eq] at allowed
    have reads := Bracket.readKind_of_readAny takes here
    -- At the semicolon itself nothing is open, so it is not what is taken.
    have inFront : place.position ≠ last := by
      intro atLast
      have nothing := stands.opened
      rw [atLast, agree.closed] at nothing
      obtain ⟨noStack, noBase⟩ := List.append_eq_nil_iff.mp (Option.some.inj nothing).symm
      have all := allowed.resolve_left fun some => some noStack
      rw [atLast, agree.semicolon] at here
      exact encloses (List.all_eq_true.mp all _ here) noBase
    refine ⟨by rw [Place.take, Place.take, agree.kinds _ stands.before], ?_⟩
    rw [found]
    refine ⟨⟨reached, rfl, rest ▸ shows.next, Nat.lt_of_le_of_ne stands.before inFront, ?_,
      stands.completed⟩, fair⟩
    exact Terminals.openAt_succ stands.opened (Bracket.readKind_append base reads)
  · cases takes

variable {call other : Nonterminal → Scope → Place → History → Parse}

theorem Parse.Agree.close {reached further : Place → History → Prop} {left : History → Prop}
    {one second : Parse} {around : Place → Place} (agree : Parse.Agree reached left one second)
    (closes : ∀ inner later, reached inner later → further (around inner) later) :
    Parse.Agree further left (one.andThen fun inner later => .matched (around inner) later)
      (second.andThen fun inner later => .matched (around inner) later) :=
  agree.andThen fun inner later _ known => ⟨rfl, closes inner later known⟩

theorem Nonterminal.mayTakeSemicolon_eq_false {nonterminal : Nonterminal}
    (leaves : nonterminal.leavesBare bareness = true) (spares : bareness.allows .semicolon ≠ true) :
    nonterminal.mayTakeSemicolon = false := by
  cases bareness with
  | anything => exact absurd rfl spares
  | noSemicolon => simpa [leavesBare] using leaves
  | nothing =>
      have opens : nonterminal.opened ≠ [] := of_decide_eq_true leaves
      cases nonterminal <;> first | rfl | exact absurd rfl opens

/-- A call of a production that a watch foresees returns to the brackets behind those it closes. -/
theorem Production.agree_call (calls : CallsAgree first last call other) {nonterminal : Nonterminal}
    {state : List Bracket × Ahead} {base : List Bracket} {scope : Scope} {place : Place}
    {history : History} (encloses : bareness.allows .semicolon = true → base ≠ [])
    (legal : Verdict.ofOption ((bareWatch bareness).callNext nonterminal state) ≠ .illegal)
    (stands : place.StandsIn first last (state.1 ++ base))
    (shows : first.Shows place.position state.2) (fair : history.StaysBefore last) :
    Parse.Agree (Goes first last base (.ofOption ((bareWatch bareness).callNext nonterminal state)))
      (History.StaysBefore last) (call nonterminal scope place history)
      (other nonterminal scope place history) := by
  obtain ⟨reached, found⟩ := Verdict.ofOption_ne_illegal legal
  obtain ⟨proper, known, called, rest⟩ := Watch.callNext_eq_some found
  simp only [bareWatch] at called
  split at called
  · rename_i opens
    obtain ⟨behind, same⟩ := opens
    rw [← same, List.drop_left] at called
    split at called
    · rename_i allowed
      simp only [Bool.or_eq_true, decide_eq_true_eq] at allowed
      have behind_eq : behind = reached.1 := Option.some.inj called
      have spares : behind ++ base = [] → nonterminal.mayTakeSemicolon = false := by
        intro nothing
        obtain ⟨noBehind, noBase⟩ := List.append_eq_nil_iff.mp nothing
        exact Nonterminal.mayTakeSemicolon_eq_false (allowed.resolve_left fun some => some noBehind)
          fun allows => encloses allows noBase
      have agrees := calls nonterminal (behind ++ base) scope place history proper spares
        (shows.of_subset known) (by rwa [← List.append_assoc, same]) fair
      rw [found]
      exact agrees.imp fun after later returns =>
        ⟨⟨reached, rfl, rest ▸ .nil, behind_eq ▸ returns.stands⟩, returns.history⟩
    · cases called
  · cases called

/-! ### One production -/

namespace Production

/-- A production is entered in front of the semicolon as a watch foresees it. Where it takes semicolons
a bracket is open around it, and where it is known to be apart from the one it does not stand at it. -/
structure Entered (first : Terminals) (last : Nat) (bareness : Bareness) (apart : Bool)
    (state : List Bracket × Ahead) (base : List Bracket) (place : Place) (history : History) :
    Prop where
  encloses : bareness.allows .semicolon = true → base ≠ []
  away : apart = true → place.position ≠ last
  stands : place.StandsIn first last (state.1 ++ base)
  shows : first.Shows place.position state.2
  fair : history.StaysBefore last

namespace Entered

variable {apart : Bool} {state : List Bracket × Ahead} {base : List Bracket} {scope : Scope}
  {place : Place} {history : History}

theorem inside (entered : Entered first last bareness apart state base place history) :
    Entered first last bareness apart ([], state.2) (state.1 ++ base) place.inside history where
  encloses allows := by simp [entered.encloses allows]
  away := entered.away
  stands := entered.stands.inside
  shows := entered.shows
  fair := entered.fair

theorem weaken (entered : Entered first last bareness apart state base place history) {less : Bool}
    (implies : less = true → apart = true) :
    Entered first last bareness less state base place history :=
  { entered with away := fun known => entered.away (implies known) }

theorem retry (entered : Entered first last bareness apart state base place history) {later : History}
    (fair : later.StaysBefore last) : Entered first last bareness apart state base place later :=
  { entered with fair }

/-- A guard that holds tells what comes next, which may rule the semicolon out. -/
theorem admitted (agree : first.AgreeTo second last)
    (entered : Entered first last bareness apart state base place history) {guard : Guard}
    {targets : List Nat} (admits : guard.admits first scope place targets = true) :
    Entered first last bareness (apart || guard.rulesOut) (state.1, guard.facts ++ state.2) base place
      history where
  encloses := entered.encloses
  away := by
    intro known
    rcases Bool.or_eq_true_iff.mp known with isApart | rulesOut
    · exact entered.away isApart
    · intro here
      obtain ⟨⟨offset, kinds⟩, member, excludes⟩ := List.any_eq_true.mp rulesOut
      simp only [Bool.and_eq_true, decide_eq_true_eq] at excludes
      obtain ⟨rfl, notMem⟩ := excludes
      have isAmong := Guard.shows_facts admits _ member
      rw [Nat.add_zero, here, agree.semicolon] at isAmong
      exact notMem isAmong
  stands := entered.stands
  shows := (Guard.shows_facts admits).append entered.shows
  fair := entered.fair

end Entered

theorem Goes.entered (agree : first.AgreeTo second last) {base : List Bracket}
    {verdict : Verdict (List Bracket × Ahead)} {after : Place} {later : History}
    (goes : Goes first last base verdict after later)
    (encloses : bareness.allows .semicolon = true → base ≠ []) :
    ∃ reached, verdict = .reaches reached ∧
      Entered first last bareness (bareness.allows .semicolon) reached base after later := by
  obtain ⟨reached, same, shows, stands⟩ := goes.reaches
  have away : bareness.allows .semicolon = true → after.position ≠ last := fun allows =>
    stands.ne_last agree (by simp [encloses allows])
  exact ⟨reached, same, encloses, away, stands, shows, goes.history⟩

/-- The two runs of a production that a watch foresees are one. -/
def SeesNothingBehind (first second : Terminals) (last : Nat) (bareness : Bareness)
    (call other : Nonterminal → Scope → Place → History → Parse) (production : Production) : Prop :=
  ∀ (apart : Bool) (state : List Bracket × Ahead) (base : List Bracket) (scope : Scope) (place : Place)
    (history : History),
    production.watched (bareWatch bareness) state ≠ .illegal →
    production.looksInFront (bareness.allows .semicolon) apart = true →
    Entered first last bareness apart state base place history →
    Parse.Agree (Goes first last base (production.watched (bareWatch bareness) state))
      (History.StaysBefore last) (production.nest first call scope place history)
      (production.nest second other scope place history)

namespace SeesNothingBehind

variable {one two body : Production}

theorem markTarget : SeesNothingBehind first second last bareness call other .markTarget := by
  intro apart state base scope place history _ _ entered
  refine ⟨rfl, .stay entered.stands entered.shows ?_⟩
  cases completed : place.completed with
  | none => exact entered.fair
  | some node =>
      refine ⟨entered.fair.arrows, fun target member => ?_⟩
      rcases List.mem_cons.mp member with rfl | earlier
      · exact entered.stands.completed node completed
      · exact entered.fair.targets target earlier

theorem take (agree : first.AgreeTo second last) :
    SeesNothingBehind first second last bareness call other .take := by
  intro apart state base scope place history legal _ entered
  obtain ⟨same, goes⟩ :=
    goes_take agree entered.encloses legal entered.stands entered.shows entered.fair
  exact ⟨by rw [nest, nest, same], goes⟩

theorem seq (agree : first.AgreeTo second last)
    (oneUnseen : SeesNothingBehind first second last bareness call other one)
    (twoUnseen : SeesNothingBehind first second last bareness call other two) :
    SeesNothingBehind first second last bareness call other (.seq one two) := by
  intro apart state base scope place history legal looks entered
  obtain ⟨oneLegal, twoLegal⟩ := Verdict.andThen_ne_illegal legal
  obtain ⟨oneLooks, twoLooks⟩ := Bool.and_eq_true_iff.mp looks
  apply (oneUnseen apart state base scope place history oneLegal oneLooks entered).andThen
  intro middle meanwhile _ goes
  obtain ⟨between, reaches, further⟩ := goes.entered agree entered.encloses
  rw [watched, reaches, Verdict.andThen]
  exact twoUnseen _ between base scope middle meanwhile (twoLegal _ reaches) twoLooks further

theorem branch (agree : first.AgreeTo second last) (guard : Guard)
    (yesUnseen : SeesNothingBehind first second last bareness call other one)
    (noUnseen : SeesNothingBehind first second last bareness call other two) :
    SeesNothingBehind first second last bareness call other (.branch guard one two) := by
  intro apart state base scope place history legal looks entered
  obtain ⟨yesLegal, noLegal⟩ := Verdict.merge_ne_illegal legal
  obtain ⟨guardLooks, looks⟩ := Bool.and_eq_true_iff.mp looks
  obtain ⟨yesLooks, noLooks⟩ := Bool.and_eq_true_iff.mp looks
  simp only [nest, ← agree.admits_eq guardLooks entered.stands.before entered.away scope
    history.targets]
  split
  · rename_i admits
    exact (yesUnseen _ _ base scope place history yesLegal yesLooks (entered.admitted agree admits)).imp
      fun _ _ => .mergeLeft legal
  · exact (noUnseen _ state base scope place history noLegal noLooks entered).imp
      fun _ _ => .mergeRight legal

theorem node (kind : Kind)
    (bodyUnseen : SeesNothingBehind first second last bareness call other body) :
    SeesNothingBehind first second last bareness call other (.node kind body) := by
  intro apart state base scope place history legal looks entered
  obtain ⟨bodyLegal, -⟩ := Verdict.andThen_ne_illegal legal
  refine (bodyUnseen apart _ _ scope place.inside history bodyLegal looks entered.inside).close ?_
  exact fun inner later goes =>
    goes.leave legal rfl fun inside => inside.addNode entered.stands.before

theorem wrap (kind : Kind)
    (bodyUnseen : SeesNothingBehind first second last bareness call other body) :
    SeesNothingBehind first second last bareness call other (.wrap kind body) := by
  intro apart state base scope place history legal looks entered
  have mayWrap : (bareWatch bareness).isOpen ((bareWatch bareness).inside kind) = true := rfl
  rw [watched, if_pos mayWrap] at legal ⊢
  obtain ⟨bodyLegal, -⟩ := Verdict.andThen_ne_illegal legal
  simp only [nest]
  cases completed : place.completed with
  | none => exact ⟨rfl, entered.fair⟩
  | some node =>
      refine (bodyUnseen apart _ _ scope place.inside history bodyLegal looks entered.inside).close ?_
      exact fun inner later goes => goes.leave legal rfl fun inside =>
        inside.wrapNode (entered.stands.completed node completed)

theorem fork (agree : first.AgreeTo second last) (guard : Guard) (kindYes kindNo : Kind)
    (headUnseen : SeesNothingBehind first second last bareness call other body)
    (yesUnseen : SeesNothingBehind first second last bareness call other one)
    (noUnseen : SeesNothingBehind first second last bareness call other two) :
    SeesNothingBehind first second last bareness call other
      (.fork body guard kindYes one kindNo two) := by
  intro apart state base scope place history legal looks entered
  have same : (bareWatch bareness).inside kindYes = (bareWatch bareness).inside kindNo := rfl
  obtain ⟨headLooks, looks⟩ := Bool.and_eq_true_iff.mp looks
  obtain ⟨guardLooks, looks⟩ := Bool.and_eq_true_iff.mp looks
  obtain ⟨yesLooks, noLooks⟩ := Bool.and_eq_true_iff.mp looks
  rw [watched, if_pos same] at legal ⊢
  obtain ⟨headLegal, tailLegal⟩ := Verdict.andThen_ne_illegal legal
  apply (headUnseen apart _ _ scope place.inside history headLegal headLooks entered.inside).andThen
  intro middle meanwhile _ goes
  obtain ⟨between, reaches, further⟩ := goes.entered agree entered.inside.encloses
  change body.watched _ ((bareWatch bareness).inside kindYes, state.2) = _ at reaches
  have tail := tailLegal _ reaches
  rw [reaches, Verdict.andThen]
  obtain ⟨yesLegal, noLegal⟩ := Verdict.merge_ne_illegal tail
  rw [← agree.admits_eq guardLooks further.stands.before further.away scope meanwhile.targets]
  split
  · rename_i admits
    have told := (further.admitted agree admits).weaken (Bool.or_eq_true_iff.mpr <| .inl ·)
    refine (yesUnseen _ _ _ scope middle meanwhile (Verdict.andThen_ne_illegal yesLegal).1 yesLooks
      told).close ?_
    exact fun inner later innerGoes => .mergeLeft tail
      (innerGoes.leave yesLegal rfl fun inside => inside.addNode entered.stands.before)
  · refine (noUnseen _ between _ scope middle meanwhile (Verdict.andThen_ne_illegal noLegal).1 noLooks
      further).close ?_
    exact fun inner later innerGoes => .mergeRight tail
      (innerGoes.leave noLegal rfl fun inside => inside.addNode entered.stands.before)

theorem orElse (oneUnseen : SeesNothingBehind first second last bareness call other one)
    (twoUnseen : SeesNothingBehind first second last bareness call other two) :
    SeesNothingBehind first second last bareness call other (.orElse one two) := by
  intro apart state base scope place history legal looks entered
  obtain ⟨oneLegal, twoLegal⟩ := Verdict.merge_ne_illegal legal
  obtain ⟨oneLooks, twoLooks⟩ := Bool.and_eq_true_iff.mp looks
  refine (oneUnseen apart state base scope place history oneLegal oneLooks entered).orElse
    (fun _ _ => .mergeLeft legal) fun later laterFair => ?_
  exact (twoUnseen apart state base scope place later twoLegal twoLooks (entered.retry laterFair)).imp
    fun _ _ => .mergeRight legal

theorem onceOrElse (oneUnseen : SeesNothingBehind first second last bareness call other one)
    (twoUnseen : SeesNothingBehind first second last bareness call other two) :
    SeesNothingBehind first second last bareness call other (.onceOrElse one two) := by
  intro apart state base scope place history legal looks entered
  obtain ⟨oneLegal, twoLegal⟩ := Verdict.merge_ne_illegal legal
  obtain ⟨oneLooks, twoLooks⟩ := Bool.and_eq_true_iff.mp looks
  have goesOn (later : History) (laterFair : later.StaysBefore last) :=
    (twoUnseen apart state base scope place later twoLegal twoLooks (entered.retry laterFair)).imp
      fun _ _ => Goes.mergeRight legal
  simp only [nest]
  split
  · exact goesOn history entered.fair
  · refine (oneUnseen apart state base scope place history oneLegal oneLooks entered).orElse
      (fun _ _ => .mergeLeft legal) fun later laterFair => ?_
    refine goesOn _ ⟨fun entry member => ?_, laterFair.targets⟩
    rcases List.mem_cons.mp member with rfl | earlier
    · exact entered.stands.before
    · exact laterFair.arrows entry earlier

theorem list (bodyUnseen : SeesNothingBehind first second last bareness call other body) :
    SeesNothingBehind first second last bareness call other (.list body) := by
  intro apart state base scope place history legal looks entered
  obtain ⟨bodyLegal, leaves⟩ := Verdict.andThen_ne_illegal legal
  have around : Entered first last bareness apart state base place.inside history :=
    { entered with stands := entered.stands.inside }
  refine (bodyUnseen apart state base scope place.inside history bodyLegal looks around).close
    fun inner later goes => ?_
  obtain ⟨ended, reaches, innerShows, innerStands⟩ := goes.reaches
  refine ⟨⟨ended, ?_, innerShows, innerStands.addList⟩, goes.history⟩
  rw [watched, reaches]
  rfl

end SeesNothingBehind

theorem agree_nest (agree : first.AgreeTo second last) (calls : CallsAgree first last call other)
    (production : Production) :
    production.SeesNothingBehind first second last bareness call other := by
  induction production with
  | empty =>
      intro apart state base scope place history _ _ entered
      exact ⟨rfl, .stay entered.stands entered.shows entered.fair⟩
  | refuse =>
      intro apart state base scope place history _ _ entered
      exact ⟨rfl, entered.fair⟩
  | take => exact .take agree
  | expected kind | expectedConstruct name =>
      intro apart state base scope place history _ _ entered
      exact ⟨rfl, .stay entered.stands entered.shows ⟨entered.fair.arrows, entered.fair.targets⟩⟩
  | call nonterminal =>
      intro apart state base scope place history legal _ entered
      exact agree_call calls entered.encloses legal entered.stands entered.shows entered.fair
  | seq one two oneUnseen twoUnseen => exact oneUnseen.seq agree twoUnseen
  | branch guard yes no yesUnseen noUnseen => exact yesUnseen.branch agree guard noUnseen
  | node kind body unseen => exact unseen.node kind
  | fork head guard kindYes yes kindNo no headUnseen yesUnseen noUnseen =>
      exact headUnseen.fork agree guard kindYes kindNo yesUnseen noUnseen
  | wrap kind body unseen => exact unseen.wrap kind
  | orElse one two oneUnseen twoUnseen => exact oneUnseen.orElse twoUnseen
  | onceOrElse one two oneUnseen twoUnseen => exact oneUnseen.onceOrElse twoUnseen
  | inScope change body unseen =>
      intro apart state base scope place history legal looks entered
      exact unseen apart state base (change.apply scope) place history legal looks entered
  | list body unseen => exact unseen.list
  | hole =>
      intro apart state base scope place history _ _ entered
      refine ⟨rfl, ⟨state, by simp [watched, bareWatch], entered.shows, ?_⟩, entered.fair⟩
      exact ⟨entered.stands.before, entered.stands.opened, entered.stands.completed⟩
  | markTarget => exact .markTarget

end Production

/-- Every nonterminal does the same over the two texts, inside of brackets or if it takes no semicolon. -/
theorem Nonterminal.nestWith_agree (agree : first.AgreeTo second last) (fuel : Nat) :
    CallsAgree first last (nestWith production first fuel) (nestWith production second fuel) := by
  induction fuel with
  | zero =>
      intro nonterminal base scope place history _ _ _ _ _
      exact ⟨rfl, trivial⟩
  | succ fuel ih =>
      intro nonterminal base scope place history proper spares shows stands fair
      have listed := mem_listed proper
      have encloses : nonterminal.bareness.allows .semicolon = true → base ≠ [] := by
        rw [nonterminal.allows_bareness]
        intro takes none
        rw [spares none] at takes
        cases takes
      obtain ⟨ahead, passed⟩ := Watch.watched_of_passes
        (bareWatch_passes nonterminal listed _ nonterminal.bareness.mem_all nonterminal.leavesBare_bareness)
      have away : nonterminal.mayTakeSemicolon = true → place.position ≠ last := fun takes =>
        stands.ne_last agree (by simp [encloses (nonterminal.allows_bareness.trans takes)])
      have gone : nonterminal.production.watched (bareWatch nonterminal.bareness)
          (nonterminal.opened, nonterminal.known) = .reaches ([], ahead) := passed
      refine (nonterminal.production.agree_nest agree ih nonterminal.mayTakeSemicolon
        (nonterminal.opened, nonterminal.known) base scope place history (by simp [gone])
        (nonterminal.allows_bareness ▸ Nonterminal.looksInFront nonterminal listed)
        ⟨encloses, away, stands, shows, fair⟩).imp ?_
      intro after later goes
      obtain ⟨reached, reaches, _, afterStands⟩ := goes.reaches
      rw [gone] at reaches
      cases reaches
      exact ⟨afterStands, goes.history⟩

end Runs
end ScriptTree
