import ScriptTree.Proofs.Brackets

/-! # What stands bare

A token stands bare in what a nonterminal takes if none of the brackets opened there is open in front of it.
Some nonterminals leave no semicolon bare, and those that close a bracket leave nothing bare. That is told
by a watch and holds of every match, read from the brackets that are open where it starts. -/
set_option autoImplicit false
set_option maxRecDepth 4000
namespace ScriptTree

/-! ## Words of a text -/

namespace Terminals

def word (terminals : Terminals) (start stop : Nat) : List Kind :=
  (List.range' start (stop - start)).map terminals.kindAt

variable {terminals : Terminals} {start middle stop : Nat}

@[simp] theorem word_self : terminals.word start start = [] := by simp [word]

theorem word_succ : terminals.word start (start + 1) = [terminals.kindAt start] := by simp [word]

theorem word_append (earlier : start ≤ middle) (later : middle ≤ stop) :
    terminals.word start middle ++ terminals.word middle stop = terminals.word start stop := by
  have behind : middle = start + (middle - start) := by omega
  have count : stop - start = (middle - start) + (stop - middle) := by omega
  simp only [word]
  rw [← List.map_append, count, ← List.range'_append_1, ← behind]

/-- What is read as a whole is read up to any position in it. -/
theorem read_of_le {stack next : List Bracket} (before : start ≤ middle) (inside : middle ≤ stop)
    (reads : Bracket.read stack (terminals.word start stop) = some next) :
    ∃ inner, Bracket.read stack (terminals.word start middle) = some inner := by
  rw [← word_append before inside, Bracket.read_append] at reads
  obtain ⟨inner, first, -⟩ := Option.bind_eq_some_iff.mp reads
  exact ⟨inner, first⟩

end Terminals

/-! ## What may stand bare -/

inductive Bareness where
  | anything
  | noSemicolon
  | nothing
  deriving DecidableEq, Repr

namespace Bareness

def all : List Bareness := [anything, noSemicolon, nothing]

theorem mem_all (bareness : Bareness) : bareness ∈ all := by cases bareness <;> decide

def allows : Bareness → Kind → Bool
  | anything, _ => true
  | noSemicolon, kind => kind != .semicolon
  | nothing, _ => false

end Bareness

namespace Nonterminal

/-- Whether a nonterminal may take a semicolon in no bracket of its own. -/
def mayTakeSemicolon : Nonterminal → Bool
  | script | scriptItems | statement | labelledOrExpressionStatement | expressionStatement
  | variableStatement | ifStatement | doWhileStatement | whileStatement | forStatement | forInStatement
  | forOfStatement | classicForStatement | jumpStatement _ | returnStatement | withStatement | caseClause
  | defaultClause | clauseStatements | labelledStatement | throwStatement | member .classBody => true
  | _ => false

def leavesBare (nonterminal : Nonterminal) : Bareness → Bool
  | .anything => true
  | .noSemicolon => !nonterminal.mayTakeSemicolon
  | .nothing => nonterminal.opened ≠ []

/-- What a nonterminal leaves bare anywhere. -/
def bareness (nonterminal : Nonterminal) : Bareness :=
  if nonterminal.mayTakeSemicolon then .anything else .noSemicolon

theorem leavesBare_bareness (nonterminal : Nonterminal) :
    nonterminal.leavesBare nonterminal.bareness = true := by
  rw [bareness]
  split
  · rfl
  · rename_i spares
    simpa [leavesBare] using spares

theorem allows_bareness (nonterminal : Nonterminal) :
    nonterminal.bareness.allows .semicolon = nonterminal.mayTakeSemicolon := by
  rw [bareness]
  split
  · rename_i takes
    exact takes.symm
  · rename_i spares
    exact (Bool.eq_false_iff.mpr spares).symm

end Nonterminal

/-- Goes through a production with the brackets that are open in it. -/
def bareWatch (bareness : Bareness) : Watch (List Bracket) where
  take stack kinds :=
    if stack ≠ [] || kinds.all bareness.allows then Bracket.readAny stack kinds else none
  isOpen _ := true
  inside _ := []
  closes _ stack := stack = []
  entry := Nonterminal.opened
  exit := []
  call nonterminal stack :=
    if nonterminal.opened <+: stack then
      let rest := stack.drop nonterminal.opened.length
      if rest ≠ [] || nonterminal.leavesBare bareness then some rest else none
    else none

theorem bareWatch_passes : ∀ nonterminal ∈ Nonterminal.listed,
    ∀ bareness ∈ Bareness.all, nonterminal.leavesBare bareness = true →
      (bareWatch bareness).passes nonterminal = true := by
  decide +kernel

/-! ## Spans -/

/-- Between two positions brackets are read from one stack to another, and only what may be is bare. -/
structure Terminals.Spans (terminals : Terminals) (bareness : Bareness) (stack : List Bracket)
    (start : Nat) (next : List Bracket) (stop : Nat) : Prop where
  le : start ≤ stop
  reads : Bracket.read stack (terminals.word start stop) = some next
  bare : ∀ position, start ≤ position → position < stop →
    Bracket.read stack (terminals.word start position) = some [] →
      bareness.allows (terminals.kindAt position) = true

namespace Terminals.Spans

variable {terminals : Terminals} {bareness other : Bareness} {stack between next base : List Bracket}
  {start middle stop : Nat}

theorem refl : terminals.Spans bareness stack start stack start :=
  ⟨Nat.le_refl _, by simp, fun _ behind before => absurd before (Nat.not_lt.mpr behind)⟩

theorem trans (earlier : terminals.Spans bareness stack start between middle)
    (later : terminals.Spans bareness between middle next stop) :
    terminals.Spans bareness stack start next stop := by
  refine ⟨Nat.le_trans earlier.le later.le, ?_, ?_⟩
  · rw [← word_append earlier.le later.le]
    exact Bracket.read_append_of earlier.reads later.reads
  · intro position behind before reads
    by_cases inFront : position < middle
    · exact earlier.bare position behind inFront reads
    · have there := Nat.not_lt.mp inFront
      rw [← word_append earlier.le there, Bracket.read_append, earlier.reads] at reads
      exact later.bare position there before reads

theorem take (reads : Bracket.readKind stack (terminals.kindAt start) = some next)
    (may : stack = [] → bareness.allows (terminals.kindAt start) = true) :
    terminals.Spans bareness stack start next (start + 1) := by
  refine ⟨Nat.le_succ _, by rw [word_succ, Bracket.read_singleton, reads], ?_⟩
  intro position behind before found
  cases Nat.le_antisymm (Nat.le_of_lt_succ before) behind
  rw [word_self, Bracket.read_nil] at found
  exact may (Option.some.inj found)

/-- In more brackets less is bare. -/
theorem under (spans : terminals.Spans other stack start next stop) (base : List Bracket)
    (weaker : base = [] → ∀ kind, other.allows kind = true → bareness.allows kind = true) :
    terminals.Spans bareness (stack ++ base) start (next ++ base) stop := by
  refine ⟨spans.le, Bracket.read_stack_append base spans.reads, ?_⟩
  intro position behind before reads
  obtain ⟨inner, found⟩ := read_of_le behind (Nat.le_of_lt before) spans.reads
  rw [Bracket.read_stack_append base found] at reads
  obtain ⟨rfl, noBase⟩ := List.append_eq_nil_iff.mp (Option.some.inj reads)
  exact weaker noBase _ (spans.bare position behind before found)

/-- What leaves nothing bare ends where a bracket is closed, and no later. -/
theorem stop_eq (spans : terminals.Spans .nothing stack start [] middle)
    (others : terminals.Spans .nothing stack start [] stop) : middle = stop := by
  have bounds {first second : Nat} (shorter : terminals.Spans .nothing stack start [] first)
      (longer : terminals.Spans .nothing stack start [] second) : second ≤ first := by
    refine Nat.le_of_not_lt fun further => ?_
    cases longer.bare first shorter.le further shorter.reads
  exact Nat.le_antisymm (bounds others spans) (bounds spans others)

end Terminals.Spans

def Nonterminal.Spans (terminals : Terminals) (nonterminal : Nonterminal) (_ : Scope)
    (before after : Place) : Prop :=
  ∀ bareness, nonterminal.leavesBare bareness = true → nonterminal.isProper = true →
    terminals.Shows before.position nonterminal.known →
      terminals.Spans bareness nonterminal.opened before.position [] after.position

def Production.Spanned (terminals : Terminals) (bareness : Bareness) (state : List Bracket × Ahead)
    (verdict : Verdict (List Bracket × Ahead)) (start stop : Nat) : Prop :=
  ∃ reached, verdict = .reaches reached ∧ terminals.Shows stop reached.2 ∧
    terminals.Spans bareness state.1 start reached.1 stop

section Spanned

variable {terminals : Terminals} {bareness : Bareness} {state : List Bracket × Ahead}
  {first second : Verdict (List Bracket × Ahead)} {start stop : Nat}

namespace Production.Spanned

theorem mergeLeft (legal : first.merge Watch.join second ≠ .illegal)
    (spanned : Spanned terminals bareness state first start stop) :
    Spanned terminals bareness state (first.merge Watch.join second) start stop := by
  obtain ⟨reached, rfl, shows, spans⟩ := spanned
  obtain ⟨merged, same, rfl | ⟨other, joined⟩⟩ := Verdict.merge_reaches_left legal
  · exact ⟨_, same, shows, spans⟩
  · rw [Watch.join] at joined
    split at joined
    · cases joined
      exact ⟨_, same, shows.meet_left, spans⟩
    · cases joined

theorem mergeRight (legal : first.merge Watch.join second ≠ .illegal)
    (spanned : Spanned terminals bareness state second start stop) :
    Spanned terminals bareness state (first.merge Watch.join second) start stop := by
  obtain ⟨reached, rfl, shows, spans⟩ := spanned
  obtain ⟨merged, same, rfl | ⟨other, joined⟩⟩ := Verdict.merge_reaches_right legal
  · exact ⟨_, same, shows, spans⟩
  · rw [Watch.join] at joined
    split at joined
    · rename_i sameState
      cases joined
      exact ⟨_, same, shows.meet_right, sameState ▸ spans⟩
    · cases joined

theorem leave {kind : Kind} {verdict : Verdict (List Bracket × Ahead)} {ahead : Ahead}
    (spanned : Spanned terminals bareness ([], ahead) verdict start stop)
    (legal : (verdict.andThen fun ended => .ofOption ((bareWatch bareness).leave kind state.1 ended)) ≠
      .illegal) :
    Spanned terminals bareness state
      (verdict.andThen fun ended => .ofOption ((bareWatch bareness).leave kind state.1 ended)) start
      stop := by
  obtain ⟨ended, rfl, shows, spans⟩ := spanned
  rw [Verdict.andThen] at legal ⊢
  obtain ⟨reached, left⟩ := Verdict.ofOption_ne_illegal legal
  obtain ⟨-, closes, rfl⟩ := Watch.leave_eq_some left
  have closed : ended.1 = [] := of_decide_eq_true closes
  rw [closed] at spans
  rw [left]
  exact ⟨_, rfl, shows, spans.under state.1 fun _ _ => id⟩

theorem take (legal : Verdict.ofOption ((bareWatch bareness).takeNext state) ≠ .illegal)
    (shows : terminals.Shows start state.2) :
    Spanned terminals bareness state (.ofOption ((bareWatch bareness).takeNext state)) start
      (start + 1) := by
  obtain ⟨reached, found⟩ := Verdict.ofOption_ne_illegal legal
  obtain ⟨kinds, member, takes, rest⟩ := Watch.takeNext_eq_some found
  have here : terminals.kindAt start ∈ kinds := shows _ member
  rw [found]
  refine ⟨reached, rfl, rest ▸ shows.next, ?_⟩
  simp only [bareWatch] at takes
  split at takes
  · rename_i may
    simp only [Bool.or_eq_true, decide_eq_true_eq] at may
    exact .take (Bracket.readKind_of_readAny takes here) fun none =>
      List.all_eq_true.mp (may.resolve_left fun some => some none) _ here
  · cases takes

theorem call {nonterminal : Nonterminal} {scope : Scope} {before after : Place}
    (legal : Verdict.ofOption ((bareWatch bareness).callNext nonterminal state) ≠ .illegal)
    (shows : terminals.Shows before.position state.2)
    (called : nonterminal.Spans terminals scope before after) :
    Spanned terminals bareness state (.ofOption ((bareWatch bareness).callNext nonterminal state))
      before.position after.position := by
  obtain ⟨reached, found⟩ := Verdict.ofOption_ne_illegal legal
  obtain ⟨proper, known, calls, rest⟩ := Watch.callNext_eq_some found
  rw [found]
  refine ⟨reached, rfl, rest ▸ .nil, ?_⟩
  simp only [bareWatch] at calls
  split at calls
  · rename_i opens
    obtain ⟨behind, same⟩ := opens
    rw [← same, List.drop_left] at calls
    split at calls
    · rename_i may
      simp only [Bool.or_eq_true, decide_eq_true_eq] at may
      have left : behind = reached.1 := Option.some.inj calls
      rw [← same, ← left]
      by_cases none : behind = []
      · have spans := called bareness (may.resolve_left fun some => some none) proper
          (shows.of_subset known)
        exact spans.under behind fun _ _ => id
      · exact (called .anything rfl proper (shows.of_subset known)).under behind fun isNone =>
          absurd isNone none
    · cases calls
  · cases calls

end Production.Spanned

theorem Production.spans_of_derives (production : Production) :
    ∀ (state : List Bracket × Ahead) (scope : Scope) (before after : Place),
      production.watched (bareWatch bareness) state ≠ .illegal →
      terminals.Shows before.position state.2 →
      production.Derives terminals (Nonterminal.Spans terminals) scope before after →
      Spanned terminals bareness state (production.watched (bareWatch bareness) state) before.position
        after.position := by
  induction production with
  | empty | expected kind | expectedConstruct name | markTarget =>
      intro state scope before after _ shows derives
      cases derives
      exact ⟨state, rfl, shows, .refl⟩
  | refuse =>
      intro state scope before after _ _ derives
      exact derives.elim
  | take =>
      intro state scope before after legal shows derives
      cases derives
      exact .take legal shows
  | call nonterminal =>
      intro state scope before after legal shows derives
      exact .call legal shows derives
  | seq first second firstIh secondIh =>
      intro state scope before after legal shows derives
      obtain ⟨firstLegal, secondLegal⟩ := Verdict.andThen_ne_illegal legal
      obtain ⟨middle, firstDerives, secondDerives⟩ := derives
      obtain ⟨between, firstReaches, firstShows, firstSpans⟩ :=
        firstIh state scope before middle firstLegal shows firstDerives
      obtain ⟨reached, secondReaches, secondShows, secondSpans⟩ :=
        secondIh between scope middle after (secondLegal _ firstReaches) firstShows secondDerives
      exact ⟨reached, by rw [watched, firstReaches, Verdict.andThen, secondReaches], secondShows,
        firstSpans.trans secondSpans⟩
  | branch guard yes no yesIh noIh =>
      intro state scope before after legal shows derives
      obtain ⟨yesLegal, noLegal⟩ := Verdict.merge_ne_illegal legal
      obtain ⟨targets, ⟨admitted, yesDerives⟩ | ⟨_, noDerives⟩⟩ := derives
      · exact .mergeLeft legal (yesIh (state.1, guard.facts ++ state.2) scope before after yesLegal
          ((Guard.shows_facts admitted).append shows) yesDerives)
      · exact .mergeRight legal (noIh state scope before after noLegal shows noDerives)
  | node kind body ih =>
      intro state scope before after legal shows derives
      obtain ⟨bodyLegal, -⟩ := Verdict.andThen_ne_illegal legal
      obtain ⟨inner, bodyDerives, rfl⟩ := derives
      exact (ih ([], state.2) scope before.inside inner bodyLegal shows bodyDerives).leave legal
  | wrap kind body ih =>
      intro state scope before after legal shows derives
      have mayWrap : (bareWatch bareness).isOpen ((bareWatch bareness).inside kind) = true := rfl
      rw [watched, if_pos mayWrap] at legal ⊢
      obtain ⟨bodyLegal, -⟩ := Verdict.andThen_ne_illegal legal
      obtain ⟨wrapped, first, inner, _, bodyDerives, rfl⟩ := derives
      exact (ih ([], state.2) scope before.inside inner bodyLegal shows bodyDerives).leave legal
  | fork head guard kindYes yes kindNo no headIh yesIh noIh =>
      intro state scope before after legal shows derives
      have same : (bareWatch bareness).inside kindYes = (bareWatch bareness).inside kindNo := rfl
      rw [watched, if_pos same] at legal ⊢
      obtain ⟨headLegal, tailLegal⟩ := Verdict.andThen_ne_illegal legal
      obtain ⟨middle, inner, targets, headDerives, tail⟩ := derives
      obtain ⟨between, reaches, middleShows, headSpans⟩ :=
        headIh ([], state.2) scope before.inside middle headLegal shows headDerives
      change head.watched _ ((bareWatch bareness).inside kindYes, state.2) = _ at reaches
      have legal' := tailLegal _ reaches
      rw [reaches, Verdict.andThen]
      obtain ⟨yesLegal, noLegal⟩ := Verdict.merge_ne_illegal legal'
      rcases tail with ⟨admitted, yesDerives, rfl⟩ | ⟨_, noDerives, rfl⟩
      · obtain ⟨ended, ends, shows', spans⟩ :=
          yesIh (between.1, guard.facts ++ between.2) scope middle inner
            (Verdict.andThen_ne_illegal yesLegal).1 ((Guard.shows_facts admitted).append middleShows)
            yesDerives
        have whole : Spanned terminals bareness ([], state.2)
            (yes.watched (bareWatch bareness) (between.1, guard.facts ++ between.2)) before.position
              inner.position := ⟨ended, ends, shows', headSpans.trans spans⟩
        exact .mergeLeft legal' (whole.leave yesLegal)
      · obtain ⟨ended, ends, shows', spans⟩ :=
          noIh between scope middle inner (Verdict.andThen_ne_illegal noLegal).1 middleShows noDerives
        have whole : Spanned terminals bareness ([], state.2)
            (no.watched (bareWatch bareness) between) before.position inner.position :=
          ⟨ended, ends, shows', headSpans.trans spans⟩
        exact .mergeRight legal' (whole.leave noLegal)
  | orElse first second firstIh secondIh | onceOrElse first second firstIh secondIh =>
      intro state scope before after legal shows derives
      obtain ⟨firstLegal, secondLegal⟩ := Verdict.merge_ne_illegal legal
      rcases derives with firstDerives | secondDerives
      · exact .mergeLeft legal (firstIh state scope before after firstLegal shows firstDerives)
      · exact .mergeRight legal (secondIh state scope before after secondLegal shows secondDerives)
  | inScope change body ih =>
      intro state scope before after legal shows derives
      exact ih state (change.apply scope) before after legal shows derives
  | list body ih =>
      intro state scope before after legal shows derives
      obtain ⟨bodyLegal, _⟩ := Verdict.andThen_ne_illegal legal
      obtain ⟨inner, bodyDerives, rfl⟩ := derives
      obtain ⟨ended, reaches, innerShows, spans⟩ :=
        ih state scope before.inside inner bodyLegal shows bodyDerives
      exact ⟨ended, by rw [watched, reaches]; rfl, innerShows, spans⟩
  | hole =>
      intro state scope before after legal shows derives
      cases derives
      exact ⟨state, by simp [watched, bareWatch], shows, .refl⟩

end Spanned

theorem Nonterminal.nestWith_spans (terminals : Terminals) (fuel : Nat) :
    CallsSatisfy (nestWith production terminals fuel) (Nonterminal.Spans terminals) := by
  apply nestWith_satisfies
  intro nonterminal scope before after derives bareness leaves proper shows
  obtain ⟨ahead, passed⟩ := Watch.watched_of_passes
    (bareWatch_passes nonterminal (mem_listed proper) bareness bareness.mem_all leaves)
  have gone : nonterminal.production.watched (bareWatch bareness)
      (nonterminal.opened, nonterminal.known) = .reaches ([], ahead) := passed
  have legal : nonterminal.production.watched (bareWatch bareness)
      (nonterminal.opened, nonterminal.known) ≠ .illegal := by simp [gone]
  obtain ⟨reached, reaches, _, spans⟩ := nonterminal.production.spans_of_derives
    (nonterminal.opened, nonterminal.known) scope before after legal shows derives
  rw [gone] at reaches
  cases reaches
  exact spans

end ScriptTree
