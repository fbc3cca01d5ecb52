import ScriptTree.Proofs.Derivation
import ScriptTree.Proofs.Discipline
import ScriptTree.Proofs.Matching

/-! # Productions under watch

Many productions take a token without a look at it, since a guard on the way to them has told its kind. A
watch goes through a production by its form, with a state of its own and with what the guards so far have
told of the next tokens, and every token has to be one that it can take. What the watch finds of the
productions of a grammar holds of every match. -/
set_option autoImplicit false
namespace ScriptTree

/-! ## What is known of the next tokens -/

/-- The token at an offset is of one of the kinds, for each entry. -/
abbrev Ahead := List (Nat × List Kind)

namespace Ahead

def next (ahead : Ahead) : Ahead :=
  ahead.filterMap fun fact =>
    match fact.1 with
    | 0 => none
    | offset + 1 => some (offset, fact.2)

def meet (first second : Ahead) : Ahead := first.filter second.contains

end Ahead

/-- The words and names that can be identifiers in some scope. -/
def identifierKinds : List Kind := .ident :: Kind.all.filter Kind.isContextualKeyword

theorem mem_identifierKinds_iff {kind : Kind} :
    kind ∈ identifierKinds ↔ kind = .ident ∨ kind.isContextualKeyword = true := by
  simp [identifierKinds, kind.mem_all]

/-- What a guard that holds tells of the next tokens. -/
def Guard.facts : Guard → Ahead
  | .next offset kinds => [(offset, kinds)]
  | .identifier offset => [(offset, identifierKinds)]
  | .and first second => first.facts ++ second.facts
  | _ => []

/-- The next tokens at a position are as they are known to be. -/
def Terminals.Shows (terminals : Terminals) (position : Nat) (ahead : Ahead) : Prop :=
  ∀ fact ∈ ahead, terminals.kindAt (position + fact.1) ∈ fact.2

theorem ParseState.mem_identifierKinds {terminals : Terminals} {scope : Scope} {position : Nat}
    (identifier : isIdentifierAt terminals scope position = true) :
    terminals.kindAt position ∈ identifierKinds := by
  rw [mem_identifierKinds_iff]
  unfold isIdentifierAt at identifier
  split at identifier
  · rename_i found
    exact .inl found
  · rename_i found
    exact .inr (by rw [found]; rfl)
  · rename_i found
    exact .inr (by rw [found]; rfl)
  · exact .inr identifier

namespace Terminals.Shows

variable {terminals : Terminals} {position : Nat} {first second : Ahead}

theorem nil : terminals.Shows position [] := by simp [Shows]

theorem append (earlier : terminals.Shows position first) (later : terminals.Shows position second) :
    terminals.Shows position (first ++ second) := by
  intro fact member
  rcases List.mem_append.mp member with inFirst | inSecond
  · exact earlier fact inFirst
  · exact later fact inSecond

theorem next (shows : terminals.Shows position first) : terminals.Shows (position + 1) first.next := by
  intro fact member
  obtain ⟨⟨offset, kinds⟩, known, shifted⟩ := List.mem_filterMap.mp member
  cases offset with
  | zero => cases shifted
  | succ offset =>
      cases shifted
      have there : terminals.kindAt (position + (offset + 1)) ∈ kinds := shows _ known
      rwa [Nat.add_comm offset, ← Nat.add_assoc] at there

theorem of_subset (shows : terminals.Shows position first) (fewer : ∀ fact ∈ second, fact ∈ first) :
    terminals.Shows position second := fun fact member => shows fact (fewer fact member)

theorem meet_left (shows : terminals.Shows position first) :
    terminals.Shows position (first.meet second) :=
  shows.of_subset fun _ member => (List.mem_filter.mp member).1

theorem meet_right (shows : terminals.Shows position second) :
    terminals.Shows position (first.meet second) :=
  shows.of_subset fun _ member => by simpa using (List.mem_filter.mp member).2

end Terminals.Shows

theorem Guard.shows_facts {terminals : Terminals} {scope : Scope} {place : Place} {targets : List Nat}
    {guard : Guard} (admitted : guard.admits terminals scope place targets = true) :
    terminals.Shows place.position guard.facts := by
  induction guard with
  | next offset kinds =>
      intro fact member
      cases List.mem_singleton.mp member
      simpa [admits] using admitted
  | identifier offset =>
      intro fact member
      cases List.mem_singleton.mp member
      exact ParseState.mem_identifierKinds admitted
  | and first second firstIh secondIh =>
      obtain ⟨firstAdmitted, secondAdmitted⟩ := Bool.and_eq_true_iff.mp admitted
      exact (firstIh firstAdmitted).append (secondIh secondAdmitted)
  | lineBreak | yieldOperator | awaitOperator | completed | completedTarget | not | or => exact .nil

/-! ## Watches -/

/-- What a nonterminal needs to know of the next tokens: a jump takes its keyword without a look. -/
def Nonterminal.known : Nonterminal → Ahead
  | jumpStatement .continueStatement => [(0, [.continueKw])]
  | jumpStatement .breakStatement => [(0, [.breakKw])]
  | _ => []

/-- How the state of a watch changes. -/
structure Watch (σ : Type) where
  /-- A token that is of one of the kinds is taken. -/
  take : σ → List Kind → Option σ
  /-- Whether anything else than a token may be added. -/
  isOpen : σ → Bool
  /-- The state at the start of a node. -/
  inside : Kind → σ
  /-- Whether a node may end in a state. -/
  closes : Kind → σ → Bool
  /-- The state in which a nonterminal starts. -/
  entry : Nonterminal → σ
  /-- The state in which nonterminals end. -/
  exit : σ
  call : Nonterminal → σ → Option σ

namespace Watch

variable {σ : Type} (watch : Watch σ)

def takeNext (state : σ × Ahead) : Option (σ × Ahead) :=
  (state.2.findSome? fun fact => if fact.1 = 0 then watch.take state.1 fact.2 else none).map fun taken =>
    (taken, state.2.next)

theorem takeNext_eq_some {watch : Watch σ} {state reached : σ × Ahead}
    (found : watch.takeNext state = some reached) :
    ∃ kinds, (0, kinds) ∈ state.2 ∧ watch.take state.1 kinds = some reached.1 ∧
      reached.2 = state.2.next := by
  obtain ⟨taken, first, rfl⟩ := Option.map_eq_some_iff.mp found
  obtain ⟨⟨offset, kinds⟩, member, takes⟩ := List.exists_of_findSome?_eq_some first
  by_cases here : offset = 0
  · subst here
    rw [if_pos rfl] at takes
    exact ⟨kinds, member, takes, rfl⟩
  · rw [if_neg here] at takes
    cases takes

def callNext (nonterminal : Nonterminal) (state : σ × Ahead) : Option (σ × Ahead) :=
  if nonterminal.isProper && nonterminal.known.all state.2.contains then
    (watch.call nonterminal state.1).map fun called => (called, [])
  else none

theorem callNext_eq_some {watch : Watch σ} {nonterminal : Nonterminal} {state reached : σ × Ahead}
    (found : watch.callNext nonterminal state = some reached) :
    nonterminal.isProper = true ∧ (∀ fact ∈ nonterminal.known, fact ∈ state.2) ∧
      watch.call nonterminal state.1 = some reached.1 ∧ reached.2 = [] := by
  rw [callNext] at found
  split at found
  · rename_i may
    obtain ⟨called, calls, rfl⟩ := Option.map_eq_some_iff.mp found
    obtain ⟨proper, knows⟩ := Bool.and_eq_true_iff.mp may
    exact ⟨proper, fun fact member => by simpa using List.all_eq_true.mp knows fact member, calls, rfl⟩
  · cases found

def leave (kind : Kind) (state : σ) (inner : σ × Ahead) : Option (σ × Ahead) :=
  if watch.isOpen state && watch.closes kind inner.1 then some (state, inner.2) else none

theorem leave_eq_some {watch : Watch σ} {kind : Kind} {state : σ} {inner left : σ × Ahead}
    (leaves : watch.leave kind state inner = some left) :
    watch.isOpen state = true ∧ watch.closes kind inner.1 = true ∧ left = (state, inner.2) := by
  rw [leave] at leaves
  split at leaves
  · rename_i may
    cases leaves
    exact ⟨(Bool.and_eq_true_iff.mp may).1, (Bool.and_eq_true_iff.mp may).2, rfl⟩
  · cases leaves

def join [DecidableEq σ] (first second : σ × Ahead) : Option (σ × Ahead) :=
  if first.1 = second.1 then some (first.1, first.2.meet second.2) else none

end Watch

/-- The state of a watch behind a production, and what is known of the next tokens there. -/
def Production.watched {σ : Type} [DecidableEq σ] (watch : Watch σ) :
    Production → σ × Ahead → Verdict (σ × Ahead)
  | .empty, state | .expected _, state | .expectedConstruct _, state | .markTarget, state =>
      .reaches state
  | .refuse, _ => .never
  | .take, state => .ofOption (watch.takeNext state)
  | .call nonterminal, state => .ofOption (watch.callNext nonterminal state)
  | .seq first second, state => (first.watched watch state).andThen (second.watched watch)
  | .branch guard yes no, state =>
      (yes.watched watch (state.1, guard.facts ++ state.2)).merge Watch.join (no.watched watch state)
  | .node kind body, state =>
      (body.watched watch (watch.inside kind, state.2)).andThen fun inner =>
        .ofOption (watch.leave kind state.1 inner)
  | .wrap kind body, state =>
      if watch.isOpen (watch.inside kind) then
        (body.watched watch (watch.inside kind, state.2)).andThen fun inner =>
          .ofOption (watch.leave kind state.1 inner)
      else .illegal
  | .fork head guard kindYes yes kindNo no, state =>
      if watch.inside kindYes = watch.inside kindNo then
        (head.watched watch (watch.inside kindYes, state.2)).andThen fun middle =>
          ((yes.watched watch (middle.1, guard.facts ++ middle.2)).andThen fun inner =>
            .ofOption (watch.leave kindYes state.1 inner)).merge Watch.join
          ((no.watched watch middle).andThen fun inner => .ofOption (watch.leave kindNo state.1 inner))
      else .illegal
  | .orElse first second, state | .onceOrElse first second, state =>
      (first.watched watch state).merge Watch.join (second.watched watch state)
  | .inScope _ body, state => body.watched watch state
  | .list body, state =>
      (body.watched watch state).andThen fun inner =>
        if watch.isOpen state.1 && watch.isOpen inner.1 then .reaches inner else .illegal
  | .hole, state => if watch.isOpen state.1 then .reaches state else .illegal

/-- Whether a nonterminal that starts in its state for the watch ends in the one behind all of them. -/
def Watch.passes {σ : Type} [DecidableEq σ] (watch : Watch σ) (nonterminal : Nonterminal) : Bool :=
  match nonterminal.production.watched watch (watch.entry nonterminal, nonterminal.known) with
  | .reaches (state, _) => state = watch.exit
  | .never | .illegal => false

theorem Watch.watched_of_passes {σ : Type} [DecidableEq σ] {watch : Watch σ} {nonterminal : Nonterminal}
    (passed : watch.passes nonterminal = true) :
    ∃ ahead, nonterminal.production.watched watch (watch.entry nonterminal, nonterminal.known) =
      .reaches (watch.exit, ahead) := by
  rw [passes] at passed
  split at passed
  · rename_i state ahead reaches
    exact ⟨ahead, by rw [reaches, of_decide_eq_true passed]⟩
  · cases passed
  · cases passed

/-- What a watch tells of the forest in front of a state and the one behind it. -/
structure Watch.Keeps {σ : Type} (watch : Watch σ) (related : σ → Forest → σ → Forest → Prop) :
    Prop where
  refl : ∀ {state forest}, related state forest state forest
  trans : ∀ {first second third before middle after}, related first before second middle →
    related second middle third after → related first before third after
  take : ∀ {state taken kinds forest kind} (position : Nat), watch.take state kinds = some taken →
    kind ∈ kinds → related state forest taken (forest.token position kind)
  hole : ∀ {state forest}, watch.isOpen state = true → related state forest state forest.hole
  node : ∀ {state inner forest children} {kind : Kind}, watch.isOpen state = true →
    watch.closes kind inner = true → related (watch.inside kind) .empty inner children →
    related state forest state (forest.node kind children)
  wrap : ∀ {state inner forest rest} {kind : Kind}, watch.isOpen state = true →
    watch.isOpen (watch.inside kind) = true → watch.closes kind inner = true →
    related (watch.inside kind) .empty inner rest →
    related state forest state (forest.wrapLast kind rest)
  list : ∀ {state inner forest items}, watch.isOpen state = true → watch.isOpen inner = true →
    related state .empty inner items → related state forest inner (forest.list items)
  call : ∀ {nonterminal state called before after}, watch.call nonterminal state = some called →
    related (watch.entry nonterminal) before watch.exit after → related state before called after

/-- What a nonterminal leaves is related to what it found, if what it needs to know is so. -/
def Watch.Relates {σ : Type} (watch : Watch σ) (related : σ → Forest → σ → Forest → Prop)
    (terminals : Terminals) (nonterminal : Nonterminal) (_ : Scope) (before after : Place) : Prop :=
  nonterminal.isProper = true → terminals.Shows before.position nonterminal.known →
    related (watch.entry nonterminal) before.forest watch.exit after.forest

namespace Watch

variable {σ : Type} {related : σ → Forest → σ → Forest → Prop} {terminals : Terminals}

def Finds (related : σ → Forest → σ → Forest → Prop) (terminals : Terminals) (state : σ × Ahead)
    (verdict : Verdict (σ × Ahead)) (before after : Place) : Prop :=
  ∃ reached, verdict = .reaches reached ∧ terminals.Shows after.position reached.2 ∧
    related state.1 before.forest reached.1 after.forest

namespace Finds

variable {state : σ × Ahead} {first second : Verdict (σ × Ahead)} {before after : Place}

theorem mergeLeft [DecidableEq σ] (legal : first.merge join second ≠ .illegal)
    (finds : Finds related terminals state first before after) :
    Finds related terminals state (first.merge join second) before after := by
  obtain ⟨reached, rfl, shows, relates⟩ := finds
  obtain ⟨merged, same, rfl | ⟨other, joined⟩⟩ := Verdict.merge_reaches_left legal
  · exact ⟨_, same, shows, relates⟩
  · rw [join] at joined
    split at joined
    · cases joined
      exact ⟨_, same, shows.meet_left, relates⟩
    · cases joined

theorem mergeRight [DecidableEq σ] (legal : first.merge join second ≠ .illegal)
    (finds : Finds related terminals state second before after) :
    Finds related terminals state (first.merge join second) before after := by
  obtain ⟨reached, rfl, shows, relates⟩ := finds
  obtain ⟨merged, same, rfl | ⟨other, joined⟩⟩ := Verdict.merge_reaches_right legal
  · exact ⟨_, same, shows, relates⟩
  · rw [join] at joined
    split at joined
    · rename_i sameState
      cases joined
      exact ⟨_, same, shows.meet_right, sameState ▸ relates⟩
    · cases joined

theorem leave {watch : Watch σ} {verdict : Verdict (σ × Ahead)} {kind : Kind} {ahead : Ahead}
    {inner : Place}
    (finds : Finds related terminals (watch.inside kind, ahead) verdict before.inside inner)
    (legal : (verdict.andThen fun ended => .ofOption (watch.leave kind state.1 ended)) ≠ .illegal)
    (samePosition : after.position = inner.position)
    (adds : ∀ {ended}, watch.isOpen state.1 = true → watch.closes kind ended = true →
      related (watch.inside kind) .empty ended inner.forest →
        related state.1 before.forest state.1 after.forest) :
    Finds related terminals state
      (verdict.andThen fun ended => .ofOption (watch.leave kind state.1 ended)) before after := by
  obtain ⟨ended, rfl, shows, relates⟩ := finds
  rw [Verdict.andThen] at legal ⊢
  obtain ⟨reached, left⟩ := Verdict.ofOption_ne_illegal legal
  obtain ⟨mayAdd, mayClose, rfl⟩ := leave_eq_some left
  rw [left, Verdict.ofOption]
  exact ⟨_, rfl, samePosition ▸ shows, adds mayAdd mayClose relates⟩

end Finds

end Watch

section Soundness

variable {σ : Type} {watch : Watch σ} {related : σ → Forest → σ → Forest → Prop} {terminals : Terminals}

open Watch

theorem Watch.Keeps.finds_take (keeps : watch.Keeps related) {state : σ × Ahead} {place : Place}
    (shows : terminals.Shows place.position state.2)
    (legal : Verdict.ofOption (watch.takeNext state) ≠ .illegal) :
    Finds related terminals state (.ofOption (watch.takeNext state)) place (place.take terminals) := by
  obtain ⟨reached, found⟩ := Verdict.ofOption_ne_illegal legal
  obtain ⟨kinds, member, takes, rest⟩ := takeNext_eq_some found
  rw [found]
  exact ⟨reached, rfl, rest ▸ shows.next, keeps.take place.position takes (shows _ member)⟩

variable [DecidableEq σ]

/-- What is found of a match of the production is what the watch foresees. -/
def Production.IsWatched (watch : Watch σ) (related : σ → Forest → σ → Forest → Prop)
    (terminals : Terminals) (production : Production) : Prop :=
  ∀ (state : σ × Ahead) (scope : Scope) (before after : Place),
    production.watched watch state ≠ .illegal → terminals.Shows before.position state.2 →
    production.Derives terminals (watch.Relates related terminals) scope before after →
    Finds related terminals state (production.watched watch state) before after

namespace Production.IsWatched

theorem wrap (keeps : watch.Keeps related) (kind : Kind) {body : Production}
    (bodyWatched : body.IsWatched watch related terminals) :
    (Production.wrap kind body).IsWatched watch related terminals := by
  intro state scope before after legal shows derives
  by_cases mayWrap : watch.isOpen (watch.inside kind) = true
  · rw [Production.watched, if_pos mayWrap] at legal ⊢
    obtain ⟨bodyLegal, -⟩ := Verdict.andThen_ne_illegal legal
    obtain ⟨wrapped, first, inner, _, bodyDerives, rfl⟩ := derives
    have finds := bodyWatched (watch.inside kind, state.2) scope before.inside inner bodyLegal shows
      bodyDerives
    exact finds.leave legal rfl fun mayAdd mayClose relates =>
      keeps.wrap mayAdd mayWrap mayClose relates
  · rw [Production.watched, if_neg mayWrap] at legal
    exact absurd rfl legal

theorem fork (keeps : watch.Keeps related) {head yes no : Production} (guard : Guard)
    (kindYes kindNo : Kind) (headWatched : head.IsWatched watch related terminals)
    (yesWatched : yes.IsWatched watch related terminals)
    (noWatched : no.IsWatched watch related terminals) :
    (Production.fork head guard kindYes yes kindNo no).IsWatched watch related terminals := by
  intro state scope before after legal shows derives
  by_cases same : watch.inside kindYes = watch.inside kindNo
  · rw [Production.watched, if_pos same] at legal ⊢
    obtain ⟨headLegal, -⟩ := Verdict.andThen_ne_illegal legal
    obtain ⟨middle, inner, targets, headDerives, tail⟩ := derives
    obtain ⟨between, headReaches, headShows, headRelated⟩ :=
      headWatched (watch.inside kindYes, state.2) scope before.inside middle headLegal shows headDerives
    rw [headReaches, Verdict.andThen] at legal ⊢
    obtain ⟨yesLegal, noLegal⟩ := Verdict.merge_ne_illegal legal
    rcases tail with ⟨admitted, yesDerives, rfl⟩ | ⟨_, noDerives, rfl⟩
    · obtain ⟨reached, reaches, innerShows, innerRelated⟩ :=
        yesWatched (between.1, guard.facts ++ between.2) scope middle inner
          (Verdict.andThen_ne_illegal yesLegal).1 ((Guard.shows_facts admitted).append headShows)
          yesDerives
      have finds : Finds related terminals (watch.inside kindYes, state.2) _ before.inside inner :=
        ⟨reached, reaches, innerShows, keeps.trans headRelated innerRelated⟩
      exact .mergeLeft legal
        (finds.leave yesLegal rfl fun mayAdd mayClose relates => keeps.node mayAdd mayClose relates)
    · obtain ⟨reached, reaches, innerShows, innerRelated⟩ :=
        noWatched between scope middle inner (Verdict.andThen_ne_illegal noLegal).1 headShows noDerives
      have finds : Finds related terminals (watch.inside kindNo, state.2) _ before.inside inner :=
        ⟨reached, reaches, innerShows, same ▸ keeps.trans headRelated innerRelated⟩
      exact .mergeRight legal
        (finds.leave noLegal rfl fun mayAdd mayClose relates => keeps.node mayAdd mayClose relates)
  · rw [Production.watched, if_neg same] at legal
    exact absurd rfl legal

theorem list (keeps : watch.Keeps related) {body : Production}
    (bodyWatched : body.IsWatched watch related terminals) :
    (Production.list body).IsWatched watch related terminals := by
  intro state scope before after legal shows derives
  obtain ⟨bodyLegal, leaves⟩ := Verdict.andThen_ne_illegal legal
  obtain ⟨inner, bodyDerives, rfl⟩ := derives
  obtain ⟨ended, reaches, innerShows, innerRelated⟩ :=
    bodyWatched state scope before.inside inner bodyLegal shows bodyDerives
  have mayAdd := leaves _ reaches
  rw [Production.watched, reaches, Verdict.andThen]
  split
  · rename_i may
    obtain ⟨outerOpen, innerOpen⟩ := Bool.and_eq_true_iff.mp may
    exact ⟨_, rfl, innerShows, keeps.list outerOpen innerOpen innerRelated⟩
  · rename_i mayNot
    exact absurd (if_neg mayNot) mayAdd

end Production.IsWatched

theorem Watch.Keeps.finds_of_derives (keeps : watch.Keeps related) (production : Production) :
    production.IsWatched watch related terminals := by
  induction production with
  | empty | expected kind | expectedConstruct name | markTarget =>
      intro state scope before after _ shows derives
      cases derives
      exact ⟨state, rfl, shows, keeps.refl⟩
  | refuse =>
      intro state scope before after _ _ derives
      exact derives.elim
  | take =>
      intro state scope before after legal shows derives
      cases derives
      exact keeps.finds_take shows legal
  | call nonterminal =>
      intro state scope before after legal shows derives
      obtain ⟨reached, found⟩ := Verdict.ofOption_ne_illegal legal
      obtain ⟨proper, known, calls, rest⟩ := callNext_eq_some found
      rw [Production.watched, found]
      exact ⟨reached, rfl, rest ▸ .nil, keeps.call calls (derives proper (shows.of_subset known))⟩
  | seq first second firstIh secondIh =>
      intro state scope before after legal shows derives
      obtain ⟨firstLegal, secondLegal⟩ := Verdict.andThen_ne_illegal legal
      obtain ⟨middle, firstDerives, secondDerives⟩ := derives
      obtain ⟨between, firstReaches, firstShows, firstRelated⟩ :=
        firstIh state scope before middle firstLegal shows firstDerives
      obtain ⟨reached, secondReaches, secondShows, secondRelated⟩ :=
        secondIh between scope middle after (secondLegal _ firstReaches) firstShows secondDerives
      exact ⟨reached, by rw [Production.watched, firstReaches, Verdict.andThen, secondReaches],
        secondShows, keeps.trans firstRelated secondRelated⟩
  | branch guard yes no yesIh noIh =>
      intro state scope before after legal shows derives
      obtain ⟨yesLegal, noLegal⟩ := Verdict.merge_ne_illegal legal
      obtain ⟨targets, ⟨admitted, yesDerives⟩ | ⟨_, noDerives⟩⟩ := derives
      · have told := (Guard.shows_facts admitted).append shows
        exact .mergeLeft legal
          (yesIh (state.1, guard.facts ++ state.2) scope before after yesLegal told yesDerives)
      · exact .mergeRight legal (noIh state scope before after noLegal shows noDerives)
  | node kind body ih =>
      intro state scope before after legal shows derives
      obtain ⟨bodyLegal, -⟩ := Verdict.andThen_ne_illegal legal
      obtain ⟨inner, bodyDerives, rfl⟩ := derives
      have finds := ih (watch.inside kind, state.2) scope before.inside inner bodyLegal shows bodyDerives
      exact finds.leave legal rfl fun mayAdd mayClose relates => keeps.node mayAdd mayClose relates
  | wrap kind body ih => exact ih.wrap keeps kind
  | fork head guard kindYes yes kindNo no headIh yesIh noIh =>
      exact headIh.fork keeps guard kindYes kindNo yesIh noIh
  | orElse first second firstIh secondIh | onceOrElse first second firstIh secondIh =>
      intro state scope before after legal shows derives
      obtain ⟨firstLegal, secondLegal⟩ := Verdict.merge_ne_illegal legal
      rcases derives with firstDerives | secondDerives
      · exact .mergeLeft legal (firstIh state scope before after firstLegal shows firstDerives)
      · exact .mergeRight legal (secondIh state scope before after secondLegal shows secondDerives)
  | inScope change body ih =>
      intro state scope before after legal shows derives
      exact ih state (change.apply scope) before after legal shows derives
  | list body ih => exact ih.list keeps
  | hole =>
      intro state scope before after legal shows derives
      cases derives
      rw [Production.watched] at legal ⊢
      split
      · rename_i mayAdd
        exact ⟨state, rfl, shows, keeps.hole mayAdd⟩
      · rename_i mayNot
        exact absurd (if_neg mayNot) legal

/-- A watch that every production passes relates what a match leaves to what it found. -/
theorem Nonterminal.nestWith_relates (keeps : watch.Keeps related)
    (passes : ∀ nonterminal ∈ listed, watch.passes nonterminal = true) (terminals : Terminals)
    (fuel : Nat) :
    CallsSatisfy (nestWith production terminals fuel) (watch.Relates related terminals) := by
  apply nestWith_satisfies
  intro nonterminal scope before after derives proper shows
  obtain ⟨ahead, passed⟩ := watched_of_passes (passes nonterminal (mem_listed proper))
  obtain ⟨reached, reaches, _, relates⟩ := keeps.finds_of_derives nonterminal.production
    (watch.entry nonterminal, nonterminal.known) scope before after (by simp [passed]) shows derives
  rw [passed] at reaches
  cases reaches
  exact relates

theorem Rule.known_nonterminal (rule : Rule) : rule.nonterminal.known = [] := by
  cases rule <;> rfl

theorem Rule.Matched.relates {rule : Rule} {last : Nat} {state : ParseState} {kind : Kind}
    {children : Forest} (matched : rule.Matched terminals last state kind children)
    (keeps : watch.Keeps related)
    (passes : ∀ nonterminal ∈ Nonterminal.listed, watch.passes nonterminal = true) :
    related (watch.entry rule.nonterminal) .empty watch.exit (Forest.empty.node kind children) := by
  obtain ⟨place, later, parsed, forest, _⟩ := matched.nested
  have relates := Nonterminal.nestWith_relates keeps passes terminals _ _ _ _ _ _ _ parsed
    rule.isProper_nonterminal (rule.known_nonterminal ▸ .nil)
  rwa [forest] at relates

end Soundness
end ScriptTree
