import ScriptTree.Proofs.Malformed
import ScriptTree.Proofs.Memory
import ScriptTree.Proofs.Progress

/-! # What a run expects

A run records what would have been accepted, each time with the position it is at. The records of a whole
run are told here by its form: an attempt that is given up has recorded what it expected all the same. The
furthest failure is the sum of these records, and a syntax error says exactly what was recorded at the
largest position. -/
set_option autoImplicit false
set_option maxRecDepth 4000
namespace ScriptTree

/-! ## Records -/

/-- What can be expected: a token of a kind, or a construct. -/
inductive Demand where
  | kind (kind : Kind)
  | construct (name : String)
  deriving DecidableEq, Repr

def Demand.production : Demand → Production
  | .kind wanted => .expected wanted
  | .construct name => .expectedConstruct name

structure Expectation where
  position : Nat
  demand : Demand
  deriving DecidableEq, Repr

def Expectation.constructAt? (position : Nat) : Expectation → Option String
  | ⟨other, .construct name⟩ => if other = position then some name else none
  | ⟨_, .kind _⟩ => none

namespace Outcome

def onMatch {α : Type} (next : ParseState → List α) : Outcome → List α
  | matched state => next state
  | refused _ | outOfFuel => []

def onRefusal {α : Type} (next : ParseState → List α) : Outcome → List α
  | refused state => next state
  | matched _ | outOfFuel => []

end Outcome

section

variable (terminals : Terminals) (call : Nonterminal → ParseState → Outcome)
  (recorded : Nonterminal → ParseState → List Expectation)

/-- What a production records itself, or a call for it; its parts are not asked. -/
def Production.ownExpectations : Production → ParseState → List Expectation
  | .expected kind, state => [⟨state.position, .kind kind⟩]
  | .expectedConstruct name, state => [⟨state.position, .construct name⟩]
  | .call nonterminal, state => recorded nonterminal state
  | _, _ => []

/-- What is recorded while a production runs, in the order of the records. `call` runs the productions it
calls, and `recorded` tells what they record. -/
def Production.expectations : Production → ParseState → List Expectation
  | .seq first second, state =>
      first.expectations state ++
        (first.run terminals call state).onMatch fun next => second.expectations next
  | .branch guard yes no, state =>
      if guard.holds terminals state then yes.expectations state else no.expectations state
  | .node _ body, state => body.expectations (state.record .pending)
  | .fork head guard _ yes _ no, state =>
      head.expectations (state.record .pending) ++
        (head.run terminals call (state.record .pending)).onMatch fun middle =>
          if guard.holds terminals middle then yes.expectations middle else no.expectations middle
  | .wrap _ body, state =>
      match state.completed with
      | none => []
      | some inner => body.expectations (state.precede inner)
  | .orElse first second, state =>
      first.expectations state ++
        (first.run terminals call state).onRefusal fun next =>
          second.expectations (next.rewind state.checkpoint)
  | .onceOrElse first second, state =>
      if state.arrowFailed then second.expectations state
      else
        first.expectations state ++
          (first.run terminals call state).onRefusal fun next =>
            second.expectations (next.rewind state.checkpoint).rememberArrow
  | .inScope change body, state =>
      body.expectations { state with scope := change.apply state.scope }
  | .list body, state => body.expectations (state.record .startList)
  | production, state => production.ownExpectations recorded state

end

/-- What is recorded while a nonterminal runs, with calls nested at most `fuel` deep. -/
def Nonterminal.expectationsWith (terminals : Terminals) : Nat → Nonterminal → ParseState → List Expectation
  | 0, _, _ => []
  | fuel + 1, nonterminal, state =>
      nonterminal.production.expectations terminals (runWith production terminals fuel)
        (expectationsWith terminals fuel) state

/-- What is recorded while a rule is matched against a whole stream. If something is left over, the end is
expected there at last. -/
def TokenStream.expectations (stream : TokenStream) (rule : Rule) : List Expectation :=
  rule.nonterminal.expectationsWith stream.tokens (Nonterminal.enoughFuel stream.tokens) .start ++
    (rule.nonterminal.run stream.tokens).onMatch fun state =>
      if stream.eofIndex ≤ state.position then [] else [⟨state.position, .kind .eof⟩]

/-! ## Sums of records -/

def largestPosition (expectations : List Expectation) : Nat :=
  (expectations.map Expectation.position).max?.getD 0

theorem le_largestPosition {expectations : List Expectation} {expectation : Expectation}
    (member : expectation ∈ expectations) : expectation.position ≤ largestPosition expectations :=
  List.le_max?_getD_of_mem (List.mem_map_of_mem member)

theorem largestPosition_le {expectations : List Expectation} {bound : Nat}
    (below : ∀ expectation ∈ expectations, expectation.position ≤ bound) :
    largestPosition expectations ≤ bound := by
  rw [largestPosition]
  cases found : (expectations.map Expectation.position).max? with
  | none => exact Nat.zero_le _
  | some largest =>
      obtain ⟨expectation, member, rfl⟩ := List.mem_map.mp (List.max?_mem found)
      exact below expectation member

theorem largestPosition_concat (expectations : List Expectation) (last : Expectation) :
    largestPosition (expectations ++ [last]) = max (largestPosition expectations) last.position := by
  cases expectations with
  | nil => simp [largestPosition]
  | cons first rest => simp [largestPosition, List.max?_cons', -List.max?_cons]

/-- The constructs that are expected at a position, each once, in the order of the records. -/
def constructsAt (position : Nat) (expectations : List Expectation) : List String :=
  (expectations.filterMap (Expectation.constructAt? position)).eraseDups

section

variable {position : Nat} {expectations : List Expectation}

theorem eraseDups_concat (names : List String) (name : String) :
    (names ++ [name]).eraseDups = if name ∈ names then names.eraseDups else names.eraseDups ++ [name] := by
  rw [List.eraseDups_append]
  split <;> simp_all [List.removeAll, List.eraseDups_cons]

theorem mem_constructsAt_iff {name : String} :
    name ∈ constructsAt position expectations ↔ ⟨position, .construct name⟩ ∈ expectations := by
  rw [constructsAt, List.mem_eraseDups, List.mem_filterMap]
  constructor
  · rintro ⟨⟨other, kind | construct⟩, member, found⟩
    · cases found
    · simp only [Expectation.constructAt?, Option.ite_none_right_eq_some, Option.some.injEq] at found
      obtain ⟨rfl, rfl⟩ := found
      exact member
  · intro member
    exact ⟨_, member, by simp [Expectation.constructAt?]⟩

theorem constructsAt_concat_of_other {last : Expectation} (other : last.constructAt? position = none) :
    constructsAt position (expectations ++ [last]) = constructsAt position expectations := by
  simp [constructsAt, other]

theorem constructsAt_concat (name : String) :
    constructsAt position (expectations ++ [⟨position, .construct name⟩]) =
      if name ∈ constructsAt position expectations then constructsAt position expectations
      else constructsAt position expectations ++ [name] := by
  have last : [(⟨position, .construct name⟩ : Expectation)].filterMap (Expectation.constructAt? position) =
      [name] := by
    simp [Expectation.constructAt?]
  simp only [constructsAt, List.filterMap_append, last, List.mem_eraseDups, eraseDups_concat]

theorem constructsAt_eq_nil (beyond : largestPosition expectations < position) :
    constructsAt position expectations = [] := by
  refine List.eq_nil_iff_forall_not_mem.mpr fun name member => ?_
  exact Nat.not_le_of_lt beyond (le_largestPosition (mem_constructsAt_iff.mp member))

end

namespace Furthest

def add (furthest : Furthest) : Expectation → Furthest
  | ⟨position, .kind kind⟩ => furthest.expect position kind
  | ⟨position, .construct name⟩ => furthest.expectConstruct position name

/-- A furthest failure says what was recorded at the largest position, and nothing else. -/
structure Sums (furthest : Furthest) (expectations : List Expectation) : Prop where
  position : furthest.position = largestPosition expectations
  expected : ∀ kind, furthest.expected.contains kind = true ↔
    ⟨furthest.position, .kind kind⟩ ∈ expectations
  constructs : furthest.constructs = constructsAt furthest.position expectations

variable {furthest : Furthest} {expectations : List Expectation}

theorem sums_start : start.Sums [] := ⟨rfl, by simp [start, startAt], rfl⟩

theorem Sums.expect (sums : furthest.Sums expectations) (position : Nat) (kind : Kind) :
    (furthest.expect position kind).Sums (expectations ++ [⟨position, .kind kind⟩]) := by
  refine ⟨?_, ?_, ?_⟩
  · rw [position_expect, largestPosition_concat, sums.position]
  all_goals rcases Nat.lt_trichotomy position furthest.position with before | rfl | beyond
  · rw [expect_before before]
    simp [sums.expected, Nat.ne_of_gt before]
  · rw [expect_here]
    simp [sums.expected]
  · rw [expect_beyond beyond]
    intro other
    have none : ⟨position, .kind other⟩ ∉ expectations := fun member =>
      Nat.not_le_of_lt (sums.position ▸ beyond) (le_largestPosition member)
    simp [none]
  all_goals rw [constructsAt_concat_of_other rfl]
  · rw [expect_before before]
    exact sums.constructs
  · rw [expect_here]
    exact sums.constructs
  · rw [expect_beyond beyond]
    exact (constructsAt_eq_nil (sums.position ▸ beyond)).symm

theorem Sums.expectConstruct (sums : furthest.Sums expectations) (position : Nat) (name : String) :
    (furthest.expectConstruct position name).Sums (expectations ++ [⟨position, .construct name⟩]) := by
  have same : ∀ (place : Nat) (kind : Kind),
      ⟨place, .kind kind⟩ ∈ expectations ++ [⟨position, .construct name⟩] ↔
        ⟨place, .kind kind⟩ ∈ expectations := by simp
  refine ⟨?_, ?_, ?_⟩
  · rw [position_expectConstruct, largestPosition_concat, sums.position]
  · intro kind
    rw [same]
    rcases Nat.lt_trichotomy position furthest.position with before | rfl | beyond
    · rw [expectConstruct_before before]
      exact sums.expected kind
    · by_cases known : name ∈ furthest.constructs
      · rw [expectConstruct_known known]
        exact sums.expected kind
      · rw [expectConstruct_here known]
        exact sums.expected kind
    · rw [expectConstruct_beyond beyond]
      have none : ⟨position, .kind kind⟩ ∉ expectations := fun member =>
        Nat.not_le_of_lt (sums.position ▸ beyond) (le_largestPosition member)
      simp [none]
  · rcases Nat.lt_trichotomy position furthest.position with before | rfl | beyond
    · have other : Expectation.constructAt? furthest.position ⟨position, .construct name⟩ = none := by
        simp [Expectation.constructAt?, Nat.ne_of_lt before]
      rw [expectConstruct_before before, constructsAt_concat_of_other other]
      exact sums.constructs
    · by_cases known : name ∈ furthest.constructs
      · rw [expectConstruct_known known, constructsAt_concat, ← sums.constructs, if_pos known]
      · rw [expectConstruct_here known, constructsAt_concat, ← sums.constructs, if_neg known]
    · rw [expectConstruct_beyond beyond, constructsAt_concat,
        constructsAt_eq_nil (sums.position ▸ beyond), if_neg List.not_mem_nil, List.nil_append]

theorem Sums.add (sums : furthest.Sums expectations) (expectation : Expectation) :
    (furthest.add expectation).Sums (expectations ++ [expectation]) := by
  obtain ⟨position, kind | name⟩ := expectation
  · exact sums.expect position kind
  · exact sums.expectConstruct position name

/-- Whatever is recorded further, in whatever order, the furthest failure is the sum. -/
theorem Sums.foldl (sums : furthest.Sums expectations) (more : List Expectation) :
    (more.foldl Furthest.add furthest).Sums (expectations ++ more) := by
  induction more generalizing furthest expectations with
  | nil => rwa [List.append_nil]
  | cons first rest ih =>
      rw [List.append_cons]
      exact ih (sums.add first)

end Furthest

/-! ## What a run does to the furthest failure -/

/-- The furthest failure behind an outcome is the one in front with some records. -/
def Outcome.Adds (before : Furthest) (expectations : List Expectation) : Outcome → Prop
  | matched state | refused state => state.furthest = expectations.foldl Furthest.add before
  | outOfFuel => True

namespace Outcome.Adds

variable {before : Furthest} {expectations more : List Expectation} {outcome : Outcome}

theorem append (adds : outcome.Adds (expectations.foldl Furthest.add before) more) :
    outcome.Adds before (expectations ++ more) := by
  cases outcome with
  | matched state | refused state => exact adds.trans List.foldl_append.symm
  | outOfFuel => trivial

theorem close (adds : outcome.Adds before expectations) (complete back : ParseState → ParseState)
    (keeps : ∀ state, (complete state).furthest = state.furthest ∧ (back state).furthest = state.furthest) :
    (outcome.close complete back).Adds before expectations := by
  cases outcome with
  | matched state => exact (keeps state).1.trans adds
  | refused state => exact (keeps state).2.trans adds
  | outOfFuel => trivial

theorem orElse {otherwise : ParseState → Outcome} {further : ParseState → List Expectation}
    (adds : outcome.Adds before expectations)
    (later : ∀ state, (otherwise state).Adds state.furthest (further state)) :
    (outcome.orElse otherwise).Adds before (expectations ++ outcome.onRefusal further) := by
  cases outcome with
  | matched state => exact adds.trans (by rw [onRefusal, List.append_nil])
  | refused state =>
      have adds : state.furthest = expectations.foldl Furthest.add before := adds
      exact .append (adds ▸ later state)
  | outOfFuel => trivial

end Outcome.Adds

section Runs

variable {terminals : Terminals} {call : Nonterminal → ParseState → Outcome}
  {recorded : Nonterminal → ParseState → List Expectation}

theorem ParseState.furthest_markTarget (state : ParseState) : state.markTarget.furthest = state.furthest := by
  unfold markTarget
  split <;> rfl

/-- A run adds to the furthest failure what it records, whether it matches or not. -/
theorem Production.run_adds
    (calls : ∀ nonterminal state,
      (call nonterminal state).Adds state.furthest (recorded nonterminal state)) (production : Production) :
    ∀ state, (production.run terminals call state).Adds state.furthest
      (production.expectations terminals call recorded state) := by
  induction production with
  | empty | refuse | take | expected kind | expectedConstruct name | hole =>
      intro state
      rfl
  | markTarget =>
      intro state
      exact state.furthest_markTarget
  | call nonterminal => exact calls nonterminal
  | seq first second firstIh secondIh =>
      intro state
      have adds := firstIh state
      simp only [run, expectations]
      cases ran : first.run terminals call state with
      | matched next =>
          rw [ran] at adds
          have adds : next.furthest = _ := adds
          exact .append (adds ▸ secondIh next)
      | refused next =>
          rw [ran] at adds
          exact adds.trans (by rw [Outcome.onMatch, List.append_nil])
      | outOfFuel => trivial
  | branch guard yes no yesIh noIh =>
      intro state
      simp only [run, expectations]
      split
      · exact yesIh state
      · exact noIh state
  | node kind body ih =>
      intro state
      exact (ih (state.record .pending)).close
        (·.complete state.checkpoint kind state.checkpoint.position) (·.rewind state.checkpoint)
        fun _ => ⟨rfl, rfl⟩
  | fork head guard kindYes yes kindNo no headIh yesIh noIh =>
      intro state
      have adds := headIh (state.record .pending)
      simp only [run, expectations]
      cases ran : head.run terminals call (state.record .pending) with
      | matched middle =>
          rw [ran] at adds
          have adds : middle.furthest = _ := adds
          refine .append ?_
          dsimp only [Outcome.onMatch]
          split
          · exact (adds ▸ yesIh middle).close
              (·.complete state.checkpoint kindYes state.checkpoint.position) (·.rewind state.checkpoint)
              fun _ => ⟨rfl, rfl⟩
          · exact (adds ▸ noIh middle).close
              (·.complete state.checkpoint kindNo state.checkpoint.position) (·.rewind state.checkpoint)
              fun _ => ⟨rfl, rfl⟩
      | refused next =>
          rw [ran] at adds
          have adds : next.furthest = _ := adds
          exact adds.trans (by rw [Outcome.onMatch, List.append_nil]; rfl)
      | outOfFuel => trivial
  | wrap kind body ih =>
      intro state
      simp only [run, expectations]
      cases state.completed with
      | none => rfl
      | some inner =>
          exact (ih (state.precede inner)).close (·.complete state.checkpoint kind inner.first)
            (·.rewind state.checkpoint) fun _ => ⟨rfl, rfl⟩
  | orElse first second firstIh secondIh =>
      intro state
      exact (firstIh state).orElse fun next => secondIh (next.rewind state.checkpoint)
  | onceOrElse first second firstIh secondIh =>
      intro state
      simp only [run, expectations]
      split
      · exact secondIh state
      · exact (firstIh state).orElse fun next => secondIh (next.rewind state.checkpoint).rememberArrow
  | inScope change body ih =>
      intro state
      exact (ih { state with scope := change.apply state.scope }).close
        ({ · with scope := state.scope }) ({ · with scope := state.scope }) fun _ => ⟨rfl, rfl⟩
  | list body ih =>
      intro state
      exact (ih (state.record .startList)).close (·.record .finishList) (·.rewind state.checkpoint)
        fun _ => ⟨rfl, rfl⟩

theorem Nonterminal.runWith_adds (fuel : Nat) :
    ∀ nonterminal state, (runWith production terminals fuel nonterminal state).Adds state.furthest
      (nonterminal.expectationsWith terminals fuel state) := by
  induction fuel with
  | zero =>
      intro nonterminal state
      trivial
  | succ fuel ih =>
      intro nonterminal state
      exact nonterminal.production.run_adds ih state

/-! ## Where records come from -/

variable {expectation : Expectation}

theorem Production.mem_expectations_of_own {part : Production} {place : ParseState}
    (member : expectation ∈ part.ownExpectations recorded place) :
    expectation ∈ part.expectations terminals call recorded place := by
  cases part <;> first | exact member | cases member

theorem Production.exists_own_of_mem (production : Production) :
    ∀ state, expectation ∈ production.expectations terminals call recorded state →
      ∃ part place, production.Passes terminals call state part place ∧
        expectation ∈ part.ownExpectations recorded place := by
  induction production with
  | empty | refuse | take | expected kind | expectedConstruct name | call nonterminal | hole | markTarget =>
      intro state member
      exact ⟨_, _, .here _ state, member⟩
  | seq first second firstIh secondIh =>
      intro state member
      rcases List.mem_append.mp member with early | late
      · obtain ⟨part, place, passes, own⟩ := firstIh state early
        exact ⟨part, place, .seqFirst passes, own⟩
      · cases ran : first.run terminals call state with
        | matched next =>
            rw [ran] at late
            obtain ⟨part, place, passes, own⟩ := secondIh next late
            exact ⟨part, place, .seqSecond ran passes, own⟩
        | refused next | outOfFuel =>
            rw [ran] at late
            cases late
  | branch guard yes no yesIh noIh =>
      intro state member
      rw [expectations] at member
      split at member
      · rename_i holds
        obtain ⟨part, place, passes, own⟩ := yesIh state member
        exact ⟨part, place, .branchYes holds passes, own⟩
      · rename_i fails
        obtain ⟨part, place, passes, own⟩ := noIh state member
        exact ⟨part, place, .branchNo (Bool.eq_false_iff.mpr fails) passes, own⟩
  | node kind body ih =>
      intro state member
      obtain ⟨part, place, passes, own⟩ := ih _ member
      exact ⟨part, place, .node passes, own⟩
  | fork head guard kindYes yes kindNo no headIh yesIh noIh =>
      intro state member
      rcases List.mem_append.mp member with early | late
      · obtain ⟨part, place, passes, own⟩ := headIh _ early
        exact ⟨part, place, .forkHead passes, own⟩
      · cases ran : head.run terminals call (state.record .pending) with
        | matched middle =>
            rw [ran, Outcome.onMatch] at late
            split at late
            · rename_i holds
              obtain ⟨part, place, passes, own⟩ := yesIh middle late
              exact ⟨part, place, .forkYes ran holds passes, own⟩
            · rename_i fails
              obtain ⟨part, place, passes, own⟩ := noIh middle late
              exact ⟨part, place, .forkNo ran (Bool.eq_false_iff.mpr fails) passes, own⟩
        | refused next | outOfFuel =>
            rw [ran] at late
            cases late
  | wrap kind body ih =>
      intro state member
      rw [expectations] at member
      cases completed : state.completed with
      | none =>
          rw [completed] at member
          cases member
      | some inner =>
          rw [completed] at member
          obtain ⟨part, place, passes, own⟩ := ih _ member
          exact ⟨part, place, .wrap completed passes, own⟩
  | orElse first second firstIh secondIh =>
      intro state member
      rcases List.mem_append.mp member with early | late
      · obtain ⟨part, place, passes, own⟩ := firstIh state early
        exact ⟨part, place, .orElseFirst passes, own⟩
      · cases ran : first.run terminals call state with
        | refused next =>
            rw [ran] at late
            obtain ⟨part, place, passes, own⟩ := secondIh _ late
            exact ⟨part, place, .orElseSecond ran passes, own⟩
        | matched next | outOfFuel =>
            rw [ran] at late
            cases late
  | onceOrElse first second firstIh secondIh =>
      intro state member
      rw [expectations] at member
      split at member
      · rename_i failed
        obtain ⟨part, place, passes, own⟩ := secondIh state member
        exact ⟨part, place, .onceAgain failed passes, own⟩
      · rename_i untried
        have fresh := Bool.eq_false_iff.mpr untried
        rcases List.mem_append.mp member with early | late
        · obtain ⟨part, place, passes, own⟩ := firstIh state early
          exact ⟨part, place, .onceFirst fresh passes, own⟩
        · cases ran : first.run terminals call state with
          | refused next =>
              rw [ran] at late
              obtain ⟨part, place, passes, own⟩ := secondIh _ late
              exact ⟨part, place, .onceSecond fresh ran passes, own⟩
          | matched next | outOfFuel =>
              rw [ran] at late
              cases late
  | inScope change body ih =>
      intro state member
      obtain ⟨part, place, passes, own⟩ := ih _ member
      exact ⟨part, place, .inScope passes, own⟩
  | list body ih =>
      intro state member
      obtain ⟨part, place, passes, own⟩ := ih _ member
      exact ⟨part, place, .list passes, own⟩

/-- A run records exactly what its parts record where they have their turn, whether the attempts they belong
to are given up or not. -/
theorem Production.mem_expectations_iff (production : Production) (state : ParseState) :
    expectation ∈ production.expectations terminals call recorded state ↔
      ∃ part place, production.Passes terminals call state part place ∧
        expectation ∈ part.ownExpectations recorded place := by
  refine ⟨production.exists_own_of_mem state, ?_⟩
  rintro ⟨part, place, passes, own⟩
  induction passes with
  | here part place => exact mem_expectations_of_own own
  | seqFirst _ ih | forkHead _ ih | orElseFirst _ ih => exact List.mem_append_left _ (ih own)
  | seqSecond ran _ ih | orElseSecond ran _ ih =>
      refine List.mem_append_right _ ?_
      rw [ran]
      exact ih own
  | forkYes ran holds _ ih | forkNo ran holds _ ih =>
      refine List.mem_append_right _ ?_
      rw [ran]
      simpa [Outcome.onMatch, holds] using ih own
  | branchYes holds _ ih | branchNo holds _ ih => simpa [expectations, holds] using ih own
  | wrap completed _ ih => simpa [expectations, completed] using ih own
  | onceFirst fresh _ ih => simpa [expectations, fresh] using .inl (ih own)
  | onceSecond fresh ran _ ih => simpa [expectations, fresh, ran, Outcome.onRefusal] using .inr (ih own)
  | onceAgain failed _ ih => simpa [expectations, failed] using ih own
  | node _ ih | inScope _ ih | list _ ih => exact ih own

theorem Production.mem_ownExpectations {part : Production} {place : ParseState}
    (own : expectation ∈ part.ownExpectations recorded place) :
    part = expectation.demand.production ∧ place.position = expectation.position ∨
      ∃ callee, part = .call callee ∧ expectation ∈ recorded callee place := by
  cases part with
  | expected kind | expectedConstruct name =>
      obtain rfl := List.mem_singleton.mp own
      exact .inl ⟨rfl, rfl⟩
  | call callee => exact .inr ⟨callee, rfl, own⟩
  | _ => cases own

end Runs

namespace Nonterminal

variable {terminals : Terminals} {expectation : Expectation}

/-- What is recorded while a nonterminal runs is recorded by the production of one that it leads to. -/
theorem exists_passes_of_mem {fuel : Nat} {nonterminal : Nonterminal} {state : ParseState}
    (member : expectation ∈ nonterminal.expectationsWith terminals fuel state) :
    ∃ owner start depth place,
      Relation.ReflTransGen (Calls terminals) (nonterminal, state) (owner, start) ∧
      owner.production.Passes terminals (runWith production terminals depth) start
        expectation.demand.production place ∧
      place.position = expectation.position := by
  induction fuel generalizing nonterminal state with
  | zero => cases member
  | succ fuel ih =>
      obtain ⟨part, place, passes, own⟩ :=
        (nonterminal.production.mem_expectations_iff state).mp member
      rcases Production.mem_ownExpectations own with ⟨rfl, here⟩ | ⟨callee, rfl, later⟩
      · exact ⟨nonterminal, state, fuel, place, .refl, passes, here⟩
      · obtain ⟨owner, start, depth, further, leads, inside, here⟩ := ih later
        exact ⟨owner, start, depth, further, .head ⟨fuel, passes⟩ leads, inside, here⟩

theorem records_inside : ∀ nonterminal ∈ listed, (nonterminal.surveyedParts.all fun entry =>
    match entry.1 with
    | .expected _ | .expectedConstruct _ => entry.2 ≠ .past
    | _ => true) = true := by
  decide +kernel

theorem position_le_of_mem {last fuel : Nat} {nonterminal : Nonterminal} {state : ParseState}
    (ends : terminals.EndsAt last) (fits : state.position + nonterminal.needs ≤ last)
    (member : expectation ∈ nonterminal.expectationsWith terminals fuel state) :
    expectation.position ≤ last := by
  obtain ⟨owner, start, depth, place, leads, passes, here⟩ := exists_passes_of_mem member
  have inside : start.position + owner.needs ≤ last := by
    rcases Relation.reflTransGen_iff_eq_or_transGen.mp leads with same | follow
    · cases same
      exact fits
    · exact (descends_of_transGen ends fits follow).1
  obtain ⟨known, listed, holds⟩ := passes.exists_part ends (runWith_foresee ends depth) _
    owner.survey_legal ⟨Nat.le_refl start.position, inside, by simp⟩
  have all : (owner.surveyedParts.all fun entry =>
      match entry.1 with
      | .expected _ | .expectedConstruct _ => entry.2 ≠ .past
      | _ => true) = true := by
    cases owner with
    | jumpStatement kind => rfl
    | _ => exact records_inside _ (mem_listed rfl)
  have before : known ≠ .past := by
    have allowed := List.all_eq_true.mp all _ listed
    obtain ⟨position, kind | name⟩ := expectation <;> simpa [Demand.production] using allowed
  rw [← here]
  exact Nat.le_trans (Nat.le_add_right _ _) (holds.bounds before).2.1

end Nonterminal

/-! ## Syntax errors -/

namespace TokenStream

variable {stream : TokenStream} {rule : Rule}

theorem position_le_of_mem_expectations (accepts : stream.Accepts) {expectation : Expectation}
    (member : expectation ∈ stream.expectations rule) : expectation.position ≤ stream.eofIndex := by
  have ends := accepts.endsAt
  rcases List.mem_append.mp member with recorded | last
  · have fits : ParseState.start.position + rule.nonterminal.needs ≤ stream.eofIndex := by
      rw [rule.needs_nonterminal]
      exact Nat.zero_le _
    exact Nonterminal.position_le_of_mem ends fits recorded
  · cases ran : rule.nonterminal.run stream.tokens with
    | matched state =>
        rw [ran, Outcome.onMatch] at last
        split at last
        · cases last
        · rename_i before
          obtain rfl := List.mem_singleton.mp last
          exact Nat.le_of_not_le before
    | refused state | outOfFuel =>
        rw [ran] at last
        cases last

theorem exists_sums_of_parseStream (accepts : stream.Accepts) {failure : ParseFailure}
    (failed : parseStream rule stream = .error failure) :
    ∃ furthest : Furthest, failure = .syntaxError (stream.syntaxError furthest) ∧
      furthest.Sums (stream.expectations rule) := by
  have adds : (rule.nonterminal.run stream.tokens).Adds .start _ :=
    Nonterminal.runWith_adds _ rule.nonterminal .start
  obtain ⟨error, rfl⟩ : ∃ error, failure = .syntaxError error := by
    rcases parseStream_cases accepts rule with ⟨error, refused, -⟩ | ⟨tree, next, parsed, -⟩
    · rw [refused] at failed
      cases failed
      exact ⟨error, rfl⟩
    · rw [parsed] at failed
      cases failed
  suffices same : ∃ furthest, error = stream.syntaxError furthest ∧
      furthest = (stream.expectations rule).foldl Furthest.add .start by
    obtain ⟨furthest, rfl, rfl⟩ := same
    exact ⟨_, rfl, Furthest.sums_start.foldl _⟩
  rw [parseStream, Outcome.toParse.eq_def] at failed
  rw [expectations, List.foldl_append]
  split at failed
  · cases failed
  · rename_i state ran
    rw [ran] at adds ⊢
    cases failed
    exact ⟨_, rfl, adds⟩
  · rename_i state ran
    rw [ran] at adds ⊢
    split at failed
    · split at failed <;> cases failed
    · rename_i before
      cases failed
      refine ⟨_, rfl, ?_⟩
      rw [Outcome.onMatch, if_neg before]
      exact congrArg (·.expect state.position .eof) adds

theorem syntaxError_of_sums (accepts : stream.Accepts) {furthest : Furthest}
    (sums : furthest.Sums (stream.expectations rule)) :
    (stream.syntaxError furthest).position = furthest.position ∧ furthest.position ≤ stream.eofIndex ∧
      ∃ token, stream.tokens[furthest.position]? = some token ∧
        (stream.syntaxError furthest).found = token.kind ∧
        (stream.syntaxError furthest).span = token.span := by
  have inside : furthest.position ≤ stream.eofIndex := by
    rw [sums.position]
    exact largestPosition_le fun _ => position_le_of_mem_expectations accepts
  have here : furthest.position < stream.tokens.size := by
    rw [accepts.size_eq]
    exact Nat.lt_succ_of_le inside
  refine ⟨Nat.min_eq_left inside, inside, _, Array.getElem?_eq_getElem here, ?_⟩
  simp [syntaxError, Nat.min_eq_left inside, Array.getD, here]

end TokenStream

/-- A syntax error stands at the largest position at which anything was recorded as expected, in attempts
that were given up too. It says which kinds and which constructs were recorded there, and nothing else, and
found the token at that position. -/
theorem parseStream_error_is_furthest {text : List Char} {tokens : Array Token} {stream : TokenStream}
    (accepted : TokenStream.ofTokens text tokens = .ok stream) {rule : Rule} {failure : ParseFailure}
    (failed : parseStream rule stream = .error failure) :
    ∃ error, failure = .syntaxError error ∧
      error.position = largestPosition (stream.expectations rule) ∧
      (∀ kind, error.expected.contains kind = true ↔
        ⟨error.position, .kind kind⟩ ∈ stream.expectations rule) ∧
      error.constructs = constructsAt error.position (stream.expectations rule) ∧
      error.position ≤ stream.eofIndex ∧
      ∃ token, stream.tokens[error.position]? = some token ∧ error.found = token.kind ∧
        error.span = token.span := by
  obtain ⟨-, accepts⟩ := TokenStream.accepts_of_ofTokens accepted
  obtain ⟨furthest, rfl, sums⟩ := TokenStream.exists_sums_of_parseStream accepts failed
  obtain ⟨same, inside, token, here, found⟩ := TokenStream.syntaxError_of_sums accepts sums
  refine ⟨_, rfl, ?_⟩
  rw [same]
  exact ⟨sums.position, sums.expected, sums.constructs, inside, token, here, found⟩

/-- The attempt to read an arrow comes furthest. What is recorded in front of it later makes no difference. -/
theorem parseStream_error_is_furthest_of_arrow :
    let text := ['(', 'a', ',', ')']
    let stream := tokenize text
    TokenStream.ofTokens text stream.tokens = .ok stream ∧
    stream.expectations .script =
      [⟨0, .kind .eof⟩, ⟨2, .kind .eq⟩, ⟨4, .kind .fatArrow⟩, ⟨3, .construct "expression"⟩] ∧
    ∃ error, parseStream .script stream = .error (.syntaxError error) ∧ error.position = 4 ∧
      (∀ kind, error.expected.contains kind = true ↔ kind = .fatArrow) ∧ error.constructs = [] ∧
      error.found = .eof := by
  intro text stream
  have accepted : TokenStream.ofTokens text stream.tokens = .ok stream := rfl
  have recorded : stream.expectations .script =
      [⟨0, .kind .eof⟩, ⟨2, .kind .eq⟩, ⟨4, .kind .fatArrow⟩, ⟨3, .construct "expression"⟩] := by
    decide +kernel
  refine ⟨accepted, recorded, ?_⟩
  cases result : parseStream .script stream with
  | ok tree =>
      have failed : (parseStream .script stream).toOption = none := by decide +kernel
      rw [result] at failed
      cases failed
  | error failure =>
      obtain ⟨error, rfl, position, expected, constructs, -, token, here, found, -⟩ :=
        parseStream_error_is_furthest accepted result
      rw [recorded] at position expected constructs
      have last : error.position = 4 := position.trans (by decide)
      rw [last] at expected constructs here
      have eof : stream.tokens[4]? = some ⟨.empty, .eof, .emptyAt 4, .empty⟩ := by decide +kernel
      refine ⟨error, rfl, last, by simpa using expected, constructs.trans (by decide), ?_⟩
      rw [eof] at here
      cases here
      exact found

end ScriptTree
