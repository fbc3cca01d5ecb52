import ScriptTree.Proofs.Layout
import ScriptTree.Proofs.Outlook

/-! # What a run passes

While a production runs, each part of it that has its turn runs at some state. A call is such a part, so a
run leads from a nonterminal at a state to those that are called. The calls that a run passes settle it, and
a survey of the production knows where each of its parts comes to stand. -/
set_option autoImplicit false
namespace ScriptTree

/-! ## Parts that have their turn -/

section

variable (terminals : Terminals) (call : Nonterminal → ParseState → Outcome)

/-- While a production runs at a state, a part of it runs at a state: the parts before it matched, and the
alternatives that are tried before it were refused. -/
inductive Production.Passes : Production → ParseState → Production → ParseState → Prop where
  | here (part : Production) (place : ParseState) : Passes part place part place
  | seqFirst {first second part : Production} {state place : ParseState} :
      Passes first state part place → Passes (.seq first second) state part place
  | seqSecond {first second part : Production} {state next place : ParseState} :
      first.run terminals call state = .matched next → Passes second next part place →
      Passes (.seq first second) state part place
  | branchYes {guard : Guard} {yes no part : Production} {state place : ParseState} :
      guard.holds terminals state = true → Passes yes state part place →
      Passes (.branch guard yes no) state part place
  | branchNo {guard : Guard} {yes no part : Production} {state place : ParseState} :
      guard.holds terminals state = false → Passes no state part place →
      Passes (.branch guard yes no) state part place
  | node {kind : Kind} {body part : Production} {state place : ParseState} :
      Passes body (state.record .pending) part place → Passes (.node kind body) state part place
  | forkHead {head yes no part : Production} {guard : Guard} {kindYes kindNo : Kind}
      {state place : ParseState} :
      Passes head (state.record .pending) part place →
      Passes (.fork head guard kindYes yes kindNo no) state part place
  | forkYes {head yes no part : Production} {guard : Guard} {kindYes kindNo : Kind}
      {state middle place : ParseState} :
      head.run terminals call (state.record .pending) = .matched middle →
      guard.holds terminals middle = true → Passes yes middle part place →
      Passes (.fork head guard kindYes yes kindNo no) state part place
  | forkNo {head yes no part : Production} {guard : Guard} {kindYes kindNo : Kind}
      {state middle place : ParseState} :
      head.run terminals call (state.record .pending) = .matched middle →
      guard.holds terminals middle = false → Passes no middle part place →
      Passes (.fork head guard kindYes yes kindNo no) state part place
  | wrap {kind : Kind} {body part : Production} {inner : Completed} {state place : ParseState} :
      state.completed = some inner → Passes body (state.precede inner) part place →
      Passes (.wrap kind body) state part place
  | orElseFirst {first second part : Production} {state place : ParseState} :
      Passes first state part place → Passes (.orElse first second) state part place
  | orElseSecond {first second part : Production} {state next place : ParseState} :
      first.run terminals call state = .refused next →
      Passes second (next.rewind state.checkpoint) part place →
      Passes (.orElse first second) state part place
  | onceFirst {first second part : Production} {state place : ParseState} :
      state.arrowFailed = false → Passes first state part place →
      Passes (.onceOrElse first second) state part place
  | onceSecond {first second part : Production} {state next place : ParseState} :
      state.arrowFailed = false → first.run terminals call state = .refused next →
      Passes second (next.rewind state.checkpoint).rememberArrow part place →
      Passes (.onceOrElse first second) state part place
  | onceAgain {first second part : Production} {state place : ParseState} :
      state.arrowFailed = true → Passes second state part place →
      Passes (.onceOrElse first second) state part place
  | inScope {change : ScopeChange} {body part : Production} {state place : ParseState} :
      Passes body { state with scope := change.apply state.scope } part place →
      Passes (.inScope change body) state part place
  | list {body part : Production} {state place : ParseState} :
      Passes body (state.record .startList) part place → Passes (.list body) state part place

end

/-! ## Runs that finish -/

namespace Outcome

def Settles (outcome other : Outcome) : Prop := outcome ≠ .outOfFuel ∧ outcome = other

variable {outcome other : Outcome}

theorem settles_matched (state : ParseState) : (matched state).Settles (matched state) :=
  ⟨by simp, rfl⟩

theorem settles_refused (state : ParseState) : (refused state).Settles (refused state) :=
  ⟨by simp, rfl⟩

theorem Settles.close (settles : outcome.Settles other) (complete back : ParseState → ParseState) :
    (outcome.close complete back).Settles (other.close complete back) := by
  obtain ⟨finished, rfl⟩ := settles
  cases outcome with
  | matched state => exact settles_matched _
  | refused state => exact settles_refused _
  | outOfFuel => exact absurd rfl finished

theorem Settles.orElse {otherwise further : ParseState → Outcome} (settles : outcome.Settles other)
    (later : ∀ next, outcome = .refused next → (otherwise next).Settles (further next)) :
    (outcome.orElse otherwise).Settles (other.orElse further) := by
  obtain ⟨finished, rfl⟩ := settles
  cases outcome with
  | matched state => exact settles_matched _
  | refused state => exact later state rfl
  | outOfFuel => exact absurd rfl finished

end Outcome

variable {terminals : Terminals} {call other : Nonterminal → ParseState → Outcome}

theorem Production.run_settles (production : Production) :
    ∀ state, (∀ callee place, production.Passes terminals call state (.call callee) place →
        (call callee place).Settles (other callee place)) →
      (production.run terminals call state).Settles (production.run terminals other state) := by
  induction production with
  | empty | take | expected kind | expectedConstruct name | hole | markTarget =>
      intro state _
      exact Outcome.settles_matched _
  | refuse =>
      intro state _
      exact Outcome.settles_refused _
  | call nonterminal =>
      intro state calls
      exact calls nonterminal state (.here _ _)
  | seq first second firstIh secondIh =>
      intro state calls
      obtain ⟨finished, same⟩ := firstIh state fun _ _ passes => calls _ _ (.seqFirst passes)
      simp only [run, ← same]
      cases ran : first.run terminals call state with
      | matched next => exact secondIh next fun _ _ passes => calls _ _ (.seqSecond ran passes)
      | refused next => exact Outcome.settles_refused _
      | outOfFuel => exact absurd ran finished
  | branch guard yes no yesIh noIh =>
      intro state calls
      simp only [run]
      split
      · rename_i holds
        exact yesIh state fun _ _ passes => calls _ _ (.branchYes holds passes)
      · rename_i fails
        exact noIh state fun _ _ passes => calls _ _ (.branchNo (Bool.eq_false_iff.mpr fails) passes)
  | node kind body ih =>
      intro state calls
      exact (ih _ fun _ _ passes => calls _ _ (.node passes)).close
        (·.complete state.checkpoint kind state.checkpoint.position) (·.rewind state.checkpoint)
  | fork head guard kindYes yes kindNo no headIh yesIh noIh =>
      intro state calls
      obtain ⟨finished, same⟩ := headIh _ fun _ _ passes => calls _ _ (.forkHead passes)
      simp only [run, ← same]
      cases ran : head.run terminals call (state.record .pending) with
      | matched middle =>
          dsimp only
          split
          · rename_i holds
            exact (yesIh middle fun _ _ passes => calls _ _ (.forkYes ran holds passes)).close
              (·.complete state.checkpoint kindYes state.checkpoint.position) (·.rewind state.checkpoint)
          · rename_i fails
            have fails := Bool.eq_false_iff.mpr fails
            exact (noIh middle fun _ _ passes => calls _ _ (.forkNo ran fails passes)).close
              (·.complete state.checkpoint kindNo state.checkpoint.position) (·.rewind state.checkpoint)
      | refused next => exact Outcome.settles_refused _
      | outOfFuel => exact absurd ran finished
  | wrap kind body ih =>
      intro state calls
      simp only [run]
      cases completed : state.completed with
      | none => exact Outcome.settles_refused _
      | some inner =>
          exact (ih _ fun _ _ passes => calls _ _ (.wrap completed passes)).close
            (·.complete state.checkpoint kind inner.first) (·.rewind state.checkpoint)
  | orElse first second firstIh secondIh =>
      intro state calls
      exact (firstIh state fun _ _ passes => calls _ _ (.orElseFirst passes)).orElse fun next ran =>
        secondIh (next.rewind state.checkpoint) fun _ _ passes => calls _ _ (.orElseSecond ran passes)
  | onceOrElse first second firstIh secondIh =>
      intro state calls
      simp only [run]
      split
      · rename_i failed
        exact secondIh state fun _ _ passes => calls _ _ (.onceAgain failed passes)
      · rename_i untried
        have fresh := Bool.eq_false_iff.mpr untried
        exact (firstIh state fun _ _ passes => calls _ _ (.onceFirst fresh passes)).orElse
          fun next ran => secondIh (next.rewind state.checkpoint).rememberArrow
            fun _ _ passes => calls _ _ (.onceSecond fresh ran passes)
  | inScope change body ih =>
      intro state calls
      exact (ih _ fun _ _ passes => calls _ _ (.inScope passes)).close
        ({ · with scope := state.scope }) ({ · with scope := state.scope })
  | list body ih =>
      intro state calls
      exact (ih _ fun _ _ passes => calls _ _ (.list passes)).close
        (·.record .finishList) (·.rewind state.checkpoint)

/-! ## What is foreseen of a run -/

theorem Guard.outlook_of_holds {terminals : Terminals} {last start : Nat} {state : ParseState}
    {guard : Guard} {value : Bool} {outlook : Outlook} (ends : terminals.EndsAt last)
    (admits : guard.holds terminals state = value) (holds : outlook.Holds last start state.position) :
    (guard.outlook value outlook).Holds last start state.position := by
  rw [guard.holds_eq terminals state .empty] at admits
  exact guard.holds_outlook ends admits holds

namespace Outcome

/-- What a survey foresaw of a run is so after a match. -/
def Foreseen (last start : Nat) (verdict : Verdict Outlook) : Outcome → Prop
  | matched state => verdict.Foresees last start state.position
  | refused _ | outOfFuel => True

namespace Foreseen

variable {last start : Nat} {verdict one two : Verdict Outlook} {outcome : Outcome}

theorem mergeLeft (legal : one.merge Outlook.merge two ≠ .illegal)
    (foreseen : outcome.Foreseen last start one) :
    outcome.Foreseen last start (one.merge Outlook.merge two) := by
  cases outcome with
  | matched state => exact Verdict.Foresees.mergeLeft legal foreseen
  | refused state => trivial
  | outOfFuel => trivial

theorem mergeRight (legal : one.merge Outlook.merge two ≠ .illegal)
    (foreseen : outcome.Foreseen last start two) :
    outcome.Foreseen last start (one.merge Outlook.merge two) := by
  cases outcome with
  | matched state => exact Verdict.Foresees.mergeRight legal foreseen
  | refused state => trivial
  | outOfFuel => trivial

theorem close (foreseen : outcome.Foreseen last start verdict) (complete back : ParseState → ParseState)
    (same : ∀ state, (complete state).position = state.position) :
    (outcome.close complete back).Foreseen last start verdict := by
  cases outcome with
  | matched state =>
      obtain ⟨outlook, reached, holds⟩ := foreseen
      exact ⟨outlook, reached, by rwa [same]⟩
  | refused state => trivial
  | outOfFuel => trivial

theorem orElse {otherwise : ParseState → Outcome} (legal : one.merge Outlook.merge two ≠ .illegal)
    (first : outcome.Foreseen last start one)
    (second : ∀ next, (otherwise next).Foreseen last start two) :
    (outcome.orElse otherwise).Foreseen last start (one.merge Outlook.merge two) := by
  cases outcome with
  | matched state => exact first.mergeLeft legal
  | refused state => exact (second state).mergeRight legal
  | outOfFuel => trivial

end Foreseen

end Outcome

def CallsForesee (last : Nat) (call : Nonterminal → ParseState → Outcome) : Prop :=
  ∀ (nonterminal : Nonterminal) (state : ParseState), state.position + nonterminal.needs ≤ last →
    (call nonterminal state).Foreseen last state.position (.reaches nonterminal.outlook)

section Survey

variable {terminals : Terminals} {last start rank : Nat} {call : Nonterminal → ParseState → Outcome}

theorem Outlook.Holds.of_call {nonterminal : Nonterminal} {outlook : Outlook} {position : Nat}
    (holds : outlook.Holds last start position)
    (legal : (Production.call nonterminal).survey rank outlook ≠ .illegal) :
    outlook ≠ .past ∧ position + nonterminal.needs ≤ last ∧ start ≤ position ∧
      (start < position ∨ nonterminal.rank < rank) := by
  simp only [Production.survey] at legal
  split at legal
  · rename_i fits
    obtain ⟨inside, needs, lower⟩ := fits
    obtain ⟨before, ahead, moves⟩ := holds.bounds inside
    exact ⟨inside, by omega, before, lower.imp_left moves⟩
  · exact absurd rfl legal

/-- A run does what a survey of its production foresees. -/
def Production.IsForeseen (terminals : Terminals) (last start rank : Nat)
    (call : Nonterminal → ParseState → Outcome) (production : Production) : Prop :=
  ∀ (outlook : Outlook) (state : ParseState), production.survey rank outlook ≠ .illegal →
    outlook.Holds last start state.position →
    (production.run terminals call state).Foreseen last start (production.survey rank outlook)

theorem Production.IsForeseen.fork (ends : terminals.EndsAt last) {head yes no : Production}
    (guard : Guard) (kindYes kindNo : Kind)
    (headForeseen : head.IsForeseen terminals last start rank call)
    (yesForeseen : yes.IsForeseen terminals last start rank call)
    (noForeseen : no.IsForeseen terminals last start rank call) :
    (fork head guard kindYes yes kindNo no).IsForeseen terminals last start rank call := by
  intro outlook state legal holds
  obtain ⟨headLegal, tailLegal⟩ := Verdict.andThen_ne_illegal legal
  have foreseen := headForeseen outlook (state.record .pending) headLegal holds
  simp only [run]
  cases ran : head.run terminals call (state.record .pending) with
  | matched middle =>
      rw [ran] at foreseen
      obtain ⟨between, reached, middleHolds⟩ := foreseen
      have mergeLegal := tailLegal between reached
      obtain ⟨yesLegal, noLegal⟩ := Verdict.merge_ne_illegal mergeLegal
      rw [survey, reached, Verdict.andThen]
      dsimp only
      split
      · rename_i admitted
        exact ((yesForeseen _ middle yesLegal
          (Guard.outlook_of_holds ends admitted middleHolds)).mergeLeft mergeLegal).close
            (·.complete state.checkpoint kindYes state.checkpoint.position)
            (·.rewind state.checkpoint) fun _ => rfl
      · rename_i rejected
        have rejected := Bool.eq_false_iff.mpr rejected
        exact ((noForeseen _ middle noLegal
          (Guard.outlook_of_holds ends rejected middleHolds)).mergeRight mergeLegal).close
            (·.complete state.checkpoint kindNo state.checkpoint.position)
            (·.rewind state.checkpoint) fun _ => rfl
  | refused next => trivial
  | outOfFuel => trivial

theorem Production.foreseen_run (ends : terminals.EndsAt last) (calls : CallsForesee last call)
    (production : Production) : production.IsForeseen terminals last start rank call := by
  induction production with
  | empty | expected kind | expectedConstruct name | hole =>
      intro outlook state _ holds
      exact ⟨outlook, rfl, holds⟩
  | markTarget =>
      intro outlook state _ holds
      refine ⟨outlook, rfl, ?_⟩
      unfold ParseState.markTarget
      split <;> exact holds
  | refuse =>
      intro outlook state _ _
      trivial
  | take =>
      intro outlook state legal holds
      obtain ⟨after, taken⟩ := Verdict.ofOption_ne_illegal legal
      exact ⟨after, by rw [survey, taken, Verdict.ofOption], holds.take taken⟩
  | call nonterminal =>
      intro outlook state legal holds
      obtain ⟨inside, needs, -, -⟩ := holds.of_call legal
      have foreseen := calls nonterminal state needs
      simp only [run]
      cases ran : call nonterminal state with
      | matched next =>
          rw [ran] at foreseen
          obtain ⟨reached, ⟨⟩, nextHolds⟩ := foreseen
          simp only [survey] at legal ⊢
          split at legal
          · rename_i fits
            exact ⟨_, if_pos fits, holds.follow inside nextHolds⟩
          · exact absurd rfl legal
      | refused next => trivial
      | outOfFuel => trivial
  | seq first second firstIh secondIh =>
      intro outlook state legal holds
      obtain ⟨firstLegal, secondLegal⟩ := Verdict.andThen_ne_illegal legal
      have foreseen := firstIh outlook state firstLegal holds
      simp only [run]
      cases ran : first.run terminals call state with
      | matched middle =>
          rw [ran] at foreseen
          obtain ⟨between, reached, middleHolds⟩ := foreseen
          rw [survey, reached, Verdict.andThen]
          exact secondIh between middle (secondLegal between reached) middleHolds
      | refused next => trivial
      | outOfFuel => trivial
  | branch guard yes no yesIh noIh =>
      intro outlook state legal holds
      obtain ⟨yesLegal, noLegal⟩ := Verdict.merge_ne_illegal legal
      simp only [run]
      split
      · rename_i admitted
        exact (yesIh _ state yesLegal (Guard.outlook_of_holds ends admitted holds)).mergeLeft legal
      · rename_i rejected
        have rejected := Bool.eq_false_iff.mpr rejected
        exact (noIh _ state noLegal (Guard.outlook_of_holds ends rejected holds)).mergeRight legal
  | node kind body ih =>
      intro outlook state legal holds
      exact (ih outlook (state.record .pending) legal holds).close
        (·.complete state.checkpoint kind state.checkpoint.position) (·.rewind state.checkpoint)
        fun _ => rfl
  | fork head guard kindYes yes kindNo no headIh yesIh noIh =>
      exact headIh.fork ends guard kindYes kindNo yesIh noIh
  | wrap kind body ih =>
      intro outlook state legal holds
      simp only [run]
      cases state.completed with
      | none => trivial
      | some inner =>
          exact (ih outlook (state.precede inner) legal holds).close
            (·.complete state.checkpoint kind inner.first) (·.rewind state.checkpoint) fun _ => rfl
  | orElse first second firstIh secondIh =>
      intro outlook state legal holds
      obtain ⟨firstLegal, secondLegal⟩ := Verdict.merge_ne_illegal legal
      exact (firstIh outlook state firstLegal holds).orElse legal fun next =>
        secondIh outlook (next.rewind state.checkpoint) secondLegal holds
  | onceOrElse first second firstIh secondIh =>
      intro outlook state legal holds
      obtain ⟨firstLegal, secondLegal⟩ := Verdict.merge_ne_illegal legal
      simp only [run]
      split
      · exact (secondIh outlook state secondLegal holds).mergeRight legal
      · exact (firstIh outlook state firstLegal holds).orElse legal fun next =>
          secondIh outlook (next.rewind state.checkpoint).rememberArrow secondLegal holds
  | inScope change body ih =>
      intro outlook state legal holds
      exact (ih outlook { state with scope := change.apply state.scope } legal holds).close
        ({ · with scope := state.scope }) ({ · with scope := state.scope }) fun _ => rfl
  | list body ih =>
      intro outlook state legal holds
      exact (ih outlook (state.record .startList) legal holds).close
        (·.record .finishList) (·.rewind state.checkpoint) fun _ => rfl

theorem Production.foresees_of_run (ends : terminals.EndsAt last) (calls : CallsForesee last call)
    {production : Production} {outlook : Outlook} {state next : ParseState}
    (ran : production.run terminals call state = .matched next)
    (legal : production.survey rank outlook ≠ .illegal) (holds : outlook.Holds last start state.position) :
    (production.survey rank outlook).Foresees last start next.position := by
  have foreseen := production.foreseen_run ends calls outlook state legal holds
  rwa [ran] at foreseen

/-! ## Where the parts of a production stand -/

def Production.parts (rank : Nat) (production : Production) (outlook : Outlook) :
    List (Production × Outlook) :=
  (production, outlook) ::
    match production with
    | .seq first second =>
        first.parts rank outlook ++
          match first.survey rank outlook with
          | .reaches middle => second.parts rank middle
          | _ => []
    | .branch guard yes no =>
        yes.parts rank (guard.outlook true outlook) ++ no.parts rank (guard.outlook false outlook)
    | .fork head guard _ yes _ no =>
        head.parts rank outlook ++
          match head.survey rank outlook with
          | .reaches middle =>
              yes.parts rank (guard.outlook true middle) ++ no.parts rank (guard.outlook false middle)
          | _ => []
    | .orElse first second | .onceOrElse first second =>
        first.parts rank outlook ++ second.parts rank outlook
    | .node _ body | .wrap _ body | .inScope _ body | .list body => body.parts rank outlook
    | _ => []

/-- A run comes to a part where a survey knows it to stand. -/
theorem Production.Passes.exists_part (ends : terminals.EndsAt last) (calls : CallsForesee last call)
    {production part : Production} {state place : ParseState}
    (passes : production.Passes terminals call state part place) :
    ∀ outlook : Outlook, production.survey rank outlook ≠ .illegal →
      outlook.Holds last start state.position →
      ∃ known, (part, known) ∈ production.parts rank outlook ∧ known.Holds last start place.position := by
  induction passes with
  | here part place =>
      intro outlook _ holds
      exact ⟨outlook, by unfold parts; exact List.mem_cons_self, holds⟩
  | seqFirst passes ih =>
      intro outlook legal holds
      obtain ⟨known, member, knownHolds⟩ := ih outlook (Verdict.andThen_ne_illegal legal).1 holds
      exact ⟨known, by simp [parts, member], knownHolds⟩
  | seqSecond ran passes ih =>
      intro outlook legal holds
      obtain ⟨firstLegal, secondLegal⟩ := Verdict.andThen_ne_illegal legal
      obtain ⟨between, reached, middleHolds⟩ := foresees_of_run ends calls ran firstLegal holds
      obtain ⟨known, member, knownHolds⟩ := ih between (secondLegal between reached) middleHolds
      exact ⟨known, by simp [parts, reached, member], knownHolds⟩
  | branchYes admitted passes ih =>
      intro outlook legal holds
      obtain ⟨known, member, knownHolds⟩ := ih _ (Verdict.merge_ne_illegal legal).1
        (Guard.outlook_of_holds ends admitted holds)
      exact ⟨known, by simp [parts, member], knownHolds⟩
  | branchNo rejected passes ih =>
      intro outlook legal holds
      obtain ⟨known, member, knownHolds⟩ := ih _ (Verdict.merge_ne_illegal legal).2
        (Guard.outlook_of_holds ends rejected holds)
      exact ⟨known, by simp [parts, member], knownHolds⟩
  | forkHead passes ih =>
      intro outlook legal holds
      obtain ⟨known, member, knownHolds⟩ := ih outlook (Verdict.andThen_ne_illegal legal).1 holds
      exact ⟨known, by simp [parts, member], knownHolds⟩
  | forkYes ran admitted passes ih =>
      intro outlook legal holds
      obtain ⟨headLegal, tailLegal⟩ := Verdict.andThen_ne_illegal legal
      obtain ⟨between, reached, middleHolds⟩ := foresees_of_run ends calls ran headLegal holds
      obtain ⟨known, member, knownHolds⟩ := ih _
        (Verdict.merge_ne_illegal (tailLegal between reached)).1
        (Guard.outlook_of_holds ends admitted middleHolds)
      exact ⟨known, by simp [parts, reached, member], knownHolds⟩
  | forkNo ran rejected passes ih =>
      intro outlook legal holds
      obtain ⟨headLegal, tailLegal⟩ := Verdict.andThen_ne_illegal legal
      obtain ⟨between, reached, middleHolds⟩ := foresees_of_run ends calls ran headLegal holds
      obtain ⟨known, member, knownHolds⟩ := ih _
        (Verdict.merge_ne_illegal (tailLegal between reached)).2
        (Guard.outlook_of_holds ends rejected middleHolds)
      exact ⟨known, by simp [parts, reached, member], knownHolds⟩
  | orElseFirst passes ih | onceFirst _ passes ih =>
      intro outlook legal holds
      obtain ⟨known, member, knownHolds⟩ := ih outlook (Verdict.merge_ne_illegal legal).1 holds
      exact ⟨known, by simp [parts, member], knownHolds⟩
  | orElseSecond _ passes ih | onceSecond _ _ passes ih | onceAgain _ passes ih =>
      intro outlook legal holds
      obtain ⟨known, member, knownHolds⟩ := ih outlook (Verdict.merge_ne_illegal legal).2 holds
      exact ⟨known, by simp [parts, member], knownHolds⟩
  | node passes ih | wrap _ passes ih | inScope passes ih | list passes ih =>
      intro outlook legal holds
      obtain ⟨known, member, knownHolds⟩ := ih outlook legal holds
      exact ⟨known, by simp [parts, member], knownHolds⟩

end Survey

end ScriptTree
