import ScriptTree.Proofs.Coherence
import ScriptTree.Proofs.PassedCalls

/-! # Rolling back

A run that is refused has only added to the log, behind the events that were there, and has put nodes
around the last one that was complete. So coming back to where it was tried restores the log and the
links exactly. With that, agreement of links, tokens and log goes through every run. -/
set_option autoImplicit false
namespace ScriptTree

/-! ## Restored states -/

namespace ParseState

/-- A state is again what another one was, except for what is remembered of failures. -/
structure Restores (after before : ParseState) : Prop where
  position : after.position = before.position
  log : after.log = before.log
  links : after.links = before.links
  scope : after.scope = before.scope
  completed : after.completed = before.completed

def EndsInNode (state : ParseState) : Prop :=
  ∃ first outside trace, Lays first outside trace state ∧ Headed first trace state

/-- A production that is checked in a phase may run at a state. -/
structure Stands (start : Nat) (phase : Phase) (state : ParseState) : Prop where
  coherent : state.Coherent start
  headed : phase.isHeaded = true → state.EndsInNode

variable {state next after before : ParseState} {start : Nat}

theorem Restores.coherent (restores : after.Restores before) (coherent : before.Coherent start) :
    after.Coherent start :=
  coherent.congr restores.log restores.links restores.position

theorem restores_refl (state : ParseState) : state.Restores state := ⟨rfl, rfl, rfl, rfl, rfl⟩

theorem Restores.trans {earlier : ParseState} (later : after.Restores before)
    (sooner : before.Restores earlier) : after.Restores earlier where
  position := later.position.trans sooner.position
  log := later.log.trans sooner.log
  links := later.links.trans sooner.links
  scope := later.scope.trans sooner.scope
  completed := later.completed.trans sooner.completed

theorem EndsInNode.congr (ends : state.EndsInNode) (log : next.log = state.log)
    (links : next.links = state.links) (completed : next.completed = state.completed) :
    next.EndsInNode := by
  obtain ⟨first, outside, trace, lays, inner, here, headed⟩ := ends
  exact ⟨first, outside, trace, ⟨log ▸ lays.log, links ▸ lays.links, lays.sound, lays.earlier⟩,
    inner, completed.trans here, headed⟩

theorem Stands.congr {phase : Phase} (stands : state.Stands start phase) (log : next.log = state.log)
    (links : next.links = state.links) (position : next.position = state.position)
    (completed : next.completed = state.completed) : next.Stands start phase where
  coherent := stands.coherent.congr log links position
  headed := fun isHeaded => (stands.headed isHeaded).congr log links completed

theorem Stands.of_restores {phase : Phase} (stands : before.Stands start phase)
    (restores : after.Restores before) : after.Stands start phase :=
  stands.congr restores.log restores.links restores.position restores.completed

theorem Coherent.stands (coherent : state.Coherent start) {phase : Phase}
    (unheaded : phase.isHeaded = false) : state.Stands start phase :=
  ⟨coherent, fun headed => by simp [unheaded] at headed⟩

/-- The whole log of a state lies in front of what comes next. -/
theorem Coherent.lays (coherent : state.Coherent start) :
    Lays state.log.toList state.links .empty state where
  log := by simp [Trace.events]
  links := rfl
  sound := trivial
  earlier := fun _ member => coherent.lt_size member

theorem Stands.exists_lays {phase : Phase} (stands : state.Stands start phase) :
    ∃ first outside trace, Lays first outside trace state ∧
      (phase.isHeaded = true → Headed first trace state) := by
  cases isHeaded : phase.isHeaded with
  | true =>
    obtain ⟨first, outside, trace, lays, headed⟩ := stands.headed isHeaded
    exact ⟨first, outside, trace, lays, fun _ => headed⟩
  | false => exact ⟨_, _, _, stands.coherent.lays, by simp⟩

end ParseState

theorem Trace.exists_start {trace : Trace} (ends : trace.endsInNode = true) (link : Option Nat) :
    ∃ kind, (trace.events link)[trace.size - trace.lastSize]? = some (.start kind link) := by
  have atStart : ∀ (left right : List Event) (kind : Kind) (index : Nat), index = left.length →
      (left ++ .start kind link :: right)[index]? = some (.start kind link) := by
    rintro left right kind _ rfl
    simp
  cases trace with
  | node before kind children | wrap before kind children =>
    refine ⟨kind, atStart _ _ kind _ ?_⟩
    simp only [size, lastSize, length_events]
    omega
  | empty | token before position kind | hole before | list before items =>
    exact absurd ends (by simp [endsInNode])

theorem ParseState.EndsInNode.isUnwrapped {state : ParseState} (ends : state.EndsInNode) :
    state.IsUnwrapped := by
  obtain ⟨first, outside, trace, lays, headed⟩ := ends
  rintro inner completed
  obtain ⟨_, same, index, endsInNode⟩ := headed
  obtain rfl := Option.some.inj (same.symm.trans completed)
  obtain ⟨kind, here⟩ := trace.exists_start endsInNode none
  refine ⟨kind, ?_⟩
  rw [← Array.getElem?_toList, lays.log, index, List.getElem?_append_right (by omega),
    Nat.add_sub_cancel_left, here]

/-- A log that is laid out as it was is the log that it was. -/
theorem ParseState.restores_rewind {first : List Event} {outside : List (Nat × Nat)}
    {trace : Trace} {state next : ParseState} (lays : Lays first outside trace state)
    (back : Lays first outside trace (next.rewind state.checkpoint))
    (scope : next.scope = state.scope) : (next.rewind state.checkpoint).Restores state where
  position := rfl
  log := back.log_eq.trans lays.log_eq.symm
  links := back.links.trans lays.links.symm
  scope := scope
  completed := rfl

/-! ### The link of a node that is put around another one -/

namespace ParseState

/-- The log, with a link from a node to where the log ends. -/
def linkedLog (state : ParseState) (inner : Completed) : Array Event :=
  state.log.modify inner.event (Event.relink (some (state.log.size - inner.event)))

variable {state : ParseState} {inner : Completed} {kind : Kind} {start : Nat}

theorem Coherent.lays_precede (coherent : state.Coherent start)
    (unwrapped : state.log[inner.event]? = some (.start kind none)) :
    Lays ((state.linkedLog inner).toList ++ Trace.empty.events none ++ [.pending])
      ((inner.event, state.log.size) :: state.links) .empty (state.precede inner) := by
  have log : (state.precede inner).log.toList =
      (state.linkedLog inner).toList ++ Trace.empty.events none ++ [.pending] := by
    rw [Trace.events, List.append_nil]
    exact Array.toList_push
  exact log ▸ (coherent.precede unwrapped).lays

theorem Coherent.unlinkBeyond_linkedLog (coherent : state.Coherent start)
    (unwrapped : state.log[inner.event]? = some (.start kind none)) :
    unlinkBeyond state.log.size ((inner.event, state.log.size) :: state.links)
      (state.linkedLog inner) = (state.links, state.log) := by
  rw [unlinkBeyond, if_neg (Nat.lt_irrefl _), unlink_eq, linkedLog, relink_relink unwrapped]
  exact unlinkBeyond_of_lt _ fun link member => coherent.lt_size member

end ParseState

/-! ## What a run leaves -/

namespace Outcome

variable {start : Nat}

def Follows (state : ParseState) (verdict : Verdict Phase) : Outcome → Prop
  | matched next =>
      ∃ phase, verdict = .reaches phase ∧ (phase.isHeaded = true → next.EndsInNode)
  | refused next => (next.rewind state.checkpoint).Restores state
  | outOfFuel => True

/-- What a run leaves agrees with its log, whether it matched or was refused. -/
def IsCoherent (start : Nat) : Outcome → Prop
  | matched next | refused next => next.Coherent start
  | outOfFuel => True

theorem IsCoherent.close {outcome : Outcome} {complete back : ParseState → ParseState}
    (coherent : outcome.IsCoherent start)
    (completed : ∀ next : ParseState, next.Coherent start → (complete next).Coherent start)
    (restored : ∀ next, outcome = .refused next → (back next).Coherent start) :
    (outcome.close complete back).IsCoherent start := by
  cases outcome with
  | matched next => exact completed next coherent
  | refused next => exact restored next rfl
  | outOfFuel => trivial

theorem IsCoherent.orElse {outcome : Outcome} {otherwise : ParseState → Outcome}
    (coherent : outcome.IsCoherent start)
    (later : ∀ next, outcome = .refused next → (otherwise next).IsCoherent start) :
    (outcome.orElse otherwise).IsCoherent start := by
  cases outcome with
  | matched next => exact coherent
  | refused next => exact later next rfl
  | outOfFuel => trivial

end Outcome

theorem Mirrors.follows {first : List Event} {outside : List (Nat × Nat)} {trace : Trace}
    {state : ParseState} {verdict : Verdict Phase} {outcome : Outcome} {parse : Parse}
    (mirrors : Mirrors first outside trace state.scope verdict outcome parse)
    (lays : Lays first outside trace state) : outcome.Follows state verdict := by
  cases outcome with
  | matched next =>
    obtain ⟨grown, phase, reached, -, later, headed, -⟩ := mirrors
    exact ⟨phase, reached, fun isHeaded => ⟨first, outside, grown, later, headed isHeaded⟩⟩
  | refused next =>
    obtain ⟨grown, extended, later, scope, -⟩ := mirrors
    exact ParseState.restores_rewind lays (lays.rewind_extends extended later) scope
  | outOfFuel => trivial

section Runs

variable {start : Nat} {terminals : Terminals} {call : Nonterminal → ParseState → Outcome}
  {nested : Nonterminal → Scope → Place → History → Parse} (calls : CallsMirror call nested)
include calls

theorem Production.follows_run (production : Production) {phase : Phase} {state : ParseState}
    {outcome : Outcome} (legal : production.check phase ≠ .illegal) (stands : state.Stands start phase)
    (ran : production.run terminals call state = outcome) :
    outcome.Follows state (production.check phase) := by
  subst ran
  obtain ⟨first, outside, trace, lays, headed⟩ := stands.exists_lays
  exact (production.run_mirrors terminals calls phase first outside trace state legal lays
    headed).follows lays

theorem Production.stands_of_refused (production : Production) {phase : Phase}
    {state next : ParseState} (legal : production.check phase ≠ .illegal)
    (stands : state.Stands start phase) (ran : production.run terminals call state = .refused next) :
    (next.rewind state.checkpoint).Stands start phase :=
  stands.of_restores (production.follows_run calls legal stands ran)

/-- What a body did behind an event is taken back, and the event. -/
theorem Production.restores_of_record (body : Production) {phase : Phase} {state next : ParseState}
    {event : Event} (legal : body.check phase ≠ .illegal) (unheaded : phase.isHeaded = false)
    (coherent : state.Coherent start) (ran : body.run terminals call (state.record event) = .refused next) :
    (next.rewind state.checkpoint).Restores state := by
  have mirrors := body.run_mirrors terminals calls phase _ _ .empty (state.record event) legal
    (coherent.lays.record event) (by simp [unheaded])
  rw [ran] at mirrors
  obtain ⟨grown, -, later, scope, -⟩ := mirrors
  exact ParseState.restores_rewind coherent.lays (coherent.lays.rewind_body later) scope

/-- What a body did behind the start of a node around another one is taken back, with the link to that
start. -/
theorem Production.restores_of_precede (body : Production) {phase : Phase} {state next : ParseState}
    {inner : Completed} (legal : body.check phase ≠ .illegal) (unheaded : phase.isHeaded = false)
    (coherent : state.Coherent start) {kind : Kind}
    (unwrapped : state.log[inner.event]? = some (.start kind none))
    (ran : body.run terminals call (state.precede inner) = .refused next) :
    (next.rewind state.checkpoint).Restores state := by
  have mirrors := body.run_mirrors terminals calls phase _ _ .empty (state.precede inner) legal
    (coherent.lays_precede unwrapped) (by simp [unheaded])
  rw [ran] at mirrors
  obtain ⟨grown, -, later, scope, -⟩ := mirrors
  have size : (state.linkedLog inner).toList.length + Trace.empty.size = state.log.size := by
    simp [ParseState.linkedLog, Trace.size]
  have cut := later.cut
  rw [Trace.events, List.append_nil, Array.toArray_toList, size,
    coherent.unlinkBeyond_linkedLog unwrapped] at cut
  rw [ParseState.rewind_eq cut]
  exact ⟨rfl, rfl, rfl, scope, rfl⟩

/-! ## Agreement along a run -/

def CallsCohere (start : Nat) (call : Nonterminal → ParseState → Outcome) : Prop :=
  ∀ (nonterminal : Nonterminal) (before after : Phase) (state : ParseState),
    nonterminal.isProper = true → nonterminal.role.apply before = some after →
    state.Stands start before → (call nonterminal state).IsCoherent start

def Production.Coheres (start : Nat) (terminals : Terminals) (call : Nonterminal → ParseState → Outcome)
    (production : Production) : Prop :=
  ∀ (phase : Phase) (state : ParseState), production.check phase ≠ .illegal →
    state.Stands start phase → (production.run terminals call state).IsCoherent start

namespace Production.Coheres

theorem stands_of_matched {production : Production} (coheres : production.Coheres start terminals call)
    {phase : Phase} {state next : ParseState} (legal : production.check phase ≠ .illegal)
    (stands : state.Stands start phase) (ran : production.run terminals call state = .matched next) :
    ∃ after, production.check phase = .reaches after ∧ next.Stands start after := by
  obtain ⟨after, reached, headed⟩ := production.follows_run calls legal stands ran
  have coherent := coheres phase state legal stands
  rw [ran] at coherent
  exact ⟨after, reached, coherent, headed⟩

theorem seq {first second : Production} (firstCoheres : first.Coheres start terminals call)
    (secondCoheres : second.Coheres start terminals call) : (seq first second).Coheres start terminals call := by
  intro phase state legal stands
  obtain ⟨firstLegal, secondLegal⟩ := Verdict.andThen_ne_illegal legal
  have coherent := firstCoheres phase state firstLegal stands
  simp only [run]
  cases ran : first.run terminals call state with
  | matched next =>
    obtain ⟨after, reached, later⟩ := firstCoheres.stands_of_matched calls firstLegal stands ran
    exact secondCoheres after next (secondLegal after reached) later
  | refused next =>
    rw [ran] at coherent
    exact coherent
  | outOfFuel => trivial

omit calls in
theorem branch (guard : Guard) {yes no : Production} (yesCoheres : yes.Coheres start terminals call)
    (noCoheres : no.Coheres start terminals call) : (branch guard yes no).Coheres start terminals call := by
  intro phase state legal stands
  obtain ⟨yesLegal, noLegal⟩ := Verdict.merge_ne_illegal legal
  simp only [run]
  split
  · exact yesCoheres phase state yesLegal stands
  · exact noCoheres phase state noLegal stands

theorem node {body : Production} (coheres : body.Coheres start terminals call)
    (legal : body.check (.inNode false) ≠ .illegal) (kind : Kind) {state : ParseState}
    (coherent : state.Coherent start) : ((node kind body).run terminals call state).IsCoherent start := by
  have opened : (state.record .pending).Coherent start := coherent.record rfl rfl
  refine Outcome.IsCoherent.close (coheres _ _ legal (opened.stands rfl))
    (fun next later => later.complete _ _ _) fun next ran => ?_
  exact (body.restores_of_record calls legal rfl coherent ran).coherent coherent

end Production.Coheres

omit calls in
/-- A node of which the kind is decided late is, but for its kind, one around all of its body. -/
theorem Production.exists_node_of_fork (head : Production) (guard : Guard) (kindYes : Kind)
    (yes : Production) (kindNo : Kind) (no : Production) (state : ParseState) :
    ∃ kind, (fork head guard kindYes yes kindNo no).run terminals call state =
      (node kind (seq head (branch guard yes no))).run terminals call state := by
  simp only [run]
  cases head.run terminals call (state.record .pending) with
  | matched middle =>
    dsimp only
    split
    · exact ⟨kindYes, rfl⟩
    · exact ⟨kindNo, rfl⟩
  | refused middle => exact ⟨kindYes, rfl⟩
  | outOfFuel => exact ⟨kindYes, rfl⟩

omit calls in
theorem Production.legal_body_of_fork {head yes no : Production} {guard : Guard}
    {kindYes kindNo : Kind} {phase : Phase}
    (legal : (fork head guard kindYes yes kindNo no).check phase ≠ .illegal) :
    (seq head (branch guard yes no)).check (.inNode false) ≠ .illegal := by
  obtain ⟨headLegal, tailLegal⟩ := fork_legal legal
  simp only [check]
  cases reached : head.check (.inNode false) with
  | illegal => exact absurd reached headLegal
  | never => simp [Verdict.andThen]
  | reaches middle => exact (tailLegal middle reached).1

theorem Production.coheres_run (cohere : CallsCohere start call) (production : Production) :
    production.Coheres start terminals call := by
  induction production with
  | empty | refuse =>
    intro phase state _ stands
    exact stands.coherent
  | expected kind | expectedConstruct name =>
    intro phase state _ stands
    exact stands.coherent.congr rfl rfl rfl
  | take =>
    intro phase state _ stands
    exact stands.coherent.take
  | hole =>
    intro phase state _ stands
    exact stands.coherent.record rfl rfl
  | markTarget =>
    intro phase state _ stands
    simp only [run, ParseState.markTarget]
    split
    · exact stands.coherent.congr rfl rfl rfl
    · exact stands.coherent
  | call nonterminal =>
    intro phase state legal stands
    obtain ⟨proper, after, applied, -⟩ := call_legal legal
    exact cohere nonterminal phase after state proper applied stands
  | seq first second firstIh secondIh => exact firstIh.seq calls secondIh
  | branch guard yes no yesIh noIh => exact yesIh.branch guard noIh
  | node kind body ih =>
    intro phase state legal stands
    exact ih.node calls (node_legal legal).1 kind stands.coherent
  | fork head guard kindYes yes kindNo no headIh yesIh noIh =>
    intro phase state legal stands
    obtain ⟨kind, same⟩ := exists_node_of_fork head guard kindYes yes kindNo no state
    rw [same]
    exact (headIh.seq calls (yesIh.branch guard noIh)).node calls (legal_body_of_fork legal) kind
      stands.coherent
  | wrap kind body ih =>
    intro phase state legal stands
    obtain ⟨isHeaded, bodyLegal, -⟩ := wrap_legal legal
    simp only [run]
    cases completed : state.completed with
    | none => exact stands.coherent
    | some inner =>
      obtain ⟨_, unwrapped⟩ := (stands.headed isHeaded).isUnwrapped inner completed
      have opened := stands.coherent.precede unwrapped
      refine Outcome.IsCoherent.close (ih _ _ bodyLegal (opened.stands rfl))
        (fun next later => later.complete _ _ _) fun next ran => ?_
      exact (body.restores_of_precede calls bodyLegal rfl stands.coherent unwrapped ran).coherent
        stands.coherent
  | orElse first second firstIh secondIh =>
    intro phase state legal stands
    obtain ⟨firstLegal, secondLegal⟩ := Verdict.merge_ne_illegal legal
    refine Outcome.IsCoherent.orElse (firstIh phase state firstLegal stands) fun next ran => ?_
    exact secondIh phase _ secondLegal (first.stands_of_refused calls firstLegal stands ran)
  | onceOrElse first second firstIh secondIh =>
    intro phase state legal stands
    obtain ⟨firstLegal, secondLegal⟩ := Verdict.merge_ne_illegal legal
    simp only [run]
    split
    · exact secondIh phase state secondLegal stands
    · refine Outcome.IsCoherent.orElse (firstIh phase state firstLegal stands) fun next ran => ?_
      have back := first.stands_of_refused calls firstLegal stands ran
      exact secondIh phase _ secondLegal (back.congr rfl rfl rfl rfl)
  | inScope change body ih =>
    intro phase state legal stands
    have inner : ParseState.Stands start phase { state with scope := change.apply state.scope } :=
      stands.congr rfl rfl rfl rfl
    have coherent := ih phase _ legal inner
    refine Outcome.IsCoherent.close coherent (fun next later => later.congr rfl rfl rfl) ?_
    intro next ran
    rw [ran] at coherent
    exact ParseState.Coherent.congr coherent rfl rfl rfl
  | list body ih =>
    intro phase state legal stands
    obtain ⟨bodyLegal, -⟩ := list_legal legal
    have opened : (state.record .startList).Coherent start := stands.coherent.record rfl rfl
    refine Outcome.IsCoherent.close (ih _ _ bodyLegal (opened.stands rfl))
      (fun next later => later.record rfl rfl) fun next ran => ?_
    exact (body.restores_of_record calls bodyLegal rfl stands.coherent ran).coherent stands.coherent

end Runs

namespace Nonterminal

theorem callsMirror_runWith (terminals : Terminals) (fuel : Nat) :
    CallsMirror (runWith production terminals fuel) (nestWith production terminals fuel) :=
  runWith_mirrors (fun _ _ => rfl) terminals fuel

theorem exists_stands {nonterminal : Nonterminal} {before after : Phase} {state : ParseState}
    {start : Nat} (proper : nonterminal.isProper = true) (applied : nonterminal.role.apply before = some after)
    (stands : state.Stands start before) :
    ∃ phase, nonterminal.production.check phase ≠ .illegal ∧ state.Stands start phase := by
  obtain ⟨phase, member, reaches, weakened⟩ := Role.exists_phase applied
  have checked := nonterminal.check_production proper phase member
  rw [reaches] at checked
  refine ⟨phase, by simp [checked, Verdict.ofOption], stands.coherent, fun headed => ?_⟩
  obtain rfl | ⟨_, -, rfl⟩ := weakened
  · exact stands.headed headed
  · cases headed

theorem callsCohere_runWith (start : Nat) (terminals : Terminals) (fuel : Nat) :
    CallsCohere start (runWith production terminals fuel) := by
  induction fuel with
  | zero =>
    intro nonterminal before after state _ _ _
    trivial
  | succ fuel ih =>
    intro nonterminal before after state proper applied stands
    obtain ⟨phase, legal, inner⟩ := exists_stands proper applied stands
    exact nonterminal.production.coheres_run (callsMirror_runWith terminals fuel) ih phase state
      legal inner

end Nonterminal

end ScriptTree
