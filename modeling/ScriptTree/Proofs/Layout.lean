import ScriptTree.Parse.Run
import ScriptTree.Proofs.Discipline
import ScriptTree.Proofs.Nesting
import ScriptTree.Proofs.Trace

/-! # The log of a parse

A run on the log and a run on nested values go the same way: they match, refuse and run out of fuel
together, and what the log gained is the forest that was built. After a refusal the log only has more
at its end, so that coming back to the checkpoint restores it. -/
set_option autoImplicit false
namespace ScriptTree

namespace ParseState

/-- The place of a state in which the innermost open node or list holds a forest. -/
def place (state : ParseState) (forest : Forest) : Place :=
  ⟨state.position, forest, state.completed.map fun node => (node.kind, node.first)⟩

def history (state : ParseState) : History := ⟨state.furthest, state.failedArrows, state.targets⟩

theorem rewind_eq {state : ParseState} {checkpoint : Checkpoint} {links : List (Nat × Nat)}
    {log : Array Event}
    (cut : unlinkBeyond checkpoint.events state.links (state.log.take checkpoint.events) =
      (links, log)) :
    state.rewind checkpoint =
      { state with
        position := checkpoint.position
        log := log
        links := links
        completed := checkpoint.completed } := by
  unfold rewind
  rw [cut]

end ParseState

theorem Guard.holds_eq (terminals : Terminals) (state : ParseState) (forest : Forest) (guard : Guard) :
    guard.holds terminals state =
      guard.admits terminals state.scope (state.place forest) state.history.targets := by
  induction guard with
  | completed kinds =>
      simp only [holds, admits, ParseState.place]
      cases state.completed <;> rfl
  | completedTarget =>
      simp only [holds, admits, ParseState.place, ParseState.isCompletedTarget, ParseState.history]
      cases state.completed <;> rfl
  | not guard ih => simp only [holds, admits, ih]
  | and first second firstIh secondIh => simp only [holds, admits, firstIh, secondIh]
  | or first second firstIh secondIh => simp only [holds, admits, firstIh, secondIh]
  | _ => rfl

/-! ## Logs that are laid out -/

/-- The log has some events in front of those of a trace, and some links before those of it. -/
structure Lays (first : List Event) (outside : List (Nat × Nat)) (trace : Trace)
    (state : ParseState) : Prop where
  log : state.log.toList = first ++ trace.events none
  links : state.links = trace.links first.length ++ outside
  sound : trace.Sound
  earlier : ∀ link ∈ outside, link.2 < first.length

def Headed (first : List Event) (trace : Trace) (state : ParseState) : Prop :=
  ∃ inner, state.completed = some inner ∧
    inner.event = first.length + (trace.size - trace.lastSize) ∧ trace.endsInNode = true

namespace Lays

variable {first : List Event} {outside : List (Nat × Nat)} {trace : Trace} {state : ParseState}

theorem log_eq (lays : Lays first outside trace state) :
    state.log = (first ++ trace.events none).toArray := by
  rw [← lays.log]

theorem size (lays : Lays first outside trace state) :
    state.log.size = first.length + trace.size := by
  rw [lays.log_eq]
  simp [Trace.length_events]

theorem checkpoint (lays : Lays first outside trace state) :
    state.checkpoint = ⟨state.position, first.length + trace.size, state.completed⟩ := by
  rw [ParseState.checkpoint, lays.size]

theorem record (lays : Lays first outside trace state) (event : Event) :
    Lays (first ++ trace.events none ++ [event]) (trace.links first.length ++ outside) .empty
      (state.record event) where
  log := by simp [ParseState.record, lays.log, Trace.events]
  links := by simp [ParseState.record, lays.links, Trace.links]
  sound := trivial
  earlier := by
    intro link member
    have length := trace.length_events none
    simp only [List.length_append, List.length_cons, List.length_nil]
    rcases List.mem_append.mp member with inside | before
    · have bounds := trace.links_bounds _ link inside
      omega
    · have bound := lays.earlier link before
      omega

theorem precede (lays : Lays first outside trace state) {inner : Completed}
    (index : inner.event = first.length + (trace.size - trace.lastSize))
    (ends : trace.endsInNode = true) :
    Lays (first ++ trace.events (some trace.lastSize) ++ [.pending])
      ((first.length + (trace.size - trace.lastSize), first.length + trace.size) ::
        (trace.links first.length ++ outside))
      .empty (state.precede inner) where
  log := by
    have bound := trace.lastSize_le
    have distance : first.length + trace.size - (first.length + (trace.size - trace.lastSize)) =
        trace.lastSize := by omega
    have relinked := Trace.modify_events ends first none (some trace.lastSize)
    simp only [ParseState.precede, lays.size, index, distance, Array.toList_push,
      Array.toList_modify, lays.log]
    rw [Trace.events, List.append_nil, ← relinked]
    rfl
  links := by simp [ParseState.precede, lays.links, lays.size, index, Trace.links]
  sound := trivial
  earlier := by
    intro link member
    have length := trace.length_events (some trace.lastSize)
    simp only [List.length_append, List.length_cons, List.length_nil]
    rcases List.mem_cons.mp member with rfl | member
    · simp only
      omega
    · rcases List.mem_append.mp member with inside | before
      · have bounds := trace.links_bounds _ link inside
        omega
      · have bound := lays.earlier link before
        omega

theorem complete {link : Option Nat} {inside : Trace} {next : ParseState} {kind : Kind}
    {body : List (Nat × Nat)} {checkpoint : Checkpoint}
    (opened : Lays (first ++ trace.events link ++ [.pending]) body inside next)
    (index : checkpoint.events = first.length + trace.size) (start : Nat) :
    (next.complete checkpoint kind start).log.toList =
      first ++ (trace.events link ++ .start kind none :: (inside.events none ++ [.finish])) := by
  have length : first.length + trace.size = (first ++ trace.events link).length := by
    rw [List.length_append, Trace.length_events]
  simp only [ParseState.complete, Array.toList_push, Array.toList_modify, opened.log, index, length]
  rw [List.append_assoc (first ++ trace.events link), List.singleton_append,
    Trace.modify_length_append]
  simp [Event.pending]

theorem cut {link : Option Nat} {inside : Trace} {next : ParseState} {event : Event}
    {body : List (Nat × Nat)}
    (opened : Lays (first ++ trace.events link ++ [event]) body inside next) :
    ParseState.unlinkBeyond (first.length + trace.size) next.links
        (next.log.take (first.length + trace.size)) =
      ParseState.unlinkBeyond (first.length + trace.size) body
        (first ++ trace.events link).toArray := by
  have length : first.length + trace.size = (first ++ trace.events link).length := by
    rw [List.length_append, Trace.length_events]
  have log : next.log.take (first.length + trace.size) = (first ++ trace.events link).toArray := by
    rw [opened.log_eq, length]
    generalize first ++ trace.events link = prior
    simp
  rw [log, opened.links]
  apply ParseState.unlinkBeyond_append
  · exact Nat.le_of_eq (by rw [List.size_toArray, length])
  · intro link member
    have bounds := inside.links_bounds _ link member
    simp only [List.length_append, List.length_cons, List.length_nil] at bounds
    simp only [List.length_append] at length
    omega

theorem rewind_body {inside : Trace} {next : ParseState} {event : Event}
    (lays : Lays first outside trace state)
    (opened : Lays (first ++ trace.events none ++ [event]) (trace.links first.length ++ outside)
      inside next) :
    Lays first outside trace (next.rewind state.checkpoint) := by
  have cut : ParseState.unlinkBeyond state.checkpoint.events next.links
      (next.log.take state.checkpoint.events) =
        (trace.links first.length ++ outside, (first ++ trace.events none).toArray) := by
    rw [lays.checkpoint, opened.cut]
    apply ParseState.unlinkBeyond_of_lt
    intro link member
    rcases List.mem_append.mp member with inside | before
    · exact (trace.links_bounds _ link inside).2.2
    · exact Nat.lt_of_lt_of_le (lays.earlier link before) (by omega)
  rw [ParseState.rewind_eq cut]
  exact ⟨rfl, rfl, lays.sound, lays.earlier⟩

/-- The log of a body around the last node is cut away, and the link to it. -/
theorem rewind_wrap {inside : Trace} {next : ParseState} (lays : Lays first outside trace state)
    (ends : trace.endsInNode = true)
    (opened : Lays (first ++ trace.events (some trace.lastSize) ++ [.pending])
      ((first.length + (trace.size - trace.lastSize), first.length + trace.size) ::
        (trace.links first.length ++ outside))
      inside next) :
    Lays first outside trace (next.rewind state.checkpoint) := by
  have cut : ParseState.unlinkBeyond state.checkpoint.events next.links
      (next.log.take state.checkpoint.events) =
        (trace.links first.length ++ outside, (first ++ trace.events none).toArray) := by
    rw [lays.checkpoint, opened.cut, ParseState.unlinkBeyond, if_neg (Nat.lt_irrefl _),
      ParseState.unlink_eq, List.modify_toArray, Trace.modify_events ends]
    apply ParseState.unlinkBeyond_of_lt
    intro link member
    rcases List.mem_append.mp member with inside | before
    · exact (trace.links_bounds _ link inside).2.2
    · exact Nat.lt_of_lt_of_le (lays.earlier link before) (by omega)
  rw [ParseState.rewind_eq cut]
  exact ⟨rfl, rfl, lays.sound, lays.earlier⟩

theorem rewind_extends {grown : Trace} {next : ParseState} (lays : Lays first outside trace state)
    (extended : trace.Extends grown) (later : Lays first outside grown next) :
    Lays first outside trace (next.rewind state.checkpoint) := by
  have cut : ParseState.unlinkBeyond state.checkpoint.events next.links
      (next.log.take state.checkpoint.events) =
        (trace.links first.length ++ outside, (first ++ trace.events none).toArray) := by
    rw [lays.checkpoint, later.log_eq, later.links]
    have cutTrace := Trace.unlinkBeyond_events extended later.sound first outside lays.earlier
    simpa using cutTrace
  rw [ParseState.rewind_eq cut]
  exact ⟨rfl, rfl, lays.sound, lays.earlier⟩

end Lays

/-! ## Running on a log and on nested values -/

/-- What becomes of a run inside something that is completed or taken back. -/
def Outcome.close (complete back : ParseState → ParseState) : Outcome → Outcome
  | matched next => .matched (complete next)
  | refused next => .refused (back next)
  | outOfFuel => .outOfFuel

/-- What becomes of a run if another way is tried where it refuses. -/
def Outcome.orElse (outcome : Outcome) (otherwise : ParseState → Outcome) : Outcome :=
  match outcome with
  | .matched next => .matched next
  | .refused next => otherwise next
  | .outOfFuel => .outOfFuel

/-- A run from a state with a trace ended as a nested one did. If it matched, the verdict of the check
says what stands at the end. -/
def Mirrors (first : List Event) (outside : List (Nat × Nat)) (trace : Trace) (scope : Scope)
    (verdict : Verdict Phase) : Outcome → Parse → Prop
  | .matched next, parse =>
      ∃ grown phase, verdict = .reaches phase ∧ trace.Extends grown ∧
        Lays first outside grown next ∧ (phase.isHeaded = true → Headed first grown next) ∧
        next.scope = scope ∧ parse = .matched (next.place grown.forest) next.history
  | .refused next, parse =>
      ∃ grown, trace.Extends grown ∧ Lays first outside grown next ∧ next.scope = scope ∧
        parse = .refused next.history
  | .outOfFuel, parse => parse = .outOfFuel

/-- The productions that two ways of calling a nonterminal give mirror each other wherever the
nonterminal may stand. -/
def CallsMirror (call : Nonterminal → ParseState → Outcome)
    (nest : Nonterminal → Scope → Place → History → Parse) : Prop :=
  ∀ (nonterminal : Nonterminal) (before after : Phase) (first : List Event)
    (outside : List (Nat × Nat)) (trace : Trace) (state : ParseState),
    nonterminal.isProper = true → nonterminal.role.apply before = some after →
    Lays first outside trace state → (before.isHeaded = true → Headed first trace state) →
    Mirrors first outside trace state.scope (.reaches after) (call nonterminal state)
      (nest nonterminal state.scope (state.place trace.forest) state.history)

namespace Mirrors

variable {first : List Event} {outside : List (Nat × Nat)} {trace : Trace} {scope : Scope}

theorem of_extends {grown : Trace} {verdict : Verdict Phase} {outcome : Outcome} {parse : Parse}
    (extended : trace.Extends grown)
    (mirrors : Mirrors first outside grown scope verdict outcome parse) :
    Mirrors first outside trace scope verdict outcome parse := by
  cases outcome with
  | matched next =>
      obtain ⟨further, phase, reached, later, rest⟩ := mirrors
      exact ⟨further, phase, reached, extended.trans later, rest⟩
  | refused next =>
      obtain ⟨further, later, rest⟩ := mirrors
      exact ⟨further, extended.trans later, rest⟩
  | outOfFuel => exact mirrors

theorem mergeLeft {one other : Verdict Phase} {outcome : Outcome} {parse : Parse}
    (legal : one.merge Phase.merge other ≠ .illegal)
    (mirrors : Mirrors first outside trace scope one outcome parse) :
    Mirrors first outside trace scope (one.merge Phase.merge other) outcome parse := by
  cases outcome with
  | matched next =>
      obtain ⟨grown, phase, rfl, extended, lays, headed, rest⟩ := mirrors
      obtain ⟨merged, reached, rfl | ⟨second, joined⟩⟩ := Verdict.merge_reaches_left legal
      · exact ⟨grown, merged, reached, extended, lays, headed, rest⟩
      · exact ⟨grown, merged, reached, extended, lays,
          fun mergedHeaded => headed (Phase.isHeaded_of_merge joined mergedHeaded).1, rest⟩
  | refused next => exact mirrors
  | outOfFuel => exact mirrors

theorem mergeRight {one other : Verdict Phase} {outcome : Outcome} {parse : Parse}
    (legal : one.merge Phase.merge other ≠ .illegal)
    (mirrors : Mirrors first outside trace scope other outcome parse) :
    Mirrors first outside trace scope (one.merge Phase.merge other) outcome parse := by
  cases outcome with
  | matched next =>
      obtain ⟨grown, phase, rfl, extended, lays, headed, rest⟩ := mirrors
      obtain ⟨merged, reached, rfl | ⟨second, joined⟩⟩ := Verdict.merge_reaches_right legal
      · exact ⟨grown, merged, reached, extended, lays, headed, rest⟩
      · exact ⟨grown, merged, reached, extended, lays,
          fun mergedHeaded => headed (Phase.isHeaded_of_merge joined mergedHeaded).2, rest⟩
  | refused next => exact mirrors
  | outOfFuel => exact mirrors

theorem orElse {state : ParseState} {one other : Verdict Phase} {outcome : Outcome} {parse : Parse}
    {otherwise : ParseState → Outcome} {second : History → Parse}
    (mirrors : Mirrors first outside trace state.scope one outcome parse)
    (legal : one.merge Phase.merge other ≠ .illegal) (lays : Lays first outside trace state)
    (again : ∀ next, Lays first outside trace (next.rewind state.checkpoint) →
      next.scope = state.scope →
        Mirrors first outside trace state.scope other (otherwise next) (second next.history)) :
    Mirrors first outside trace state.scope (one.merge Phase.merge other) (outcome.orElse otherwise)
      (parse.orElse second) := by
  cases outcome with
  | matched next =>
      have kept := mirrors.mergeLeft legal
      obtain ⟨grown, _, _, _, _, _, _, rfl⟩ := mirrors
      exact kept
  | refused next =>
      obtain ⟨grown, extended, later, sameScope, rfl⟩ := mirrors
      exact (again next (lays.rewind_extends extended later) sameScope).mergeRight legal
  | outOfFuel =>
      cases mirrors
      rfl

theorem closeNode {state : ParseState} (lays : Lays first outside trace state) {kind : Kind}
    {verdict result : Verdict Phase} {outcome : Outcome} {parse : Parse}
    (leads : ∀ inside, verdict = .reaches inside →
      kind.isNode = true ∧ ∃ after, result = .reaches after)
    (mirrors : Mirrors (first ++ trace.events none ++ [.pending]) (trace.links first.length ++ outside)
      .empty state.scope verdict outcome parse) :
    Mirrors first outside trace state.scope result
      (outcome.close (·.complete state.checkpoint kind state.checkpoint.position)
        (·.rewind state.checkpoint))
      (parse.andThen fun inner later =>
        .matched ((state.place trace.forest).addNode kind inner) later) := by
  have index : state.checkpoint.events = first.length + trace.size := by rw [lays.checkpoint]
  cases outcome with
  | matched next =>
      obtain ⟨grown, inside, reached, _, opened, _, sameScope, rfl⟩ := mirrors
      obtain ⟨isNode, after, resulted⟩ := leads inside reached
      refine ⟨trace.node kind grown, after, resulted, .node .refl kind grown, ?_, ?_, sameScope, rfl⟩
      · refine ⟨opened.complete index _, ?_, ⟨lays.sound, isNode, opened.sound⟩, lays.earlier⟩
        have length := trace.length_events none
        simp [ParseState.complete, opened.links, Trace.links, length, Nat.add_assoc]
      · intro _
        refine ⟨_, rfl, ?_, rfl⟩
        simp only [index, Trace.size, Trace.lastSize]
        omega
  | refused next =>
      obtain ⟨grown, _, opened, sameScope, rfl⟩ := mirrors
      exact ⟨trace, .refl, lays.rewind_body opened, sameScope, rfl⟩
  | outOfFuel =>
      cases mirrors
      rfl

theorem closeWrap {state : ParseState} (lays : Lays first outside trace state) {kind : Kind}
    {inner : Completed} (ends : trace.endsInNode = true) {verdict result : Verdict Phase}
    {outcome : Outcome} {parse : Parse}
    (leads : ∀ inside, verdict = .reaches inside →
      kind.isNode = true ∧ ∃ after, result = .reaches after)
    (mirrors : Mirrors (first ++ trace.events (some trace.lastSize) ++ [.pending])
      ((first.length + (trace.size - trace.lastSize), first.length + trace.size) ::
        (trace.links first.length ++ outside))
      .empty state.scope verdict outcome parse) :
    Mirrors first outside trace state.scope result
      (outcome.close (·.complete state.checkpoint kind inner.first) (·.rewind state.checkpoint))
      (parse.andThen fun place later =>
        .matched ((state.place trace.forest).wrapNode kind inner.first place) later) := by
  have index : state.checkpoint.events = first.length + trace.size := by rw [lays.checkpoint]
  cases outcome with
  | matched next =>
      obtain ⟨grown, inside, reached, _, opened, _, sameScope, rfl⟩ := mirrors
      obtain ⟨isNode, after, resulted⟩ := leads inside reached
      refine ⟨trace.wrap kind grown, after, resulted, .wrap .refl kind grown, ?_, ?_, sameScope, rfl⟩
      · refine ⟨opened.complete index _, ?_, ⟨lays.sound, ends, isNode, opened.sound⟩, lays.earlier⟩
        have length := trace.length_events (some trace.lastSize)
        simp [ParseState.complete, opened.links, Trace.links, length, Nat.add_assoc]
      · intro _
        refine ⟨_, rfl, ?_, rfl⟩
        simp only [index, Trace.size, Trace.lastSize]
        omega
  | refused next =>
      obtain ⟨grown, _, opened, sameScope, rfl⟩ := mirrors
      exact ⟨trace, .refl, lays.rewind_wrap ends opened, sameScope, rfl⟩
  | outOfFuel =>
      cases mirrors
      rfl

theorem closeList {state : ParseState} (lays : Lays first outside trace state)
    {verdict result : Verdict Phase} {outcome : Outcome} {parse : Parse}
    (leads : ∀ inside, verdict = .reaches inside →
      ∃ after, result = .reaches after ∧ after.isHeaded = false)
    (mirrors : Mirrors (first ++ trace.events none ++ [.startList])
      (trace.links first.length ++ outside) .empty state.scope verdict outcome parse) :
    Mirrors first outside trace state.scope result
      (outcome.close (·.record .finishList) (·.rewind state.checkpoint))
      (parse.andThen fun inner later => .matched ((state.place trace.forest).addList inner) later) := by
  cases outcome with
  | matched next =>
      obtain ⟨grown, inside, reached, _, opened, _, sameScope, rfl⟩ := mirrors
      obtain ⟨after, resulted, bare⟩ := leads inside reached
      refine ⟨trace.list grown, after, resulted, .list .refl grown, ?_, ?_, sameScope, rfl⟩
      · refine ⟨?_, ?_, ⟨lays.sound, opened.sound⟩, lays.earlier⟩
        · simp [ParseState.record, opened.log, Trace.events]
        · have length := trace.length_events none
          simp [ParseState.record, opened.links, Trace.links, length, Nat.add_assoc]
      · intro headed
        rw [bare] at headed
        cases headed
  | refused next =>
      obtain ⟨grown, _, opened, sameScope, rfl⟩ := mirrors
      exact ⟨trace, .refl, lays.rewind_body opened, sameScope, rfl⟩
  | outOfFuel =>
      cases mirrors
      rfl

/-! ### Runs of a parse -/

theorem run_matched {verdict : Verdict Phase} {outcome : Outcome} {parse : Parse}
    (mirrors : Mirrors first outside trace scope verdict outcome parse) {place : Place}
    {later : History} (matched : parse = .matched place later) :
    ∃ grown next, outcome = .matched next ∧ Lays first outside grown next ∧
      next.place grown.forest = place ∧ next.history = later := by
  cases outcome with
  | matched next =>
      obtain ⟨grown, _, _, _, lays, _, _, same⟩ := mirrors
      cases same.symm.trans matched
      exact ⟨grown, next, rfl, lays, rfl, rfl⟩
  | refused next =>
      obtain ⟨_, _, _, _, same⟩ := mirrors
      cases same.symm.trans matched
  | outOfFuel => cases mirrors.symm.trans matched

theorem run_refused {verdict : Verdict Phase} {outcome : Outcome} {parse : Parse}
    (mirrors : Mirrors first outside trace scope verdict outcome parse) {later : History}
    (refused : parse = .refused later) :
    ∃ next, outcome = .refused next ∧ next.history = later := by
  cases outcome with
  | matched next =>
      obtain ⟨_, _, _, _, _, _, _, same⟩ := mirrors
      cases same.symm.trans refused
  | refused next =>
      obtain ⟨_, _, _, _, same⟩ := mirrors
      cases same.symm.trans refused
      exact ⟨next, rfl, rfl⟩
  | outOfFuel => cases mirrors.symm.trans refused

theorem run_outOfFuel {verdict : Verdict Phase} {outcome : Outcome} {parse : Parse}
    (mirrors : Mirrors first outside trace scope verdict outcome parse) (out : parse = .outOfFuel) :
    outcome = .outOfFuel := by
  cases outcome with
  | matched next =>
      obtain ⟨_, _, _, _, _, _, _, same⟩ := mirrors
      cases same.symm.trans out
  | refused next =>
      obtain ⟨_, _, _, _, same⟩ := mirrors
      cases same.symm.trans out
  | outOfFuel => rfl

end Mirrors

/-- A production that is checked runs on a log as on nested values, if what it calls does. -/
def Production.IsMirrored (terminals : Terminals) (call : Nonterminal → ParseState → Outcome)
    (nested : Nonterminal → Scope → Place → History → Parse) (production : Production) : Prop :=
  ∀ (phase : Phase) (first : List Event) (outside : List (Nat × Nat)) (trace : Trace)
    (state : ParseState),
    production.check phase ≠ .illegal → Lays first outside trace state →
    (phase.isHeaded = true → Headed first trace state) →
    Mirrors first outside trace state.scope (production.check phase)
      (production.run terminals call state)
      (production.nest terminals nested state.scope (state.place trace.forest) state.history)

namespace Production.IsMirrored

variable {terminals : Terminals} {call : Nonterminal → ParseState → Outcome}
  {nested : Nonterminal → Scope → Place → History → Parse} {one two body : Production}

theorem take : IsMirrored terminals call nested .take := by
  intro phase first outside trace state legal lays _
  obtain ⟨after, added, reaches⟩ := take_legal legal
  refine ⟨trace.token state.position (terminals.kindAt state.position), after, reaches,
    .token .refl _ _, ⟨?_, lays.links, lays.sound, lays.earlier⟩, ?_, rfl, rfl⟩
  · simp [ParseState.take, ParseState.record, lays.log, Trace.events]
  · intro headed
    rw [Phase.isHeaded_of_addToken added] at headed
    cases headed

theorem expected (kind : Kind) : IsMirrored terminals call nested (.expected kind) := by
  intro phase first outside trace state _ lays headed
  exact ⟨trace, phase, rfl, .refl, ⟨lays.log, lays.links, lays.sound, lays.earlier⟩, headed, rfl, rfl⟩

theorem expectedConstruct (name : String) :
    IsMirrored terminals call nested (.expectedConstruct name) := by
  intro phase first outside trace state _ lays headed
  exact ⟨trace, phase, rfl, .refl, ⟨lays.log, lays.links, lays.sound, lays.earlier⟩, headed, rfl, rfl⟩

theorem hole : IsMirrored terminals call nested .hole := by
  intro phase first outside trace state legal lays _
  obtain ⟨after, added, reaches⟩ := hole_legal legal
  refine ⟨trace.hole, after, reaches, .hole .refl, ⟨?_, lays.links, lays.sound, lays.earlier⟩, ?_,
    rfl, rfl⟩
  · simp [ParseState.record, lays.log, Trace.events]
  · intro headed
    rw [Phase.isHeaded_of_addHole added] at headed
    cases headed

theorem markTarget : IsMirrored terminals call nested .markTarget := by
  intro phase first outside trace state _ lays headed
  simp only [run, nest, ParseState.markTarget, ParseState.place]
  cases completed : state.completed with
  | none =>
      exact ⟨trace, phase, rfl, .refl, lays, headed, rfl,
        by simp [ParseState.place, History.markTarget, completed]⟩
  | some node =>
      refine ⟨trace, phase, rfl, .refl, ⟨lays.log, lays.links, lays.sound, lays.earlier⟩, ?_, rfl, ?_⟩
      · intro isHeaded
        obtain ⟨inner, same, rest⟩ := headed isHeaded
        exact ⟨inner, completed.symm.trans same, rest⟩
      · simp [ParseState.place, ParseState.history, History.markTarget]

theorem of_callsMirror (calls : CallsMirror call nested) (nonterminal : Nonterminal) :
    IsMirrored terminals call nested (.call nonterminal) := by
  intro phase first outside trace state legal lays headed
  obtain ⟨proper, after, applied, reaches⟩ := call_legal legal
  rw [reaches]
  exact calls nonterminal phase after first outside trace state proper applied lays headed

theorem seq (oneMirrored : IsMirrored terminals call nested one)
    (twoMirrored : IsMirrored terminals call nested two) :
    IsMirrored terminals call nested (.seq one two) := by
  intro phase first outside trace state legal lays headed
  obtain ⟨oneLegal, twoLegal⟩ := Verdict.andThen_ne_illegal legal
  have mirrors := oneMirrored phase first outside trace state oneLegal lays headed
  simp only [run, nest]
  cases ran : one.run terminals call state with
  | matched next =>
      rw [ran] at mirrors
      obtain ⟨grown, middle, reached, extended, later, laterHeaded, sameScope, parsed⟩ := mirrors
      have reaches : (Production.seq one two).check phase = two.check middle :=
        Verdict.andThen_of_reaches reached
      rw [parsed, reaches, ← sameScope]
      exact (twoMirrored middle first outside grown next (twoLegal middle reached) later
        laterHeaded).of_extends extended
  | refused next =>
      rw [ran] at mirrors
      obtain ⟨grown, extended, later, sameScope, parsed⟩ := mirrors
      rw [parsed]
      exact ⟨grown, extended, later, sameScope, rfl⟩
  | outOfFuel =>
      rw [ran] at mirrors
      rw [mirrors]
      rfl

theorem branch (guard : Guard) (yesMirrored : IsMirrored terminals call nested one)
    (noMirrored : IsMirrored terminals call nested two) :
    IsMirrored terminals call nested (.branch guard one two) := by
  intro phase first outside trace state legal lays headed
  obtain ⟨yesLegal, noLegal⟩ := Verdict.merge_ne_illegal legal
  simp only [run, nest, guard.holds_eq terminals state trace.forest]
  split
  · exact (yesMirrored phase first outside trace state yesLegal lays headed).mergeLeft legal
  · exact (noMirrored phase first outside trace state noLegal lays headed).mergeRight legal

theorem node (kind : Kind) (bodyMirrored : IsMirrored terminals call nested body) :
    IsMirrored terminals call nested (.node kind body) := by
  intro phase first outside trace state legal lays _
  obtain ⟨bodyLegal, nodeLegal⟩ := node_legal legal
  have mirrors := bodyMirrored (.inNode false) _ _ .empty (state.record .pending) bodyLegal
    (lays.record .pending) (by simp [Phase.isHeaded])
  refine Mirrors.closeNode lays ?_ mirrors
  intro inside reached
  obtain ⟨isNode, after, -, reaches⟩ := nodeLegal inside reached
  exact ⟨isNode, after, reaches⟩

theorem wrap (kind : Kind) (bodyMirrored : IsMirrored terminals call nested body) :
    IsMirrored terminals call nested (.wrap kind body) := by
  intro phase first outside trace state legal lays headed
  obtain ⟨isHeaded, bodyLegal, wrapLegal⟩ := wrap_legal legal
  obtain ⟨inner, completed, index, ends⟩ := headed isHeaded
  have mirrors := bodyMirrored (.inNode false) _ _ .empty (state.precede inner) bodyLegal
    (lays.precede index ends) (by simp [Phase.isHeaded])
  have place : (state.place trace.forest).completed = some (inner.kind, inner.first) := by
    simp [ParseState.place, completed]
  simp only [run, nest, completed, place]
  refine Mirrors.closeWrap lays ends ?_ mirrors
  intro inside reached
  obtain ⟨isNode, reaches⟩ := wrapLegal inside reached
  exact ⟨isNode, phase, reaches⟩

theorem list (bodyMirrored : IsMirrored terminals call nested body) :
    IsMirrored terminals call nested (.list body) := by
  intro phase first outside trace state legal lays _
  obtain ⟨bodyLegal, listLegal⟩ := list_legal legal
  have mirrors := bodyMirrored .beforeElement _ _ .empty (state.record .startList) bodyLegal
    (lays.record .startList) (by simp [Phase.isHeaded])
  refine Mirrors.closeList lays ?_ mirrors
  intro inside reached
  obtain ⟨after, added, reaches⟩ := listLegal inside reached
  exact ⟨after, reaches, Phase.isHeaded_of_addList added⟩

/-- Once the head of a fork has matched, its two ways go on in one open node. -/
theorem fork (guard : Guard) (kindYes kindNo : Kind)
    (headMirrored : IsMirrored terminals call nested body)
    (yesMirrored : IsMirrored terminals call nested one)
    (noMirrored : IsMirrored terminals call nested two) :
    IsMirrored terminals call nested (.fork body guard kindYes one kindNo two) := by
  intro phase first outside trace state legal lays _
  obtain ⟨headLegal, tailLegal⟩ := fork_legal legal
  have mirrors : Mirrors (first ++ trace.events none ++ [.pending])
      (trace.links first.length ++ outside) .empty state.scope (body.check (.inNode false))
      (body.run terminals call (state.record .pending))
      (body.nest terminals nested state.scope (state.place trace.forest).inside state.history) :=
    headMirrored (.inNode false) _ _ .empty (state.record .pending) headLegal
      (lays.record .pending) (by simp [Phase.isHeaded])
  simp only [run, nest]
  cases ran : body.run terminals call (state.record .pending) with
  | matched middle =>
      rw [ran] at mirrors
      obtain ⟨grown, between, reached, extended, later, laterHeaded, sameScope, parsed⟩ := mirrors
      obtain ⟨mergeLegal, kindLegal⟩ := tailLegal between reached
      obtain ⟨yesLegal, noLegal⟩ := Verdict.merge_ne_illegal mergeLegal
      have afterYes := ((yesMirrored between _ _ grown middle yesLegal later laterHeaded).mergeLeft
        mergeLegal).of_extends extended
      have afterNo := ((noMirrored between _ _ grown middle noLegal later laterHeaded).mergeRight
        mergeLegal).of_extends extended
      rw [sameScope] at afterYes afterNo
      simp only [parsed, Parse.andThen, guard.holds_eq terminals middle grown.forest, sameScope]
      split
      · refine afterYes.closeNode lays fun inside merged => ?_
        obtain ⟨isYes, -, after, -, reaches⟩ := kindLegal inside merged
        exact ⟨isYes, after, reaches⟩
      · refine afterNo.closeNode lays fun inside merged => ?_
        obtain ⟨-, isNo, after, -, reaches⟩ := kindLegal inside merged
        exact ⟨isNo, after, reaches⟩
  | refused middle =>
      rw [ran] at mirrors
      obtain ⟨grown, extended, later, sameScope, parsed⟩ := mirrors
      rw [parsed]
      exact ⟨trace, .refl, lays.rewind_body later, sameScope, rfl⟩
  | outOfFuel =>
      rw [ran] at mirrors
      rw [mirrors]
      rfl

theorem orElse (oneMirrored : IsMirrored terminals call nested one)
    (twoMirrored : IsMirrored terminals call nested two) :
    IsMirrored terminals call nested (.orElse one two) := by
  intro phase first outside trace state legal lays headed
  obtain ⟨oneLegal, twoLegal⟩ := Verdict.merge_ne_illegal legal
  refine (oneMirrored phase first outside trace state oneLegal lays headed).orElse legal lays ?_
  intro next back sameScope
  have again := twoMirrored phase first outside trace (next.rewind state.checkpoint) twoLegal back
    headed
  have scope : (next.rewind state.checkpoint).scope = state.scope := sameScope
  rw [scope] at again
  exact again

theorem onceOrElse (oneMirrored : IsMirrored terminals call nested one)
    (twoMirrored : IsMirrored terminals call nested two) :
    IsMirrored terminals call nested (.onceOrElse one two) := by
  intro phase first outside trace state legal lays headed
  obtain ⟨oneLegal, twoLegal⟩ := Verdict.merge_ne_illegal legal
  have remembered : state.arrowFailed =
      state.history.failedArrows.contains ((state.place trace.forest).position, state.scope) := rfl
  simp only [run, nest, remembered]
  split
  · exact (twoMirrored phase first outside trace state twoLegal lays headed).mergeRight legal
  · refine (oneMirrored phase first outside trace state oneLegal lays headed).orElse legal lays ?_
    intro next back sameScope
    -- The second way starts from what is remembered of the failure as well.
    have again := twoMirrored phase first outside trace (next.rewind state.checkpoint).rememberArrow
      twoLegal ⟨back.log, back.links, back.sound, back.earlier⟩ headed
    have scope : (next.rewind state.checkpoint).rememberArrow.scope = state.scope := sameScope
    have history : (next.rewind state.checkpoint).rememberArrow.history =
        next.history.rememberArrow state.position state.scope := by
      rw [← sameScope]
      rfl
    rw [scope, history] at again
    exact again

theorem inScope (change : ScopeChange) (bodyMirrored : IsMirrored terminals call nested body) :
    IsMirrored terminals call nested (.inScope change body) := by
  intro phase first outside trace state legal lays headed
  have mirrors := bodyMirrored phase first outside trace
    { state with scope := change.apply state.scope } legal
    ⟨lays.log, lays.links, lays.sound, lays.earlier⟩ headed
  simp only [run, nest]
  cases ran : body.run terminals call { state with scope := change.apply state.scope } with
  | matched next =>
      rw [ran] at mirrors
      obtain ⟨grown, after, reached, extended, later, laterHeaded, _, parsed⟩ := mirrors
      exact ⟨grown, after, reached, extended,
        ⟨later.log, later.links, later.sound, later.earlier⟩, laterHeaded, rfl, parsed⟩
  | refused next =>
      rw [ran] at mirrors
      obtain ⟨grown, extended, later, _, parsed⟩ := mirrors
      exact ⟨grown, extended, ⟨later.log, later.links, later.sound, later.earlier⟩, rfl, parsed⟩
  | outOfFuel =>
      rw [ran] at mirrors
      exact mirrors

end Production.IsMirrored

theorem Production.run_mirrors (terminals : Terminals) {call : Nonterminal → ParseState → Outcome}
    {nested : Nonterminal → Scope → Place → History → Parse} (calls : CallsMirror call nested)
    (production : Production) : production.IsMirrored terminals call nested := by
  induction production with
  | empty =>
      intro phase first outside trace state _ lays headed
      exact ⟨trace, phase, rfl, .refl, lays, headed, rfl, rfl⟩
  | refuse =>
      intro phase first outside trace state _ lays _
      exact ⟨trace, .refl, lays, rfl, rfl⟩
  | take => exact .take
  | expected kind => exact .expected kind
  | expectedConstruct name => exact .expectedConstruct name
  | call nonterminal => exact .of_callsMirror calls nonterminal
  | seq one two oneMirrored twoMirrored => exact oneMirrored.seq twoMirrored
  | branch guard yes no yesMirrored noMirrored => exact yesMirrored.branch guard noMirrored
  | node kind body mirrored => exact mirrored.node kind
  | fork head guard kindYes yes kindNo no headMirrored yesMirrored noMirrored =>
      exact headMirrored.fork guard kindYes kindNo yesMirrored noMirrored
  | wrap kind body mirrored => exact mirrored.wrap kind
  | orElse one two oneMirrored twoMirrored => exact oneMirrored.orElse twoMirrored
  | onceOrElse one two oneMirrored twoMirrored => exact oneMirrored.onceOrElse twoMirrored
  | inScope change body mirrored => exact mirrored.inScope change
  | list body mirrored => exact mirrored.list
  | hole => exact .hole
  | markTarget => exact .markTarget

theorem Nonterminal.runWith_mirrors {grammar : Nonterminal → Production}
    (same : ∀ nonterminal phase, (grammar nonterminal).check phase = nonterminal.production.check phase)
    (terminals : Terminals) (fuel : Nat) :
    CallsMirror (runWith grammar terminals fuel) (nestWith grammar terminals fuel) := by
  induction fuel with
  | zero =>
      intro nonterminal before after first outside trace state _ _ _ _
      rfl
  | succ fuel ih =>
      intro nonterminal before after first outside trace state proper applied lays headed
      obtain ⟨phase, member, reaches, weakened⟩ := Role.exists_phase applied
      have weaker : phase.isHeaded = true → before.isHeaded = true := by
        rcases weakened with rfl | ⟨_, rfl, rfl⟩
        · exact id
        · simp [Phase.isHeaded]
      have checked := nonterminal.check_production proper phase member
      rw [reaches, Verdict.ofOption, ← same] at checked
      have mirrors := (grammar nonterminal).run_mirrors terminals ih phase first outside trace state
        (by simp [checked]) lays fun isHeaded => headed (weaker isHeaded)
      rw [checked] at mirrors
      exact mirrors

end ScriptTree
