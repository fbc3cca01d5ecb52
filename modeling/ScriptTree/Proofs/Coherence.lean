import ScriptTree.Proofs.Layout

/-! # Links and tokens of a log

The links of a state repeat what its log says: they list, the latest first, the starts that are linked
and where their links lead. Its position counts the tokens of the log, which stand there in order. Each
step of a run keeps this, also where a node is started around one that has no link yet. -/
set_option autoImplicit false
namespace ScriptTree

/-! ## Events -/

namespace Event

def taken? : Event → Option Nat
  | token position => some position
  | _ => none

/-- The distance from a start to the start of the node around it. -/
def link? : Event → Option Nat
  | start _ link => link
  | _ => none

def isStart : Event → Bool
  | start _ _ => true
  | _ => false

def rekind (kind : Kind) : Event → Event
  | start _ link => start kind link
  | other => other

@[simp] theorem taken?_rekind (kind : Kind) (event : Event) :
    (event.rekind kind).taken? = event.taken? := by
  cases event <;> rfl

@[simp] theorem link?_rekind (kind : Kind) (event : Event) :
    (event.rekind kind).link? = event.link? := by
  cases event <;> rfl

@[simp] theorem isStart_rekind (kind : Kind) (event : Event) :
    (event.rekind kind).isStart = event.isStart := by
  cases event <;> rfl

@[simp] theorem taken?_relink (link : Option Nat) (event : Event) :
    (event.relink link).taken? = event.taken? := by
  cases event <;> rfl

@[simp] theorem isStart_relink (link : Option Nat) (event : Event) :
    (event.relink link).isStart = event.isStart := by
  cases event <;> rfl

/-- An edit that leaves an event's token alone leaves those of the log alone. -/
theorem filterMap_taken?_modify {edit : Event → Event}
    (same : ∀ event, (edit event).taken? = event.taken?) (log : List Event) (index : Nat) :
    (log.modify index edit).filterMap taken? = log.filterMap taken? := by
  induction log generalizing index with
  | nil => simp
  | cons event rest restSame =>
    cases index with
    | zero => simp [List.filterMap_cons, same]
    | succ index => simp [List.filterMap_cons, restSame]

end Event

namespace ParseState

/-! ## Agreement -/

def linkAt? (log : Array Event) (index : Nat) : Option Nat := log[index]?.bind Event.link?

def StartsAt (log : Array Event) (index : Nat) : Prop :=
  ∃ event, log[index]? = some event ∧ event.isStart = true

/-- The links and the position of a parse that began at `start` agree with the log. -/
structure Coherent (state : ParseState) (start : Nat) : Prop where
  /-- Links that were made later lead further. -/
  increasing : state.links.Pairwise fun later earlier => earlier.2 < later.2
  /-- The links are those of the starts in the log. -/
  linked : ∀ inner outer, (inner, outer) ∈ state.links ↔
    ∃ distance, linkAt? state.log inner = some distance ∧ outer = inner + distance
  /-- A link leads on to another start. -/
  leads : ∀ link ∈ state.links, link.1 < link.2 ∧ StartsAt state.log link.2
  started : start ≤ state.position
  /-- The tokens from the start up to the position were taken, one behind the other. -/
  tokens : state.log.toList.filterMap Event.taken? = List.range' start (state.position - start)

theorem coherent_startAt (start : Nat) : (startAt start).Coherent start where
  increasing := .nil
  linked := by simp [startAt, linkAt?]
  leads := by simp [startAt]
  started := Nat.le_refl start
  tokens := by simp [startAt]

/-- The node completed last has no node around it. -/
def IsUnwrapped (state : ParseState) : Prop :=
  ∀ inner, state.completed = some inner → ∃ kind, state.log[inner.event]? = some (.start kind none)

/-! ## Edits of a log -/

section Edits

variable {log : Array Event} {index : Nat}

theorem StartsAt.lt_size (starts : StartsAt log index) : index < log.size := by
  obtain ⟨_, here, -⟩ := starts
  exact (Array.getElem?_eq_some_iff.mp here).1

theorem StartsAt.push (starts : StartsAt log index) (event : Event) :
    StartsAt (log.push event) index := by
  obtain ⟨start, here, isStart⟩ := starts
  refine ⟨start, ?_, isStart⟩
  rw [Array.getElem?_push, if_neg (Nat.ne_of_lt (Array.getElem?_eq_some_iff.mp here).1), here]

theorem StartsAt.modify (starts : StartsAt log index) {edit : Event → Event}
    (same : ∀ event, (edit event).isStart = event.isStart) (place : Nat) :
    StartsAt (log.modify place edit) index := by
  obtain ⟨start, here, isStart⟩ := starts
  rw [StartsAt, Array.getElem?_modify, here]
  split
  · exact ⟨_, rfl, by rw [same, isStart]⟩
  · exact ⟨_, rfl, isStart⟩

theorem linkAt?_push {event : Event} (unlinked : event.link? = none) :
    linkAt? (log.push event) index = linkAt? log index := by
  rw [linkAt?, linkAt?, Array.getElem?_push]
  split
  · rename_i atEnd
    rw [atEnd, Array.getElem?_size]
    exact unlinked
  · rfl

theorem linkAt?_rekind (kind : Kind) (place : Nat) :
    linkAt? (log.modify place (Event.rekind kind)) index = linkAt? log index := by
  rw [linkAt?, linkAt?, Array.getElem?_modify]
  split
  · cases log[index]? with
    | none => rfl
    | some event => exact event.link?_rekind kind
  · rfl

theorem linkAt?_relink_of_ne {place : Nat} (apart : index ≠ place) (link : Option Nat) :
    linkAt? (log.modify place (Event.relink link)) index = linkAt? log index := by
  rw [linkAt?, linkAt?, Array.getElem?_modify, if_neg apart.symm]

theorem linkAt?_relink_self {kind : Kind} {old : Option Nat}
    (here : log[index]? = some (.start kind old)) (link : Option Nat) :
    linkAt? (log.modify index (Event.relink link)) index = link := by
  rw [linkAt?, Array.getElem?_modify, if_pos rfl, here]
  rfl

/-- A link that is set where there was none, and cut again, leaves no trace. -/
theorem relink_relink {kind : Kind} (here : log[index]? = some (.start kind none))
    (link : Option Nat) :
    (log.modify index (Event.relink link)).modify index (Event.relink none) = log := by
  refine Array.ext_getElem? fun place => ?_
  rw [Array.getElem?_modify, Array.getElem?_modify]
  split
  · rename_i same
    subst same
    rw [here]
    rfl
  · rfl

end Edits

/-! ## Steps -/

namespace Coherent

variable {state next : ParseState} {start : Nat}

theorem lt_size (coherent : state.Coherent start) {link : Nat × Nat} (member : link ∈ state.links) :
    link.2 < state.log.size :=
  (coherent.leads link member).2.lt_size

theorem congr (coherent : state.Coherent start) (log : next.log = state.log)
    (links : next.links = state.links) (position : next.position = state.position) :
    next.Coherent start := by
  obtain ⟨increasing, linked, leads, started, tokens⟩ := coherent
  constructor <;> simp only [log, links, position] <;> assumption

theorem push (coherent : state.Coherent start) (event : Event) (unlinked : event.link? = none)
    (log : next.log = state.log.push event) (links : next.links = state.links)
    (started : start ≤ next.position)
    (position : List.range' start (next.position - start) =
      List.range' start (state.position - start) ++ event.taken?.toList) :
    next.Coherent start where
  increasing := links ▸ coherent.increasing
  linked := by
    intro inner outer
    rw [links, log, coherent.linked, linkAt?_push unlinked]
  leads := by
    intro link member
    rw [links] at member
    obtain ⟨forward, starts⟩ := coherent.leads link member
    rw [log]
    exact ⟨forward, starts.push event⟩
  started := started
  tokens := by
    have added : [event].filterMap Event.taken? = event.taken?.toList := by
      cases taken : event.taken? <;> simp [taken]
    rw [log, position, Array.toList_push, List.filterMap_append, coherent.tokens, added]

theorem record (coherent : state.Coherent start) {event : Event} (unlinked : event.link? = none)
    (untaken : event.taken? = none) : (state.record event).Coherent start :=
  coherent.push event unlinked rfl rfl coherent.started (by simp [ParseState.record, untaken])

theorem take (coherent : state.Coherent start) : state.take.Coherent start := by
  have started := coherent.started
  refine coherent.push (.token state.position) rfl rfl rfl (Nat.le_succ_of_le started) ?_
  have more : state.take.position - start = state.position - start + 1 := Nat.succ_sub started
  rw [more, List.range'_1_concat, Nat.add_sub_of_le started]
  rfl

theorem complete (coherent : state.Coherent start) (checkpoint : Checkpoint) (kind : Kind) (first : Nat) :
    (state.complete checkpoint kind first).Coherent start := by
  have rekinded : { state with
      log := state.log.modify checkpoint.events (Event.rekind kind) }.Coherent start := by
    refine ⟨coherent.increasing, fun inner outer => ?_, fun link member => ?_, coherent.started, ?_⟩
    · rw [coherent.linked, linkAt?_rekind]
    · obtain ⟨forward, starts⟩ := coherent.leads link member
      exact ⟨forward, starts.modify (Event.isStart_rekind kind) _⟩
    · rw [Array.toList_modify, Event.filterMap_taken?_modify (Event.taken?_rekind kind)]
      exact coherent.tokens
  exact rekinded.push .finish rfl rfl rfl coherent.started
    (by simp [ParseState.complete, Event.taken?])

theorem precede (coherent : state.Coherent start) {inner : Completed} {kind : Kind}
    (unwrapped : state.log[inner.event]? = some (.start kind none)) :
    (state.precede inner).Coherent start := by
  have inside : inner.event < state.log.size := (Array.getElem?_eq_some_iff.mp unwrapped).1
  have alone : ∀ outer, (inner.event, outer) ∉ state.links := by
    intro outer member
    obtain ⟨distance, linked, -⟩ := (coherent.linked _ _).mp member
    simp [linkAt?, unwrapped, Event.link?] at linked
  -- The log is relinked at the inner start, and then it gets the start of the outer node.
  have log : (state.precede inner).log =
      (state.log.modify inner.event (Event.relink (some (state.log.size - inner.event)))).push
        .pending := rfl
  have links : (state.precede inner).links = (inner.event, state.log.size) :: state.links := rfl
  refine ⟨?_, fun place outer => ?_, fun link member => ?_, coherent.started, ?_⟩
  · rw [links, List.pairwise_cons]
    exact ⟨fun link member => coherent.lt_size member, coherent.increasing⟩
  · rw [links, log, linkAt?_push rfl, List.mem_cons, Prod.mk.injEq]
    by_cases same : place = inner.event
    · subst same
      rw [linkAt?_relink_self unwrapped]
      simp only [alone, true_and, or_false, Option.some.injEq, exists_eq_left']
      omega
    · rw [linkAt?_relink_of_ne same, coherent.linked]
      simp only [same, false_and, false_or]
  · rw [log]
    rcases List.mem_cons.mp (links ▸ member) with rfl | earlier
    · refine ⟨inside, .pending, ?_, rfl⟩
      rw [Array.getElem?_push, if_pos Array.size_modify.symm]
    · obtain ⟨forward, starts⟩ := coherent.leads link earlier
      exact ⟨forward, (starts.modify (Event.isStart_relink _) _).push _⟩
  · rw [log, Array.toList_push, Array.toList_modify, List.filterMap_append,
      Event.filterMap_taken?_modify (Event.taken?_relink _), coherent.tokens]
    exact List.append_nil _

end Coherent
end ParseState
end ScriptTree
