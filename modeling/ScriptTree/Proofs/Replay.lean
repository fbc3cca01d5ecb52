import ScriptTree.Proofs.Shifting

/-! # Reading a log back

A log is read from its start, and what was read is never looked at again: where a node is linked to the
one around it, the start of that one lies ahead and is passed over when its turn comes. So the events
of a trace give the steps of its forest. -/
set_option autoImplicit false
namespace ScriptTree

def Forest.steps (start : TokenId) : Forest → List BuildStep
  | empty => []
  | token before position _ => before.steps start ++ [.token (start + position)]
  | hole before => before.steps start ++ [.elision]
  | node before kind children =>
      before.steps start ++ .startNode kind :: (children.steps start ++ [.finishNode])
  | list before items =>
      before.steps start ++ .startList :: (items.steps start ++ [.finishList])

@[simp] theorem Forest.steps_append (start : TokenId) (left right : Forest) :
    (left ++ right).steps start = left.steps start ++ right.steps start := by
  induction right with
  | empty => simp [steps]
  | token before position kind ih => simp [steps, ih]
  | hole before ih => simp [steps, ih]
  | node before kind children ih _ => simp [steps, ih]
  | list before items ih _ => simp [steps, ih]

/-- The steps of a trace if there are nodes of these kinds around its last node, the innermost
first. -/
def Trace.steps (start : TokenId) : Trace → List Kind → List BuildStep
  | empty, _ => []
  | token before position _, _ => before.steps start [] ++ [.token (start + position)]
  | hole before, _ => before.steps start [] ++ [.elision]
  | list before items, _ =>
      before.steps start [] ++ .startList :: (items.steps start [] ++ [.finishList])
  | node before kind children, around =>
      before.steps start [] ++ (kind :: around).reverse.map BuildStep.startNode ++
        (children.steps start [] ++ [.finishNode])
  | wrap before kind children, around =>
      before.steps start (kind :: around) ++ (children.steps start [] ++ [.finishNode])

/-! ## Reading events ahead -/

namespace Event

/-- The step of an event that gives one by itself. -/
def step? : Event → Option BuildStep
  | .token position => some (.token position)
  | .hole => some .elision
  | .startList => some .startList
  | .finishList => some .finishList
  | .finish => some .finishNode
  | .start .. => none

/-- The events ahead give these steps, whatever was read before them. -/
def Gives (budget : Nat) (rest : List Event) (steps : List BuildStep) : Prop :=
  ∀ first : List Event, stepsFrom budget (first ++ rest).toArray first.length = some steps

/-- The node that starts the events ahead and those around it have these kinds; without their starts
the events are `after`. -/
def Chains (rest : List Event) (kinds : List Kind) (after : List Event) : Prop :=
  ∀ (first : List Event) (budget : Nat), rest.length ≤ budget →
    chain budget (first ++ rest).toArray first.length = some (kinds, (first ++ after).toArray)

theorem getElem?_ahead (first rest : List Event) (event : Event) :
    (first ++ event :: rest).toArray[first.length]? = some event := by
  simp

theorem modify_ahead (first rest : List Event) (event : Event) (f : Event → Event) :
    (first ++ event :: rest).toArray.modify first.length f = (first ++ f event :: rest).toArray := by
  rw [List.modify_toArray, Trace.modify_length_append]

namespace Chains

variable {kind : Kind} {rest middle after : List Event} {kinds : List Kind}

theorem alone (isNode : kind.isNode = true) :
    Chains (.start kind none :: rest) [kind] (.pending :: rest) := by
  intro first budget enough
  have complete : kind ≠ .tombstone := by
    rintro rfl
    cases isNode
  obtain ⟨budget, rfl⟩ := Nat.exists_eq_succ_of_ne_zero (Nat.ne_of_gt (Nat.lt_of_lt_of_le
    (Nat.succ_pos rest.length) enough))
  simp only [chain, getElem?_ahead, modify_ahead, if_neg complete]

theorem link (isNode : kind.isNode = true) (chains : Chains rest kinds after) :
    Chains (.start kind (some (middle.length + 1)) :: (middle ++ rest)) (kind :: kinds)
      (.pending :: (middle ++ after)) := by
  intro first budget enough
  have complete : kind ≠ .tombstone := by
    rintro rfl
    cases isNode
  simp only [List.length_cons, List.length_append] at enough
  obtain ⟨budget, rfl⟩ : ∃ less, budget = less + 1 := ⟨budget - 1, by omega⟩
  have further := chains (first ++ .pending :: middle) budget (by omega)
  have index : (first ++ .pending :: middle).length = first.length + (middle.length + 1) := by
    simp
  rw [index, List.append_assoc, List.append_assoc, List.cons_append, List.cons_append] at further
  simp only [chain, getElem?_ahead, modify_ahead, further, if_neg complete]

end Chains

attribute [local simp] stepsFrom

namespace Gives

variable {budget : Nat} {rest : List Event} {steps : List BuildStep}

theorem nil (budget : Nat) : Gives budget [] [] := by
  intro first
  cases budget with
  | zero => rfl
  | succ budget => simp

theorem tail (gives : Gives budget rest steps) (first : List Event) (event : Event) :
    stepsFrom budget (first ++ event :: rest).toArray (first.length + 1) = some steps := by
  have shifted := gives (first ++ [event])
  rw [List.append_assoc, List.singleton_append, List.length_append, List.length_singleton] at shifted
  exact shifted

theorem cons {step : BuildStep} (gives : Gives budget rest steps) (event : Event)
    (one : event.step? = some step) : Gives (budget + 1) (event :: rest) (step :: steps) := by
  intro first
  cases event <;> cases one <;> simp only [stepsFrom, getElem?_ahead, gives.tail, Option.map_some]

/-- A start that was read before its turn is passed over. -/
theorem pending (gives : Gives budget rest steps) :
    Gives (budget + 1) (.pending :: rest) steps := by
  intro first
  simp only [stepsFrom, Event.pending, getElem?_ahead, if_true]
  exact gives.tail first _

theorem chained {kind : Kind} {link : Option Nat} {after : List Event} {kinds : List Kind}
    (isNode : kind.isNode = true)
    (chains : Chains (.start kind link :: rest) kinds (.pending :: after))
    (gives : Gives budget after steps) :
    Gives (budget + 1) (.start kind link :: rest)
      (kinds.reverse.map BuildStep.startNode ++ steps) := by
  intro first
  have complete : kind ≠ .tombstone := by
    rintro rfl
    cases isNode
  have chained := chains first (first ++ .start kind link :: rest).toArray.size (by simp)
  simp only [stepsFrom, getElem?_ahead, if_neg complete, chained, gives.tail, Option.map_some]

end Gives

/-- What the link of the last node of a trace leads to, if the trace ends where the rest begins. -/
def Leads (size : Nat) (rest : List Event) : Option Nat → List Kind → List Event → Prop
  | none, kinds, after => kinds = [] ∧ after = rest
  | some distance, kinds, after => distance = size ∧ Chains rest kinds after

theorem Leads.chains {kind : Kind} {children rest after : List Event} {link : Option Nat}
    {kinds : List Kind} (isNode : kind.isNode = true)
    (leads : Leads (children.length + 2) rest link kinds after) :
    Chains (.start kind link :: (children ++ .finish :: rest)) (kind :: kinds)
      (.pending :: (children ++ .finish :: after)) := by
  have grouped : ∀ events : List Event,
      children ++ .finish :: events = (children ++ [.finish]) ++ events := by
    intro events
    rw [List.append_assoc, List.singleton_append]
  cases link with
  | none =>
      obtain ⟨rfl, rfl⟩ := leads
      exact .alone isNode
  | some distance =>
      obtain ⟨rfl, chains⟩ := leads
      have length : children.length + 2 = (children ++ [Event.finish]).length + 1 := by simp
      rw [grouped rest, grouped after, length]
      exact chains.link isNode

end Event

/-! ## Reading the events of a trace -/

theorem Trace.length_map_shift (start : Nat) (trace : Trace) (link : Option Nat) :
    ((trace.events link).map (Event.shift start)).length = trace.size := by
  rw [List.length_map, length_events]

open Event in
theorem Trace.gives_events (start : TokenId) (trace : Trace) (sound : trace.Sound) (link : Option Nat)
    (kinds : List Kind) (rest after : List Event) (budget : Nat) (steps : List BuildStep)
    (leads : Leads trace.lastSize rest link kinds after) (ends : link = none ∨ trace.endsInNode = true)
    (gives : Gives budget after steps) :
    Gives (budget + trace.size) ((trace.events link).map (Event.shift start) ++ rest)
      (trace.steps start kinds ++ steps) := by
  induction trace generalizing link kinds rest after budget steps with
  | empty =>
      obtain rfl : link = none := ends.resolve_right (by simp [endsInNode])
      obtain ⟨rfl, rfl⟩ := leads
      exact gives
  | token before position kind ih =>
      obtain rfl : link = none := ends.resolve_right (by simp [endsInNode])
      obtain ⟨rfl, rfl⟩ := leads
      have earlier := ih sound none [] _ _ (budget + 1) _ ⟨rfl, rfl⟩ (.inl rfl)
        (gives.cons (.token (start + position)) rfl)
      simpa [events, Event.shift, Trace.steps, size, Nat.add_assoc, Nat.add_comm, Nat.add_left_comm] using earlier
  | hole before ih =>
      obtain rfl : link = none := ends.resolve_right (by simp [endsInNode])
      obtain ⟨rfl, rfl⟩ := leads
      have earlier := ih sound none [] _ _ (budget + 1) _ ⟨rfl, rfl⟩ (.inl rfl) (gives.cons .hole rfl)
      simpa [events, Event.shift, Trace.steps, size, Nat.add_assoc, Nat.add_comm, Nat.add_left_comm] using earlier
  | list before items ih itemsIh =>
      obtain rfl : link = none := ends.resolve_right (by simp [endsInNode])
      obtain ⟨rfl, rfl⟩ := leads
      have inside := itemsIh sound.2 none [] _ _ (budget + 1) _ ⟨rfl, rfl⟩ (.inl rfl)
        (gives.cons .finishList rfl)
      have earlier := ih sound.1 none [] _ _ _ _ ⟨rfl, rfl⟩ (.inl rfl) (inside.cons .startList rfl)
      have fuel : budget + 1 + items.size + 1 + before.size = budget + (before.list items).size := by
        simp only [size]
        omega
      rw [fuel] at earlier
      simpa [events, Event.shift, Trace.steps] using earlier
  | node before kind children ih childrenIh =>
      obtain ⟨beforeSound, isNode, childrenSound⟩ := sound
      have inside := childrenIh childrenSound none [] _ _ (budget + 1) _ ⟨rfl, rfl⟩ (.inl rfl)
        (gives.cons .finish rfl)
      rw [lastSize, ← children.length_map_shift start none] at leads
      have opened := inside.chained isNode (leads.chains isNode)
      have earlier := ih beforeSound none [] _ _ _ _ ⟨rfl, rfl⟩ (.inl rfl) opened
      have fuel : budget + 1 + children.size + 1 + before.size =
          budget + (before.node kind children).size := by
        simp only [size]
        omega
      rw [fuel] at earlier
      simpa [events, Event.shift, Trace.steps] using earlier
  | wrap before kind children ih childrenIh =>
      obtain ⟨beforeSound, beforeEnds, isNode, childrenSound⟩ := sound
      have inside := childrenIh childrenSound none [] _ _ (budget + 1) _ ⟨rfl, rfl⟩ (.inl rfl)
        (gives.cons .finish rfl)
      rw [lastSize, ← children.length_map_shift start none] at leads
      -- The start of the node behind `before` was read with the last node of `before`.
      have earlier := ih beforeSound (some before.lastSize) (kind :: kinds) _ _ _ _
        ⟨rfl, leads.chains isNode⟩ (.inr beforeEnds) inside.pending
      have fuel : budget + 1 + children.size + 1 + before.size =
          budget + (before.wrap kind children).size := by
        simp only [size]
        omega
      rw [fuel] at earlier
      simpa [events, Event.shift, Trace.steps] using earlier

/-! ## The steps of a trace are those of its forest -/

/-- The forest of a trace ends in a node, and nodes around it start in front of it. -/
def Trace.EndsAround (start : TokenId) (trace : Trace) : Prop :=
  ∃ before kind children, trace.forest = .node before kind children ∧ ∀ around : List Kind,
    trace.steps start around =
      before.steps start ++ (around.reverse.map BuildStep.startNode ++
        .startNode kind :: (children.steps start ++ [.finishNode]))

theorem Trace.EndsAround.steps_eq {start : TokenId} {trace : Trace} (ends : trace.EndsAround start) :
    trace.steps start [] = trace.forest.steps start := by
  obtain ⟨before, kind, children, same, steps⟩ := ends
  simp [steps, same, Forest.steps]

theorem Trace.steps_eq_and_endsAround {start : TokenId} (trace : Trace) (sound : trace.Sound) :
    trace.steps start [] = trace.forest.steps start ∧
      (trace.endsInNode = true → trace.EndsAround start) := by
  induction trace with
  | empty => exact ⟨rfl, by simp [endsInNode]⟩
  | token before position kind ih =>
      refine ⟨?_, by simp [endsInNode]⟩
      rw [Trace.steps, forest, Forest.steps, (ih sound).1]
  | hole before ih =>
      refine ⟨?_, by simp [endsInNode]⟩
      rw [Trace.steps, forest, Forest.steps, (ih sound).1]
  | list before items ih itemsIh =>
      refine ⟨?_, by simp [endsInNode]⟩
      rw [Trace.steps, forest, Forest.steps, (ih sound.1).1, (itemsIh sound.2).1]
  | node before kind children ih childrenIh =>
      have ends : (before.node kind children).EndsAround start := by
        refine ⟨before.forest, kind, children.forest, rfl, ?_⟩
        intro around
        simp [Trace.steps, (ih sound.1).1, (childrenIh sound.2.2).1]
      exact ⟨ends.steps_eq, fun _ => ends⟩
  | wrap before kind children ih childrenIh =>
      obtain ⟨beforeSound, beforeEnds, isNode, childrenSound⟩ := sound
      obtain ⟨further, inner, held, same, steps⟩ := (ih beforeSound).2 beforeEnds
      have ends : (before.wrap kind children).EndsAround start := by
        refine ⟨further, kind, Forest.empty.node inner held ++ children.forest, ?_, ?_⟩
        · rw [forest, same, Forest.wrapLast_node]
        · intro around
          simp [Trace.steps, steps, (childrenIh childrenSound).1, Forest.steps]
      exact ⟨ends.steps_eq, fun _ => ends⟩

/-- A log that holds the events of a trace, moved to `start`, gives the steps of its forest. -/
theorem Trace.steps_events (start : TokenId) (trace : Trace) (sound : trace.Sound) :
    Event.steps ((trace.events none).toArray.map (Event.shift start)) =
      some (trace.forest.steps start) := by
  have gives := trace.gives_events start sound none [] [] [] 0 [] ⟨rfl, rfl⟩ (.inl rfl)
    (Event.Gives.nil 0) []
  rw [Event.steps, List.map_toArray, List.size_toArray, trace.length_map_shift,
    ← (trace.steps_eq_and_endsAround sound).1]
  simpa using gives

end ScriptTree
