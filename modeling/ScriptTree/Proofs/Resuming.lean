import ScriptTree.Proofs.Agreement
import ScriptTree.Proofs.Shifting

/-! # Parses that start further on

A run over a text from a position on does what a run over the rest of the text does, with all positions
moved: what was taken before, what was tried there and the node completed last make no difference. -/
set_option autoImplicit false
set_option maxRecDepth 4000
namespace ScriptTree

/-! ## Moving positions -/

namespace Forest

def shift (start : Nat) : Forest → Forest
  | empty => empty
  | token before position kind => (before.shift start).token (start + position) kind
  | hole before => (before.shift start).hole
  | node before kind children => (before.shift start).node kind (children.shift start)
  | list before items => (before.shift start).list (items.shift start)

theorem shift_append (start : Nat) (left right : Forest) :
    (left ++ right).shift start = left.shift start ++ right.shift start := by
  induction right with
  | empty => rfl
  | token before position kind ih => simp only [append_token, shift, ih]
  | hole before ih => simp only [append_hole, shift, ih]
  | node before kind children ih _ => simp only [append_node, shift, ih]
  | list before items ih _ => simp only [append_list, shift, ih]

@[simp] theorem shift_zero (forest : Forest) : forest.shift 0 = forest := by
  induction forest with
  | empty => rfl
  | token before position kind ih => rw [shift, ih, Nat.zero_add]
  | hole before ih => rw [shift, ih]
  | node before kind children ih childrenIh => rw [shift, ih, childrenIh]
  | list before items ih itemsIh => rw [shift, ih, itemsIh]

end Forest

/-- The two histories remember the same of what lies from a position on, their furthest failures apart. -/
structure History.Resumes (start : Nat) (whole rest : History) : Prop where
  arrows : ∀ position scope,
    (start + position, scope) ∈ whole.failedArrows ↔ (position, scope) ∈ rest.failedArrows
  targets : ∀ target, start + target ∈ whole.targets ↔ target ∈ rest.targets

/-! ## The node completed last -/

/-- What is known of the node completed last: nothing, that it is the same in both runs, or that it stands
at the end as well. -/
inductive Recall where
  | nothing
  | same
  | atEnd
  deriving DecidableEq

namespace Recall

def meet : Recall → Recall → Option Recall
  | .atEnd, .atEnd => some .atEnd
  | .nothing, _ | _, .nothing => some .nothing
  | _, _ => some .same

/-- What is known once something else stands at the end. -/
def behind : Recall → Recall
  | .nothing => .nothing
  | _ => .same

def IsWithin (less more : Recall) : Prop :=
  (less ≠ .nothing → more ≠ .nothing) ∧ (less = .atEnd → more = .atEnd)

theorem isWithin_nothing (more : Recall) : nothing.IsWithin more :=
  ⟨fun known => absurd rfl known, nofun⟩

theorem behind_isWithin (recalled : Recall) : recalled.behind.IsWithin recalled := by
  cases recalled <;> simp [IsWithin, behind]

theorem meet_isWithin {first second merged : Recall} (joined : first.meet second = some merged) :
    merged.IsWithin first ∧ merged.IsWithin second := by
  cases first <;> cases second <;> cases joined <;> simp [IsWithin]

end Recall

namespace Nonterminal

/-- What has to be known in front of a nonterminal, which puts nodes around the last one or does not. -/
def recallBefore (nonterminal : Nonterminal) : Recall :=
  if nonterminal.role = .tail then .atEnd else .nothing

def recallAfter (nonterminal : Nonterminal) : Recall :=
  match nonterminal.role with
  | .node | .tail => .atEnd
  | .content | .items => .nothing

end Nonterminal

/-- Checks that a production looks at the node completed last, or puts another one around it, only where it
is known; the verdict is what is known of it behind the production. -/
@[simp] def Production.recalls : Production → Recall → Verdict Recall
  | .refuse, _ => .never
  | .take, recalled | .hole, recalled => .reaches recalled.behind
  | .call nonterminal, recalled =>
      if nonterminal.isProper ∧ (nonterminal.recallBefore = .atEnd → recalled = .atEnd) then
        .reaches nonterminal.recallAfter
      else .illegal
  | .seq first second, recalled => (first.recalls recalled).andThen second.recalls
  | .branch guard yes no, recalled =>
      if guard.asksNode = true ∧ recalled = .nothing then .illegal
      else (yes.recalls recalled).merge Recall.meet (no.recalls recalled)
  | .node _ body, _ => (body.recalls .nothing).andThen fun _ => .reaches .atEnd
  | .fork head guard _ yes _ no, _ =>
      if guard.asksNode then .illegal
      else
        (head.recalls .nothing).andThen fun middle =>
          ((yes.recalls middle).merge Recall.meet (no.recalls middle)).andThen fun _ => .reaches .atEnd
  | .wrap _ body, recalled =>
      if recalled = .atEnd then (body.recalls .nothing).andThen fun _ => .reaches .atEnd else .illegal
  | .orElse first second, recalled | .onceOrElse first second, recalled =>
      (first.recalls recalled).merge Recall.meet (second.recalls recalled)
  | .inScope _ body, recalled => body.recalls recalled
  | .list body, _ => (body.recalls .nothing).andThen fun _ => .reaches .nothing
  | .markTarget, recalled => if recalled = .nothing then .illegal else .reaches recalled
  | _, recalled => .reaches recalled

theorem Nonterminal.recalls_production (nonterminal : Nonterminal) (proper : nonterminal.isProper = true) :
    nonterminal.production.recalls nonterminal.recallBefore = .reaches nonterminal.recallAfter := by
  have passes : ∀ nonterminal ∈ listed,
      nonterminal.production.recalls nonterminal.recallBefore = .reaches nonterminal.recallAfter := by
    decide +kernel
  exact passes nonterminal (mem_listed proper)

/-! ## Places -/

section Resuming

variable {start : Nat} {base : Forest} {recalled : Recall} {place rest inner innerRest : Place}
  {history known : History}

/-- Two places that are the same but for what was taken before and where it started. -/
structure Place.Resumes (start : Nat) (base : Forest) (recalled : Recall) (place rest : Place) : Prop where
  position : place.position = start + rest.position
  forest : place.forest = base ++ rest.forest.shift start
  completed : recalled ≠ .nothing →
    place.completed = rest.completed.map fun node => (node.1, start + node.2)
  last : recalled = .atEnd → ∃ before kind content, rest.forest = .node before kind content

namespace Place.Resumes

theorem weaken {less : Recall} (resumes : place.Resumes start base recalled rest)
    (within : less.IsWithin recalled) : place.Resumes start base less rest :=
  ⟨resumes.position, resumes.forest, fun known => resumes.completed (within.1 known),
    fun atEnd => resumes.last (within.2 atEnd)⟩

theorem inside (resumes : place.Resumes start base recalled rest) :
    place.inside.Resumes start .empty .nothing rest.inside :=
  ⟨resumes.position, rfl, fun known => absurd rfl known, nofun⟩

theorem take {whole remaining : Terminals} (text : whole.Resumes remaining start)
    (resumes : place.Resumes start base recalled rest) :
    (place.take whole).Resumes start base recalled.behind (rest.take remaining) where
  position := by rw [Place.take, Place.take, resumes.position, Nat.add_assoc]
  forest := by
    simp only [Place.take, resumes.position, resumes.forest, text.kinds, Forest.shift,
      Forest.append_token]
  completed known := resumes.completed (recalled.behind_isWithin.1 known)
  last atEnd := by cases recalled <;> cases atEnd

theorem addHole (resumes : place.Resumes start base recalled rest) :
    place.addHole.Resumes start base recalled.behind rest.addHole where
  position := resumes.position
  forest := by simp only [Place.addHole, resumes.forest, Forest.shift, Forest.append_hole]
  completed known := resumes.completed (recalled.behind_isWithin.1 known)
  last atEnd := by cases recalled <;> cases atEnd

theorem addNode {within : Recall} (kind : Kind) (resumes : place.Resumes start base recalled rest)
    (held : inner.Resumes start .empty within innerRest) :
    (place.addNode kind inner).Resumes start base .atEnd (rest.addNode kind innerRest) where
  position := held.position
  forest := by
    simp only [Place.addNode, resumes.forest, held.forest, Forest.empty_append, Forest.shift,
      Forest.append_node]
  completed _ := by rw [Place.addNode, Place.addNode, resumes.position]; rfl
  last _ := ⟨_, _, _, rfl⟩

theorem addList {within : Recall} (resumes : place.Resumes start base recalled rest)
    (held : inner.Resumes start .empty within innerRest) :
    (place.addList inner).Resumes start base .nothing (rest.addList innerRest) where
  position := held.position
  forest := by
    simp only [Place.addList, resumes.forest, held.forest, Forest.empty_append, Forest.shift,
      Forest.append_list]
  completed known := absurd rfl known
  last := nofun

theorem wrapNode {within : Recall} (kind : Kind) (first : Nat)
    (resumes : place.Resumes start base .atEnd rest)
    (held : inner.Resumes start .empty within innerRest) :
    (place.wrapNode kind (start + first) inner).Resumes start base .atEnd
      (rest.wrapNode kind first innerRest) := by
  obtain ⟨before, wrapped, content, forest⟩ := resumes.last rfl
  refine ⟨held.position, ?_, fun _ => rfl, fun _ => ⟨before, kind, _, by rw [Place.wrapNode, forest]; rfl⟩⟩
  simp only [Place.wrapNode, resumes.forest, forest, held.forest, Forest.shift, Forest.append_node,
    Forest.wrapLast_node, Forest.empty_append, Forest.shift_append]

end Place.Resumes

/-! ## Histories and guards -/

namespace History.Resumes

theorem markTarget (histories : history.Resumes start known)
    (completed : place.completed = rest.completed.map fun node => (node.1, start + node.2)) :
    (history.markTarget place.completed).Resumes start (known.markTarget rest.completed) := by
  rw [completed]
  cases rest.completed with
  | none => exact histories
  | some node =>
      refine ⟨histories.arrows, fun target => ?_⟩
      simp only [Option.map_some, History.markTarget, List.mem_cons, histories.targets,
        Nat.add_left_cancel_iff]

theorem rememberArrow (histories : history.Resumes start known) (position : Nat) (scope : Scope) :
    (history.rememberArrow (start + position) scope).Resumes start
      (known.rememberArrow position scope) := by
  refine ⟨fun other within => ?_, histories.targets⟩
  simp only [History.rememberArrow, List.mem_cons, histories.arrows, Prod.mk.injEq,
    Nat.add_left_cancel_iff]

end History.Resumes

theorem Guard.admits_resumes {whole remaining : Terminals} (text : whole.Resumes remaining start)
    (resumes : place.Resumes start base recalled rest) (histories : history.Resumes start known)
    (scope : Scope) (guard : Guard) (asks : guard.asksNode = true → recalled ≠ .nothing) :
    guard.admits whole scope place history.targets =
      guard.admits remaining scope rest known.targets := by
  induction guard with
  | next offset kinds => rw [admits, admits, resumes.position, Nat.add_assoc, text.kinds]
  | lineBreak offset => rw [admits, admits, resumes.position, Nat.add_assoc, text.lineBreaks]
  | identifier offset =>
      simp only [admits, resumes.position, Nat.add_assoc, ParseState.isIdentifierAt, text.kinds]
  | yieldOperator => rfl
  | awaitOperator => rfl
  | completed kinds =>
      rw [admits, admits, resumes.completed (asks rfl), Option.map_map]
      rfl
  | completedTarget =>
      rw [admits, admits, resumes.completed (asks rfl), Option.map_map]
      cases rest.completed with
      | none => rfl
      | some node =>
          have marked : history.targets.contains (start + node.2 + 1) = known.targets.contains (node.2 + 1) := by
            rw [Bool.eq_iff_iff, List.contains_iff_mem, List.contains_iff_mem, Nat.add_assoc,
              histories.targets]
          simp only [Option.map_some, Option.getD_some, Function.comp_apply, marked]
  | not guard ih => rw [admits, admits, ih asks]
  | and first second firstIh secondIh =>
      rw [admits, admits, firstIh fun one => asks (by simp [asksNode, one]),
        secondIh fun one => asks (by simp [asksNode, one])]
  | or first second firstIh secondIh =>
      rw [admits, admits, firstIh fun one => asks (by simp [asksNode, one]),
        secondIh fun one => asks (by simp [asksNode, one])]

/-! ## Parses -/

/-- Two parses with the same outcome, their places as told and what they remember moved. -/
inductive Parse.Resumes (start : Nat) (agree : Place → Place → Prop) : Parse → Parse → Prop
  | matched {place rest : Place} {history known : History} (places : agree place rest)
      (histories : history.Resumes start known) :
      Resumes start agree (.matched place history) (.matched rest known)
  | refused {history known : History} (histories : history.Resumes start known) :
      Resumes start agree (.refused history) (.refused known)
  | outOfFuel : Resumes start agree .outOfFuel .outOfFuel

namespace Parse.Resumes

variable {agree further : Place → Place → Prop} {parse other : Parse}

theorem imp (resumes : Parse.Resumes start agree parse other)
    (weaker : ∀ place rest, agree place rest → further place rest) :
    Parse.Resumes start further parse other := by
  cases resumes with
  | matched places histories => exact .matched (weaker _ _ places) histories
  | refused histories => exact .refused histories
  | outOfFuel => exact .outOfFuel

theorem andThen {next more : Place → History → Parse} (resumes : Parse.Resumes start agree parse other)
    (later : ∀ place rest history known, agree place rest → history.Resumes start known →
      Parse.Resumes start further (next place history) (more rest known)) :
    Parse.Resumes start further (parse.andThen next) (other.andThen more) := by
  cases resumes with
  | matched places histories => exact later _ _ _ _ places histories
  | refused histories => exact .refused histories
  | outOfFuel => exact .outOfFuel

theorem close {around closed : Place → Place} (resumes : Parse.Resumes start agree parse other)
    (closes : ∀ inner rest, agree inner rest → further (around inner) (closed rest)) :
    Parse.Resumes start further (parse.andThen fun inner later => .matched (around inner) later)
      (other.andThen fun inner later => .matched (closed inner) later) :=
  resumes.andThen fun _ _ _ _ places histories => .matched (closes _ _ places) histories

theorem orElse {next more : History → Parse} (resumes : Parse.Resumes start agree parse other)
    (later : ∀ history known, history.Resumes start known →
      Parse.Resumes start agree (next history) (more known)) :
    Parse.Resumes start agree (parse.orElse next) (other.orElse more) := by
  cases resumes with
  | matched places histories => exact .matched places histories
  | refused histories => exact later _ _ histories
  | outOfFuel => exact .outOfFuel

end Parse.Resumes

/-! ## Productions -/

def Place.ResumesAs (start : Nat) (base : Forest) (verdict : Verdict Recall) (place rest : Place) : Prop :=
  ∃ recalled, verdict = .reaches recalled ∧ place.Resumes start base recalled rest

namespace Place.ResumesAs

variable {one other : Verdict Recall}

theorem mergeLeft (legal : one.merge Recall.meet other ≠ .illegal)
    (resumes : place.ResumesAs start base one rest) :
    place.ResumesAs start base (one.merge Recall.meet other) rest := by
  obtain ⟨recalled, rfl, agrees⟩ := resumes
  obtain ⟨merged, same, rfl | ⟨second, joined⟩⟩ := Verdict.merge_reaches_left legal
  · exact ⟨merged, same, agrees⟩
  · exact ⟨merged, same, agrees.weaken (Recall.meet_isWithin joined).1⟩

theorem mergeRight (legal : one.merge Recall.meet other ≠ .illegal)
    (resumes : place.ResumesAs start base other rest) :
    place.ResumesAs start base (one.merge Recall.meet other) rest := by
  obtain ⟨recalled, rfl, agrees⟩ := resumes
  obtain ⟨merged, same, rfl | ⟨second, joined⟩⟩ := Verdict.merge_reaches_right legal
  · exact ⟨merged, same, agrees⟩
  · exact ⟨merged, same, agrees.weaken (Recall.meet_isWithin joined).2⟩

theorem close {verdict : Verdict Recall} {recalled : Recall} {after later : Place}
    (held : inner.ResumesAs start .empty verdict innerRest)
    (closes : ∀ within, inner.Resumes start .empty within innerRest →
      after.Resumes start base recalled later) :
    after.ResumesAs start base (verdict.andThen fun _ => .reaches recalled) later := by
  obtain ⟨within, rfl, agrees⟩ := held
  exact ⟨recalled, rfl, closes within agrees⟩

end Place.ResumesAs

def CallsResume (start : Nat) (call other : Nonterminal → Scope → Place → History → Parse) : Prop :=
  ∀ (nonterminal : Nonterminal) (scope : Scope) (base : Forest) (place rest : Place)
    (history known : History), nonterminal.isProper = true →
    place.Resumes start base nonterminal.recallBefore rest → history.Resumes start known →
    Parse.Resumes start (Place.Resumes start base nonterminal.recallAfter)
      (call nonterminal scope place history) (other nonterminal scope rest known)

/-- A production does from a position on what it does over the rest of the text. -/
def Production.IsResumed (start : Nat) (whole remaining : Terminals)
    (call other : Nonterminal → Scope → Place → History → Parse) (production : Production) : Prop :=
  ∀ (recalled : Recall) (scope : Scope) (base : Forest) (place rest : Place) (history known : History),
    production.recalls recalled ≠ .illegal → place.Resumes start base recalled rest →
    history.Resumes start known →
    Parse.Resumes start (Place.ResumesAs start base (production.recalls recalled))
      (production.nest whole call scope place history)
      (production.nest remaining other scope rest known)

namespace Production.IsResumed

variable {whole remaining : Terminals} {call other : Nonterminal → Scope → Place → History → Parse}
  {one two body : Production}

theorem markTarget : IsResumed start whole remaining call other .markTarget := by
  intro recalled scope base place rest history known legal resumes histories
  rw [recalls] at legal ⊢
  split at legal
  · exact absurd rfl legal
  · rename_i some
    rw [if_neg some]
    exact .matched ⟨recalled, rfl, resumes⟩ (histories.markTarget (resumes.completed some))

theorem of_callsResume (calls : CallsResume start call other) (nonterminal : Nonterminal) :
    IsResumed start whole remaining call other (.call nonterminal) := by
  intro recalled scope base place rest history known legal resumes histories
  rw [recalls] at legal ⊢
  split at legal
  · rename_i stands
    obtain ⟨proper, ends⟩ := stands
    have within : nonterminal.recallBefore.IsWithin recalled := by
      cases before : nonterminal.recallBefore with
      | nothing => exact recalled.isWithin_nothing
      | same =>
          rw [Nonterminal.recallBefore] at before
          split at before <;> cases before
      | atEnd =>
          rw [ends before]
          exact ⟨id, id⟩
    rw [if_pos ⟨proper, ends⟩]
    exact (calls nonterminal scope base place rest history known proper (resumes.weaken within)
      histories).imp fun _ _ agrees => ⟨_, rfl, agrees⟩
  · exact absurd rfl legal

theorem seq (oneResumed : IsResumed start whole remaining call other one)
    (twoResumed : IsResumed start whole remaining call other two) :
    IsResumed start whole remaining call other (.seq one two) := by
  intro recalled scope base place rest history known legal resumes histories
  obtain ⟨oneLegal, twoLegal⟩ := Verdict.andThen_ne_illegal legal
  apply (oneResumed recalled scope base place rest history known oneLegal resumes histories).andThen
  rintro middle further meanwhile since ⟨between, reached, agrees⟩ middleHistories
  rw [recalls, reached, Verdict.andThen]
  exact twoResumed between scope base middle further meanwhile since (twoLegal between reached) agrees
    middleHistories

theorem branch (text : whole.Resumes remaining start) (guard : Guard)
    (yesResumed : IsResumed start whole remaining call other one)
    (noResumed : IsResumed start whole remaining call other two) :
    IsResumed start whole remaining call other (.branch guard one two) := by
  intro recalled scope base place rest history known legal resumes histories
  rw [recalls] at legal ⊢
  split at legal
  · exact absurd rfl legal
  · rename_i asks
    obtain ⟨yesLegal, noLegal⟩ := Verdict.merge_ne_illegal legal
    have same := guard.admits_resumes text resumes histories scope fun one other => asks ⟨one, other⟩
    rw [if_neg asks]
    simp only [nest, same]
    split
    · exact (yesResumed recalled scope base place rest history known yesLegal resumes histories).imp
        fun _ _ => .mergeLeft legal
    · exact (noResumed recalled scope base place rest history known noLegal resumes histories).imp
        fun _ _ => .mergeRight legal

theorem node (kind : Kind) (bodyResumed : IsResumed start whole remaining call other body) :
    IsResumed start whole remaining call other (.node kind body) := by
  intro recalled scope base place rest history known legal resumes histories
  obtain ⟨bodyLegal, -⟩ := Verdict.andThen_ne_illegal legal
  exact (bodyResumed .nothing scope .empty place.inside rest.inside history known bodyLegal
    resumes.inside histories).close fun inner innerRest held =>
      held.close fun within agrees => resumes.addNode kind agrees

theorem list (bodyResumed : IsResumed start whole remaining call other body) :
    IsResumed start whole remaining call other (.list body) := by
  intro recalled scope base place rest history known legal resumes histories
  obtain ⟨bodyLegal, -⟩ := Verdict.andThen_ne_illegal legal
  exact (bodyResumed .nothing scope .empty place.inside rest.inside history known bodyLegal
    resumes.inside histories).close fun inner innerRest held =>
      held.close fun within agrees => resumes.addList agrees

theorem wrap (kind : Kind) (bodyResumed : IsResumed start whole remaining call other body) :
    IsResumed start whole remaining call other (.wrap kind body) := by
  intro recalled scope base place rest history known legal resumes histories
  rw [recalls] at legal ⊢
  split at legal
  · rename_i atEnd
    subst atEnd
    obtain ⟨bodyLegal, -⟩ := Verdict.andThen_ne_illegal legal
    have completed := resumes.completed (by decide)
    simp only [nest, completed, if_true]
    cases rest.completed with
    | none => exact .refused histories
    | some node =>
        exact (bodyResumed .nothing scope .empty place.inside rest.inside history known bodyLegal
          resumes.inside histories).close fun inner innerRest held =>
            held.close fun within agrees => resumes.wrapNode kind node.2 agrees
  · exact absurd rfl legal

theorem fork (text : whole.Resumes remaining start) (guard : Guard) (kindYes kindNo : Kind)
    (headResumed : IsResumed start whole remaining call other body)
    (yesResumed : IsResumed start whole remaining call other one)
    (noResumed : IsResumed start whole remaining call other two) :
    IsResumed start whole remaining call other (.fork body guard kindYes one kindNo two) := by
  intro recalled scope base place rest history known legal resumes histories
  rw [recalls] at legal ⊢
  split at legal
  · exact absurd rfl legal
  · rename_i asks
    obtain ⟨headLegal, tailLegal⟩ := Verdict.andThen_ne_illegal legal
    rw [if_neg asks]
    apply (headResumed .nothing scope .empty place.inside rest.inside history known headLegal
      resumes.inside histories).andThen
    rintro middle further meanwhile since ⟨between, reached, agrees⟩ middleHistories
    obtain ⟨merged, -⟩ := Verdict.andThen_ne_illegal (tailLegal between reached)
    obtain ⟨yesLegal, noLegal⟩ := Verdict.merge_ne_illegal merged
    have same := guard.admits_resumes text agrees middleHistories scope fun one => absurd one asks
    rw [reached, Verdict.andThen, same]
    split
    · exact (yesResumed between scope .empty middle further meanwhile since yesLegal agrees
        middleHistories).close fun inner innerRest held => (held.mergeLeft merged).close
          fun within innerAgrees => resumes.addNode kindYes innerAgrees
    · exact (noResumed between scope .empty middle further meanwhile since noLegal agrees
        middleHistories).close fun inner innerRest held => (held.mergeRight merged).close
          fun within innerAgrees => resumes.addNode kindNo innerAgrees

theorem orElse (oneResumed : IsResumed start whole remaining call other one)
    (twoResumed : IsResumed start whole remaining call other two) :
    IsResumed start whole remaining call other (.orElse one two) := by
  intro recalled scope base place rest history known legal resumes histories
  obtain ⟨oneLegal, twoLegal⟩ := Verdict.merge_ne_illegal legal
  refine ((oneResumed recalled scope base place rest history known oneLegal resumes histories).imp
    fun _ _ => .mergeLeft legal).orElse fun later since laterHistories => ?_
  exact (twoResumed recalled scope base place rest later since twoLegal resumes laterHistories).imp
    fun _ _ => .mergeRight legal

theorem onceOrElse (oneResumed : IsResumed start whole remaining call other one)
    (twoResumed : IsResumed start whole remaining call other two) :
    IsResumed start whole remaining call other (.onceOrElse one two) := by
  intro recalled scope base place rest history known legal resumes histories
  obtain ⟨oneLegal, twoLegal⟩ := Verdict.merge_ne_illegal legal
  have goesOn (later since : History) (laterHistories : later.Resumes start since) :=
    (twoResumed recalled scope base place rest later since twoLegal resumes laterHistories).imp
      fun _ _ => Place.ResumesAs.mergeRight legal
  have same : history.failedArrows.contains (place.position, scope) =
      known.failedArrows.contains (rest.position, scope) := by
    rw [Bool.eq_iff_iff, List.contains_iff_mem, List.contains_iff_mem, resumes.position,
      histories.arrows]
  simp only [nest, same]
  split
  · exact goesOn history known histories
  · refine ((oneResumed recalled scope base place rest history known oneLegal resumes histories).imp
      fun _ _ => .mergeLeft legal).orElse fun later since laterHistories => ?_
    exact goesOn _ _ (resumes.position ▸ laterHistories.rememberArrow rest.position scope)

end Production.IsResumed

theorem Production.nest_resumes {whole remaining : Terminals} (text : whole.Resumes remaining start)
    {call other : Nonterminal → Scope → Place → History → Parse} (calls : CallsResume start call other)
    (production : Production) : production.IsResumed start whole remaining call other := by
  induction production with
  | empty =>
      intro recalled scope base place rest history known _ resumes histories
      exact .matched ⟨recalled, rfl, resumes⟩ histories
  | refuse =>
      intro recalled scope base place rest history known _ _ histories
      exact .refused histories
  | take =>
      intro recalled scope base place rest history known _ resumes histories
      exact .matched ⟨_, rfl, resumes.take text⟩ histories
  | expected kind | expectedConstruct name =>
      intro recalled scope base place rest history known _ resumes histories
      exact .matched ⟨recalled, rfl, resumes⟩ ⟨histories.arrows, histories.targets⟩
  | call nonterminal => exact .of_callsResume calls nonterminal
  | seq one two oneResumed twoResumed => exact oneResumed.seq twoResumed
  | branch guard yes no yesResumed noResumed => exact yesResumed.branch text guard noResumed
  | node kind body resumed => exact resumed.node kind
  | fork head guard kindYes yes kindNo no headResumed yesResumed noResumed =>
      exact headResumed.fork text guard kindYes kindNo yesResumed noResumed
  | wrap kind body resumed => exact resumed.wrap kind
  | orElse one two oneResumed twoResumed => exact oneResumed.orElse twoResumed
  | onceOrElse one two oneResumed twoResumed => exact oneResumed.onceOrElse twoResumed
  | inScope change body resumed =>
      intro recalled scope base place rest history known legal resumes histories
      exact resumed recalled (change.apply scope) base place rest history known legal resumes histories
  | list body resumed => exact resumed.list
  | hole =>
      intro recalled scope base place rest history known _ resumes histories
      exact .matched ⟨_, rfl, resumes.addHole⟩ histories
  | markTarget => exact .markTarget

/-- Every nonterminal does from a position on what it does over the rest of the text. -/
theorem Nonterminal.nestWith_resumes {whole remaining : Terminals} (text : whole.Resumes remaining start)
    (fuel : Nat) :
    CallsResume start (nestWith production whole fuel) (nestWith production remaining fuel) := by
  induction fuel with
  | zero =>
      intro nonterminal scope base place rest history known _ _ _
      exact .outOfFuel
  | succ fuel ih =>
      intro nonterminal scope base place rest history known proper resumes histories
      have passes := nonterminal.recalls_production proper
      refine (nonterminal.production.nest_resumes text ih nonterminal.recallBefore scope base place rest
        history known (by simp [passes]) resumes histories).imp ?_
      rintro after later ⟨recalled, reached, agrees⟩
      rw [passes] at reached
      cases reached
      exact agrees

end Resuming
end ScriptTree
