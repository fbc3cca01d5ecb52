import ScriptTree.Proofs.Indices
import ScriptTree.Proofs.Shape

/-! # Sequences of steps

A builder takes a sequence of steps to its end if the steps are those of one node: all that is opened is
closed again, lists stand directly in nodes, elements and separators alternate in them, and the tokens
follow on each other. A walk through the children of the finished tree, its lists and their items goes
through the same steps. -/
set_option autoImplicit false
namespace ScriptTree

/-! ## Well-formed sequences -/

/-- Where a step stands: in a node, or in a list where an element or a separator comes next. -/
inductive Site where
  | node
  | list (element : Bool)
  deriving DecidableEq, Repr

namespace Site

def behindElement : Site → Option Site
  | node => some node
  | list true => some (list false)
  | list false => none

def behindToken : Site → Option Site
  | node => some node
  | list false => some (list true)
  | list true => none

def close : Site → BuildStep
  | node => .finishNode
  | list _ => .finishList

theorem close_of_behindElement {site after : Site} (behind : site.behindElement = some after) :
    after.close = site.close := by
  revert behind
  fun_cases behindElement site <;> rintro ⟨⟩ <;> rfl

theorem close_of_behindToken {site after : Site} (behind : site.behindToken = some after) :
    after.close = site.close := by
  revert behind
  fun_cases behindToken site <;> rintro ⟨⟩ <;> rfl

end Site

namespace BuildStep

/-- Steps that lead from one site to another and close all that they open. The tokens in front of which
they start and end are `next` and `last`. -/
inductive Fills : Site → TokenId → List BuildStep → Site → TokenId → Prop
  | nothing (site : Site) (next : TokenId) : Fills site next [] site next
  | token {site middle after : Site} {next last : TokenId} {steps : List BuildStep}
      (earlier : Fills site next steps middle last) (behind : middle.behindToken = some after) :
      Fills site next (steps ++ [.token last]) after (last + 1)
  | elision {site : Site} {next last : TokenId} {steps : List BuildStep}
      (earlier : Fills site next steps (.list true) last) :
      Fills site next (steps ++ [.elision]) (.list false) last
  | node {site middle after : Site} {next between last : TokenId} {steps inside : List BuildStep}
      (kind : Kind) (earlier : Fills site next steps middle between)
      (within : Fills .node between inside .node last) (behind : middle.behindElement = some after) :
      Fills site next (steps ++ .startNode kind :: (inside ++ [.finishNode])) after last
  | list {site : Site} {next between last : TokenId} {steps items : List BuildStep} {element : Bool}
      (earlier : Fills site next steps .node between)
      (within : Fills (.list true) between items (.list element) last) :
      Fills site next (steps ++ .startList :: (items ++ [.finishList])) .node last

def FormsTree (start : TokenId) (steps : List BuildStep) : Prop :=
  ∃ kind inside last, steps = .startNode kind :: (inside ++ [.finishNode]) ∧
    Fills .node start inside .node last

namespace Fills

variable {site middle after : Site} {next between last : TokenId} {left right : List BuildStep}

theorem trans (earlier : Fills site next left middle between)
    (later : Fills middle between right after last) : Fills site next (left ++ right) after last := by
  induction later with
  | nothing => rwa [List.append_nil]
  | token _ behind ih =>
      rw [← List.append_assoc]
      exact (ih earlier).token behind
  | elision _ ih =>
      rw [← List.append_assoc]
      exact (ih earlier).elision
  | node kind _ within behind ih _ =>
      rw [← List.append_assoc]
      exact (ih earlier).node kind within behind
  | list _ within ih _ =>
      rw [← List.append_assoc]
      exact (ih earlier).list within

/-- Steps that close what they open end in the node or list in which they start. -/
theorem close_eq (fills : Fills site next left after last) : after.close = site.close := by
  induction fills with
  | nothing => rfl
  | token _ behind ih => rw [← ih, Site.close_of_behindToken behind]
  | elision _ ih => exact ih
  | node _ _ _ behind ih _ => rw [← ih, Site.close_of_behindElement behind]
  | list _ _ ih _ => exact ih

theorem eq_node (fills : Fills .node next left after last) : after = .node := by
  have same := fills.close_eq
  cases after with
  | node => rfl
  | list element => cases same

theorem eq_list {element : Bool} (fills : Fills (.list element) next left after last) :
    ∃ ends, after = .list ends := by
  have same := fills.close_eq
  cases after with
  | node => cases same
  | list ends => exact ⟨ends, rfl⟩

end Fills

/-- Steps that fill and close one after the other what is open, the innermost first. -/
def Closes : List Site → TokenId → List BuildStep → Prop
  | [], _, steps => steps = []
  | site :: outer, next, steps =>
      ∃ inside rest last, steps = inside ++ site.close :: rest ∧
        (∃ after, Fills site next inside after last) ∧ Closes outer last rest

theorem Closes.prepend {site after : Site} {outer : List Site} {next between : TokenId}
    {left right : List BuildStep} (fills : Fills site next left after between)
    (closes : Closes (after :: outer) between right) : Closes (site :: outer) next (left ++ right) := by
  obtain ⟨inside, rest, last, rfl, ⟨ends, later⟩, further⟩ := closes
  refine ⟨left ++ inside, rest, last, ?_, ⟨ends, fills.trans later⟩, further⟩
  rw [fills.close_eq, List.append_assoc]

/-! ## What a step does -/

/-- The sites that are open around a step, and the next token, before and behind it. -/
inductive Moves : List Site → TokenId → BuildStep → List Site → TokenId → Prop
  | startNode {site after : Site} (outer : List Site) (next : TokenId) (kind : Kind)
      (behind : site.behindElement = some after) :
      Moves (site :: outer) next (.startNode kind) (.node :: after :: outer) next
  | finishNode (outer : List Site) (next : TokenId) : Moves (.node :: outer) next .finishNode outer next
  | token {site after : Site} (outer : List Site) (next : TokenId)
      (behind : site.behindToken = some after) :
      Moves (site :: outer) next (.token next) (after :: outer) (next + 1)
  | startList (outer : List Site) (next : TokenId) :
      Moves (.node :: outer) next .startList (.list true :: .node :: outer) next
  | elision (outer : List Site) (next : TokenId) :
      Moves (.list true :: outer) next .elision (.list false :: outer) next
  | finishList (element : Bool) (outer : List Site) (next : TokenId) :
      Moves (.list element :: outer) next .finishList outer next

theorem Closes.of_moves {sites later : List Site} {next after : TokenId} {step : BuildStep}
    {rest : List BuildStep} (moves : Moves sites next step later after)
    (closes : Closes later after rest) : Closes sites next (step :: rest) := by
  cases moves with
  | startNode outer next kind behind =>
      obtain ⟨inside, rest, last, rfl, ⟨ends, within⟩, further⟩ := closes
      cases within.eq_node
      have whole := (Fills.nothing _ _).node kind within behind
      simpa [Site.close] using Closes.prepend whole further
  | finishNode outer next => exact ⟨[], rest, next, rfl, ⟨_, .nothing _ _⟩, closes⟩
  | token outer next behind => exact Closes.prepend ((Fills.nothing _ _).token behind) closes
  | startList outer next =>
      obtain ⟨items, rest, last, rfl, ⟨ends, within⟩, further⟩ := closes
      obtain ⟨element, rfl⟩ := within.eq_list
      have whole := (Fills.nothing _ _).list within
      simpa [Site.close] using Closes.prepend whole further
  | elision outer next => exact Closes.prepend (Fills.nothing _ _).elision closes
  | finishList element outer next => exact ⟨[], rest, next, rfl, ⟨_, .nothing _ _⟩, closes⟩

end BuildStep

/-! ## Steps that a builder takes -/

namespace SeparatedListBuilder

variable {α σ : Type}

/-- In a list under construction an element comes next, or a separator. -/
def Expects (items : SeparatedListBuilder α σ) (element : Bool) : Prop :=
  items.elements.size = items.separators.size + (if element then 0 else 1)

variable {items pushed : SeparatedListBuilder α σ} {element : Bool}

theorem Expects.expectsElement_eq (expects : items.Expects element) : items.expectsElement = element := by
  rw [Expects] at expects
  cases element <;> simp [expectsElement, expects]

theorem Expects.pushElement {value : α} (expects : items.Expects element)
    (taken : items.pushElement value = .ok pushed) : element = true ∧ pushed.Expects false := by
  rw [SeparatedListBuilder.pushElement, expects.expectsElement_eq] at taken
  cases element with
  | false => cases taken
  | true =>
      cases taken
      exact ⟨rfl, by simpa [Expects] using expects⟩

theorem Expects.pushSeparator {value : σ} (expects : items.Expects element)
    (taken : items.pushSeparator value = .ok pushed) : element = false ∧ pushed.Expects true := by
  rw [SeparatedListBuilder.pushSeparator, expects.expectsElement_eq] at taken
  cases element with
  | false =>
      cases taken
      exact ⟨rfl, by simpa [Expects] using expects⟩
  | true => cases taken

end SeparatedListBuilder

def Opened.IsAt : Opened → Site → Prop
  | .node _ _, site => site = .node
  | .list _ items, site => ∃ element, site = .list element ∧ items.Expects element

namespace Builder

/-- What is open stands at these sites, the innermost first. -/
def StandAt : List Opened → List Site → Prop
  | [], [] => True
  | opened :: outer, site :: sites => opened.IsAt site ∧ StandAt outer sites
  | _, _ => False

variable {builder next : Builder} {opened attached : List Opened} {sites : List Site}

theorem StandAt.eq_cons {top : Opened} (stands : StandAt (top :: opened) sites) :
    ∃ site outer, sites = site :: outer ∧ top.IsAt site ∧ StandAt opened outer := by
  cases sites with
  | nil => exact stands.elim
  | cons site outer => exact ⟨site, outer, rfl, stands.1, stands.2⟩

theorem StandAt.attachNode {id : NodeId} (stands : StandAt opened sites) (inside : opened ≠ [])
    (taken : Builder.attachNode id opened = .ok attached) :
    ∃ site after outer, sites = site :: outer ∧ site.behindElement = some after ∧
      StandAt attached (after :: outer) := by
  cases opened with
  | nil => exact absurd rfl inside
  | cons top rest =>
      obtain ⟨site, outer, rfl, isAt, outside⟩ := stands.eq_cons
      cases top with
      | node parent children =>
          cases isAt
          cases taken
          exact ⟨.node, .node, outer, rfl, rfl, rfl, outside⟩
      | list list items =>
          obtain ⟨element, rfl, expects⟩ := isAt
          rw [Builder.attachNode] at taken
          cases pushed : items.pushElement (.present id) with
          | error fault =>
              rw [pushed] at taken
              cases taken
          | ok after =>
              rw [pushed] at taken
              cases taken
              obtain ⟨rfl, afterExpects⟩ := expects.pushElement pushed
              exact ⟨.list true, .list false, outer, rfl, rfl, ⟨false, rfl, afterExpects⟩, outside⟩

theorem StandAt.attachToken {id : TokenId} (stands : StandAt opened sites)
    (taken : Builder.attachToken id opened = .ok attached) :
    ∃ site after outer, sites = site :: outer ∧ site.behindToken = some after ∧
      StandAt attached (after :: outer) := by
  cases opened with
  | nil => cases taken
  | cons top rest =>
      obtain ⟨site, outer, rfl, isAt, outside⟩ := stands.eq_cons
      cases top with
      | node parent children =>
          cases isAt
          cases taken
          exact ⟨.node, .node, outer, rfl, rfl, rfl, outside⟩
      | list list items =>
          obtain ⟨element, rfl, expects⟩ := isAt
          rw [Builder.attachToken] at taken
          cases pushed : items.pushSeparator id with
          | error fault =>
              rw [pushed] at taken
              cases taken
          | ok after =>
              rw [pushed] at taken
              cases taken
              obtain ⟨rfl, afterExpects⟩ := expects.pushSeparator pushed
              exact ⟨.list false, .list true, outer, rfl, rfl, ⟨true, rfl, afterExpects⟩, outside⟩

/-- A step that is taken once there is a root moves from what is open to what is open behind it. -/
theorem exists_moves {step : BuildStep} (stands : StandAt builder.opened sites)
    (rooted : builder.nodes.isEmpty = false) (taken : builder.step step = .ok next) :
    ∃ later, BuildStep.Moves sites builder.nextToken step later next.nextToken ∧
      StandAt next.opened later ∧ next.nodes.isEmpty = false := by
  cases step with
  | startNode kind =>
      simp only [Builder.step, stepBy, startNode, id_eq] at taken
      split at taken
      · cases taken
      · rename_i single
        have inside : builder.opened ≠ [] := by
          intro closed
          simp [openNode?, closed, rooted] at single
        cases attaches : Builder.attachNode builder.nodes.size builder.opened with
        | error fault =>
            rw [attaches] at taken
            cases taken
        | ok opened =>
            rw [attaches] at taken
            cases taken
            obtain ⟨site, after, outer, rfl, behind, outside⟩ := stands.attachNode inside attaches
            exact ⟨_, .startNode outer _ kind behind, ⟨rfl, outside⟩, by simp⟩
  | finishNode =>
      simp only [Builder.step, stepBy, finishNode] at taken
      split at taken
      · rename_i id children rest same
        split at taken
        · cases taken
          rw [same] at stands
          obtain ⟨site, outer, rfl, rfl, outside⟩ := stands.eq_cons
          exact ⟨outer, .finishNode outer _, outside,
            by simpa only [Array.isEmpty, Array.size_modify] using rooted⟩
        · cases taken
      · cases taken
  | token index =>
      simp only [Builder.step, stepBy, token, id_eq, ne_eq, not_true_eq_false, if_false] at taken
      split at taken
      · cases taken
      · rename_i inOrder
        obtain rfl : index = builder.nextToken := Decidable.not_not.mp inOrder
        split at taken
        · cases taken
        · cases attaches : Builder.attachToken builder.nextToken builder.opened with
          | error fault =>
              rw [attaches] at taken
              cases taken
          | ok opened =>
              rw [attaches] at taken
              cases taken
              obtain ⟨site, after, outer, rfl, behind, outside⟩ := stands.attachToken attaches
              exact ⟨_, .token outer _ behind, outside, rooted⟩
  | startList =>
      simp only [Builder.step, stepBy, startList] at taken
      split at taken
      · cases taken
      · split at taken
        · rename_i id children rest same
          cases taken
          rw [same] at stands
          obtain ⟨site, outer, rfl, rfl, outside⟩ := stands.eq_cons
          exact ⟨_, .startList outer _, ⟨⟨true, rfl, rfl⟩, rfl, outside⟩, rooted⟩
        · cases taken
  | elision =>
      simp only [Builder.step, stepBy, elision] at taken
      split at taken
      · rename_i id items rest same
        rw [same] at stands
        obtain ⟨site, outer, rfl, ⟨element, rfl, expects⟩, outside⟩ := stands.eq_cons
        cases pushed : items.pushElement .absent with
        | error fault =>
            rw [pushed] at taken
            cases taken
        | ok after =>
            rw [pushed] at taken
            cases taken
            obtain ⟨rfl, afterExpects⟩ := expects.pushElement pushed
            exact ⟨_, .elision outer _, ⟨⟨false, rfl, afterExpects⟩, outside⟩, rooted⟩
      · cases taken
  | finishList =>
      simp only [Builder.step, stepBy, finishList] at taken
      split at taken
      · rename_i id items rest same
        split at taken
        · cases taken
          rw [same] at stands
          obtain ⟨site, outer, rfl, ⟨element, rfl, _⟩, outside⟩ := stands.eq_cons
          exact ⟨outer, .finishList element outer _, outside, rooted⟩
        · cases taken
      · cases taken

theorem run_cons_ok {step : BuildStep} {rest : List BuildStep}
    (ran : builder.run (step :: rest) = .ok next) :
    ∃ middle, builder.step step = .ok middle ∧ middle.run rest = .ok next := by
  rw [run_cons] at ran
  cases taken : builder.step step with
  | error fault =>
      rw [taken] at ran
      cases ran
  | ok middle =>
      rw [taken] at ran
      exact ⟨middle, rfl, ran⟩

/-- Steps that are taken until nothing is open fill and close what was open. -/
theorem closes_of_run {final : Builder} {steps : List BuildStep} (ran : builder.run steps = .ok final)
    (closed : final.opened = []) (stands : StandAt builder.opened sites)
    (rooted : builder.nodes.isEmpty = false) :
    BuildStep.Closes sites builder.nextToken steps := by
  induction steps generalizing builder sites with
  | nil =>
      cases ran
      rw [closed] at stands
      cases sites with
      | nil => rfl
      | cons site outer => exact stands.elim
  | cons step rest ih =>
      obtain ⟨middle, taken, further⟩ := run_cons_ok ran
      obtain ⟨later, moves, middleStands, middleRooted⟩ := exists_moves stands rooted taken
      exact BuildStep.Closes.of_moves moves (ih further middleStands middleRooted)

end Builder

/-- The steps of every tree that is built are those of one node. -/
theorem SyntaxTree.formsTree_of_ofSteps {stream : TokenStream} {start : TokenId} {steps : List BuildStep}
    {tree : SyntaxTree} (built : SyntaxTree.ofSteps stream start steps = .ok tree) :
    BuildStep.FormsTree start steps := by
  rw [ofSteps] at built
  cases ran : (Builder.startingAt start).run steps with
  | error fault =>
      rw [ran] at built
      cases built
  | ok final =>
      rw [ran] at built
      simp only [Builder.finish] at built
      split at built
      · cases built
      · rename_i complete
        have closed : final.opened = [] := by simpa using complete
        cases steps with
        | nil =>
            cases ran
            cases built
        | cons step rest =>
            obtain ⟨middle, taken, further⟩ := Builder.run_cons_ok ran
            -- The root has to be opened first: nothing else fits where nothing is open.
            cases step with
            | startNode kind =>
                cases taken
                have stands : Builder.StandAt [.node 0 #[]] [.node] := ⟨rfl, trivial⟩
                obtain ⟨inside, behind, last, rfl, ⟨after, fills⟩, rfl⟩ :=
                  Builder.closes_of_run further closed stands rfl
                cases fills.eq_node
                exact ⟨kind, inside, last, rfl, fills⟩
            | token index =>
                simp only [Builder.step, Builder.stepBy, Builder.token] at taken
                split at taken <;> cases taken
            | finishNode | startList | elision | finishList => cases taken

/-! ## The forest of a sequence -/

/-- The leaves of a forest are the tokens of a stream from `next` on, in a tree that starts at `start`. -/
def Forest.Lists (stream : TokenStream) (start next : TokenId) (forest : Forest) : Prop :=
  forest.leaves = (List.range' next forest.leaves.length).map fun id =>
    (id - start, (stream.tokens.getD id default).kind)

namespace Forest.Lists

variable {stream : TokenStream} {start next : TokenId} {before rest : Forest}

theorem join {leaves more : List (Nat × Kind)}
    (earlier : leaves = (List.range' next leaves.length).map fun id =>
      (id - start, (stream.tokens.getD id default).kind))
    (later : more = (List.range' (next + leaves.length) more.length).map fun id =>
      (id - start, (stream.tokens.getD id default).kind)) :
    leaves ++ more = (List.range' next (leaves ++ more).length).map fun id =>
      (id - start, (stream.tokens.getD id default).kind) := by
  rw [List.length_append, ← List.range'_append_1, List.map_append, ← earlier, ← later]

theorem token (lists : before.Lists stream start next) {id : TokenId}
    (here : id = next + before.leaves.length) :
    (before.token (id - start) (stream.tokens.getD id default).kind).Lists stream start next := by
  subst here
  exact join lists rfl

theorem node (lists : before.Lists stream start next) (kind : Kind)
    (inside : rest.Lists stream start (next + before.leaves.length)) :
    (before.node kind rest).Lists stream start next :=
  join lists inside

theorem list (lists : before.Lists stream start next)
    (inside : rest.Lists stream start (next + before.leaves.length)) :
    (before.list rest).Lists stream start next :=
  join lists inside

end Forest.Lists

/-- What stands in a node or a list in front of a site. -/
def Site.Admits : Site → Forest → Prop
  | node, forest => forest.Placed false
  | list element, forest => forest.Placed true ∧ forest.expectsElement = some element

namespace Site

variable {site after : Site} {before : Forest}

theorem Admits.token (admits : site.Admits before) (behind : site.behindToken = some after)
    (position : Nat) (kind : Kind) : after.Admits (before.token position kind) := by
  cases site with
  | node =>
      cases behind
      exact admits
  | list element =>
      cases element <;> cases behind
      exact ⟨admits.1, by simp [Forest.expectsElement, admits.2]⟩

theorem Admits.node {children : Forest} (admits : site.Admits before)
    (behind : site.behindElement = some after) (kind : Kind) (placed : children.Placed false) :
    after.Admits (before.node kind children) := by
  cases site with
  | node =>
      cases behind
      exact ⟨admits, placed⟩
  | list element =>
      cases element <;> cases behind
      exact ⟨⟨admits.1, placed⟩, by simp [Forest.expectsElement, admits.2]⟩

end Site

/-- Steps that fill a node or a list are those of a forest with the tokens between. -/
theorem BuildStep.Fills.exists_forest (stream : TokenStream) {start : TokenId} {site after : Site}
    {next last : TokenId} {steps : List BuildStep} (fills : Fills site next steps after last)
    (fresh : site.Admits .empty) (behind : start ≤ next) :
    ∃ forest : Forest, after.Admits forest ∧ forest.steps start = steps ∧
      last = next + forest.leaves.length ∧ forest.Lists stream start next := by
  induction fills with
  | nothing site next => exact ⟨.empty, fresh, rfl, rfl, rfl⟩
  | @token _ _ _ next last _ _ follows ih =>
      obtain ⟨before, admits, rfl, here, lists⟩ := ih fresh behind
      have ahead : start ≤ last := here ▸ Nat.le_trans behind (Nat.le_add_right next _)
      refine ⟨_, admits.token follows (last - start) (stream.tokens.getD last default).kind, ?_, ?_,
        lists.token here⟩
      · rw [Forest.steps, Nat.add_sub_cancel' ahead]
      · simp [Forest.leaves, here, Nat.add_assoc]
  | elision _ ih =>
      obtain ⟨before, admits, rfl, here, lists⟩ := ih fresh behind
      exact ⟨before.hole, ⟨⟨rfl, admits.1⟩, by simp [Forest.expectsElement, admits.2]⟩, rfl, here, lists⟩
  | node kind _ _ follows ih insideIh =>
      obtain ⟨before, admits, rfl, rfl, lists⟩ := ih fresh behind
      obtain ⟨inside, placed, rfl, rfl, insideLists⟩ :=
        insideIh trivial (Nat.le_trans behind (Nat.le_add_right _ _))
      refine ⟨before.node kind inside, admits.node follows kind placed, rfl, ?_,
        lists.node kind insideLists⟩
      rw [Forest.leaves, List.length_append, Nat.add_assoc]
  | list _ _ ih itemsIh =>
      obtain ⟨before, admits, rfl, rfl, lists⟩ := ih fresh behind
      obtain ⟨items, placed, rfl, rfl, itemsLists⟩ :=
        itemsIh ⟨trivial, rfl⟩ (Nat.le_trans behind (Nat.le_add_right _ _))
      refine ⟨before.list items, ⟨rfl, admits, placed.1, by simp [placed.2]⟩, rfl, ?_,
        lists.list itemsLists⟩
      rw [Forest.leaves, List.length_append, Nat.add_assoc]

/-- A forest of one node whose tables a builder fills from a token of a stream on. -/
structure Forest.Builds (stream : TokenStream) (start : TokenId) (kind : Kind) (children : Forest) :
    Prop where
  placed : children.Placed false
  consecutive : (empty.node kind children).Consecutive 0
  lies : (empty.node kind children).LiesOn stream start

theorem Forest.Lists.leaves_node {stream : TokenStream} {start : TokenId} {children : Forest}
    (lists : children.Lists stream start start) (kind : Kind) :
    (empty.node kind children).leaves = (List.range' start children.leaves.length).map fun id =>
      (id - start, (stream.tokens.getD id default).kind) :=
  lists

theorem Forest.Lists.builds {stream : TokenStream} {start : TokenId} {children : Forest}
    (lists : children.Lists stream start start) (placed : children.Placed false) (kind : Kind) :
    Forest.Builds stream start kind children where
  placed := placed
  consecutive := by
    rw [Consecutive, lists.leaves_node kind, List.map_map, List.length_map, List.length_range',
      List.range'_eq_map_range, List.map_map, List.range'_eq_map_range]
    simp [Function.comp_def]
  lies := by
    intro leaf member
    rw [lists.leaves_node kind] at member
    obtain ⟨id, inside, rfl⟩ := List.mem_map.mp member
    obtain ⟨ahead, _⟩ := List.mem_range'_1.mp inside
    simp only [Nat.add_sub_cancel' ahead]

theorem Forest.Builds.children_consecutive {stream : TokenStream} {start : TokenId} {kind : Kind}
    {children : Forest} (builds : Builds stream start kind children) : children.Consecutive 0 :=
  builds.consecutive.of_node.2

theorem BuildStep.FormsTree.exists_forest (stream : TokenStream) {start : TokenId}
    {steps : List BuildStep} (forms : FormsTree start steps) :
    ∃ kind children, (Forest.empty.node kind children).steps start = steps ∧
      Forest.Builds stream start kind children := by
  obtain ⟨kind, inside, last, rfl, fills⟩ := forms
  obtain ⟨children, placed, rfl, _, lists⟩ := fills.exists_forest stream trivial (Nat.le_refl start)
  exact ⟨kind, children, rfl, lists.builds placed kind⟩

theorem SyntaxTree.exists_forest {stream : TokenStream} {start : TokenId} {steps : List BuildStep}
    {tree : SyntaxTree} (built : SyntaxTree.ofSteps stream start steps = .ok tree) :
    ∃ kind children, tree = (Forest.empty.node kind children).tree stream start ∧
      (Forest.empty.node kind children).steps start = steps ∧
      Forest.Builds stream start kind children := by
  obtain ⟨kind, children, rfl, builds⟩ := (formsTree_of_ofSteps built).exists_forest stream
  rw [SyntaxTree.ofSteps_node stream start kind children builds.placed
    builds.children_consecutive] at built
  cases built
  exact ⟨kind, children, rfl, rfl, builds⟩

/-! ## Walking through a finished tree -/

namespace SyntaxTree

end SyntaxTree
end ScriptTree
