import ScriptTree.Proofs.LongerText
import ScriptTree.Proofs.SketchedChildren
import ScriptTree.Proofs.Resuming
import ScriptTree.Proofs.Visibility

/-! # A statement in front of a script

The tokens of a statement that ends in a semicolon and the tokens of a script are together a script: its
statements are that statement and those of the script. -/
set_option autoImplicit false
namespace ScriptTree

/-! ## The statements of a script -/

namespace Forest

def topNodes : Forest → List (Kind × Forest)
  | empty => []
  | token before _ _ => before.topNodes
  | hole before => before.topNodes
  | node before kind children => before.topNodes ++ [(kind, children)]
  | list before _ => before.topNodes

theorem topNodes_append (left right : Forest) :
    (left ++ right).topNodes = left.topNodes ++ right.topNodes := by
  induction right with
  | empty => simp [topNodes]
  | token before position kind ih => simpa [topNodes] using ih
  | hole before ih => simpa [topNodes] using ih
  | node before kind children ih _ => simp [topNodes, ih]
  | list before items ih _ => simpa [topNodes] using ih

theorem topNodes_shift (start : Nat) (forest : Forest) :
    (forest.shift start).topNodes = forest.topNodes.map fun node => (node.1, node.2.shift start) := by
  induction forest with
  | empty => rfl
  | token before position kind ih => exact ih
  | hole before ih => exact ih
  | node before kind children ih _ => simp [shift, topNodes, ih]
  | list before items ih _ => exact ih

theorem Scatters.shift {tokens nodes : List Kind} {forest : Forest} (scatters : forest.Scatters tokens nodes)
    (start : Nat) : (forest.shift start).Scatters tokens nodes := by
  induction forest with
  | empty => trivial
  | token before position kind ih => exact ⟨ih scatters.1, scatters.2⟩
  | hole before ih => exact ih scatters
  | node before kind children ih _ => exact ⟨ih scatters.1, scatters.2⟩
  | list before items => exact scatters.elim

end Forest

namespace SyntaxTree

variable {tree : SyntaxTree} {parent : Option NodeId} {numbering : Numbering} {kinds : List Kind}
  {kind : Kind} {children front : Forest} {position budget : Nat}

theorem Holds.shapeWithin_eq (holds : tree.Holds parent numbering (Forest.empty.node kind children))
    (built : children.WellBuilt false) (enough : children.nodes.length < budget) :
    tree.shapeWithin budget numbering.node = children := by
  obtain ⟨levels, rfl⟩ : ∃ levels, budget = levels + 1 := ⟨budget - 1, by omega⟩
  obtain ⟨-, held, childrenHold⟩ := holds.node
  rw [shapeWithin, held]
  exact (Holds.read_back children _ _ levels childrenHold (by omega)).1 built

theorem Holds.exists_nodes (holds : tree.Holds parent numbering front) (scatters : front.Scatters [] kinds)
    (built : front.WellBuilt false) (enough : front.nodes.length ≤ budget) :
    ∃ nodes : List NodeId, front.childrenFrom numbering = nodes.map .node ∧
      nodes.map (fun node => (tree.kind node, tree.shapeWithin budget node)) = front.topNodes := by
  induction front with
  | empty => exact ⟨[], rfl, rfl⟩
  | token before position kind => exact absurd scatters.2 List.not_mem_nil
  | hole before => exact absurd built.1 Bool.false_ne_true
  | list before items => exact scatters.elim
  | node before kind children ih _ =>
      simp only [Forest.nodes, List.length_append, List.length_cons] at enough
      obtain ⟨beforeHolds, nodeHolds⟩ : _ ∧ tree.Holds parent _ (Forest.empty.node kind children) :=
        Holds.append holds
      obtain ⟨nodes, listed, shapes⟩ := ih beforeHolds scatters.1 built.1 (by omega)
      have shape : tree.shapeWithin budget (before.after numbering).node = children :=
        nodeHolds.shapeWithin_eq built.2.2 (by omega)
      refine ⟨nodes ++ [(before.after numbering).node], ?_, ?_⟩
      · rw [Forest.childrenFrom, listed, List.map_append, List.map_singleton]
      · rw [List.map_append, shapes, List.map_singleton, nodeHolds.node.1, shape, Forest.topNodes]

def nodeShape (tree : SyntaxTree) (node : NodeId) : Kind × Forest := (tree.kind node, tree.shapeOf node)

theorem Represents.exists_nodes (represents : tree.Represents kind (front.token position .eof))
    (scatters : front.Scatters [] kinds) (built : front.WellBuilt false) :
    ∃ nodes : List NodeId,
      tree.children root = nodes.map .node ++ [.token (tree.firstToken + front.leaves.length)] ∧
      nodes.map tree.nodeShape = front.topNodes := by
  obtain ⟨-, held, childrenHold⟩ := represents.stores.toHolds.node
  obtain ⟨frontHolds, -⟩ : _ ∧ tree.Holds _ _ (Forest.empty.token position .eof) :=
    Holds.append childrenHold
  have count : front.nodes.length ≤ tree.nodes.size := by
    rw [represents.nodeCount, Forest.nodes]
    exact Nat.le_succ _
  obtain ⟨nodes, listed, shapes⟩ := frontHolds.exists_nodes scatters built count
  refine ⟨nodes, ?_, shapes⟩
  change tree.children (Numbering.startingAt tree.firstToken).node = _
  rw [held, Forest.childrenFrom, listed, Forest.after_eq]
  rfl

end SyntaxTree

/-- Statements and the end behind them are all that a script holds. -/
def Sketch.listsStatements (kind : Kind) (sketch : Sketch) : Bool :=
  kind ≠ .script || sketch.parts = [.token [.eof] false, .several [] statementKinds]

theorem Nonterminal.isSketched_listsStatements :
    ∀ nonterminal ∈ listed, nonterminal.isSketched Sketch.listsStatements = true := by
  decide +kernel

theorem Rule.Matched.exists_statements {terminals : Terminals} {last : Nat} {state : ParseState} {kind : Kind}
    {children : Forest} (matched : Rule.Matched .script terminals last state kind children) :
    kind = .script ∧ ∃ front position, children = .token front position .eof ∧
      front.Scatters [] statementKinds := by
  obtain ⟨place, later, parsed, forest, _⟩ := matched.nested
  obtain ⟨front, ended⟩ := Nonterminal.nestWith_endsScript _ _ _ _ _ _ _ _ parsed
  have isScript : kind = .script := by
    change place.forest = Forest.empty.node .script _ at ended
    rw [forest] at ended
    cases ended
    rfl
  subst isScript
  obtain ⟨-, drawn, -⟩ :=
    Forest.allNodes_node.mp (matched.drawn Nonterminal.isSketched_listsStatements)
  obtain ⟨sketch, start, stop, passed, fits, -⟩ := drawn.sketched
  have parts : sketch.parts = [.token [.eof] false, .several [] statementKinds] := by
    simpa [Sketch.listsStatements] using passed
  rw [parts] at fits
  obtain ⟨before, _, rfl, ⟨position, found, isEof, rfl, -⟩, none, piece, rfl, scatters, rfl⟩ := fits
  cases List.mem_singleton.mp isEof
  exact ⟨rfl, piece, position, by simp only [Forest.append_token, Forest.append_empty, Forest.empty_append],
    scatters⟩

/-! ## One text after another -/

/-- A text that ends behind a semicolon, another one, and the two together, the end of the first left out. -/
structure Terminals.Joins (front rest whole : Terminals) (last : Nat) : Prop where
  kinds : ∀ position ≤ last, front.kindAt position = whole.kindAt position
  lineBreaks : ∀ position ≤ last, front.lineBreakAt position = whole.lineBreakAt position
  semicolon : front.kindAt last = .semicolon
  ends : front.EndsAt (last + 1)
  resumes : whole.Resumes rest (last + 1)

section Joins

variable {front rest whole : Terminals} {last fuel more : Nat} {place after : Place}
  {history later behind : History}

/-- Where a statement takes a whole text, no bracket is open in front of the semicolon that ends it. -/
theorem Terminals.openAt_last (semicolon : front.kindAt last = .semicolon)
    (matched : Nonterminal.statement.nestWith Nonterminal.production front fuel .outermost .start history =
      .matched place later) (whole : place.position = last + 1) : front.openAt last = some [] := by
  have spans := Nonterminal.nestWith_spans front fuel _ _ _ _ _ _ matched .anything rfl rfl .nil
  have reads := spans.reads
  rw [whole] at reads
  change Bracket.read [] (front.word 0 (last + 1)) = some [] at reads
  rw [← word_append (Nat.zero_le _) (Nat.le_succ last), word_succ, semicolon, Bracket.read_append] at reads
  obtain ⟨stack, opened, read⟩ := Option.bind_eq_some_iff.mp reads
  rw [Bracket.read_singleton,
    Bracket.readKind_of_isPlain (Bracket.isPlain_of_not_bracket rfl rfl (by decide))] at read
  rw [openAt, opened, read]

theorem Nonterminal.kindAt_of_scriptItems
    (matched : scriptItems.nestWith production rest more .outermost place history = .matched after later) :
    rest.kindAt place.position ≠ .elseKw := by
  intro isElse
  have heeds := nestWith_heeds rest more _ _ _ _ _ _ matched [.elseKw] responseDepth (by simp [isElse])
  change (scriptItems.respond [.elseKw]).Allows _ _ at heeds
  rw [respond_scriptItems] at heeds
  exact heeds

theorem Terminals.Joins.goesOn (joins : front.Joins rest whole last)
    (matched : Nonterminal.statement.nestWith Nonterminal.production front fuel .outermost .start history =
      .matched place later) (all : place.position = last + 1)
    (others : Nonterminal.scriptItems.nestWith Nonterminal.production rest more .outermost .start .start =
      .matched after behind) : front.GoesOn whole last where
  kinds := joins.kinds
  lineBreaks := joins.lineBreaks
  semicolon := joins.semicolon
  closed := openAt_last joins.semicolon matched all
  ended := (joins.ends _).mpr (Nat.le_refl _)
  noElse := joins.resumes.kinds 0 ▸ Nonterminal.kindAt_of_scriptItems others

theorem Nonterminal.nestWith_scriptItems (terminals : Terminals) :
    scriptItems.nestWith production terminals (fuel + 1) .outermost place history =
      if (Guard.nextIs .eof).admits terminals .outermost place history.targets then
        .matched (place.take terminals) history
      else
        (statement.nestWith production terminals fuel .outermost place
          (history.expect place.position .eof)).andThen
            (scriptItems.nestWith production terminals fuel .outermost) :=
  rfl

theorem History.Resumes.staysBefore (histories : history.Resumes 0 later) (fair : later.StaysBefore last) :
    history.StaysBefore last where
  arrows entry listed := by
    refine fair.arrows entry ((histories.arrows entry.1 entry.2).mp ?_)
    rwa [Nat.zero_add]
  targets target listed := by
    refine fair.targets target ((histories.targets target).mp ?_)
    rwa [Nat.zero_add]

/-- The rest of a text is gone through as if it stood alone. -/
theorem Terminals.Joins.scriptItems (joins : front.Joins rest whole last)
    (position : place.position = last + 1) (fair : history.StaysBefore last)
    (matched : Nonterminal.scriptItems.nestWith Nonterminal.production rest fuel .outermost .start .start =
      .matched after behind) :
    ∃ ending final, Nonterminal.scriptItems.nestWith Nonterminal.production whole fuel .outermost place history =
        .matched ending final ∧ ending.position = last + 1 + after.position ∧
      ending.forest = place.forest ++ after.forest.shift (last + 1) := by
  have starts : place.Resumes (last + 1) place.forest .nothing .start :=
    ⟨position, rfl, fun known => absurd rfl known, nofun⟩
  have behind_last : ∀ position, ¬last + 1 + position ≤ last := fun position => by omega
  have histories : history.Resumes (last + 1) .start :=
    ⟨fun position _ => ⟨fun listed => absurd (fair.arrows _ listed) (behind_last position), nofun⟩,
      fun target => ⟨fun listed => absurd (fair.targets _ listed) (behind_last target), nofun⟩⟩
  have resumes := Nonterminal.nestWith_resumes joins.resumes fuel .scriptItems .outermost _ _ _ _ _ rfl starts
    histories
  rw [matched] at resumes
  generalize run : Nonterminal.scriptItems.nestWith Nonterminal.production whole fuel .outermost place
    history = parse at resumes
  cases resumes with
  | matched places _ => exact ⟨_, _, rfl, places.position, places.forest⟩

theorem Terminals.Joins.script (joins : front.Joins rest whole last)
    (matched : Nonterminal.statement.nestWith Nonterminal.production front fuel .outermost .start .start =
      .matched place later) (all : place.position = last + 1)
    (others : Nonterminal.scriptItems.nestWith Nonterminal.production rest more .outermost .start .start =
      .matched after behind) :
    ∃ enough ending final, Nonterminal.script.nestWith Nonterminal.production whole enough .outermost .start
        .start = .matched ending final ∧ ending.position = last + 1 + after.position ∧
      ending.forest = Forest.empty.node .script (place.forest ++ after.forest.shift (last + 1)) := by
  have goesOn := joins.goesOn matched all others
  have stands : Place.start.StandsIn front last [] := ⟨Nat.zero_le _, rfl, nofun⟩
  have nothing : History.start.StaysBefore last := ⟨nofun, nofun⟩
  obtain ⟨carried, -, fair⟩ := Nonterminal.nestWith_carries goesOn fuel .statement .start .start rfl rfl .nil
    stands nothing place later matched
  have longer := Nonterminal.nestWith_eq_of_le (Nat.le_add_right fuel more) .statement .outermost .start .start
    (by rw [carried]; nofun)
  have further := Nonterminal.nestWith_eq_of_le (Nat.le_add_left more fuel) .scriptItems .outermost .start
    .start (by rw [others]; nofun)
  -- In a script the end was expected before the statement, which only the furthest failure shows.
  have again := Nonterminal.nestWith_resumes (.refl whole) (fuel + more) .statement .outermost .empty .start
    .start (History.start.expect 0 .eof) .start rfl ⟨rfl, rfl, fun known => absurd rfl known, nofun⟩
    ⟨fun _ _ => by simp [History.expect, History.start], fun _ => by simp [History.expect, History.start]⟩
  rw [longer, carried] at again
  generalize run : Nonterminal.statement.nestWith Nonterminal.production whole (fuel + more) .outermost .start
    (History.start.expect 0 .eof) = parse at again
  cases again with
  | @matched there _ meanwhile _ places histories =>
      have same : there.position = last + 1 := by rw [places.position, Nat.zero_add, all]
      obtain ⟨ending, final, ran, position, forest⟩ :=
        joins.scriptItems same (histories.staysBefore fair) (further.trans others)
      have notEnd : ¬(Guard.nextIs .eof).admits whole .outermost .start History.start.targets := by
        have some : front.kindAt 0 ≠ .eof := fun ended => absurd ((joins.ends 0).mp ended) (by omega)
        rw [joins.kinds 0 (Nat.zero_le _)] at some
        simpa [Guard.admits, Place.start] using some
      refine ⟨fuel + more + 2, Place.start.addNode .script ending, final, ?_, position, ?_⟩
      · have items : Nonterminal.scriptItems.nestWith Nonterminal.production whole (fuel + more + 1) .outermost
            .start .start = .matched ending final := by
          rw [Nonterminal.nestWith_scriptItems, if_neg notEnd]
          exact (congrArg (Parse.andThen · _) run).trans ran
        change Parse.andThen (Nonterminal.scriptItems.nestWith Nonterminal.production whole (fuel + more + 1)
          .outermost .start .start) _ = _
        rw [items]
        rfl
      · rw [Place.addNode, forest, places.forest, Forest.shift_zero, Forest.empty_append]
        rfl

end Joins

/-! ## Streams -/

section Streams

variable {stream front rest whole : TokenStream} {rule : Rule} {tree : SyntaxTree}

theorem Cursor.terminals_start_drop (stream : TokenStream) :
    (Cursor.start stream).terminals = .ofTokens (stream.tokens.toList.drop 0) := by
  rw [start, terminals, atToken, Nat.zero_min]

/-- A rule that takes a whole stream ends in front of its end, a script behind it. -/
theorem Rule.exists_whole (accepts : stream.Accepts) (parsed : parseStream rule stream = .ok tree) :
    ∃ state kind children,
      rule.Matched (.ofTokens (stream.tokens.toList.drop 0)) (stream.eofIndex - 0) state kind children ∧
      tree = (Forest.empty.node kind children).tree stream 0 ∧
      state.position = if rule = .script then stream.eofIndex + 1 else stream.eofIndex := by
  rcases parseStream_cases accepts rule with ⟨_, failed, _⟩ | ⟨_, next, same, found, atEnd⟩
  · rw [failed] at parsed
    cases parsed
  rw [same] at parsed
  cases parsed
  have first : (Cursor.atToken stream 0).position = 0 := Nat.zero_min _
  have ends := Cursor.endsAt_terminals accepts 0
  have size := Cursor.size_terminals accepts 0
  rcases matchRule_cases accepts rule 0 with ⟨_, _, none⟩ | ⟨state, kind, children, _, matched, given⟩
  · rw [Cursor.start, none] at found
    cases found
  rw [Cursor.start, given] at found
  cases found
  obtain ⟨place, _, ran, _, position⟩ := matched.nested
  have surveyed := rule.surveyed ends size
  rw [ran] at surveyed
  obtain ⟨_, ⟨⟩, holds⟩ := surveyed
  rw [first] at holds matched atEnd ⊢
  rw [rule.outlook_nonterminal] at holds
  rw [Nat.zero_add, Cursor.isAtEnd_iff accepts] at atEnd
  refine ⟨state, kind, children, Cursor.terminals_start_drop stream ▸ matched, rfl, ?_⟩
  split at holds
  · rename_i isScript
    rw [if_pos isScript, ← position]
    exact holds.2
  · rename_i other
    rw [if_neg other]
    exact Nat.le_antisymm (position ▸ holds.2.1) atEnd

theorem Rule.nestWith_enoughFuel (accepts : stream.Accepts) {fuel : Nat} {place : Place} {later : History}
    (ran : rule.nonterminal.nestWith Nonterminal.production (Cursor.start stream).terminals fuel .outermost
      .start .start = .matched place later) :
    rule.nonterminal.nestWith Nonterminal.production (Cursor.start stream).terminals
      (Nonterminal.enoughFuel (Cursor.start stream).terminals) .outermost .start .start =
        .matched place later := by
  have surveyed := rule.surveyed (Cursor.endsAt_terminals accepts 0) (Cursor.size_terminals accepts 0)
  have more := Nonterminal.nestWith_eq_of_le
    (Nat.le_add_left fuel (Nonterminal.enoughFuel (Cursor.start stream).terminals)) rule.nonterminal
    .outermost .start .start (by rw [ran]; nofun)
  rw [← ran, ← more]
  refine (Nonterminal.nestWith_eq_of_le (Nat.le_add_right _ fuel) _ _ _ _ fun out => ?_).symm
  rw [Cursor.start] at out
  rw [out] at surveyed
  exact surveyed

/-- What a parse of a stream sees that has the tokens of another one, without its end, in front of those of
a third one. -/
theorem TokenStream.joins_of_look (accepts : front.Accepts)
    (joined : whole.tokens.toList.map Token.look =
      (front.tokens.toList.dropLast ++ rest.tokens.toList).map Token.look)
    (semicolon : front.tokens.toList.dropLast.getLast?.map Token.kind = some .semicolon) :
    ∃ last, front.eofIndex = last + 1 ∧ (Cursor.start front).terminals.Joins (Cursor.start rest).terminals
      (Cursor.start whole).terminals last := by
  have size := accepts.size_eq
  have length : front.tokens.toList.dropLast.length = front.eofIndex := by simp [size]
  obtain ⟨token, isLast, isSemicolon⟩ := Option.map_eq_some_iff.mp semicolon
  obtain ⟨last, ends⟩ : ∃ last, front.eofIndex = last + 1 := by
    refine Nat.exists_eq_succ_of_ne_zero fun zero => ?_
    rw [List.eq_nil_of_length_eq_zero (length.trans zero)] at isLast
    cases isLast
  rw [ends] at length
  have inFront : ∀ position ≤ last,
      (whole.tokens.toList.map Token.look)[position]? = (front.tokens.toList.map Token.look)[position]? := by
    intro position le
    have inside : position < front.tokens.toList.dropLast.length := by omega
    rw [joined, List.map_append, List.getElem?_append_left (by rwa [List.length_map]), List.getElem?_map,
      List.getElem?_map, List.getElem?_dropLast, if_pos (by simpa using inside)]
  have behind : ∀ position,
      (whole.tokens.toList.map Token.look)[last + 1 + position]? =
        (rest.tokens.toList.map Token.look)[position]? := by
    intro position
    rw [joined, List.map_append, List.getElem?_append_right (by rw [List.length_map, length]; omega),
      List.length_map, length, Nat.add_sub_cancel_left]
  refine ⟨last, ends, ?_, ?_, ?_, ?_, ?_, ?_⟩
  all_goals simp only [Cursor.terminals_start, Terminals.kindAt_eq_of_look,
    Terminals.lineBreakAt_eq_of_look]
  · intro position le
    rw [inFront position le]
  · intro position le
    rw [inFront position le]
  · rw [List.getLast?_eq_getElem?, length, Nat.add_sub_cancel, List.getElem?_dropLast,
      if_pos (by simp [size, ends])] at isLast
    rw [List.getElem?_map, isLast]
    exact isSemicolon
  · have atEnd := accepts.terminals_endsAt (Nat.zero_le _)
    rwa [Nat.sub_zero, ends, List.drop_zero] at atEnd
  · intro position
    rw [behind]
  · intro position
    rw [behind]

theorem Rule.Matched.exists_children (accepts : stream.Accepts) {state : ParseState} {kind : Kind}
    {children : Forest}
    (matched : Rule.Matched .script (.ofTokens (stream.tokens.toList.drop 0)) (stream.eofIndex - 0) state kind
      children) (position : state.position = stream.eofIndex + 1) :
    kind = .script ∧ ∃ front, children = .token front stream.eofIndex .eof ∧ ∃ nodes : List NodeId,
      ((Forest.empty.node kind children).tree stream 0).children SyntaxTree.root =
        nodes.map .node ++ [.token stream.eofIndex] ∧
      nodes.map ((Forest.empty.node kind children).tree stream 0).nodeShape = front.topNodes := by
  obtain ⟨isScript, front, last, rfl, scatters⟩ := matched.exists_statements
  obtain ⟨consecutive, count⟩ := matched.consecutive
  rw [position, Forest.leaves, List.length_append, List.length_singleton, Nat.add_right_cancel_iff] at count
  obtain ⟨nodes, held, shapes⟩ := (matched.represents accepts (Nat.zero_le _)).exists_nodes scatters
    matched.built.2.2
  have first : ((Forest.empty.node kind (.token front last .eof)).tree stream 0).firstToken = 0 := rfl
  rw [first, count, Nat.zero_add] at held
  refine ⟨isScript, front, ?_, nodes, held, shapes⟩
  have ended := congrArg List.getLast? consecutive
  simp [Forest.leaves, count, List.getLast?_range'] at ended
  rw [ended]

theorem Rule.Matched.shape_eq (accepts : stream.Accepts) {state : ParseState} {kind : Kind} {children : Forest}
    (matched : rule.Matched (.ofTokens (stream.tokens.toList.drop 0)) (stream.eofIndex - 0) state kind
      children) :
    ((Forest.empty.node kind children).tree stream 0).shape = Forest.empty.node kind children :=
  Forest.shape_tree matched.built matched.consecutive.1 (matched.liesOn accepts (Nat.zero_le _))

theorem Rule.Matched.nodeShape_root (accepts : stream.Accepts) {state : ParseState} {kind : Kind}
    {children : Forest}
    (matched : rule.Matched (.ofTokens (stream.tokens.toList.drop 0)) (stream.eofIndex - 0) state kind
      children) :
    ((Forest.empty.node kind children).tree stream 0).nodeShape SyntaxTree.root = (kind, children) := by
  have shape := matched.shape_eq accepts
  rw [SyntaxTree.shape, Forest.node.injEq] at shape
  exact Prod.ext shape.2.1 shape.2.2

end Streams

/-- A node of one tree is a node of another one over again, with its tokens so many places further on. -/
structure SyntaxTree.Repeats (tree : SyntaxTree) (node : NodeId) (other : SyntaxTree) (original : NodeId)
    (start : Nat) : Prop where
  kind : tree.kind node = other.kind original
  shape : tree.shapeOf node = (other.shapeOf original).shift start

theorem SyntaxTree.exists_repeats {tree statement script : SyntaxTree} {all nodes : List NodeId} {start : Nat}
    (shapes : all.map tree.nodeShape = statement.nodeShape root ::
      (nodes.map script.nodeShape).map fun node => (node.1, node.2.shift start)) :
    ∃ first behind, all = first :: behind ∧ tree.Repeats first statement root 0 ∧
      List.Forall₂ (fun node original => tree.Repeats node script original start) behind nodes := by
  obtain ⟨first, behind, rfl, same, others⟩ := List.map_eq_cons_iff.mp shapes
  obtain ⟨kind, shape⟩ := Prod.mk.inj same
  refine ⟨first, behind, rfl, ⟨kind, by rw [shape, Forest.shift_zero]⟩, ?_⟩
  rw [List.map_map, ← List.forall₂_eq_eq_eq, List.forall₂_map_left_iff, List.forall₂_map_right_iff] at others
  refine others.imp fun node original same => ?_
  obtain ⟨kind, shape⟩ := Prod.mk.inj same
  exact ⟨kind, shape⟩

theorem Nonterminal.exists_scriptItems {terminals : Terminals} {fuel : Nat} {place : Place} {later : History}
    (matched : script.nestWith production terminals fuel .outermost .start .start = .matched place later) :
    ∃ less after behind, scriptItems.nestWith production terminals less .outermost .start .start =
      .matched after behind ∧ place = Place.start.addNode .script after := by
  cases fuel with
  | zero => cases matched
  | succ fuel =>
      obtain ⟨after, behind, items, closed⟩ := Parse.andThen_matched matched
      cases closed
      exact ⟨fuel, after, _, items, rfl⟩

/-- A statement that ends in a semicolon composes with a script. Let one stream have the tokens of another
one, its end left out, in front of those of a third one; of a token the kind and the line break before it
matter. If the first of the two matches as a whole as a statement with a semicolon as its last token, and
the second as a script, then both together are a script. Its root holds the statement, the statements of
the script in their order, and the end. -/
theorem parseStream_script_of_statement {frontText restText wholeText : List Char}
    {frontTokens restTokens wholeTokens : Array Token} {front rest whole : TokenStream}
    (frontAccepted : TokenStream.ofTokens frontText frontTokens = .ok front)
    (restAccepted : TokenStream.ofTokens restText restTokens = .ok rest)
    (wholeAccepted : TokenStream.ofTokens wholeText wholeTokens = .ok whole)
    (joined : whole.tokens.toList.map Token.look =
      (front.tokens.toList.dropLast ++ rest.tokens.toList).map Token.look)
    (semicolon : front.tokens.toList.dropLast.getLast?.map Token.kind = some .semicolon)
    {statement script : SyntaxTree} (matched : parseStream .statement front = .ok statement)
    (others : parseStream .script rest = .ok script) :
    ∃ tree, parseStream .script whole = .ok tree ∧ tree.kind SyntaxTree.root = .script ∧
      ∃ (first : NodeId) (behind nodes : List NodeId),
        tree.children SyntaxTree.root = .node first :: behind.map .node ++ [.token whole.eofIndex] ∧
        script.children SyntaxTree.root = nodes.map .node ++ [.token rest.eofIndex] ∧
        tree.Repeats first statement SyntaxTree.root 0 ∧
        List.Forall₂ (fun node original => tree.Repeats node script original front.eofIndex) behind nodes := by
  obtain ⟨-, frontAccepts⟩ := TokenStream.accepts_of_ofTokens frontAccepted
  obtain ⟨-, restAccepts⟩ := TokenStream.accepts_of_ofTokens restAccepted
  obtain ⟨-, wholeAccepts⟩ := TokenStream.accepts_of_ofTokens wholeAccepted
  obtain ⟨last, size, joins⟩ := TokenStream.joins_of_look frontAccepts joined semicolon
  obtain ⟨_, kind, inside, one, rfl, position⟩ := Rule.exists_whole frontAccepts matched
  obtain ⟨_, _, _, other, rfl, restPosition⟩ := Rule.exists_whole restAccepts others
  rw [if_pos rfl] at restPosition
  obtain ⟨rfl, statements, rfl, nodes, restHeld, restShapes⟩ := other.exists_children restAccepts restPosition
  -- The statement, and behind it the items of the script, on the joined text.
  obtain ⟨place, later, ran, forest, ended⟩ := one.nested
  obtain ⟨scriptPlace, _, scriptRan, scriptForest, scriptEnded⟩ := other.nested
  rw [← Cursor.terminals_start_drop] at ran scriptRan
  obtain ⟨_, after, _, items, rfl⟩ := Nonterminal.exists_scriptItems scriptRan
  obtain ⟨_, ending, _, joinedRan, joinedPosition, joinedForest⟩ :=
    joins.script ran (ended.trans (position.trans size)) items
  have afterPosition : after.position = rest.eofIndex + 1 := scriptEnded.trans restPosition
  have afterForest : after.forest = .token statements rest.eofIndex .eof := by
    simpa [Place.addNode, Place.start] using scriptForest
  have wholeSize : whole.eofIndex = last + 1 + rest.eofIndex := by
    have lengths := congrArg List.length joined
    have frontSize := frontAccepts.size_eq
    have restSize := restAccepts.size_eq
    have wholeSize := wholeAccepts.size_eq
    simp only [List.length_map, List.length_append, List.length_dropLast, Array.length_toList] at lengths
    omega
  obtain ⟨tree, parsed, -, -, shape⟩ := parseStream_of_nested wholeAccepts .script
    (Rule.nestWith_enoughFuel wholeAccepts joinedRan) (by omega)
  obtain ⟨_, _, children, both, rfl, bothPosition⟩ := Rule.exists_whole wholeAccepts parsed
  rw [if_pos rfl] at bothPosition
  obtain ⟨rfl, items, rfl, all, held, shapes⟩ := both.exists_children wholeAccepts bothPosition
  rw [both.shape_eq wholeAccepts, joinedForest, forest, afterForest, Forest.shift, Forest.append_token,
    Forest.node.injEq, Forest.token.injEq] at shape
  have topNodes : items.topNodes =
      (kind, inside) :: statements.topNodes.map fun node => (node.1, node.2.shift front.eofIndex) := by
    rw [shape.2.2.1, Forest.topNodes_append, Forest.topNodes_shift, size]
    rfl
  rw [topNodes, ← one.nodeShape_root frontAccepts, ← restShapes] at shapes
  obtain ⟨first, behind, rfl, repeats, further⟩ := SyntaxTree.exists_repeats shapes
  exact ⟨_, parsed, rfl, first, behind, nodes, held, restHeld, repeats, further⟩

/-- A loop, which could end without its semicolon, in front of a call. -/
theorem parseStream_script_of_loop :
    let loop := ['d', 'o', ';', 'w', 'h', 'i', 'l', 'e', '(', 'a', ')', ';']
    let called := ['b', '(', ')']
    let front := tokenize loop
    let rest := tokenize called
    let whole := tokenize (loop ++ called)
    ∃ statement script tree, parseStream .statement front = .ok statement ∧
      parseStream .script rest = .ok script ∧ parseStream .script whole = .ok tree ∧
      ∃ (first : NodeId) (behind nodes : List NodeId),
        tree.children SyntaxTree.root = .node first :: behind.map .node ++ [.token whole.eofIndex] ∧
        script.children SyntaxTree.root = nodes.map .node ++ [.token rest.eofIndex] ∧
        tree.Repeats first statement SyntaxTree.root 0 ∧
        List.Forall₂ (fun node original => tree.Repeats node script original front.eofIndex) behind nodes := by
  intro loop called front rest whole
  have frontAccepted : TokenStream.ofTokens loop front.tokens = .ok front := by decide +kernel
  have restAccepted : TokenStream.ofTokens called rest.tokens = .ok rest := by decide +kernel
  have wholeAccepted : TokenStream.ofTokens (loop ++ called) whole.tokens = .ok whole := by decide +kernel
  have joined : whole.tokens.toList.map Token.look =
      (front.tokens.toList.dropLast ++ rest.tokens.toList).map Token.look := by decide +kernel
  have semicolon : front.tokens.toList.dropLast.getLast?.map Token.kind = some .semicolon := by
    decide +kernel
  have loopParsed : (parseStream .statement front).toOption.isSome = true := by decide +kernel
  have callParsed : (parseStream .script rest).toOption.isSome = true := by decide +kernel
  cases matched : parseStream .statement front with
  | error failure =>
      rw [matched] at loopParsed
      cases loopParsed
  | ok statement =>
      cases others : parseStream .script rest with
      | error failure =>
          rw [others] at callParsed
          cases callParsed
      | ok script =>
          obtain ⟨tree, parsed, -, held⟩ := parseStream_script_of_statement frontAccepted restAccepted
            wholeAccepted joined semicolon matched others
          exact ⟨statement, script, tree, rfl, rfl, parsed, held⟩

end ScriptTree
