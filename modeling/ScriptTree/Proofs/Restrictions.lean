import ScriptTree.Proofs.SketchedChildren

/-! # Restricted productions

Some tokens have to stand on the line of the one before them: the operator behind an operand, what a jump
goes to or gives, what follows `yield` and `async`, and the arrow. Each is looked at in a place of its own;
in the sketches of the grammar it is joined, whatever led to it. -/
set_option autoImplicit false
namespace ScriptTree

/-- The nodes that a modifier `async` can start. -/
def asyncKinds : List Kind := [
  .functionDeclaration, .generatorDeclaration, .functionExpression, .generatorExpression,
  .arrowFunction, .method, .generatorMethod]

/-- In a node, no line terminator precedes the tokens that have to stand on the line of the one before. -/
structure SyntaxTree.IsRestricted (tree : SyntaxTree) (node : NodeId) : Prop where
  operator : tree.kind node = .postfixExpression → ∀ id, .token id ∈ tree.children node →
    (tree.token id).hasLineBreakBefore = false
  argument : tree.kind node ∈ [Kind.returnStatement, .throwStatement] →
    ∀ argument, .node argument ∈ tree.children node → tree.IsJoined (.node argument)
  label : tree.kind node ∈ [Kind.continueStatement, .breakStatement] →
    ∀ label, .node label ∈ tree.children node → tree.IsJoined (.node label)
  second : tree.kind node = .yieldExpression → ∀ id, (tree.tokens node)[1]? = some id →
    (tree.token id).hasLineBreakBefore = false
  arrow : tree.kind node = .arrowFunction → ∀ id, .token id ∈ tree.children node →
    (tree.token id).kind = .fatArrow → (tree.token id).hasLineBreakBefore = false
  afterAsync : tree.kind node ∈ asyncKinds → ∀ id, .token id ∈ tree.children node →
    (tree.token id).kind = .asyncKw → (tree.token (id + 1)).hasLineBreakBefore = false

/-! ## The sketches of restricted nodes -/

namespace Part

def isJoined : Part → Bool
  | token _ joined | node _ joined => joined
  | list _ | several _ _ => false

def joinsTokens (restricted : Kind → Bool) : Part → Bool
  | token kinds joined => joined || kinds.all (!restricted ·)
  | several tokens _ => tokens.all (!restricted ·)
  | node _ _ | list _ => true

def joinsNodes : Part → Bool
  | node _ joined => joined
  | several _ nodes => nodes = []
  | token _ _ | list _ => true

/-- Whether what follows the first part, a token, is joined to it. -/
def joinsSecond : List Part → Bool
  | [token _ _] => true
  | token _ _ :: second :: _ => second.isJoined
  | _ => false

/-- Whether a part that is joined follows each `async`. -/
def joinAfterAsync : List Part → Bool
  | [] => true
  | token kinds _ :: rest => (.asyncKw ∉ kinds || rest.head?.any isJoined) && joinAfterAsync rest
  | several tokens _ :: rest => .asyncKw ∉ tokens && joinAfterAsync rest
  | node _ _ :: rest | list _ :: rest => joinAfterAsync rest

end Part

def Sketch.keepsLines (kind : Kind) (sketch : Sketch) : Bool :=
  (kind ≠ .postfixExpression || sketch.parts.all (Part.joinsTokens fun _ => true)) &&
  (kind ∉ [.returnStatement, .throwStatement, .continueStatement, .breakStatement] ||
    sketch.parts.all Part.joinsNodes) &&
  (kind ≠ .yieldExpression || Part.joinsSecond sketch.parts.reverse) &&
  (kind ≠ .arrowFunction || sketch.parts.all (Part.joinsTokens (· = .fatArrow))) &&
  (kind ∉ asyncKinds || Part.joinAfterAsync sketch.parts.reverse)

theorem Nonterminal.isSketched_keepsLines :
    ∀ nonterminal ∈ listed, nonterminal.isSketched Sketch.keepsLines = true := by
  decide +kernel

/-! ## Children side by side -/

theorem Tiles.adjacent {start stop : Nat} {before after : List (Nat × Nat)} {first second : Nat × Nat}
    (tiles : Tiles start stop (before ++ first :: second :: after)) : second.1 = first.2 := by
  induction before generalizing start with
  | nil => exact tiles.2.2.1
  | cons range before ih => exact ih tiles.2.2

namespace SyntaxTree

variable {tree : SyntaxTree} {kind : Kind} {children : Forest} {node : NodeId} {id first : TokenId}
  {child : Child} {before after : List Child}

theorem exists_element (starts : first ∈ tree.firstOf? child) :
    ∃ element, tree.flatten child = [element] ∧ (tree.tokenRange element).1 = first := by
  cases child with
  | token id =>
      cases starts
      exact ⟨_, rfl, rfl⟩
  | node id =>
      refine ⟨.node id, rfl, ?_⟩
      change first ∈ tree.firstToken? id at starts
      rw [firstToken?] at starts
      split at starts
      · cases starts
        rfl
      · cases starts
  | list id => cases starts

namespace Represents

variable (represents : tree.Represents kind children) (inside : node < tree.nodes.size)
include represents inside

theorem first_eq_succ (children_eq : tree.children node = before ++ .token id :: child :: after)
    (starts : first ∈ tree.firstOf? child) : first = id + 1 := by
  obtain ⟨element, flat, begins⟩ := exists_element starts
  have tiles := represents.tiles_children inside
  simp only [children_eq, List.flatMap_append, List.flatMap_cons, flat, List.map_append, List.map_cons,
    List.map_nil] at tiles
  exact begins ▸ tiles.adjacent

end Represents

/-! ## What restricted parts tell -/

variable {sketch : Sketch} {parts : List Part} {runs : List (List Child)} {run : List Child} {part : Part}

theorem joined_of_joinsTokens {restricted : Kind → Bool} (tells : part.Tells tree run)
    (joins : part.joinsTokens restricted = true) (member : .token id ∈ run)
    (isRestricted : restricted (tree.token id).kind = true) :
    (tree.token id).hasLineBreakBefore = false := by
  cases part with
  | token kinds joined =>
      obtain ⟨_, rfl, among, clear⟩ := tells
      cases List.mem_singleton.mp member
      rcases Bool.or_eq_true_iff.mp joins with joined | none
      · obtain ⟨_, same, noBreak⟩ := clear joined
        cases same
        exact noBreak
      · simpa [isRestricted] using List.all_eq_true.mp none _ among
  | node kinds joined =>
      obtain ⟨_, rfl, -⟩ := tells
      cases List.mem_singleton.mp member
  | list kinds =>
      obtain ⟨_, rfl, -⟩ := tells
      cases List.mem_singleton.mp member
  | several tokens nodes =>
      rcases tells _ member with ⟨_, same, among⟩ | ⟨_, same, -⟩
      · cases same
        simpa [isRestricted] using List.all_eq_true.mp joins _ among
      · cases same

theorem joined_of_joinsNodes {inner : NodeId} (tells : part.Tells tree run)
    (joins : part.joinsNodes = true) (member : .node inner ∈ run) : tree.IsJoined (.node inner) := by
  cases part with
  | token kinds joined =>
      obtain ⟨_, rfl, -⟩ := tells
      cases List.mem_singleton.mp member
  | node kinds joined =>
      obtain ⟨_, rfl, -, clear⟩ := tells
      cases List.mem_singleton.mp member
      exact clear joins
  | list kinds =>
      obtain ⟨_, rfl, -⟩ := tells
      cases List.mem_singleton.mp member
  | several tokens nodes =>
      cases of_decide_eq_true joins
      rcases tells _ member with ⟨_, same, -⟩ | ⟨_, -, among⟩
      · cases same
      · cases among

theorem Shows.exists_part (shows : tree.Shows sketch.parts.reverse node)
    (member : child ∈ tree.children node) :
    ∃ part ∈ sketch.parts, ∃ run, part.Tells tree run ∧ child ∈ run := by
  obtain ⟨runs, tell, same⟩ := shows
  rw [same] at member
  obtain ⟨run, inRuns, inRun⟩ := List.mem_flatten.mp member
  obtain ⟨index, bound, rfl⟩ := List.mem_iff_getElem.mp inRuns
  have shorter : index < sketch.parts.reverse.length := tell.length_eq ▸ bound
  exact ⟨sketch.parts.reverse[index], List.mem_reverse.mp (List.getElem_mem shorter), _,
    by simpa using tell.get shorter bound, inRun⟩

theorem Tells.exists_joined (tells : part.Tells tree run) (isJoined : part.isJoined = true) :
    ∃ child, run = [child] ∧ tree.IsJoined child := by
  cases part with
  | token kinds joined =>
      obtain ⟨id, rfl, -, clear⟩ := tells
      exact ⟨_, rfl, clear isJoined⟩
  | node kinds joined =>
      obtain ⟨id, rfl, -, clear⟩ := tells
      exact ⟨_, rfl, clear isJoined⟩
  | list kinds => cases isJoined
  | several tokens nodes => cases isJoined

theorem exists_joined_behind (tell : List.Forall₂ (Part.Tells tree) parts runs)
    (joins : Part.joinAfterAsync parts = true) (member : .token id ∈ runs.flatten)
    (isAsync : (tree.token id).kind = .asyncKw) :
    ∃ before child after, runs.flatten = before ++ .token id :: child :: after ∧ tree.IsJoined child := by
  induction tell with
  | nil => cases member
  | @cons part run parts runs tells rest ih =>
      rw [List.flatten_cons] at member ⊢
      have further (inRest : .token id ∈ runs.flatten) (joins : Part.joinAfterAsync parts = true) :
          ∃ before child after, run ++ runs.flatten = before ++ .token id :: child :: after ∧
            tree.IsJoined child := by
        obtain ⟨before, child, after, same, joined⟩ := ih joins inRest
        exact ⟨run ++ before, child, after, by rw [same, List.append_assoc], joined⟩
      cases part with
      | token kinds joined =>
          obtain ⟨here, others⟩ := Bool.and_eq_true_iff.mp joins
          rcases List.mem_append.mp member with inRun | inRest
          · obtain ⟨_, rfl, among, -⟩ := tells
            cases List.mem_singleton.mp inRun
            rcases Bool.or_eq_true_iff.mp here with other | next
            · exact absurd (isAsync ▸ among) (of_decide_eq_true other)
            · cases rest with
              | nil => cases next
              | cons nextTells _ =>
                  obtain ⟨child, rfl, childJoined⟩ := Tells.exists_joined nextTells next
                  exact ⟨[], child, _, rfl, childJoined⟩
          · exact further inRest others
      | several tokens nodes =>
          obtain ⟨here, others⟩ := Bool.and_eq_true_iff.mp joins
          rcases List.mem_append.mp member with inRun | inRest
          · rcases tells _ inRun with ⟨_, same, among⟩ | ⟨_, same, -⟩
            · cases same
              exact absurd (isAsync ▸ among) (of_decide_eq_true here)
            · cases same
          · exact further inRest others
      | node kinds joined =>
          obtain ⟨_, rfl, -⟩ := tells
          rcases List.mem_append.mp member with inRun | inRest
          · cases List.mem_singleton.mp inRun
          · exact further inRest joins
      | list kinds =>
          obtain ⟨_, rfl, -⟩ := tells
          rcases List.mem_append.mp member with inRun | inRest
          · cases List.mem_singleton.mp inRun
          · exact further inRest joins

theorem Represents.joined_second (represents : tree.Represents kind children)
    (inside : node < tree.nodes.size) (shows : tree.Shows parts node)
    (joins : Part.joinsSecond parts = true) (second : (tree.tokens node)[1]? = some id) :
    (tree.token id).hasLineBreakBefore = false := by
  obtain ⟨runs, tell, children_eq⟩ := shows
  obtain ⟨bound, rfl⟩ := List.getElem?_eq_some_iff.mp second
  have some : 1 < (tree.entry node).endToken - (tree.entry node).firstToken := by
    simpa [tokens] using bound
  have same : (tree.tokens node)[1] = (tree.entry node).firstToken + 1 := by simp [tokens]
  rw [same]
  rw [Part.joinsSecond.eq_def] at joins
  split at joins
  · obtain ⟨run, _, ⟨start, rfl, -⟩, none, rfl⟩ := List.forall₂_cons_left_iff.mp tell
    cases none
    obtain ⟨begins, ends⟩ := represents.range_of_children inside children_eq
    have last := ends rfl
    rw [begins, last] at some
    simp at some
  · rename_i part _
    obtain ⟨run, _, ⟨start, rfl, -⟩, rest, rfl⟩ := List.forall₂_cons_left_iff.mp tell
    obtain ⟨_, _, tells, -, rfl⟩ := List.forall₂_cons_left_iff.mp rest
    obtain ⟨child, rfl, first, starts, noBreak⟩ := Tells.exists_joined tells joins
    have split : tree.children node = [] ++ .token start :: child :: _ := children_eq
    have next := represents.first_eq_succ inside split starts
    rwa [(represents.range_of_children inside children_eq).1, ← next]
  · cases joins

theorem Represents.isRestricted {terminals : Terminals} (represents : tree.Represents kind children)
    (inside : node < tree.nodes.size) (like : tree.IsLike terminals sketch node)
    (passed : sketch.keepsLines (tree.kind node) = true) : tree.IsRestricted node := by
  simp only [Sketch.keepsLines, Bool.and_eq_true, Bool.or_eq_true, decide_eq_true_eq] at passed
  obtain ⟨⟨⟨⟨operator, jump⟩, second⟩, arrow⟩, afterAsync⟩ := passed
  have nodes (isJump : tree.kind node ∈ [Kind.returnStatement, .throwStatement, .continueStatement,
      .breakStatement]) (inner : NodeId) (member : .node inner ∈ tree.children node) :
      tree.IsJoined (.node inner) := by
    obtain ⟨part, listed, run, tells, inRun⟩ := like.shows.exists_part member
    exact joined_of_joinsNodes tells
      (List.all_eq_true.mp (jump.resolve_left (· isJump)) part listed) inRun
  refine ⟨?_, ?_, ?_, ?_, ?_, ?_⟩
  · intro isPostfix id member
    obtain ⟨part, listed, run, tells, inRun⟩ := like.shows.exists_part member
    exact joined_of_joinsTokens tells
      (List.all_eq_true.mp (operator.resolve_left (· isPostfix)) part listed) inRun rfl
  · exact fun isJump => nodes (List.mem_append_left _ isJump)
  · exact fun isJump => nodes (List.mem_append_right [Kind.returnStatement, .throwStatement] isJump)
  · intro isYield id found
    exact represents.joined_second inside like.shows (second.resolve_left (· isYield)) found
  · intro isArrow id member sign
    obtain ⟨part, listed, run, tells, inRun⟩ := like.shows.exists_part member
    exact joined_of_joinsTokens tells
      (List.all_eq_true.mp (arrow.resolve_left (· isArrow)) part listed) inRun (by simp [sign])
  · intro mayBeAsync id member isAsync
    obtain ⟨runs, tell, children_eq⟩ := like.shows
    rw [children_eq] at member
    obtain ⟨before, child, after, same, first, starts, noBreak⟩ :=
      exists_joined_behind tell (afterAsync.resolve_left (· mayBeAsync)) member isAsync
    rw [← represents.first_eq_succ inside (children_eq.trans same) starts]
    exact noBreak

end SyntaxTree

theorem Rule.Matched.isRestricted {stream : TokenStream} {start : Nat} {rule : Rule}
    {state : ParseState} {kind : Kind} {children : Forest} (accepts : stream.Accepts)
    (before : start ≤ stream.eofIndex)
    (matched : rule.Matched (.ofTokens (stream.tokens.toList.drop start)) (stream.eofIndex - start)
      state kind children) :
    ∀ node < ((Forest.empty.node kind children).tree stream start).nodes.size,
      ((Forest.empty.node kind children).tree stream start).IsRestricted node := by
  intro node inside
  obtain ⟨sketch, passed, like⟩ :=
    matched.exists_sketch accepts before Nonterminal.isSketched_keepsLines inside
  exact (matched.represents accepts before).isRestricted inside like passed

/-- In no node of a tree of a match or a parse does a restricted production span a line break. -/
theorem matchRule_restricts_lines {text : List Char} {tokens : Array Token} {stream : TokenStream}
    (accepted : TokenStream.ofTokens text tokens = .ok stream) (rule : Rule) :
    (∀ (position : Nat) (tree : SyntaxTree) (next : Cursor),
      matchRule rule (.atToken stream position) = .ok (tree, next) →
        ∀ node < tree.nodes.size, tree.IsRestricted node) ∧
    ∀ tree : SyntaxTree, parseStream rule stream = .ok tree →
      ∀ node < tree.nodes.size, tree.IsRestricted node := by
  obtain ⟨-, accepts⟩ := TokenStream.accepts_of_ofTokens accepted
  exact accepts.holds_of_matched rule fun _ before _ _ _ matched =>
    matched.isRestricted accepts before

/-- An `async` arrow whose parameter stands on its line. -/
theorem matchRule_restricts_lines_of_arrow :
    let text := ['a', 's', 'y', 'n', 'c', ' ', 'a', '=', '>', '\n', 'b', '+', '+']
    let stream := tokenize text
    TokenStream.ofTokens text stream.tokens = .ok stream ∧
    ∃ tree, parseStream .arrowFunction stream = .ok tree ∧ tree.kind 2 = .postfixExpression ∧
      ∀ node < tree.nodes.size, tree.IsRestricted node := by
  intro text stream
  have accepted : TokenStream.ofTokens text stream.tokens = .ok stream := rfl
  have parsed : (parseStream .arrowFunction stream).toOption.map (fun tree => tree.kind 2) =
      some .postfixExpression := by decide +kernel
  refine ⟨accepted, ?_⟩
  cases result : parseStream .arrowFunction stream with
  | error failure =>
      rw [result] at parsed
      cases parsed
  | ok tree =>
      rw [result] at parsed
      exact ⟨tree, rfl, Option.some.inj parsed,
        (matchRule_restricts_lines accepted .arrowFunction).2 tree result⟩

end ScriptTree
