import ScriptTree.Proofs.Consistency
import ScriptTree.Proofs.Lookahead

/-! # Brackets

The brackets that a production takes are read with a stack of those that are open. What a node takes
opens nothing that it does not close, and closes nothing that it has not opened. -/
set_option autoImplicit false
namespace ScriptTree

/-- What opens and closes: the parts of a template stand between its head and its tail. -/
inductive Bracket where
  | round
  | square
  | curly
  | template
  deriving DecidableEq, Repr

namespace Bracket

def opening : Bracket → Kind
  | round => .leftParen
  | square => .leftBracket
  | curly => .leftBrace
  | template => .templateHead

def closing : Bracket → Kind
  | round => .rightParen
  | square => .rightBracket
  | curly => .rightBrace
  | template => .templateTail

def all : List Bracket := [round, square, curly, template]

def openedBy? (kind : Kind) : Option Bracket := all.find? fun bracket => bracket.opening = kind

def closedBy? (kind : Kind) : Option Bracket := all.find? fun bracket => bracket.closing = kind

theorem openedBy?_opening (bracket : Bracket) : openedBy? bracket.opening = some bracket := by
  cases bracket <;> decide

theorem openedBy?_closing (bracket : Bracket) : openedBy? bracket.closing = none := by
  cases bracket <;> decide

theorem closedBy?_closing (bracket : Bracket) : closedBy? bracket.closing = some bracket := by
  cases bracket <;> decide

theorem opening_of_openedBy? {kind : Kind} {bracket : Bracket} (opened : openedBy? kind = some bracket) :
    bracket.opening = kind := by
  simpa using List.find?_some opened

theorem closing_of_closedBy? {kind : Kind} {bracket : Bracket} (closed : closedBy? kind = some bracket) :
    bracket.closing = kind := by
  simpa using List.find?_some closed

end Bracket

/-- A kind that neither opens nor closes a bracket nor divides one. -/
def Kind.IsPlain (kind : Kind) : Prop :=
  kind ≠ .templateMiddle ∧ ∀ bracket : Bracket, kind ≠ bracket.opening ∧ kind ≠ bracket.closing

/-- Words in which every bracket is closed. A middle stands between the head and the tail of a template
and in no bracket inside it: `inTemplate` tells whether it may stand here. -/
inductive Nested : Bool → List Kind → Prop where
  | empty {inTemplate : Bool} : Nested inTemplate []
  | plain {inTemplate : Bool} {word : List Kind} {kind : Kind} (before : Nested inTemplate word)
      (isPlain : kind.IsPlain) : Nested inTemplate (word ++ [kind])
  | middle {word : List Kind} (before : Nested true word) : Nested true (word ++ [.templateMiddle])
  | group {inTemplate : Bool} {word inside : List Kind} (bracket : Bracket)
      (before : Nested inTemplate word) (nested : Nested (bracket = .template) inside) :
      Nested inTemplate (word ++ bracket.opening :: (inside ++ [bracket.closing]))

/-! ## Reading with a stack -/

namespace Bracket

def readKind (stack : List Bracket) (kind : Kind) : Option (List Bracket) :=
  match openedBy? kind, closedBy? kind with
  | some bracket, _ => some (bracket :: stack)
  | none, some bracket => if stack.head? = some bracket then some stack.tail else none
  | none, none =>
      if kind = .templateMiddle ∧ stack.head? ≠ some .template then none else some stack

def read (stack : List Bracket) (word : List Kind) : Option (List Bracket) := word.foldlM readKind stack

variable {stack next final : List Bracket} {kind : Kind} {first second word : List Kind}

@[simp] theorem read_nil : read stack [] = some stack := rfl

@[simp] theorem read_singleton : read stack [kind] = readKind stack kind := by simp [read]

theorem read_append (stack : List Bracket) (first second : List Kind) :
    read stack (first ++ second) = (read stack first).bind (read · second) :=
  List.foldlM_append

theorem read_append_of (earlier : read stack first = some next) (later : read next second = some final) :
    read stack (first ++ second) = some final := by
  rw [read_append, earlier]
  exact later

@[simp] theorem readKind_opening (stack : List Bracket) (bracket : Bracket) :
    readKind stack bracket.opening = some (bracket :: stack) := by
  simp [readKind, openedBy?_opening]

@[simp] theorem readKind_closing (stack : List Bracket) (bracket : Bracket) :
    readKind (bracket :: stack) bracket.closing = some stack := by
  simp [readKind, openedBy?_closing, closedBy?_closing]

theorem openedBy?_of_isPlain (isPlain : kind.IsPlain) : openedBy? kind = none := by
  simpa [openedBy?] using fun bracket _ same => (isPlain.2 bracket).1 same.symm

theorem closedBy?_of_isPlain (isPlain : kind.IsPlain) : closedBy? kind = none := by
  simpa [closedBy?] using fun bracket _ same => (isPlain.2 bracket).2 same.symm

theorem readKind_of_isPlain (isPlain : kind.IsPlain) (stack : List Bracket) :
    readKind stack kind = some stack := by
  simp [readKind, openedBy?_of_isPlain isPlain, closedBy?_of_isPlain isPlain, isPlain.1]

theorem isPlain_of_not_bracket (opens : openedBy? kind = none) (closes : closedBy? kind = none)
    (notMiddle : kind ≠ .templateMiddle) : kind.IsPlain := by
  refine ⟨notMiddle, fun bracket => ⟨?_, ?_⟩⟩
  · rintro rfl
    rw [openedBy?_opening] at opens
    cases opens
  · rintro rfl
    rw [closedBy?_closing] at closes
    cases closes

theorem readKind_cases (reads : readKind stack kind = some next) :
    (∃ bracket : Bracket, kind = bracket.opening ∧ next = bracket :: stack) ∨
    (∃ bracket : Bracket, kind = bracket.closing ∧ stack = bracket :: next) ∨
    (kind = .templateMiddle ∧ stack.head? = some .template ∧ next = stack) ∨
    (kind.IsPlain ∧ next = stack) := by
  rw [readKind] at reads
  split at reads
  · rename_i bracket opened
    cases reads
    exact .inl ⟨bracket, (opening_of_openedBy? opened).symm, rfl⟩
  · rename_i bracket _ closed
    split at reads
    · rename_i top
      cases reads
      obtain ⟨tail, rfl⟩ := List.head?_eq_some_iff.mp top
      exact .inr (.inl ⟨bracket, (closing_of_closedBy? closed).symm, rfl⟩)
    · cases reads
  · rename_i opens closes
    split at reads
    · cases reads
    · rename_i divides
      cases reads
      by_cases middle : kind = .templateMiddle
      · exact .inr (.inr (.inl ⟨middle, Decidable.not_not.mp fun top => divides ⟨middle, top⟩, rfl⟩))
      · exact .inr (.inr (.inr ⟨isPlain_of_not_bracket opens closes middle, rfl⟩))

/-- Brackets around a word are not seen from inside it. -/
theorem readKind_append (rest : List Bracket) (reads : readKind stack kind = some next) :
    readKind (stack ++ rest) kind = some (next ++ rest) := by
  rcases readKind_cases reads with
    ⟨bracket, rfl, rfl⟩ | ⟨bracket, rfl, rfl⟩ | ⟨rfl, top, rfl⟩ | ⟨isPlain, rfl⟩
  · exact readKind_opening _ bracket
  · exact readKind_closing _ bracket
  · obtain ⟨tail, rfl⟩ := List.head?_eq_some_iff.mp top
    rfl
  · exact readKind_of_isPlain isPlain _

theorem read_stack_append (rest : List Bracket) (reads : read stack word = some final) :
    read (stack ++ rest) word = some (final ++ rest) := by
  induction word generalizing stack with
  | nil =>
      cases reads
      rfl
  | cons kind word ih =>
      rw [read, List.foldlM_cons] at reads
      obtain ⟨next, first, later⟩ := Option.bind_eq_some_iff.mp reads
      rw [read, List.foldlM_cons, readKind_append rest first]
      exact ih later

end Bracket

/-! ## What is read is nested -/

theorem Nested.read {inTemplate : Bool} {word : List Kind} (nested : Nested inTemplate word)
    (stack : List Bracket) (top : inTemplate = true → stack.head? = some .template) :
    Bracket.read stack word = some stack := by
  induction nested generalizing stack with
  | empty => rfl
  | plain before isPlain ih =>
      apply Bracket.read_append_of (ih stack top)
      rw [Bracket.read_singleton, Bracket.readKind_of_isPlain isPlain]
  | middle before ih =>
      obtain ⟨tail, rfl⟩ := List.head?_eq_some_iff.mp (top rfl)
      exact Bracket.read_append_of (ih _ top) rfl
  | group bracket before nested ih nestedIh =>
      have opens : Bracket.read stack [bracket.opening] = some (bracket :: stack) := by simp
      have inside := nestedIh (bracket :: stack) fun isTemplate => by simpa using isTemplate
      have closes : Bracket.read (bracket :: stack) [bracket.closing] = some stack := by simp
      apply Bracket.read_append_of (ih stack top)
      exact Bracket.read_append_of opens (Bracket.read_append_of inside closes)

/-- Words that leave brackets open: what stands behind the opening of each is nested. Reading from the
left does not see where a bracket will be closed, so this is what a word is known to be on the way. -/
inductive LeavesOpen : List Bracket → List Kind → Prop where
  | closed {word : List Kind} (nested : Nested false word) : LeavesOpen [] word
  | opened {stack : List Bracket} {word inside : List Kind} (bracket : Bracket)
      (before : LeavesOpen stack word) (nested : Nested (bracket = .template) inside) :
      LeavesOpen (bracket :: stack) (word ++ bracket.opening :: inside)

namespace LeavesOpen

variable {stack next final : List Bracket} {kind : Kind} {before word : List Kind}

/-- What is nested behind any nested word may stand behind words that leave brackets open. -/
theorem append (leaves : LeavesOpen stack before)
    (grows : ∀ {inTemplate : Bool} {inside : List Kind},
      Nested inTemplate inside → Nested inTemplate (inside ++ word)) :
    LeavesOpen stack (before ++ word) := by
  cases leaves with
  | closed nested => exact .closed (grows nested)
  | opened bracket outer nested =>
      rw [List.append_assoc, List.cons_append]
      exact .opened bracket outer (grows nested)

theorem step (leaves : LeavesOpen stack before) (reads : Bracket.readKind stack kind = some next) :
    LeavesOpen next (before ++ [kind]) := by
  rcases Bracket.readKind_cases reads with
    ⟨bracket, rfl, rfl⟩ | ⟨bracket, rfl, rfl⟩ | ⟨rfl, top, rfl⟩ | ⟨isPlain, rfl⟩
  · exact .opened bracket leaves .empty
  · cases leaves with
    | opened bracket outer nested =>
        rw [List.append_assoc, List.cons_append]
        exact outer.append fun before => .group bracket before nested
  · obtain ⟨tail, rfl⟩ := List.head?_eq_some_iff.mp top
    cases leaves with
    | opened bracket outer nested =>
        rw [List.append_assoc, List.cons_append]
        exact .opened .template outer nested.middle
  · exact leaves.append fun before => before.plain isPlain

theorem run (leaves : LeavesOpen stack before) (reads : Bracket.read stack word = some final) :
    LeavesOpen final (before ++ word) := by
  induction word generalizing stack before with
  | nil =>
      cases reads
      rwa [List.append_nil]
  | cons kind word ih =>
      rw [Bracket.read, List.foldlM_cons] at reads
      obtain ⟨next, first, later⟩ := Option.bind_eq_some_iff.mp reads
      have rest := ih (leaves.step first) later
      rwa [List.append_assoc, List.singleton_append] at rest

end LeavesOpen

theorem Bracket.read_eq_nil_iff {word : List Kind} : read [] word = some [] ↔ Nested false word := by
  constructor
  · intro reads
    have leaves := (LeavesOpen.closed .empty).run reads
    rw [List.nil_append] at leaves
    cases leaves with
    | closed nested => exact nested
  · intro nested
    exact nested.read [] (by simp)

instance (word : List Kind) : Decidable (Nested false word) :=
  decidable_of_iff _ Bracket.read_eq_nil_iff

example : ¬Nested false [.templateHead, .leftParen, .templateMiddle, .rightParen, .templateTail] := by
  decide

theorem Nested.of_append_plain {word : List Kind} {kind : Kind} (isPlain : kind.IsPlain)
    (nested : Nested false (word ++ [kind])) : Nested false word := by
  rw [← Bracket.read_eq_nil_iff, Bracket.read_append] at nested
  obtain ⟨stack, reads, last⟩ := Option.bind_eq_some_iff.mp nested
  rw [Bracket.read_singleton, Bracket.readKind_of_isPlain isPlain] at last
  cases last
  exact Bracket.read_eq_nil_iff.mp reads

/-! ## The grammar nests brackets -/

/-- The brackets that were opened in front of a nonterminal and that it closes. -/
def Nonterminal.opened : Nonterminal → List Bracket
  | statementsUntilBrace | classMembers | switchClauses => [.curly]
  | templateParts => [.template]
  | _ => []

/-- The open brackets behind a token of one of the kinds, if that is the same for all of them. -/
def Bracket.readAny (stack : List Bracket) : List Kind → Option (List Bracket)
  | [] => none
  | kind :: kinds =>
      if kinds.all (readKind stack · = readKind stack kind) then readKind stack kind else none

theorem Bracket.readKind_of_readAny {stack next : List Bracket} {kinds : List Kind} {kind : Kind}
    (reads : readAny stack kinds = some next) (member : kind ∈ kinds) :
    readKind stack kind = some next := by
  cases kinds with
  | nil => cases member
  | cons first others =>
      rw [readAny] at reads
      split at reads
      · rename_i same
        rcases List.mem_cons.mp member with rfl | other
        · exact reads
        · rw [of_decide_eq_true (List.all_eq_true.mp same kind other), reads]
      · cases reads

/-- Goes through a production with the brackets that are open. -/
def bracketWatch : Watch (List Bracket) where
  take := Bracket.readAny
  isOpen _ := true
  inside _ := []
  closes _ stack := stack = []
  entry := Nonterminal.opened
  exit := []
  call nonterminal stack :=
    if nonterminal.opened <+: stack then some (stack.drop nonterminal.opened.length) else none

theorem bracketWatch_passes : ∀ nonterminal ∈ Nonterminal.listed,
    bracketWatch.passes nonterminal = true := by
  decide +kernel

namespace Forest

def kinds (forest : Forest) : List Kind := forest.leaves.map Prod.snd

variable {forest before middle after children items rest : Forest} {first second third : List Bracket}
  {kind inner : Kind} {position : Nat}

@[simp] theorem kinds_empty : empty.kinds = [] := rfl

@[simp] theorem kinds_token : (forest.token position kind).kinds = forest.kinds ++ [kind] := by
  simp [kinds, leaves]

@[simp] theorem kinds_hole : forest.hole.kinds = forest.kinds := rfl

@[simp] theorem kinds_node : (forest.node kind children).kinds = forest.kinds ++ children.kinds := by
  simp [kinds, leaves]

@[simp] theorem kinds_list : (forest.list items).kinds = forest.kinds ++ items.kinds := by
  simp [kinds, leaves]

@[simp] theorem kinds_append : (before ++ after).kinds = before.kinds ++ after.kinds := by
  simp [kinds]

def NestsNodes (forest : Forest) : Prop := forest.AllNodes fun _ children => Nested false children.kinds

/-- One forest goes on with what is read from one stack of open brackets to another; its nodes stay
nested. -/
def Reads (stack : List Bracket) (before : Forest) (final : List Bracket) (after : Forest) : Prop :=
  ∃ word, after.kinds = before.kinds ++ word ∧ Bracket.read stack word = some final ∧
    (before.NestsNodes → after.NestsNodes)

namespace Reads

theorem refl : Reads first forest first forest := ⟨[], by simp, rfl, id⟩

theorem trans (earlier : Reads first before second middle) (later : Reads second middle third after) :
    Reads first before third after := by
  obtain ⟨word, middleKinds, reads, nests⟩ := earlier
  obtain ⟨others, afterKinds, goesOn, nestsStill⟩ := later
  exact ⟨word ++ others, by rw [afterKinds, middleKinds, List.append_assoc],
    Bracket.read_append_of reads goesOn, nestsStill ∘ nests⟩

/-- What a node holds is nested, and not seen from around it. -/
theorem nested (reads : Reads [] empty [] children) :
    Nested false children.kinds ∧ children.NestsNodes := by
  obtain ⟨word, kinds, reads, nests⟩ := reads
  have nested := Bracket.read_eq_nil_iff.mp reads
  rw [kinds_empty, List.nil_append] at kinds
  exact ⟨kinds ▸ nested, nests allNodes_empty⟩

theorem node (reads : Reads [] empty [] children) :
    Reads first forest first (forest.node kind children) := by
  obtain ⟨nested, nests⟩ := reads.nested
  exact ⟨children.kinds, kinds_node, nested.read first (by simp),
    fun before => allNodes_node.mpr ⟨before, nested, nests⟩⟩

theorem wrapLast (reads : Reads [] empty [] rest) :
    Reads first forest first (forest.wrapLast kind rest) := by
  obtain ⟨nested, nests⟩ := reads.nested
  have around : ∀ (inner : Kind) (children : Forest), Nested false children.kinds →
      Nested false (empty.node inner children ++ rest).kinds := by
    intro inner children childrenNested
    rw [kinds_append, kinds_node, kinds_empty, List.nil_append]
    rw [← Bracket.read_eq_nil_iff] at childrenNested nested ⊢
    exact Bracket.read_append_of childrenNested nested
  cases forest with
  | node before inner children =>
      exact ⟨rest.kinds, by simp, nested.read first (by simp), fun all => AllNodes.wrapLast all nests around⟩
  | _ => exact refl

end Reads
end Forest

theorem bracketWatch_keeps : bracketWatch.Keeps Forest.Reads where
  refl := .refl
  trans := .trans
  take _ taken member :=
    ⟨[_], Forest.kinds_token, by simpa using Bracket.readKind_of_readAny taken member, id⟩
  hole _ := ⟨[], by simp, rfl, id⟩
  node _ closed reads := by
    cases of_decide_eq_true closed
    exact .node reads
  wrap _ _ closed reads := by
    cases of_decide_eq_true closed
    exact .wrapLast reads
  list _ _ reads := by
    obtain ⟨word, kinds, reads, nests⟩ := reads
    exact ⟨word, by simp [kinds], reads, fun before =>
      Forest.allNodes_list.mpr ⟨before, nests Forest.allNodes_empty⟩⟩
  call called reads := by
    obtain ⟨word, kinds, reads, nests⟩ := reads
    simp only [bracketWatch] at called
    split at called
    · rename_i ahead
      obtain ⟨stack, rfl⟩ := ahead
      cases called
      refine ⟨word, kinds, ?_, nests⟩
      rw [List.drop_left]
      exact Bracket.read_stack_append stack reads
    · cases called

/-! ## Trees -/

def TokenStream.kindsOf (stream : TokenStream) (ids : List TokenId) : List Kind :=
  ids.map fun id => (stream.tokens.getD id default).kind

def Cursor.between (cursor next : Cursor) : List TokenId :=
  List.range' cursor.position (next.position - cursor.position)

/-- What every node covers is nested. -/
def SyntaxTree.NestsBrackets (tree : SyntaxTree) : Prop :=
  ∀ node < tree.nodes.size, Nested false (tree.stream.kindsOf (tree.tokens node))

theorem SyntaxTree.Stores.kindsOf_tokens {tree : SyntaxTree} {parent : Option NodeId}
    {numbering : Numbering} {kind : Kind} {children : Forest}
    (stores : tree.Stores parent numbering (Forest.empty.node kind children)) :
    tree.stream.kindsOf (tree.tokens numbering.node) = children.kinds := by
  have leaves := stores.node.leaves
  rw [stores.tokens_eq, Forest.kinds, leaves]
  simp [TokenStream.kindsOf, SyntaxTree.token]

namespace Rule.Matched

variable {stream : TokenStream} {rule : Rule} {start : Nat} {state : ParseState} {kind : Kind}
  {children : Forest}

theorem nestsNodes {terminals : Terminals} {last : Nat}
    (matched : rule.Matched terminals last state kind children) :
    (Forest.empty.node kind children).NestsNodes := by
  obtain ⟨word, _, _, nests⟩ := matched.relates bracketWatch_keeps bracketWatch_passes
  exact nests Forest.allNodes_empty

theorem nestsBrackets (accepts : stream.Accepts) (before : start ≤ stream.eofIndex)
    (matched : rule.Matched (.ofTokens (stream.tokens.toList.drop start)) (stream.eofIndex - start)
      state kind children) :
    ((Forest.empty.node kind children).tree stream start).NestsBrackets := by
  intro node inside
  obtain ⟨above, here, inner, held, rfl, stores, -, member⟩ :=
    (matched.represents accepts before).exists_node inside
  rw [stores.kindsOf_tokens]
  exact matched.nestsNodes.of_mem member

/-- The tokens up to the cursor behind a match are nested: a script takes the end of the text as well,
which the cursor does not pass. -/
theorem nested_span (accepts : stream.Accepts) (before : start ≤ stream.eofIndex)
    (matched : rule.Matched (.ofTokens (stream.tokens.toList.drop start)) (stream.eofIndex - start)
      state kind children) :
    Nested false (stream.kindsOf
      (List.range' start (min (start + state.position) stream.eofIndex - start))) := by
  have represents := matched.represents accepts before
  have whole := matched.nestsNodes.of_mem List.mem_cons_self
  have taken := represents.stores.kindsOf_tokens
  rw [represents.stores.tokens_eq, matched.consecutive.2] at taken
  rw [← taken] at whole
  rcases matched.inside with within | ⟨past, -, front, rfl⟩
  · have same : min (start + state.position) stream.eofIndex - start = state.position := by omega
    rwa [same]
  · have same : min (start + state.position) stream.eofIndex - start = stream.eofIndex - start := by omega
    rw [same]
    rw [past, List.range'_1_concat] at whole taken
    simp only [TokenStream.kindsOf, List.map_append, Forest.kinds_token] at whole taken
    have last := List.head_eq_of_cons_eq (List.append_inj' taken rfl).2
    apply Nested.of_append_plain _ whole
    rw [last]
    exact Bracket.isPlain_of_not_bracket (by decide) (by decide) (by decide)

end Rule.Matched

/-- The tokens of every match, and those of every node of its tree and of the tree of a parse, are a word
in which each bracket is closed. -/
theorem matchRule_nests_brackets {text : List Char} {tokens : Array Token} {stream : TokenStream}
    (accepted : TokenStream.ofTokens text tokens = .ok stream) (rule : Rule) :
    (∀ (position : Nat) (tree : SyntaxTree) (next : Cursor),
      matchRule rule (.atToken stream position) = .ok (tree, next) →
        Nested false (stream.kindsOf (Cursor.between (.atToken stream position) next)) ∧
        tree.NestsBrackets) ∧
    ∀ tree : SyntaxTree, parseStream rule stream = .ok tree → tree.NestsBrackets := by
  obtain ⟨-, accepts⟩ := TokenStream.accepts_of_ofTokens accepted
  have trees := accepts.holds_of_matched rule fun _ before _ _ _ matched =>
    matched.nestsBrackets accepts before
  refine ⟨?_, trees.2⟩
  intro position tree next found
  refine ⟨?_, trees.1 position tree next found⟩
  rcases matchRule_cases accepts rule position with ⟨_, _, none⟩ | ⟨_, _, _, _, matched, given⟩
  · rw [none] at found
    cases found
  · rw [given] at found
    cases found
    exact matched.nested_span accepts (Cursor.position_atToken_le stream position)

/-- A template with parentheses in its substitution. -/
theorem matchRule_nests_brackets_of_template :
    let text := ['\x60', '$', '\x7b', '(', 'b', ')', '\x7d', '\x60']
    let stream := tokenize text
    TokenStream.ofTokens text stream.tokens = .ok stream ∧
    ∃ tree, parseStream .expression stream = .ok tree ∧ tree.NestsBrackets ∧
      tree.stream.kindsOf (tree.tokens SyntaxTree.root) =
        [.templateHead, .leftParen, .ident, .rightParen, .templateTail] := by
  intro text stream
  have accepted : TokenStream.ofTokens text stream.tokens = .ok stream := rfl
  have parsed : (parseStream .expression stream).toOption.map (fun tree =>
      tree.stream.kindsOf (tree.tokens SyntaxTree.root)) =
        some [.templateHead, .leftParen, .ident, .rightParen, .templateTail] := by decide +kernel
  refine ⟨accepted, ?_⟩
  cases result : parseStream .expression stream with
  | error failure =>
      rw [result] at parsed
      cases parsed
  | ok tree =>
      rw [result] at parsed
      exact ⟨tree, rfl, (matchRule_nests_brackets accepted .expression).2 tree result,
        Option.some.inj parsed⟩

end ScriptTree
