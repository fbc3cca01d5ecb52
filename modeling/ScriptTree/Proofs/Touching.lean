import Mathlib.Data.List.Sort
import Mathlib.Order.Monotone.Basic
import ScriptTree.Proofs.Starting
import ScriptTree.Proofs.Tokenizing
import ScriptTree.Tree.Offset

/-! # Tokens that touch an offset

The tokens of a text lie side by side from its start to its end, and each but the last takes some of it.
So the ends of the tokens of a node grow, bisection finds the first one that does not end before an offset,
and the tokens that touch the offset are this one and, where it ends just there, the next one. -/
set_option autoImplicit false
namespace ScriptTree

open Text

theorem TokenAtOffset.length_toList_le {α : Type} (found : TokenAtOffset α) : found.toList.length ≤ 2 := by
  cases found <;> simp [toList]

/-! ## Bisection -/

/-- If what holds at an index holds below it, bisection finds where it stops to hold. -/
theorem partitionPoint_cuts (holds : Nat → Bool) {budget low high : Nat} (ordered : low ≤ high)
    (enough : high - low ≤ budget)
    (down : ∀ {first last}, first ≤ last → last < high → holds last = true → holds first = true) :
    low ≤ partitionPoint holds budget low high ∧ partitionPoint holds budget low high ≤ high ∧
      (∀ index, low ≤ index → index < partitionPoint holds budget low high → holds index = true) ∧
      ∀ index, partitionPoint holds budget low high ≤ index → index < high → holds index = false := by
  induction budget generalizing low high with
  | zero =>
      rw [partitionPoint]
      exact ⟨Nat.le_refl _, ordered, fun index _ _ => by omega, fun index _ _ => by omega⟩
  | succ budget ih =>
      rw [partitionPoint]
      split
      · exact ⟨Nat.le_refl _, ordered, fun index _ _ => by omega, fun index _ _ => by omega⟩
      · dsimp only
        split
        · rename_i some middle
          obtain ⟨above, below, front, back⟩ := @ih ((low + high) / 2 + 1) high (by omega)
            (by omega) down
          refine ⟨by omega, below, fun index _ inside => ?_, back⟩
          by_cases early : index ≤ (low + high) / 2
          · exact down early (by omega) middle
          · exact front index (by omega) inside
        · rename_i some middle
          obtain ⟨above, below, front, back⟩ := @ih low ((low + high) / 2) (by omega)
            (by omega) fun ordered inside => down ordered (by omega)
          refine ⟨above, by omega, front, fun index behind inside => ?_⟩
          by_cases early : index < (low + high) / 2
          · exact back index behind early
          · exact Bool.eq_false_iff.mpr fun holdsThere =>
              middle (down (Nat.le_of_not_lt early) inside holdsThere)

/-! ## Tokens side by side -/

/-- Each token of a stream ends where the next one starts, and only the last one may be empty. -/
structure TokenStream.SideBySide (stream : TokenStream) : Prop where
  stop : ∀ {index : Nat} {token : Token}, stream.tokens[index]? = some token →
    token.fullSpan.stop = stream.offset (index + 1)
  le : ∀ index, stream.offset index ≤ stream.offset (index + 1)
  lt : ∀ index < stream.eofIndex, stream.offset index < stream.offset (index + 1)

namespace TokenStream.SideBySide

variable {stream : TokenStream} (sides : stream.SideBySide)
include sides

theorem offset_mono {first last : Nat} (ordered : first ≤ last) :
    stream.offset first ≤ stream.offset last :=
  monotone_nat_of_le_succ sides.le ordered

theorem fullSpan {tree : SyntaxTree} (same : tree.stream = stream) {id : TokenId}
    (inside : id < stream.tokens.size) :
    (tree.token id).fullSpan = ⟨stream.offset id, stream.offset (id + 1)⟩ := by
  subst same
  have here : tree.stream.tokens[id]? = some (tree.token id) := by
    rw [SyntaxTree.token, Array.getD_eq_getD_getElem?, Array.getElem?_eq_getElem inside]
    rfl
  have starts : tree.stream.offset id = (tree.token id).fullSpan.start := by
    rw [TokenStream.offset, here]
  rw [← sides.stop here, starts]

end TokenStream.SideBySide

/-! ## The tokens of a text -/

/-- The tokenizer of a text gives the tokens of a stream, the last of which is the end. -/
structure Tokenizer.Fills (tokenizer : Tokenizer) (stream : TokenStream) (last : Nat) : Prop where
  size : stream.tokens.size = last + 1
  get : ∀ index ≤ last, stream.tokens[index]? = some (tokenizer.nth index)
  other : ∀ index < last, (tokenizer.nth index).kind ≠ .eof
  eof : (tokenizer.nth last).kind = .eof
  offset : (tokenizer.advance (last + 1)).offset = byteLength stream.text

theorem tokenize_fills (text : List Char) :
    ∃ last, (Tokenizer.ofText text).Fills (tokenize text) last := by
  have reads := Tokenizer.reads_ofText text
  obtain ⟨tokens, run, few⟩ := (Tokenizer.ofText text).exists_run
  have given : (tokenize text).tokens.toList = tokens := run.tokensWithin_eq rfl few
  obtain ⟨last, counted⟩ : ∃ last, tokens.length = last + 1 :=
    ⟨tokens.length - 1, by have := run.length_pos; omega⟩
  obtain ⟨eof, -, nothing⟩ := run.nth_last reads counted.symm
  refine ⟨last, ⟨?_, fun index inside => ?_, fun index before => (run.nth_before reads (by omega)).1, eof,
    (reads.advance (last + 1)).offset_of_nothing nothing⟩⟩
  · rw [← Array.length_toList, given, counted]
  · have here : index < tokens.length := by omega
    rw [← Array.getElem?_toList, given, run.eq_map_nth, List.getElem?_map, List.getElem?_range here]
    rfl

namespace Tokenizer.Fills

variable {tokenizer : Tokenizer} {stream : TokenStream} {last : Nat} (fills : tokenizer.Fills stream last)
include fills

theorem eofIndex_eq : stream.eofIndex = last := by
  rw [TokenStream.eofIndex, fills.size, Nat.add_sub_cancel]

theorem eq_nth {index : Nat} {token : Token} (here : stream.tokens[index]? = some token) :
    index ≤ last ∧ token = tokenizer.nth index := by
  have inside := (Array.getElem?_eq_some_iff.mp here).1
  have before : index ≤ last := by
    have size := fills.size
    omega
  rw [fills.get index before] at here
  exact ⟨before, (Option.some.inj here).symm⟩

theorem endsOnce : stream.EndsOnce := by
  refine ⟨by rw [fills.size, fills.eofIndex_eq], fun {index token} here => ?_⟩
  obtain ⟨inside, rfl⟩ := fills.eq_nth here
  rw [fills.eofIndex_eq]
  constructor
  · intro eof
    by_cases before : index < last
    · exact absurd eof (fills.other index before)
    · omega
  · rintro rfl
    exact fills.eof

theorem offset_eq {index : Nat} (inside : index ≤ last + 1) :
    stream.offset index = (tokenizer.advance index).offset := by
  rcases Nat.le_succ_iff.mp inside with before | rfl
  · rw [TokenStream.offset, fills.get index before]
    simp only [fullSpan_nth]
  · have outside : stream.tokens[last + 1]? = none := Array.getElem?_eq_none (Nat.le_of_eq fills.size)
    rw [TokenStream.offset, outside, fills.offset]

theorem sideBySide : stream.SideBySide where
  stop := by
    intro index token here
    obtain ⟨inside, rfl⟩ := fills.eq_nth here
    rw [fullSpan_nth, fills.offset_eq (Nat.succ_le_succ inside)]
  le := by
    intro index
    by_cases inside : index ≤ last
    · obtain ⟨before, taken, behind, cuts⟩ := (tokenizer.advance index).exists_cuts
      rw [fills.offset_eq (by omega), fills.offset_eq (by omega), advance_succ, cuts.offset, cuts.stops,
        cuts.starts]
      omega
    · have outside : ∀ beyond, last < beyond → stream.offset beyond = byteLength stream.text := by
        intro beyond ahead
        have none : stream.tokens[beyond]? = none :=
          Array.getElem?_eq_none (by rw [fills.size]; exact ahead)
        rw [TokenStream.offset, none]
      exact Nat.le_of_eq (by rw [outside index (by omega), outside (index + 1) (by omega)])
  lt := by
    intro index before
    rw [fills.eofIndex_eq] at before
    obtain ⟨front, taken, behind, cuts⟩ := (tokenizer.advance index).exists_cuts
    have takes : 0 < byteLength taken := by
      cases taken with
      | nil => exact absurd (cuts.empty.mpr rfl) (fills.other index before)
      | cons first more => exact Nat.add_pos_left first.utf8Size_pos _
    rw [fills.offset_eq (by omega), fills.offset_eq (by omega), advance_succ, cuts.offset, cuts.stops,
      cuts.starts]
    omega

end Tokenizer.Fills

/-! ## The tokens of a node -/

namespace SyntaxTree

theorem mem_tokens {tree : SyntaxTree} {node : NodeId} {id : TokenId} :
    id ∈ tree.tokens node ↔ (tree.entry node).firstToken ≤ id ∧ id < (tree.entry node).endToken := by
  have within : ∀ first stop index : Nat,
      index ∈ List.range' first (stop - first) ↔ first ≤ index ∧ index < stop := by
    intro first stop index
    rw [List.mem_range'_1]
    omega
  exact within _ _ id

theorem tokenAtOffset_outside {tree : SyntaxTree} {node : NodeId} {offset : Nat}
    (outside : (tree.span node).touches offset = false) : tree.tokenAtOffset node offset = .none := by
  rw [tokenAtOffset, outside]
  rfl

/-- The tokens that a node covers are tokens of the stream, in order. -/
structure CoversTokens (tree : SyntaxTree) (node : NodeId) : Prop where
  ordered : (tree.entry node).firstToken ≤ (tree.entry node).endToken
  inside : (tree.entry node).firstToken < (tree.entry node).endToken →
    (tree.entry node).endToken ≤ tree.stream.size

namespace CoversTokens

variable {tree : SyntaxTree} {node : NodeId} (covers : tree.CoversTokens node)
  (sides : tree.stream.SideBySide)
include covers sides

omit sides in
theorem lt_size_of_mem {id : Nat} (member : id ∈ tree.tokens node) : id < tree.stream.tokens.size := by
  obtain ⟨behind, ahead⟩ := mem_tokens.mp member
  exact Nat.lt_of_lt_of_le ahead (covers.inside (Nat.lt_of_le_of_lt behind ahead))

theorem fullSpan_of_mem {id : TokenId} (member : id ∈ tree.tokens node) :
    (tree.token id).fullSpan = ⟨tree.stream.offset id, tree.stream.offset (id + 1)⟩ :=
  sides.fullSpan rfl (covers.lt_size_of_mem member)

theorem span_eq (some : (tree.entry node).firstToken < (tree.entry node).endToken) :
    tree.span node =
      ⟨tree.stream.offset (tree.entry node).firstToken, tree.stream.offset (tree.entry node).endToken⟩ := by
  have positive : 0 < (tree.entry node).endToken := Nat.zero_lt_of_lt some
  rw [span, tokensSpan, if_neg (Nat.ne_of_lt some),
    covers.fullSpan_of_mem sides (mem_tokens.mpr ⟨Nat.le_refl _, some⟩),
    covers.fullSpan_of_mem sides (mem_tokens.mpr ⟨Nat.le_sub_one_of_lt some, Nat.sub_one_lt_of_lt some⟩),
    Nat.sub_add_cancel positive]

theorem not_touches {offset : Nat} (outside : (tree.span node).touches offset = false) {id : TokenId}
    (member : id ∈ tree.tokens node) : (tree.token id).fullSpan.touches offset = false := by
  obtain ⟨behind, ahead⟩ := mem_tokens.mp member
  have starts := sides.offset_mono behind
  have stops : tree.stream.offset (id + 1) ≤ tree.stream.offset (tree.entry node).endToken :=
    sides.offset_mono (Nat.succ_le_of_lt ahead)
  rw [covers.span_eq sides (Nat.lt_of_le_of_lt behind ahead)] at outside
  rw [covers.fullSpan_of_mem sides member]
  simp only [Span.touches, Bool.and_eq_false_iff, decide_eq_false_iff_not] at outside ⊢
  omega

theorem touches_iff_of_mem {offset : Nat} {id : TokenId} (member : id ∈ tree.tokens node) :
    (tree.token id).fullSpan.touches offset = true ↔
      tree.stream.offset id ≤ offset ∧ offset ≤ tree.stream.offset (id + 1) := by
  rw [covers.fullSpan_of_mem sides member]
  simp only [Span.touches, Bool.and_eq_true, decide_eq_true_eq]

section First

variable {offset : Nat} {index : Nat} (touches : (tree.span node).touches offset = true)
  (member : index ∈ tree.tokens node)
  (front : ∀ id ∈ tree.tokens node, id < index → tree.stream.offset (id + 1) < offset)
  (here : offset ≤ tree.stream.offset (index + 1))
include touches member front here

/-- Within a node the first token that does not end before an offset touches it. -/
theorem touches_first : (tree.token index).fullSpan.touches offset = true := by
  obtain ⟨behind, ahead⟩ := mem_tokens.mp member
  refine (covers.touches_iff_of_mem sides member).mpr ⟨?_, here⟩
  rcases Nat.eq_or_lt_of_le behind with first | later
  · rw [covers.span_eq sides (Nat.lt_of_le_of_lt behind ahead)] at touches
    simp only [Span.touches, Bool.and_eq_true, decide_eq_true_eq] at touches
    exact first ▸ touches.1
  · have before := front (index - 1)
      (mem_tokens.mpr ⟨Nat.le_sub_one_of_lt later, Nat.lt_of_le_of_lt (Nat.sub_le _ _) ahead⟩)
      (Nat.sub_one_lt_of_lt later)
    rw [Nat.sub_add_cancel (Nat.zero_lt_of_lt later)] at before
    exact Nat.le_of_lt before

/-- Besides it only the next token touches the offset, and only where the first one ends there: a token
behind that one starts later, since only the last token of a stream may be empty. -/
theorem touches_iff {id : Nat} (other : id ∈ tree.tokens node) :
    (tree.token id).fullSpan.touches offset = true ↔
      id = index ∨ id = index + 1 ∧ tree.stream.offset (index + 1) = offset := by
  rcases Nat.lt_trichotomy id index with before | rfl | behind
  · have ends := front id other before
    rw [covers.touches_iff_of_mem sides other]
    omega
  · simp [covers.touches_first sides touches member front here]
  · rw [covers.touches_iff_of_mem sides other]
    rcases Nat.eq_or_lt_of_le (Nat.succ_le_of_lt behind) with rfl | further
    · constructor
      · intro between
        exact .inr ⟨rfl, Nat.le_antisymm between.1 here⟩
      · rintro (itself | ⟨-, ends⟩)
        · exact absurd itself (Nat.succ_ne_self index)
        · exact ⟨Nat.le_of_eq ends, ends ▸ sides.le (index + 1)⟩
    · have within := covers.lt_size_of_mem other
      have later := sides.lt (index + 1) (by rw [TokenStream.eofIndex]; omega)
      have starts : tree.stream.offset (index + 1 + 1) ≤ tree.stream.offset id := sides.offset_mono further
      omega

end First

/-- Within a node that covers tokens bisection finds the first one that does not end before an offset. -/
theorem exists_first {offset : Nat} (touches : (tree.span node).touches offset = true)
    (some : (tree.entry node).firstToken < (tree.entry node).endToken) :
    ∃ index ∈ tree.tokens node,
      (∀ id ∈ tree.tokens node, id < index → tree.stream.offset (id + 1) < offset) ∧
      offset ≤ tree.stream.offset (index + 1) ∧
      tree.tokenAtOffset node offset =
        if index + 1 < (tree.entry node).endToken ∧ tree.stream.offset (index + 1) = offset then
          .between index (index + 1)
        else .single index := by
  have ends : ∀ id < (tree.entry node).endToken,
      (tree.token id).fullSpan.stop = tree.stream.offset (id + 1) := fun id inside => by
    rw [sides.fullSpan rfl (Nat.lt_of_lt_of_le inside (covers.inside some))]
  obtain ⟨above, below, front, back⟩ := partitionPoint_cuts
    (fun id => decide ((tree.token id).fullSpan.stop < offset)) covers.ordered (Nat.le_refl _)
    fun {first last} ordered inside before => by
      rw [decide_eq_true_eq, ends _ inside] at before
      rw [decide_eq_true_eq, ends _ (Nat.lt_of_le_of_lt ordered inside)]
      exact Nat.lt_of_le_of_lt (sides.offset_mono (Nat.succ_le_succ ordered)) before
  generalize found : partitionPoint (fun id => decide ((tree.token id).fullSpan.stop < offset))
    ((tree.entry node).endToken - (tree.entry node).firstToken) (tree.entry node).firstToken
    (tree.entry node).endToken = index at above below front back
  have ahead : index < (tree.entry node).endToken := by
    refine Nat.lt_of_le_of_ne below fun all => ?_
    have last := front _ (Nat.le_sub_one_of_lt some) (by rw [all]; exact Nat.sub_one_lt_of_lt some)
    rw [decide_eq_true_eq, ends _ (Nat.sub_one_lt_of_lt some), Nat.sub_add_cancel (Nat.zero_lt_of_lt some)]
      at last
    rw [covers.span_eq sides some] at touches
    simp only [Span.touches, Bool.and_eq_true, decide_eq_true_eq] at touches
    omega
  refine ⟨index, mem_tokens.mpr ⟨above, ahead⟩, fun id member earlier => ?_, ?_, ?_⟩
  · have before := front id (mem_tokens.mp member).1 earlier
    rwa [decide_eq_true_eq, ends id (mem_tokens.mp member).2] at before
  · have notBefore := back index (Nat.le_refl _) ahead
    rw [decide_eq_false_iff_not, ends index ahead] at notBefore
    exact Nat.le_of_not_lt notBefore
  · rw [tokenAtOffset, touches]
    simp only [Bool.not_true, Bool.false_eq_true, if_false, found, Nat.not_le_of_lt ahead, ends index ahead]

theorem toList_of_touches {offset : Nat} (touches : (tree.span node).touches offset = true) :
    (tree.tokenAtOffset node offset).toList =
      (tree.tokens node).filter fun id => (tree.token id).fullSpan.touches offset := by
  rcases Nat.eq_or_lt_of_le covers.ordered with none | some
  · have nothing : tree.tokens node = [] := by rw [tokens, none, Nat.sub_self]; rfl
    rw [nothing, tokenAtOffset, touches, none]
    simp [partitionPoint, TokenAtOffset.toList]
  · obtain ⟨index, member, front, here, found⟩ := covers.exists_first sides touches some
    have ordered := (mem_tokens.mp member).1
    rw [found]
    -- Both lists are in order, so they are told by what is in them.
    apply List.Pairwise.eq_of_mem_iff (r := (· < ·))
    · split <;> simp [TokenAtOffset.toList]
    · exact (List.pairwise_lt_range' ..).filter _
    intro id
    have touched := fun (inside : id ∈ tree.tokens node) =>
      covers.touches_iff sides touches member front here inside
    have next : id = index + 1 → (index + 1 < (tree.entry node).endToken ↔ id ∈ tree.tokens node) := by
      rintro rfl
      rw [mem_tokens]
      exact ⟨fun inside => ⟨Nat.le_succ_of_le ordered, inside⟩, And.right⟩
    rw [List.mem_filter]
    constructor
    · intro listed
      have inside : id ∈ tree.tokens node ∧
          (id = index ∨ id = index + 1 ∧ tree.stream.offset (index + 1) = offset) := by
        split at listed
        · rename_i both
          rcases List.mem_cons.mp listed with rfl | second
          · exact ⟨member, .inl rfl⟩
          · have second := List.mem_singleton.mp second
            exact ⟨(next second).mp both.1, .inr ⟨second, both.2⟩⟩
        · have first := List.mem_singleton.mp listed
          exact ⟨first ▸ member, .inl first⟩
      exact ⟨inside.1, (touched inside.1).mpr inside.2⟩
    · rintro ⟨inside, touches⟩
      rcases (touched inside).mp touches with rfl | ⟨second, ends⟩
      · split <;> exact List.mem_cons_self
      · rw [if_pos ⟨(next second).mpr inside, ends⟩]
        exact List.mem_cons_of_mem _ (List.mem_singleton.mpr second)

/-- The tokens found at an offset are the tokens of the node that touch it, within the node or outside. -/
theorem toList_tokenAtOffset (offset : Nat) :
    (tree.tokenAtOffset node offset).toList =
      (tree.tokens node).filter fun id => (tree.token id).fullSpan.touches offset := by
  cases touches : (tree.span node).touches offset with
  | true => exact covers.toList_of_touches sides touches
  | false =>
      have none : (tree.tokens node).filter (fun id => (tree.token id).fullSpan.touches offset) = [] := by
        refine List.filter_eq_nil_iff.mpr fun id member => ?_
        rw [covers.not_touches sides touches member]
        exact Bool.false_ne_true
      rw [tokenAtOffset_outside touches, none]
      rfl

end CoversTokens

theorem tokenAtOffset_between {tree : SyntaxTree} {node : NodeId} {offset : Nat} {left right : TokenId}
    (found : tree.tokenAtOffset node offset = .between left right) : right = left + 1 := by
  unfold tokenAtOffset at found
  split at found
  · cases found
  · dsimp only at found
    split at found
    · cases found
    · split at found <;> cases found
      rfl

/-- A rule gives a tree of the tokens of a text: it takes all of them, or it matches at one of them. -/
def IsReadFrom (tree : SyntaxTree) (rule : Rule) (text : List Char) : Prop :=
  parseText rule text = .ok tree ∨
    ∃ start next, matchRule rule (.atToken (tokenize text) start) = .ok (tree, next)

theorem exists_matchRule {stream : TokenStream} {rule : Rule} {tree : SyntaxTree}
    (parsed : parseStream rule stream = .ok tree) :
    ∃ next, matchRule rule (.atToken stream 0) = .ok (tree, next) := by
  have found : matchRule rule (.atToken stream 0) =
      (rule.nonterminal.run stream.tokens).toMatch stream 0 := by
    rw [matchRule, show (Cursor.atToken stream 0).position = 0 from Nat.zero_min _]
    rfl
  rw [parseStream] at parsed
  rw [found]
  cases ran : rule.nonterminal.run stream.tokens with
  | outOfFuel | refused state =>
      rw [ran] at parsed
      cases parsed
  | matched state =>
      rw [ran, Outcome.toParse] at parsed
      split at parsed
      · cases built : SyntaxTree.ofLog stream 0 state.log with
        | error fault =>
            rw [built] at parsed
            cases parsed
        | ok result =>
            rw [built] at parsed
            cases parsed
            exact ⟨.atToken stream state.position, by rw [Outcome.toMatch, built]⟩
      · cases parsed

theorem coversTokens_of_matchRule {stream : TokenStream} (ends : stream.EndsOnce) {rule : Rule} {start : Nat}
    {tree : SyntaxTree} {next : Cursor} (matched : matchRule rule (.atToken stream start) = .ok (tree, next))
    {node : NodeId} (inside : node < tree.nodes.size) : tree.stream = stream ∧ tree.CoversTokens node := by
  rw [← matchFrom_afresh] at matched
  rcases matchFrom_cases ends .afresh rule start with
    ⟨_, _, refused⟩ | ⟨place, _, kind, children, _, _, _, builds, count, within, given⟩
  · cases matched.symm.trans refused
  · cases matched.symm.trans given
    have represents := builds.represents
    refine ⟨rfl, ⟨(represents.tiles inside).le, represents.entry_le_size (fun _ => ?_) inside⟩⟩
    rw [represents.endToken, count]
    exact within

/-- The tokens found at an offset in a node of a tree of a text are those that touch it, at most two next
to each other; outside of the node there are none. -/
theorem tokenAtOffset_lists_touched (rule : Rule) (text : List Char) (tree : SyntaxTree) (node : NodeId)
    (offset : Nat) (read : tree.IsReadFrom rule text) (inside : node < tree.nodes.size) :
    ((tree.span node).touches offset = false → tree.tokenAtOffset node offset = .none) ∧
    (tree.tokenAtOffset node offset).toList =
      (tree.tokens node).filter (fun id => (tree.token id).fullSpan.touches offset) ∧
    ((tree.tokens node).filter fun id => (tree.token id).fullSpan.touches offset).length ≤ 2 ∧
    ∀ left right, tree.tokenAtOffset node offset = .between left right → right = left + 1 := by
  obtain ⟨last, fills⟩ := tokenize_fills text
  obtain ⟨start, next, matched⟩ : ∃ start next,
      matchRule rule (.atToken (tokenize text) start) = .ok (tree, next) := by
    rcases read with parsed | matched
    · exact ⟨0, exists_matchRule parsed⟩
    · exact matched
  obtain ⟨stream, covers⟩ := coversTokens_of_matchRule fills.endsOnce matched inside
  have sides : tree.stream.SideBySide := stream ▸ fills.sideBySide
  have listed := covers.toList_tokenAtOffset sides offset
  refine ⟨tokenAtOffset_outside, listed, ?_, fun left right => tokenAtOffset_between⟩
  rw [← listed]
  exact TokenAtOffset.length_toList_le _

/-- Where two operands meet their operator: the sum touches both of its tokens there, and the left operand
only its own. -/
theorem tokenAtOffset_lists_touched_of_operand :
    let text := ['a', '+', 'b']
    ∃ tree : SyntaxTree, tree.IsReadFrom .expression text ∧ 1 < tree.nodes.size ∧
      tree.kind 1 = .identifierReference ∧ tree.tokenAtOffset 0 1 = .between 0 1 ∧
      (tree.tokenAtOffset 1 1).toList =
        (tree.tokens 1).filter (fun id => (tree.token id).fullSpan.touches 1) := by
  intro text
  have parsed : (parseText .expression text).toOption.map (fun tree =>
      (decide (1 < tree.nodes.size), tree.kind 1, tree.tokenAtOffset 0 1)) =
        some (true, .identifierReference, .between 0 1) := by
    decide +kernel
  cases result : parseText .expression text with
  | error failure =>
      rw [result] at parsed
      cases parsed
  | ok tree =>
      rw [result] at parsed
      obtain ⟨inside, rest⟩ := Prod.mk.inj (Option.some.inj parsed)
      obtain ⟨kind, found⟩ := Prod.mk.inj rest
      have inside := of_decide_eq_true inside
      exact ⟨tree, .inl result, inside, kind, found,
        (tokenAtOffset_lists_touched .expression text tree 1 1 (.inl result) inside).2.1⟩

end SyntaxTree
end ScriptTree
