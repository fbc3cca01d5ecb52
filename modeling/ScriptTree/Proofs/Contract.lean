import ScriptTree.Proofs.Consistency

/-! # The contract of a stream

A stream is accepted exactly if its tokens keep the contract: each of them starts where the one before it
ends, with all trivia counted, all ends lie between characters, and one empty `eof` ends the text. The check
says what is wrong with other tokens, as long as no trivia is longer than a length can be. Over an accepted
stream every text that can be asked for is there. -/
set_option autoImplicit false
namespace ScriptTree

open Text

/-! ## Slices that are there -/

/-- The text between the ends of a span can be cut out. -/
structure Span.IsSlice (span : Span) (text : List Char) : Prop where
  ordered : span.start ≤ span.stop
  startBoundary : isBoundary span.start text = true
  stopBoundary : isBoundary span.stop text = true

theorem Text.le_byteLength_of_isBoundary {offset : Nat} {text : List Char}
    (boundary : isBoundary offset text = true) : offset ≤ byteLength text := by
  obtain ⟨left, right, rfl, rfl⟩ := exists_cut boundary
  rw [byteLength_append]
  exact Nat.le_add_right _ _

namespace TokenStream

/-! ## What the contract says -/

/-- Where the tokens in front of an index end with their trivia, if the first one starts at an offset. -/
def stopBefore (offset : Nat) (tokens : List Token) : Nat → Nat
  | 0 => offset
  | index + 1 => (tokens.getD index default).fullSpan.stop

/-- Tokens that cover a text from its first byte to its last, with an empty `eof` behind the others. -/
structure Contract (text : List Char) (tokens : List Token) : Prop where
  isToken : ∀ token ∈ tokens, token.kind.isToken = true
  adjacent : ∀ (index : Nat) (token : Token), tokens[index]? = some token →
    token.span.start = stopBefore 0 tokens index + token.leading.length
  boundaries : ∀ token ∈ tokens,
    ∀ offset ∈ [token.fullSpan.start, token.span.start, token.span.stop, token.fullSpan.stop],
      isBoundary offset text = true
  nonempty : tokens ≠ []
  eof : ∀ (index : Nat) (token : Token), tokens[index]? = some token →
    (token.kind = .eof ↔ index + 1 = tokens.length)
  empty : ∀ token ∈ tokens, token.kind = .eof → token.span.start = token.span.stop
  covers : stopBefore 0 tokens tokens.length = byteLength text

variable {text : List Char} {last index offset covered : Nat} {tokens : List Token} {token : Token}

theorem stopBefore_cons (offset : Nat) (token : Token) (rest : List Token) (index : Nat) :
    stopBefore offset (token :: rest) (index + 1) = stopBefore token.fullSpan.stop rest index := by
  cases index <;> rfl

/-- The check goes through if every token fits where the ones before it end. -/
theorem checkFrom_eq_ok_iff :
    checkFrom text last index offset tokens = .ok covered ↔
      (∀ (step : Nat) (token : Token), tokens[step]? = some token →
        token.Fits text last (index + step) (stopBefore offset tokens step)) ∧
      covered = stopBefore offset tokens tokens.length := by
  induction tokens generalizing index offset with
  | nil => simp [checkFrom, stopBefore, eq_comm]
  | cons first rest ih =>
      rw [checkFrom_cons_eq_ok, ih, List.length_cons, stopBefore_cons]
      constructor
      · rintro ⟨fits, others, same⟩
        refine ⟨fun step token here => ?_, same⟩
        cases step with
        | zero =>
            cases here
            exact fits
        | succ step =>
            rw [stopBefore_cons, ← Nat.add_assoc, Nat.add_right_comm]
            exact others step token here
      · rintro ⟨all, same⟩
        refine ⟨all 0 first rfl, fun step token here => ?_, same⟩
        have fits := all (step + 1) token here
        rwa [stopBefore_cons, ← Nat.add_assoc, Nat.add_right_comm] at fits

/-! ## The check finds exactly the contract -/

theorem Contract.of_fits
    (fits : ∀ (index : Nat) (token : Token), tokens[index]? = some token →
      token.Fits text (tokens.length - 1) index (stopBefore 0 tokens index))
    {final : Token} (ends : tokens.getLast? = some final) (isEof : final.kind = .eof)
    (covers : stopBefore 0 tokens tokens.length = byteLength text) : Contract text tokens := by
  have nonempty : tokens ≠ [] := by
    rintro rfl
    cases ends
  have length := List.length_pos_iff.mpr nonempty
  refine ⟨?_, fun index token here => (fits index token here).starts, ?_, nonempty, ?_, ?_, covers⟩
  · intro token member
    obtain ⟨index, here⟩ := List.mem_iff_getElem?.mp member
    exact (fits index token here).isToken
  · intro token member offset listed
    obtain ⟨index, here⟩ := List.mem_iff_getElem?.mp member
    have fit := fits index token here
    have start : token.fullSpan.start = stopBefore 0 tokens index := by
      rw [Token.fullSpan, fit.starts, Nat.add_sub_cancel]
    have startBoundary : isBoundary token.fullSpan.start text = true := by
      rw [start]
      cases index with
      | zero => exact isBoundary_zero text
      | succ before =>
          obtain ⟨inside, -⟩ := List.getElem?_eq_some_iff.mp here
          have earlier : tokens[before]? = some (tokens.getD before default) := by
            simp [List.getD, List.getElem?_eq_getElem (Nat.lt_of_succ_lt inside)]
          exact (fits before _ earlier).fullBoundary
    simp only [List.mem_cons, List.not_mem_nil, or_false] at listed
    rcases listed with rfl | rfl | rfl | rfl
    · exact startBoundary
    · exact fit.startBoundary
    · exact fit.stopBoundary
    · exact fit.fullBoundary
  · intro index token here
    have fit := fits index token here
    constructor
    · intro eof
      rw [fit.last eof]
      exact Nat.sub_add_cancel length
    · intro isLast
      rw [List.getLast?_eq_getElem?, ← isLast, Nat.add_sub_cancel] at ends
      cases here.symm.trans ends
      exact isEof
  · intro token member eof
    obtain ⟨index, here⟩ := List.mem_iff_getElem?.mp member
    exact (fits index token here).empty eof

/-- In a text shorter than a length can be, no trivia of tokens that keep the contract is too long. -/
theorem Contract.fits (contract : Contract text tokens) (short : byteLength text < Trivia.lengthLimit)
    (here : tokens[index]? = some token) :
    token.Fits text (tokens.length - 1) index (stopBefore 0 tokens index) := by
  have member := List.mem_of_getElem? here
  have starts := contract.adjacent index token here
  have boundary := contract.boundaries token member
  simp only [List.mem_cons, List.not_mem_nil, or_false, forall_eq_or_imp, forall_eq] at boundary
  obtain ⟨-, startBoundary, stopBoundary, fullBoundary⟩ := boundary
  have startInside := le_byteLength_of_isBoundary startBoundary
  have stopInside := le_byteLength_of_isBoundary fullBoundary
  have trailing : token.trailing.length ≤ token.fullSpan.stop := Nat.le_add_left _ _
  refine ⟨contract.isToken token member, by omega, starts, by omega, stopInside, startBoundary,
    stopBoundary, fullBoundary, ?_, contract.empty token member⟩
  intro eof
  have isLast := (contract.eof index token here).mp eof
  omega

theorem fault?_eq_none_iff_contract (short : byteLength text < Trivia.lengthLimit) :
    fault? text tokens = none ↔ Contract text tokens := by
  rw [fault?_eq_none_iff, checkFrom_eq_ok_iff]
  constructor
  · rintro ⟨⟨final, ends, isEof⟩, fits, covers⟩
    refine .of_fits (fun index token here => ?_) ends isEof covers.symm
    have fit := fits index token here
    rwa [Nat.zero_add] at fit
  · intro contract
    obtain ⟨final, ends⟩ : ∃ final, tokens.getLast? = some final :=
      ⟨_, List.getLast?_eq_some_getLast contract.nonempty⟩
    have here := ends
    rw [List.getLast?_eq_getElem?] at here
    have length := List.length_pos_iff.mpr contract.nonempty
    refine ⟨⟨final, ends, (contract.eof _ final here).mpr (Nat.sub_add_cancel length)⟩, ?_,
      contract.covers.symm⟩
    intro index token here
    rw [Nat.zero_add]
    exact contract.fits short here

/-! ## Trivia that is too long -/

theorem overflows_of_tokenFault (fault : tokenFault text last index offset token = some .lengthOverflow) :
    token.leading.overflows = true ∨ token.trailing.overflows = true := by
  unfold tokenFault at fault
  split at fault
  · cases fault
  split at fault
  · rename_i overflows
    exact .inl overflows
  split at fault
  · cases fault
  split at fault
  · cases fault
  split at fault
  · rename_i overflows
    exact .inr overflows
  repeat
    split at fault
    · cases fault
  cases fault

theorem overflows_of_checkFrom (failed : checkFrom text last index offset tokens = .error .lengthOverflow) :
    ∃ token ∈ tokens, token.leading.overflows = true ∨ token.trailing.overflows = true := by
  induction tokens generalizing index offset with
  | nil => cases failed
  | cons first rest ih =>
      rw [checkFrom] at failed
      cases found : tokenFault text last index offset first with
      | none =>
          rw [found] at failed
          obtain ⟨token, member, overflows⟩ := ih failed
          exact ⟨token, List.mem_cons_of_mem _ member, overflows⟩
      | some fault =>
          rw [found] at failed
          cases failed
          exact ⟨first, List.mem_cons_self, overflows_of_tokenFault found⟩

theorem overflows_of_fault? (failed : fault? text tokens = some .lengthOverflow) :
    ∃ token ∈ tokens, token.leading.overflows = true ∨ token.trailing.overflows = true := by
  rw [fault?] at failed
  cases ends : tokens.getLast? with
  | none =>
      rw [ends] at failed
      cases failed
  | some final =>
      rw [ends] at failed
      cases checked : checkFrom text (tokens.length - 1) 0 0 tokens with
      | error fault =>
          rw [checked] at failed
          cases failed
          exact overflows_of_checkFrom checked
      | ok covered =>
          simp only [checked] at failed
          repeat
            split at failed
            · cases failed
          cases failed

/-! ## Texts over a stream -/

namespace Accepts

variable {stream : TokenStream}

theorem isBoundary_offset (accepts : stream.Accepts) (index : Nat) :
    isBoundary (stream.offset index) stream.text = true := by
  cases here : stream.tokens[index]? with
  | none =>
      have whole := isBoundary_byteLength stream.text []
      rw [List.append_nil] at whole
      rw [offset, here]
      exact whole
  | some token =>
      cases index with
      | zero =>
          obtain ⟨rest, listed⟩ : ∃ rest, stream.tokens.toList = token :: rest := by
            rw [← Array.getElem?_toList, ← List.head?_eq_getElem?] at here
            exact List.head?_eq_some_iff.mp here
          have checked := accepts.checked
          rw [listed] at checked
          rw [offset, here]
          change isBoundary token.fullSpan.start stream.text = true
          rw [checkFrom_start checked]
          exact isBoundary_zero _
      | succ before =>
          have inside := (Array.getElem?_eq_some_iff.mp here).1
          have earlier := Array.getElem?_eq_getElem (Nat.lt_of_succ_lt inside)
          obtain ⟨_, fits⟩ := accepts.fits earlier
          rw [← accepts.fullSpan_stop earlier]
          exact fits.fullBoundary

variable (accepts : stream.Accepts)
  (ranges : ∀ token ∈ stream.tokens, token.span.start ≤ token.span.stop)
include accepts ranges

theorem isSlice_offsets {first stop : Nat} (ordered : first ≤ stop) :
    Span.IsSlice ⟨stream.offset first, stream.offset stop⟩ stream.text :=
  ⟨accepts.offset_mono ranges ordered, accepts.isBoundary_offset first, accepts.isBoundary_offset stop⟩

theorem isSlice_span {index : Nat} {token : Token} (here : stream.tokens[index]? = some token) :
    token.span.IsSlice stream.text := by
  obtain ⟨_, fits⟩ := accepts.fits here
  exact ⟨ranges token (Array.mem_of_getElem? here), fits.startBoundary, fits.stopBoundary⟩

theorem isSlice_fullSpan {index : Nat} {token : Token} (here : stream.tokens[index]? = some token) :
    token.fullSpan.IsSlice stream.text := by
  have slice := accepts.isSlice_offsets ranges (Nat.le_succ index)
  rw [← accepts.fullSpan_stop here, offset, here] at slice
  exact slice

end Accepts
end TokenStream

namespace SyntaxTree

variable {tree : SyntaxTree} (accepts : tree.stream.Accepts)
  (ranges : ∀ token ∈ tree.stream.tokens, token.span.start ≤ token.span.stop)
include accepts ranges

theorem isSlice_tokensSpan {first stop : Nat} (ordered : first ≤ stop)
    (inside : first < stop → stop ≤ tree.stream.size) :
    (tree.tokensSpan first stop).IsSlice tree.stream.text := by
  rw [tokensSpan_eq accepts ordered inside]
  exact accepts.isSlice_offsets ranges ordered

theorem isSlice_tokensTrimmedSpan {first stop : Nat} (ordered : first ≤ stop)
    (inside : first < stop → stop ≤ tree.stream.size) :
    (tree.tokensTrimmedSpan first stop).IsSlice tree.stream.text := by
  by_cases same : first = stop
  · rw [tokensTrimmedSpan, if_pos same]
    exact isSlice_tokensSpan accepts ranges ordered inside
  rw [tokensTrimmedSpan, if_neg same]
  have shorter : first < stop := Nat.lt_of_le_of_ne ordered same
  have within : stop ≤ tree.stream.tokens.size := inside shorter
  have here : ∀ index < tree.stream.tokens.size, tree.stream.tokens[index]? = some (tree.token index) := by
    intro index less
    rw [token, Array.getD_eq_getD_getElem?, Array.getElem?_eq_getElem less]
    rfl
  have begins := here first (by omega)
  have ends := here (stop - 1) (by omega)
  have firstSlice := accepts.isSlice_span ranges begins
  have lastSlice := accepts.isSlice_span ranges ends
  refine ⟨?_, firstSlice.startBoundary, lastSlice.stopBoundary⟩
  by_cases one : first = stop - 1
  · rw [← one]
    exact firstSlice.ordered
  · -- Other tokens end before the last one starts.
    have between := accepts.offset_mono ranges (show first + 1 ≤ stop - 1 by omega)
    rw [← accepts.fullSpan_stop begins, TokenStream.offset, ends] at between
    have firstOrdered := firstSlice.ordered
    have lastOrdered := lastSlice.ordered
    simp only [Token.fullSpan] at between
    dsimp only
    omega

theorem Represents.isSlice {kind : Kind} {children : Forest} (represents : tree.Represents kind children)
    (inStream : tree.firstToken < tree.endToken → tree.endToken ≤ tree.stream.size) {node : NodeId}
    (inside : node < tree.nodes.size) :
    (tree.span node).IsSlice tree.stream.text ∧ (tree.trimmedSpan node).IsSlice tree.stream.text := by
  have ordered := (represents.tiles inside).le
  have covered := represents.entry_le_size inStream inside
  exact ⟨isSlice_tokensSpan accepts ranges ordered covered,
    isSlice_tokensTrimmedSpan accepts ranges ordered covered⟩

end SyntaxTree

/-- Over a text of a length that can be, tokens are accepted as a stream exactly if they keep the contract,
and other tokens are malformed unless some trivia is too long. Over an accepted stream the texts of the
tokens, with and without trivia, and of the nodes of every tree over it are there, and the tokens with
their trivia join to the text. A token is taken to have a range, which ends no earlier than it starts. -/
theorem TokenStream.ofTokens_accepts_contract {text : List Char} {tokens : Array Token}
    (short : byteLength text < Trivia.lengthLimit)
    (ranges : ∀ token ∈ tokens, token.span.start ≤ token.span.stop) :
    (∀ stream, ofTokens text tokens = .ok stream ↔ stream = ⟨text, tokens⟩ ∧ Contract text tokens.toList) ∧
    (¬Contract text tokens.toList →
      (∃ cause, ofTokens text tokens = .error (.malformed cause)) ∨
      ofTokens text tokens = .error .lengthOverflow ∧
        ∃ token ∈ tokens, token.leading.overflows = true ∨ token.trailing.overflows = true) ∧
    ∀ stream, ofTokens text tokens = .ok stream →
      (∀ token ∈ stream.tokens, token.span.IsSlice text ∧ token.fullSpan.IsSlice text) ∧
      (stream.tokens.toList.map fun token => token.fullSpan.sliceOf text).flatten = text ∧
      ∀ (start : TokenId) (steps : List BuildStep) (tree : SyntaxTree),
        (∀ index, .token index ∈ steps → index < stream.size) →
        SyntaxTree.ofSteps stream start steps = .ok tree → ∀ node < tree.nodes.size,
          (tree.span node).IsSlice text ∧ (tree.trimmedSpan node).IsSlice text := by
  have exactly : fault? text tokens.toList = none ↔ Contract text tokens.toList :=
    fault?_eq_none_iff_contract short
  refine ⟨fun stream => ?accepted, fun broken => ?refused, fun stream accepted => ?texts⟩
  case accepted =>
    constructor
    · intro accepted
      obtain ⟨rfl, accepts⟩ := accepts_of_ofTokens accepted
      exact ⟨rfl, exactly.mp accepts⟩
    · rintro ⟨rfl, contract⟩
      rw [ofTokens, exactly.mpr contract]
  case refused =>
    cases found : fault? text tokens.toList with
    | none => exact absurd (exactly.mp found) broken
    | some fault =>
        rw [ofTokens, found]
        cases fault with
        | malformed cause => exact .inl ⟨cause, rfl⟩
        | lengthOverflow =>
            obtain ⟨token, member, overflows⟩ := overflows_of_fault? found
            exact .inr ⟨rfl, token, Array.mem_toList_iff.mp member, overflows⟩
  case texts =>
    obtain ⟨rfl, accepts⟩ := accepts_of_ofTokens accepted
    refine ⟨fun token member => ?_, ?_, fun start steps tree inStream built node inside => ?_⟩
    · obtain ⟨index, here⟩ := Array.mem_iff_getElem?.mp member
      exact ⟨accepts.isSlice_span ranges here, accepts.isSlice_fullSpan ranges here⟩
    · have texts := (flatten_texts accepts.checked (isBoundary_zero text)
        fun token member => ranges token (Array.mem_toList_iff.mp member)).2.2
      have whole := slice_byteLength [] text []
      rw [List.nil_append, List.append_nil] at whole
      rwa [texts, ← Nat.zero_add (byteLength text)]
    · obtain ⟨kind, children, rfl, rfl, builds⟩ := SyntaxTree.exists_forest built
      exact builds.represents.isSlice accepts ranges (builds.endToken_le_size inStream) inside

/-- A word in blanks, with a tree over it. -/
theorem TokenStream.ofTokens_accepts_contract_padded_word :
    let text := [' ', 'é', ' ']
    let tokens : Array Token := #[⟨⟨[⟨.whitespace, 1⟩]⟩, .ident, ⟨1, 3⟩, ⟨[⟨.whitespace, 1⟩]⟩⟩,
      ⟨.empty, .eof, ⟨4, 4⟩, .empty⟩]
    let stream : TokenStream := ⟨text, tokens⟩
    let steps : List BuildStep := [.startNode .identifierReference, .token 0, .finishNode]
    byteLength text < Trivia.lengthLimit ∧
    (∀ token ∈ tokens, token.span.start ≤ token.span.stop) ∧
    Contract text tokens.toList ∧
    ∃ tree, SyntaxTree.ofSteps stream 0 steps = .ok tree ∧ tree.span SyntaxTree.root = ⟨0, 4⟩ ∧
      (tree.span SyntaxTree.root).IsSlice text ∧ (tree.trimmedSpan SyntaxTree.root).IsSlice text := by
  intro text tokens stream steps
  have short : byteLength text < Trivia.lengthLimit := by decide
  have ranges : ∀ token ∈ tokens, token.span.start ≤ token.span.stop := by decide
  obtain ⟨exactly, -, texts⟩ := ofTokens_accepts_contract short ranges
  have accepted : ofTokens text tokens = .ok stream := rfl
  have inStream : ∀ index, .token index ∈ steps → index < stream.size := by
    intro index member
    have added : index = 0 := by simpa [steps] using member
    rw [added]
    decide
  have built : SyntaxTree.ofSteps stream 0 steps = .ok _ := rfl
  refine ⟨short, ranges, ((exactly stream).mp accepted).2, _, built, rfl, ?_⟩
  exact (texts stream accepted).2.2 0 steps _ inStream built SyntaxTree.root (by decide)

/-- Two pieces that lengths allow, but not together: the check says nothing about such tokens. -/
theorem TokenStream.ofTokens_gives_up_over_long_trivia :
    let text : List Char := []
    let token : Token :=
      ⟨⟨[⟨.whitespace, 4294967295⟩, ⟨.whitespace, 1⟩]⟩, .eof, ⟨0, 0⟩, .empty⟩
    (∀ piece ∈ token.leading.pieces, piece.length < Trivia.lengthLimit) ∧
    ¬Contract text [token] ∧
    ¬((∃ stream, ofTokens text #[token] = .ok stream) ∨
      ∃ cause, ofTokens text #[token] = .error (.malformed cause)) := by
  intro text token
  have gives : ofTokens text #[token] = .error .lengthOverflow := rfl
  refine ⟨by decide, ?_, ?_⟩
  · intro contract
    have starts := contract.adjacent 0 token rfl
    exact absurd starts (by decide)
  · rw [gives]
    rintro (⟨stream, accepted⟩ | ⟨cause, malformed⟩)
    · cases accepted
    · cases malformed

end ScriptTree
