import ScriptTree.Proofs.Slices
import ScriptTree.Token.Stream

/-! # Accepted streams

What the check of a stream finds of each token, and what follows for a run of tokens: they lie side by
side, and their texts join to the text between the first and the last. -/
set_option autoImplicit false
namespace ScriptTree

open Text

/-! ## One token -/

/-- A token that may stand at an index of a stream, if it has to start at an offset. -/
structure Token.Fits (text : List Char) (last index offset : Nat) (token : Token) : Prop where
  isToken : token.kind.isToken = true
  leading : token.leading.length < Trivia.lengthLimit
  starts : token.span.start = offset + token.leading.length
  trailing : token.trailing.length < Trivia.lengthLimit
  inside : token.fullSpan.stop ≤ byteLength text
  startBoundary : isBoundary token.span.start text = true
  stopBoundary : isBoundary token.span.stop text = true
  fullBoundary : isBoundary token.fullSpan.stop text = true
  last : token.kind = .eof → index = last
  empty : token.kind = .eof → token.span.start = token.span.stop

namespace TokenStream

theorem ite_some_eq_none {α : Type} {condition : Prop} [Decidable condition] {value : α}
    {otherwise : Option α} :
    (if condition then some value else otherwise) = none ↔ ¬condition ∧ otherwise = none := by
  by_cases holds : condition <;> simp [holds]

theorem tokenFault_eq_none_iff (text : List Char) (last index offset : Nat) (token : Token) :
    tokenFault text last index offset token = none ↔ token.Fits text last index offset := by
  simp only [tokenFault, ite_some_eq_none]
  constructor
  · rintro ⟨isToken, leading, reaches, starts, trailing, inside, boundaries, last, empty, -⟩
    simp only [List.all_cons, List.all_nil, Bool.and_true, Bool.not_eq_true', Bool.not_eq_false,
      Bool.and_eq_true] at boundaries
    simp only [Token.fullSpan] at starts
    refine ⟨by simpa using isToken, by simpa [Trivia.overflows] using leading, by omega,
      by simpa [Trivia.overflows] using trailing, Nat.not_lt.mp inside, boundaries.1, boundaries.2.1,
      boundaries.2.2, ?_, ?_⟩
    · intro eof
      exact Decidable.byContradiction fun other => last ⟨eof, other⟩
    · intro eof
      exact Decidable.byContradiction fun other =>
        empty ⟨eof, by simpa [Span.isEmpty] using other⟩
  · intro fits
    have starts := fits.starts
    refine ⟨by simp [fits.isToken], by simp [Trivia.overflows, fits.leading], by omega, ?_,
      by simp [Trivia.overflows, fits.trailing], Nat.not_lt.mpr fits.inside, ?_, ?_, ?_, trivial⟩
    · simp only [Token.fullSpan]
      omega
    · simp [fits.startBoundary, fits.stopBoundary, fits.fullBoundary]
    · rintro ⟨eof, other⟩
      exact other (fits.last eof)
    · rintro ⟨eof, other⟩
      simp [Span.isEmpty, fits.empty eof] at other

/-! ## Runs of tokens -/

variable {text : List Char} {last : Nat}

theorem checkFrom_cons_eq_ok {index offset covered : Nat} {token : Token} {rest : List Token} :
    checkFrom text last index offset (token :: rest) = .ok covered ↔
      token.Fits text last index offset ∧
        checkFrom text last (index + 1) token.fullSpan.stop rest = .ok covered := by
  rw [checkFrom, ← tokenFault_eq_none_iff]
  cases tokenFault text last index offset token with
  | none => simp
  | some fault => simp

theorem checkFrom_append_eq_ok {index offset covered : Nat} {front back : List Token} :
    checkFrom text last index offset (front ++ back) = .ok covered ↔
      ∃ middle, checkFrom text last index offset front = .ok middle ∧
        checkFrom text last (index + front.length) middle back = .ok covered := by
  induction front generalizing index offset with
  | nil => simp [checkFrom]
  | cons token rest ih =>
      rw [List.cons_append, checkFrom_cons_eq_ok, ih, List.length_cons, Nat.add_assoc,
        Nat.add_comm 1]
      constructor
      · rintro ⟨fits, middle, front, back⟩
        exact ⟨middle, checkFrom_cons_eq_ok.mpr ⟨fits, front⟩, back⟩
      · rintro ⟨middle, front, back⟩
        obtain ⟨fits, front⟩ := checkFrom_cons_eq_ok.mp front
        exact ⟨fits, middle, front, back⟩

/-- A stream is accepted when its tokens follow on each other from the first byte to the last and `eof`
ends them. -/
theorem fault?_eq_none_iff (tokens : List Token) :
    fault? text tokens = none ↔
      (∃ final, tokens.getLast? = some final ∧ final.kind = .eof) ∧
        checkFrom text (tokens.length - 1) 0 0 tokens = .ok (byteLength text) := by
  rw [fault?]
  cases tokens.getLast? with
  | none => simp
  | some final =>
      cases checkFrom text (tokens.length - 1) 0 0 tokens with
      | error fault => simp
      | ok covered =>
          simp only [ite_some_eq_none, ne_eq, Decidable.not_not]
          simp

theorem checkFrom_start {index offset covered : Nat} {token : Token} {rest : List Token}
    (checked : checkFrom text last index offset (token :: rest) = .ok covered) :
    token.fullSpan.start = offset := by
  have starts := (checkFrom_cons_eq_ok.mp checked).1.starts
  simp only [Token.fullSpan]
  omega

theorem checkFrom_stop {index offset covered : Nat} {token : Token} {front : List Token}
    (checked : checkFrom text last index offset (front ++ [token]) = .ok covered) :
    token.fullSpan.stop = covered := by
  obtain ⟨middle, _, back⟩ := checkFrom_append_eq_ok.mp checked
  cases (checkFrom_cons_eq_ok.mp back).2
  rfl

theorem flatten_texts {index offset covered : Nat} {tokens : List Token}
    (checked : checkFrom text last index offset tokens = .ok covered)
    (boundary : isBoundary offset text = true)
    (ranges : ∀ token ∈ tokens, token.span.start ≤ token.span.stop) :
    offset ≤ covered ∧ isBoundary covered text = true ∧
      (tokens.map fun token => token.fullSpan.sliceOf text).flatten = slice text offset covered := by
  induction tokens generalizing index offset with
  | nil =>
      cases checked
      exact ⟨Nat.le_refl _, boundary, by simp [slice, takeBytes]⟩
  | cons token rest ih =>
      obtain ⟨fits, further⟩ := checkFrom_cons_eq_ok.mp checked
      obtain ⟨ordered, stopBoundary, texts⟩ := ih further fits.fullBoundary
        fun other member => ranges other (by simp [member])
      have starts := fits.starts
      have range := ranges token (by simp)
      have first : token.fullSpan.start = offset := by
        simp only [Token.fullSpan]
        omega
      have forward : offset ≤ token.fullSpan.stop := by
        simp only [Token.fullSpan]
        omega
      refine ⟨Nat.le_trans forward ordered, stopBoundary, ?_⟩
      rw [List.map_cons, List.flatten_cons, texts, Span.sliceOf, first]
      exact slice_append_slice boundary fits.fullBoundary stopBoundary forward ordered

/-! ## Accepted streams -/

def Accepts (stream : TokenStream) : Prop := fault? stream.text stream.tokens.toList = none

theorem accepts_of_ofTokens {tokens : Array Token} {stream : TokenStream}
    (accepted : ofTokens text tokens = .ok stream) :
    stream = ⟨text, tokens⟩ ∧ stream.Accepts := by
  rw [ofTokens] at accepted
  cases checked : fault? text tokens.toList with
  | none =>
      rw [checked] at accepted
      cases accepted
      exact ⟨rfl, checked⟩
  | some fault =>
      rw [checked] at accepted
      cases accepted

namespace Accepts

variable {stream : TokenStream}

theorem checked (accepts : stream.Accepts) :
    checkFrom stream.text stream.eofIndex 0 0 stream.tokens.toList =
      .ok (byteLength stream.text) := by
  have checked := ((fault?_eq_none_iff _).mp accepts).2
  rwa [Array.length_toList] at checked

theorem size_eq (accepts : stream.Accepts) : stream.tokens.size = stream.eofIndex + 1 := by
  obtain ⟨final, last, _⟩ := ((fault?_eq_none_iff _).mp accepts).1
  have some : stream.tokens.toList ≠ [] := by
    intro none
    rw [none] at last
    cases last
  have length := List.length_pos_iff.mpr some
  rw [Array.length_toList] at length
  simp only [eofIndex]
  omega

theorem fits (accepts : stream.Accepts) {index : Nat} {token : Token}
    (here : stream.tokens[index]? = some token) :
    ∃ offset, token.Fits stream.text stream.eofIndex index offset := by
  rw [← Array.getElem?_toList] at here
  obtain ⟨inside, rfl⟩ := List.getElem?_eq_some_iff.mp here
  have checked := accepts.checked
  have split : stream.tokens.toList = stream.tokens.toList.take index ++
      stream.tokens.toList[index] :: stream.tokens.toList.drop (index + 1) := by
    rw [List.getElem_cons_drop, List.take_append_drop]
  rw [split] at checked
  obtain ⟨offset, _, rest⟩ := checkFrom_append_eq_ok.mp checked
  have fits := (checkFrom_cons_eq_ok.mp rest).1
  rw [List.length_take, Nat.zero_add, Nat.min_eq_left (Nat.le_of_lt inside)] at fits
  exact ⟨offset, fits⟩

theorem kind_eq_eof_iff (accepts : stream.Accepts) {index : Nat} {token : Token}
    (here : stream.tokens[index]? = some token) :
    token.kind = .eof ↔ index = stream.eofIndex := by
  obtain ⟨offset, fits⟩ := accepts.fits here
  refine ⟨fits.last, ?_⟩
  rintro rfl
  obtain ⟨final, last, eof⟩ := ((fault?_eq_none_iff _).mp accepts).1
  rw [List.getLast?_eq_getElem?, Array.getElem?_toList, Array.length_toList] at last
  rw [← eof]
  have same := here.symm.trans last
  cases same
  rfl

/-- The texts of a run of tokens join to the text from the start of the first to the end of the
last. -/
theorem flatten_run (accepts : stream.Accepts)
    (ranges : ∀ token ∈ stream.tokens, token.span.start ≤ token.span.stop) {first count : Nat}
    (inside : first + count ≤ stream.tokens.size) (some : 0 < count) :
    (((stream.tokens.toList.drop first).take count).map fun token =>
        token.fullSpan.sliceOf stream.text).flatten =
      slice stream.text (stream.tokens.getD first default).fullSpan.start
        (stream.tokens.getD (first + count - 1) default).fullSpan.stop := by
  obtain ⟨all, same⟩ : ∃ all, stream.tokens.toList = all := ⟨_, rfl⟩
  have length : all.length = stream.tokens.size := by rw [← same, Array.length_toList]
  have getD : ∀ (index : Nat) (inside : index < all.length),
      stream.tokens.getD index default = all[index] := by
    intro index inside
    subst same
    rw [Array.length_toList] at inside
    simp [Array.getD, inside]
  have checked := accepts.checked
  have everywhere : ∀ token ∈ all, token.span.start ≤ token.span.stop := by
    intro token member
    exact ranges token (Array.mem_toList_iff.mp (same ▸ member))
  rw [same] at checked ⊢
  have split : all = all.take first ++
      ((all.drop first).take count ++ (all.drop first).drop count) := by
    rw [List.take_append_drop, List.take_append_drop]
  rw [split] at checked
  obtain ⟨start, front, rest⟩ := checkFrom_append_eq_ok.mp checked
  obtain ⟨stop, run, _⟩ := checkFrom_append_eq_ok.mp rest
  have boundary := (flatten_texts front (isBoundary_zero _) fun token member =>
    everywhere token (List.mem_of_mem_take member)).2.1
  have texts := (flatten_texts run boundary fun token member =>
    everywhere token (List.mem_of_mem_drop (List.mem_of_mem_take member))).2.2
  rw [texts]
  obtain ⟨more, rfl⟩ : ∃ more, count = more + 1 := ⟨count - 1, by omega⟩
  have firstInside : first < all.length := by omega
  have finalInside : more < (all.drop first).length := by
    rw [List.length_drop]
    omega
  have headed : (all.drop first).take (more + 1) = all[first] :: (all.drop (first + 1)).take more := by
    rw [List.drop_eq_getElem_cons firstInside, List.take_succ_cons]
  have ended : (all.drop first).take (more + 1) =
      (all.drop first).take more ++ [(all.drop first)[more]] := by
    rw [List.take_append_getElem]
  have begins := run
  rw [headed] at begins
  rw [ended] at run
  rw [← checkFrom_start begins, ← checkFrom_stop run, List.getElem_drop, getD first firstInside,
    getD (first + (more + 1) - 1) (by omega)]
  rfl

end Accepts
end TokenStream
end ScriptTree
