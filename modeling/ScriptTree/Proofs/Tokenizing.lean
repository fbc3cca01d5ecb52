import ScriptTree.Proofs.Punctuators
import ScriptTree.Proofs.Streams

/-! # Tokenizing

Each call for a token cuts trivia, a token and trivia from the front of the text, and counts their bytes.
While there is text left the token is not empty and is not the end, so the end comes, and the tokens up
to it are a stream over the text. -/
set_option autoImplicit false
namespace ScriptTree

open Text

/-! ## Scanning takes something -/

def TakesToken (scanned : Kind × Split) : Prop :=
  scanned.1.isToken = true ∧ scanned.1 ≠ .eof ∧ scanned.2.taken ≠ []

namespace TakesToken

theorem after {kind : Kind} (isToken : kind.isToken = true ∧ kind ≠ .eof) (first : Char)
    (before : List Char) (split : Split) : TakesToken (kind, split.after (first :: before)) :=
  ⟨isToken.1, isToken.2, by simp [Split.after]⟩

theorem unknown {split : Split} (some : split.taken ≠ []) : TakesToken (.unknown, split) :=
  ⟨rfl, nofun, some⟩

theorem decideAfter {decision : Decision}
    (known : ∀ entry ∈ decision.spellings, entry.1.isToken = true ∧ entry.1 ≠ .eof) (first : Char)
    (rest : List Char) : TakesToken (decideAfter first decision rest) := by
  obtain ⟨entry, decided, kind, taken⟩ := mem_decideAfter first decision rest
  obtain ⟨isToken, notEof⟩ := known entry decided
  exact ⟨by rw [kind, isToken], by rwa [kind], by simp [taken]⟩

theorem isToken_of_isPunctuator {kind : Kind} (punctuates : kind.isPunctuator = true) :
    kind.isToken = true ∧ kind ≠ .eof := by
  simp only [Kind.isPunctuator, decide_eq_true_eq] at punctuates
  refine ⟨?_, ?_⟩
  · simp only [Kind.isToken, decide_eq_true_eq]
    exact Nat.le_trans punctuates (by decide)
  · rintro rfl
    exact absurd punctuates (by decide)

theorem punctuator (first : Char) (rest : List Char) :
    TakesToken (ScriptTree.decideAfter first (.after first) rest) := by
  refine decideAfter (fun entry decided => ?_) first rest
  rcases mem_punctuators_of_after first entry decided with rfl | listed
  · decide
  · exact isToken_of_isPunctuator (mem_punctuators_iff.mp listed).1

theorem points (rest : List Char) : TakesToken (scanPoints rest) := by
  fun_cases scanPoints rest <;> exact ⟨rfl, by simp, by simp⟩

theorem questionMark (rest : List Char) : TakesToken (scanQuestionMark rest) := by
  fun_cases scanQuestionMark rest with
  | case1 => exact ⟨rfl, by simp, by simp⟩
  | case2 => exact decideAfter (by decide) '?' rest

theorem isToken_of_isKeyword {kind : Kind} (keyword : kind.isKeyword = true) :
    kind.isToken = true ∧ kind ≠ .eof := by
  refine ⟨?_, ?_⟩
  · simp only [Kind.isKeyword, Kind.isReservedWord, Kind.isContextualKeyword, Bool.or_eq_true,
      Bool.and_eq_true, decide_eq_true_eq] at keyword
    simp only [Kind.isToken, decide_eq_true_eq]
    rcases keyword with ⟨_, early⟩ | ⟨_, early⟩
    · exact Nat.le_trans early (by decide)
    · exact Nat.le_trans early (by decide)
  · rintro rfl
    exact absurd keyword (by decide)

theorem scanWord (first : Char) (rest : List Char) : TakesToken (scanWord first rest) := by
  unfold ScriptTree.scanWord
  dsimp only
  split
  · rename_i kind found
    split
    · exact after (by decide) first [] _
    · exact after (isToken_of_isKeyword (Kind.text_of_ofKeyword? found).1) first [] _
  · exact after (by decide) first [] _

theorem closedOrUnknown {kind : Kind} (isToken : kind.isToken = true ∧ kind ≠ .eof) (first : Char)
    (rest : List Char) (scanned : Option Split) :
    TakesToken (ScriptTree.closedOrUnknown kind (first :: rest) [first] scanned) := by
  cases scanned with
  | none => exact unknown (by simp [Split.whole])
  | some split => exact after isToken first [] split

theorem scanSlash (previous : Option Kind) (rest : List Char) :
    TakesToken (scanSlash previous rest) := by
  fun_cases ScriptTree.scanSlash previous rest with
  | case1 => exact unknown (by simp [Split.whole])
  | case2 => exact closedOrUnknown (by decide) '/' rest _
  | case3 => exact decideAfter (by decide) '/' rest

theorem scanPrivateName (rest : List Char) : TakesToken (scanPrivateName rest) := by
  unfold ScriptTree.scanPrivateName
  split
  · exact after (by decide) '#' [] _
  · exact after (by decide) '#' [] _

theorem scanEscapedWord (rest : List Char) : TakesToken (scanEscapedWord rest) := by
  unfold ScriptTree.scanEscapedWord
  split
  · exact after (by decide) '\\' [] _
  · exact after (by decide) '\\' [] _

theorem template (memory : Memory) (first : Char) (rest : List Char) {closed continued : Kind}
    (isClosed : closed.isToken = true ∧ closed ≠ .eof)
    (isContinued : continued.isToken = true ∧ continued ≠ .eof) :
    TakesToken ((memory.template first rest closed continued).1,
      (memory.template first rest closed continued).2.1) := by
  unfold Memory.template
  split
  · exact unknown (by simp [Split.whole])
  · exact after isClosed first [] _
  · exact after isContinued first [] _

theorem closingBrace (memory : Memory) (rest : List Char) :
    TakesToken ((memory.closingBrace rest).1, (memory.closingBrace rest).2.1) := by
  fun_cases Memory.closingBrace memory rest with
  | case1 => exact template _ _ _ (by decide) (by decide)
  | case2 | case3 => exact ⟨rfl, by simp, by simp⟩

theorem mark (memory : Memory) (first : Char) (rest : List Char) :
    TakesToken ((scanMark memory first rest).1, (scanMark memory first rest).2.1) := by
  fun_cases scanMark memory first rest with
  | case1 | case2 => exact closedOrUnknown (by decide) _ _ _
  | case3 => exact template _ _ _ (by decide) (by decide)
  | case4 => exact scanEscapedWord _
  | case5 => exact scanPrivateName _
  | case6 => exact scanSlash _ _
  | case7 => exact ⟨rfl, by simp, by simp⟩
  | case8 => exact closingBrace _ _
  | case9 => exact points _
  | case10 => exact questionMark _
  | case11 => exact punctuator _ _

end TakesToken

theorem takesToken_scanToken (memory : Memory) {text : List Char} (some : text ≠ []) :
    TakesToken ((scanToken memory text).1, (scanToken memory text).2.1) := by
  fun_cases scanToken memory text with
  | case1 => exact absurd rfl some
  | case2 => exact TakesToken.scanWord _ _
  | case3 first rest =>
      exact TakesToken.after (show Kind.number.isToken = true ∧ Kind.number ≠ .eof by decide) first [] _
  | case4 first rest => exact TakesToken.mark memory first rest

/-! ## Trivia counts its bytes -/

/-- The bytes between two offsets are those of a text, and what follows it remains. -/
theorem exists_triviaWithin (trailing : Bool) (budget : List Char) (offset : Nat)
    (text : List Char) :
    ∃ skipped, text = skipped ++ (triviaWithin trailing budget offset text).2.2 ∧
      (triviaWithin trailing budget offset text).2.1 = offset + byteLength skipped ∧
      Trivia.length ⟨(triviaWithin trailing budget offset text).1⟩ = byteLength skipped := by
  fun_induction triviaWithin trailing budget offset text with
  | case1 offset text => exact ⟨[], rfl, rfl, rfl⟩
  | case2 _ _ offset text => exact ⟨[], rfl, rfl, rfl⟩
  | case3 _ budget offset text kind split found length pieces stop rest inside ih =>
      rw [inside] at ih
      obtain ⟨skipped, cut, stops, counted⟩ := ih
      have kept := text_triviaPiece? found
      refine ⟨split.taken ++ skipped, ?_, ?_, ?_⟩
      · rw [List.append_assoc, ← cut, ← kept]
        rfl
      · rw [stops, byteLength_append, ← Nat.add_assoc]
      · rw [byteLength_append, ← counted]
        rfl

theorem exists_takeTrivia (trailing : Bool) (offset : Nat) (text : List Char) :
    ∃ skipped, text = skipped ++ (takeTrivia trailing offset text).2.2 ∧
      (takeTrivia trailing offset text).2.1 = offset + byteLength skipped ∧
      (takeTrivia trailing offset text).1.length = byteLength skipped :=
  exists_triviaWithin trailing text offset text

/-! ## One token -/

namespace Tokenizer

/-- A token and what remains behind it cut the text of a tokenizer in four: trivia, what the token
takes, more trivia, and the rest. -/
structure Cuts (tokenizer : Tokenizer) (token : Token) (next : Tokenizer)
    (before taken behind : List Char) : Prop where
  text : tokenizer.rest = before ++ (taken ++ (behind ++ next.rest))
  leading : token.leading.length = byteLength before
  starts : token.span.start = tokenizer.offset + byteLength before
  stops : token.span.stop = token.span.start + byteLength taken
  trailing : token.trailing.length = byteLength behind
  offset : next.offset = token.span.stop + byteLength behind
  isToken : token.kind.isToken = true
  empty : token.kind = .eof ↔ taken = []
  nothing : token.kind = .eof → behind = [] ∧ next.rest = []
  previous : next.memory.previous = some token.kind

theorem exists_cuts (tokenizer : Tokenizer) :
    ∃ before taken behind, tokenizer.Cuts tokenizer.nextToken.1 tokenizer.nextToken.2
      before taken behind := by
  obtain ⟨before, cut, starts, counted⟩ :=
    exists_takeTrivia false tokenizer.offset tokenizer.rest
  cases trivia : takeTrivia false tokenizer.offset tokenizer.rest with
  | mk pieces behind =>
    obtain ⟨start, text⟩ := behind
    rw [trivia] at cut starts counted
    cases text with
    | nil =>
        have next : tokenizer.nextToken = (⟨pieces, .eof, ⟨start, start⟩, .empty⟩,
            ⟨[], start, { tokenizer.memory with previous := some .eof }⟩) := by
          simp [nextToken, trivia, scanToken, byteLength]
        rw [next]
        exact ⟨before, [], [], cut, counted, starts, rfl, rfl, rfl, rfl, by simp, by simp, rfl⟩
    | cons first more =>
        have kept := text_scanToken tokenizer.memory (first :: more)
        obtain ⟨isToken, other, takes⟩ :=
          takesToken_scanToken tokenizer.memory (List.cons_ne_nil first more)
        cases scanned : scanToken tokenizer.memory (first :: more) with
        | mk kind scan =>
          obtain ⟨split, memory⟩ := scan
          rw [scanned] at kept isToken other takes
          obtain ⟨behind, also, stops, counts⟩ :=
            exists_takeTrivia true (start + byteLength split.taken) split.rest
          cases following : takeTrivia true (start + byteLength split.taken) split.rest with
          | mk others remains =>
            obtain ⟨stop, rest⟩ := remains
            rw [following] at also stops counts
            have next : tokenizer.nextToken =
                (⟨pieces, kind, ⟨start, start + byteLength split.taken⟩, others⟩,
                  ⟨rest, stop, { memory with previous := some kind }⟩) := by
              simp [nextToken, trivia, scanned, other, following]
            rw [next]
            refine ⟨before, split.taken, behind, ?_, counted, starts, rfl, counts, stops, isToken,
              by simp [takes, other], by simp [other], rfl⟩
            rw [cut, ← also, ← kept]
            rfl

theorem nextToken_of_nothing (tokenizer : Tokenizer) (nothing : tokenizer.rest = []) :
    tokenizer.nextToken.1 = ⟨.empty, .eof, .emptyAt tokenizer.offset, .empty⟩ ∧
      tokenizer.nextToken.2.rest = [] ∧ tokenizer.nextToken.2.offset = tokenizer.offset := by
  obtain ⟨rest, offset, memory⟩ := tokenizer
  cases nothing
  exact ⟨rfl, rfl, rfl⟩

/-- What remains for a tokenizer is the end of a text, and its offset is the number of bytes before
it. -/
def Reads (text : List Char) (tokenizer : Tokenizer) : Prop :=
  ∃ front, text = front ++ tokenizer.rest ∧ byteLength front = tokenizer.offset

theorem reads_ofText (text : List Char) : (ofText text).Reads text := ⟨[], rfl, rfl⟩

/-- The offset is what of the text does not remain. -/
theorem Reads.offset_eq_remaining {text : List Char} {tokenizer : Tokenizer} (reads : tokenizer.Reads text) :
    tokenizer.offset = byteLength text - byteLength tokenizer.rest := by
  obtain ⟨front, rfl, offset⟩ := reads
  rw [byteLength_append, ← offset, Nat.add_sub_cancel]

theorem Reads.byteLength_rest_le {text : List Char} {tokenizer : Tokenizer} (reads : tokenizer.Reads text) :
    byteLength tokenizer.rest ≤ byteLength text := by
  obtain ⟨front, rfl, -⟩ := reads
  rw [byteLength_append]
  exact Nat.le_add_left _ _

namespace Cuts

variable {text before taken behind : List Char} {tokenizer next : Tokenizer} {token : Token}

theorem reads_next (cuts : tokenizer.Cuts token next before taken behind)
    (reads : tokenizer.Reads text) : next.Reads text := by
  obtain ⟨front, rfl, offset⟩ := reads
  refine ⟨front ++ (before ++ (taken ++ behind)), ?_, ?_⟩
  · rw [cuts.text]
    simp
  · rw [cuts.offset, cuts.stops, cuts.starts, ← offset]
    simp only [byteLength_append]
    omega

/-- The lengths that remain tell where a token lies: it ends where its text is no longer among what remains,
and it is as long as what remains became shorter since it was begun. -/
theorem span_eq_remaining (cuts : tokenizer.Cuts token next before taken behind)
    (reads : tokenizer.Reads text) (begun left : List Char) (begins : tokenizer.rest = before ++ begun)
    (ends : begun = taken ++ left) :
    token.span = ⟨byteLength text - byteLength left - (byteLength begun - byteLength left),
      byteLength text - byteLength left⟩ := by
  have offset := reads.offset_eq_remaining
  have total := reads.byteLength_rest_le
  have starts := cuts.starts
  have stops := cuts.stops
  rw [begins, ends, byteLength_append, byteLength_append] at offset total
  have stop : token.span.stop = byteLength text - byteLength left := by omega
  have start : token.span.start =
      byteLength text - byteLength left - (byteLength (taken ++ left) - byteLength left) := by
    rw [byteLength_append]
    omega
  rw [ends, ← start, ← stop]

theorem sliceOf_span (cuts : tokenizer.Cuts token next before taken behind)
    (reads : tokenizer.Reads text) : token.span.sliceOf text = taken := by
  obtain ⟨front, rfl, offset⟩ := reads
  have sliced := slice_byteLength (front ++ before) taken (behind ++ next.rest)
  rw [byteLength_append, offset, ← cuts.starts, ← cuts.stops, List.append_assoc, ← cuts.text]
    at sliced
  exact sliced

theorem fits (cuts : tokenizer.Cuts token next before taken behind) (reads : tokenizer.Reads text)
    (short : byteLength text < Trivia.lengthLimit) (last index : Nat)
    (ends : token.kind = .eof → index = last) :
    token.Fits text last index tokenizer.offset ∧ token.fullSpan.stop = next.offset := by
  obtain ⟨front, rfl, offset⟩ := reads
  have full : token.fullSpan.stop = next.offset := by
    rw [Token.fullSpan, cuts.offset, cuts.trailing]
  have total : byteLength (front ++ tokenizer.rest) = byteLength front + (byteLength before +
      (byteLength taken + (byteLength behind + byteLength next.rest))) := by
    rw [cuts.text]
    simp only [byteLength_append]
  have starts := cuts.starts
  have stops := cuts.stops
  have leading := cuts.leading
  have trailing := cuts.trailing
  have behindOffset := cuts.offset
  refine ⟨⟨cuts.isToken, by omega, by omega, by omega, by omega, ?_, ?_, ?_, ends, ?_⟩, full⟩
  · have boundary := isBoundary_byteLength (front ++ before) (taken ++ (behind ++ next.rest))
    rwa [byteLength_append, offset, ← starts, List.append_assoc, ← cuts.text] at boundary
  · have boundary := isBoundary_byteLength (front ++ (before ++ taken)) (behind ++ next.rest)
    rwa [byteLength_append, byteLength_append, offset, ← Nat.add_assoc, ← starts, ← stops,
      List.append_assoc, List.append_assoc, ← cuts.text] at boundary
  · have boundary := isBoundary_byteLength (front ++ (before ++ (taken ++ behind))) next.rest
    rwa [byteLength_append, byteLength_append, byteLength_append, offset, ← Nat.add_assoc,
      ← Nat.add_assoc, ← starts, ← stops, ← behindOffset, ← full, List.append_assoc,
      List.append_assoc, List.append_assoc, ← cuts.text] at boundary
  · intro eof
    rw [cuts.stops, cuts.empty.mp eof]
    rfl

theorem length_next_lt (cuts : tokenizer.Cuts token next before taken behind)
    (other : token.kind ≠ .eof) : next.rest.length < tokenizer.rest.length := by
  have takes := List.length_pos_iff.mpr (mt cuts.empty.mpr other)
  rw [cuts.text]
  simp only [List.length_append]
  omega

end Cuts

/-! ## Asking again and again -/

def advance : Nat → Tokenizer → Tokenizer
  | 0, tokenizer => tokenizer
  | count + 1, tokenizer => advance count tokenizer.nextToken.2

/-- The token that a tokenizer gives out at an index if it is asked again and again. -/
def nth (tokenizer : Tokenizer) (index : Nat) : Token := (tokenizer.advance index).nextToken.1

inductive Run : Tokenizer → List Token → Prop where
  | last {tokenizer : Tokenizer} (eof : tokenizer.nextToken.1.kind = .eof) :
      Run tokenizer [tokenizer.nextToken.1]
  | more {tokenizer : Tokenizer} {tokens : List Token} (other : tokenizer.nextToken.1.kind ≠ .eof)
      (further : Run tokenizer.nextToken.2 tokens) : Run tokenizer (tokenizer.nextToken.1 :: tokens)

/-- The end comes: every token before it takes a character at least. -/
theorem exists_run (tokenizer : Tokenizer) :
    ∃ tokens, tokenizer.Run tokens ∧ tokens.length ≤ tokenizer.rest.length + 1 := by
  generalize bound : tokenizer.rest.length = length
  induction length using Nat.strongRecOn generalizing tokenizer with
  | ind length ih =>
      by_cases eof : tokenizer.nextToken.1.kind = .eof
      · exact ⟨_, .last eof, by simp⟩
      · obtain ⟨before, taken, behind, cuts⟩ := tokenizer.exists_cuts
        have shorter := cuts.length_next_lt eof
        obtain ⟨tokens, run, few⟩ := ih _ (bound ▸ shorter) tokenizer.nextToken.2 rfl
        refine ⟨_, .more eof run, ?_⟩
        rw [List.length_cons]
        omega

namespace Run

variable {text : List Char} {tokenizer : Tokenizer} {tokens : List Token}

theorem length_pos (run : tokenizer.Run tokens) : 0 < tokens.length := by
  cases run <;> simp

theorem tokensWithin_eq (run : tokenizer.Run tokens) (going : tokenizer.isDone = false)
    {budget : Nat} (enough : tokens.length ≤ budget) : tokensWithin budget tokenizer = tokens := by
  induction run generalizing budget with
  | @last tokenizer eof =>
      obtain ⟨before, taken, behind, cuts⟩ := tokenizer.exists_cuts
      obtain ⟨budget, rfl⟩ := Nat.exists_eq_add_of_le' enough
      have done : tokenizer.nextToken.2.isDone = true := by simp [isDone, cuts.previous, eof]
      cases budget <;> simp [tokensWithin, going, done]
  | @more tokenizer tokens other further ih =>
      obtain ⟨before, taken, behind, cuts⟩ := tokenizer.exists_cuts
      obtain ⟨budget, rfl⟩ : ∃ less, budget = less + 1 := ⟨budget - 1, by simp at enough; omega⟩
      have undone : tokenizer.nextToken.2.isDone = false := by simp [isDone, cuts.previous, other]
      simp [tokensWithin, going, ih undone (by simpa using enough)]

theorem eq_map_nth (run : tokenizer.Run tokens) :
    tokens = (List.range tokens.length).map tokenizer.nth := by
  induction run with
  | last => rfl
  | @more tokenizer tokens other further ih =>
      rw [List.length_cons, List.range_succ_eq_map, List.map_cons, List.map_map]
      exact congrArg _ ih

/-- The tokens follow on each other, from where the tokenizer stands to the end of the text. -/
theorem checkFrom_eq_ok (run : tokenizer.Run tokens) (reads : tokenizer.Reads text)
    (short : byteLength text < Trivia.lengthLimit) (last index : Nat)
    (ends : last + 1 = index + tokens.length) :
    TokenStream.checkFrom text last index tokenizer.offset tokens = .ok (byteLength text) := by
  induction run generalizing index with
  | @last tokenizer eof =>
      obtain ⟨before, taken, behind, cuts⟩ := tokenizer.exists_cuts
      have here : index = last := by
        rw [List.length_singleton] at ends
        omega
      obtain ⟨fits, full⟩ := cuts.fits reads short last index fun _ => here
      obtain ⟨front, same, offset⟩ := cuts.reads_next reads
      rw [TokenStream.checkFrom_cons_eq_ok, TokenStream.checkFrom, full, ← offset, same,
        (cuts.nothing eof).2, List.append_nil]
      refine ⟨?_, rfl⟩
      rw [same, (cuts.nothing eof).2, List.append_nil] at fits
      exact fits
  | @more tokenizer tokens other further ih =>
      obtain ⟨before, taken, behind, cuts⟩ := tokenizer.exists_cuts
      obtain ⟨fits, full⟩ := cuts.fits reads short last index fun eof => absurd eof other
      rw [TokenStream.checkFrom_cons_eq_ok, full]
      refine ⟨fits, ih (cuts.reads_next reads) (index + 1) ?_⟩
      rw [ends, List.length_cons, Nat.add_assoc, Nat.add_comm 1]

end Run

/-! ## The token at an index -/

variable {text : List Char} {tokenizer : Tokenizer}

theorem advance_succ (tokenizer : Tokenizer) (count : Nat) :
    tokenizer.advance (count + 1) = (tokenizer.advance count).nextToken.2 := by
  induction count generalizing tokenizer with
  | zero => rfl
  | succ count ih => exact ih tokenizer.nextToken.2

theorem advance_add (tokenizer : Tokenizer) (front back : Nat) :
    tokenizer.advance (front + back) = (tokenizer.advance front).advance back := by
  induction back with
  | zero => rfl
  | succ back ih => rw [← Nat.add_assoc, advance_succ, ih, ← advance_succ]

theorem Reads.advance (reads : tokenizer.Reads text) (count : Nat) :
    (tokenizer.advance count).Reads text := by
  induction count with
  | zero => exact reads
  | succ count ih =>
      obtain ⟨before, taken, behind, cuts⟩ := (tokenizer.advance count).exists_cuts
      rw [advance_succ]
      exact cuts.reads_next ih

theorem fullSpan_nth (tokenizer : Tokenizer) (index : Nat) :
    (tokenizer.nth index).fullSpan =
      ⟨(tokenizer.advance index).offset, (tokenizer.advance (index + 1)).offset⟩ := by
  obtain ⟨before, taken, behind, cuts⟩ := (tokenizer.advance index).exists_cuts
  rw [nth, advance_succ, Token.fullSpan, cuts.starts, cuts.leading, cuts.trailing, cuts.offset,
    Nat.add_sub_cancel]

theorem Reads.boundaries (reads : tokenizer.Reads text)
    (short : byteLength text < Trivia.lengthLimit) (index : Nat) :
    (tokenizer.nth index).span.start ≤ (tokenizer.nth index).span.stop ∧
      isBoundary (tokenizer.nth index).span.start text = true ∧
      isBoundary (tokenizer.nth index).span.stop text = true ∧
      isBoundary (tokenizer.nth index).fullSpan.stop text = true := by
  obtain ⟨before, taken, behind, cuts⟩ := (tokenizer.advance index).exists_cuts
  obtain ⟨fits, -⟩ := cuts.fits (reads.advance index) short 0 0 fun _ => rfl
  refine ⟨?_, fits.startBoundary, fits.stopBoundary, fits.fullBoundary⟩
  rw [nth, cuts.stops]
  exact Nat.le_add_right _ _

theorem Reads.offset_of_nothing (reads : tokenizer.Reads text) (nothing : tokenizer.rest = []) :
    tokenizer.offset = byteLength text := by
  obtain ⟨front, same, offset⟩ := reads
  rw [← offset, same, nothing, List.append_nil]

theorem Reads.nth_of_nothing (reads : tokenizer.Reads text) (nothing : tokenizer.rest = [])
    (index : Nat) :
    tokenizer.nth index = ⟨.empty, .eof, .emptyAt (byteLength text), .empty⟩ := by
  have still : (tokenizer.advance index).rest = [] := by
    induction index with
    | zero => exact nothing
    | succ index ih =>
        rw [advance_succ]
        exact ((tokenizer.advance index).nextToken_of_nothing ih).2.1
  rw [nth, (nextToken_of_nothing _ still).1, (reads.advance index).offset_of_nothing still]

namespace Run

variable {tokens : List Token}

theorem nth_before (run : tokenizer.Run tokens) (reads : tokenizer.Reads text) {index : Nat}
    (before : index + 1 < tokens.length) :
    (tokenizer.nth index).kind ≠ .eof ∧ (tokenizer.nth index).span.sliceOf text ≠ [] := by
  induction run generalizing index with
  | last => simp at before
  | @more tokenizer tokens other further ih =>
      obtain ⟨front, taken, behind, cuts⟩ := tokenizer.exists_cuts
      cases index with
      | zero =>
          refine ⟨other, ?_⟩
          rw [nth, advance, cuts.sliceOf_span reads]
          exact mt cuts.empty.mpr other
      | succ index => exact ih (cuts.reads_next reads) (by simpa using before)

theorem nth_last (run : tokenizer.Run tokens) (reads : tokenizer.Reads text) {index : Nat}
    (last : index + 1 = tokens.length) :
    (tokenizer.nth index).kind = .eof ∧
      (tokenizer.nth index).span = .emptyAt (byteLength text) ∧
      (tokenizer.advance (index + 1)).rest = [] := by
  induction run generalizing index with
  | @last tokenizer eof =>
      obtain rfl : index = 0 := by simpa using last
      obtain ⟨front, taken, behind, cuts⟩ := tokenizer.exists_cuts
      obtain ⟨rfl, nothing⟩ := cuts.nothing eof
      obtain rfl := cuts.empty.mp eof
      have offset := (cuts.reads_next reads).offset_of_nothing nothing
      rw [cuts.offset, byteLength, Nat.add_zero] at offset
      have start := cuts.stops
      rw [byteLength, Nat.add_zero] at start
      have span : tokenizer.nextToken.1.span =
          ⟨tokenizer.nextToken.1.span.start, tokenizer.nextToken.1.span.stop⟩ := rfl
      rw [← start, offset] at span
      exact ⟨eof, span, nothing⟩
  | @more tokenizer tokens other further ih =>
      obtain ⟨front, taken, behind, cuts⟩ := tokenizer.exists_cuts
      obtain ⟨index, rfl⟩ : ∃ less, index = less + 1 :=
        ⟨index - 1, by have := further.length_pos; simp at last; omega⟩
      exact ih (cuts.reads_next reads) (by simpa using last)

end Run

end Tokenizer

/-! ## The stream of a text -/

/-- The tokens of a tokenizer up to an index cover a text, and `eof` is at that index. -/
structure Tokenizer.Covers (tokenizer : Tokenizer) (text : List Char) (count : Nat) : Prop where
  before : ∀ index < count,
    (tokenizer.nth index).kind ≠ .eof ∧ (tokenizer.nth index).span.sliceOf text ≠ []
  eof : (tokenizer.nth count).kind = .eof
  empty : (tokenizer.nth count).span = .emptyAt (byteLength text)
  beyond : ∀ index > count,
    tokenizer.nth index = ⟨.empty, .eof, .emptyAt (byteLength text), .empty⟩
  start : (tokenizer.nth 0).fullSpan.start = 0
  contiguous : ∀ index,
    (tokenizer.nth index).fullSpan.stop = (tokenizer.nth (index + 1)).fullSpan.start
  stop : (tokenizer.nth count).fullSpan.stop = byteLength text
  boundaries : ∀ index, (tokenizer.nth index).span.start ≤ (tokenizer.nth index).span.stop ∧
    isBoundary (tokenizer.nth index).span.start text = true ∧
    isBoundary (tokenizer.nth index).span.stop text = true ∧
    isBoundary (tokenizer.nth index).fullSpan.stop text = true
  texts : (((List.range (count + 1)).map tokenizer.nth).map fun token =>
    token.fullSpan.sliceOf text).flatten = text

/-- Asked again and again, the tokenizer of a text comes to the end, its tokens up to there are a
stream over the text, and after it there is nothing. -/
theorem tokenize_covers (text : List Char) (short : byteLength text < Trivia.lengthLimit) :
    TokenStream.ofTokens text (tokenize text).tokens = .ok (tokenize text) ∧
      ∃ count, (tokenize text).tokens.toList =
          (List.range (count + 1)).map (Tokenizer.ofText text).nth ∧
        (Tokenizer.ofText text).Covers text count := by
  have reads := Tokenizer.reads_ofText text
  obtain ⟨tokens, run, few⟩ := (Tokenizer.ofText text).exists_run
  obtain ⟨count, counted⟩ : ∃ count, tokens.length = count + 1 :=
    ⟨tokens.length - 1, by have := run.length_pos; omega⟩
  have given : (tokenize text).tokens.toList = tokens := run.tokensWithin_eq rfl few
  have indexed := run.eq_map_nth
  rw [counted] at indexed
  have checked := run.checkFrom_eq_ok reads short count 0 (by omega)
  obtain ⟨eof, empty, nothing⟩ := run.nth_last reads counted.symm
  have boundaries := reads.boundaries short
  have texts := (TokenStream.flatten_texts checked (isBoundary_zero text) fun token member => by
    rw [indexed] at member
    obtain ⟨index, -, rfl⟩ := List.mem_map.mp member
    exact (boundaries index).1).2.2
  have faultless : TokenStream.fault? text (tokenize text).tokens.toList = none := by
    rw [TokenStream.fault?_eq_none_iff, given, counted]
    refine ⟨⟨(Tokenizer.ofText text).nth count, ?_, eof⟩, checked⟩
    rw [indexed, List.range_succ, List.map_append]
    exact List.getLast?_concat
  refine ⟨by rw [TokenStream.ofTokens, faultless]; rfl, count, given.trans indexed,
    ⟨fun index before => run.nth_before reads (by omega), eof, empty, ?_, ?_, ?_, ?_, boundaries,
      ?_⟩⟩
  · intro index beyond
    obtain ⟨more, rfl⟩ := Nat.exists_eq_add_of_le beyond
    rw [Tokenizer.nth, Tokenizer.advance_add]
    exact (reads.advance (count + 1)).nth_of_nothing nothing more
  · rw [Tokenizer.fullSpan_nth]
    rfl
  · intro index
    rw [Tokenizer.fullSpan_nth, Tokenizer.fullSpan_nth]
  · rw [Tokenizer.fullSpan_nth]
    exact (reads.advance (count + 1)).offset_of_nothing nothing
  · have whole := slice_byteLength [] text []
    rw [List.append_nil, byteLength, Nat.zero_add] at whole
    rw [← indexed, texts]
    exact whole

/-- A character that is no token, a lone carriage return and a comment that is never closed. -/
theorem tokenize_covers_unclosed :
    byteLength ['\x00', '\r', 'é', '/', '*'] < Trivia.lengthLimit ∧
    TokenStream.ofTokens ['\x00', '\r', 'é', '/', '*'] (tokenize ['\x00', '\r', 'é', '/', '*']).tokens =
      .ok (tokenize ['\x00', '\r', 'é', '/', '*']) :=
  ⟨by decide, (tokenize_covers ['\x00', '\r', 'é', '/', '*'] (by decide)).1⟩

end ScriptTree
