import ScriptTree.Proofs.TokensInPlace

/-! # Gaps between tokens

Between the texts of two tokens that follow each other there is trivia alone: what trails the one and what
leads the other. The pieces lie side by side, each spelled as its kind says. Trailing pieces hold no line
break, so the leading ones tell whether there is one in the gap. -/
set_option autoImplicit false
namespace ScriptTree

open Text

/-! ## Pieces and their texts -/

/-- How a piece of trivia that starts at an offset is spelled. -/
inductive TriviaKind.Spells (offset : Nat) : TriviaKind → List Char → Prop where
  | whitespace {piece : List Char} (nonempty : piece ≠ [])
      (blank : ∀ char ∈ piece, isWhitespace char = true ∧ isLineTerminator char = false) :
      Spells offset .whitespace piece
  | newline {char : Char} (breaks : isLineTerminator char = true) : Spells offset .newline [char]
  | newlinePair : Spells offset .newline ['\r', '\n']
  | lineComment {rest : List Char} (onLine : ∀ char ∈ rest, isLineTerminator char = false) :
      Spells offset .singleLineComment ('/' :: '/' :: rest)
  | shebang {rest : List Char} (first : offset = 0) (onLine : ∀ char ∈ rest, isLineTerminator char = false) :
      Spells offset .singleLineComment ('#' :: '!' :: rest)
  /-- The mark that ends the comment is the first one behind the mark that starts it. -/
  | blockComment {body : List Char} {hasNewline : Bool} (ends : ¬['*', '/'] <:+: body ++ ['*'])
      (breaks : hasNewline = true ↔ ∃ char ∈ body, isLineTerminator char = true) :
      Spells offset (.multiLineComment hasNewline) ('/' :: '*' :: (body ++ ['*', '/']))

/-- Pieces of trivia lie side by side from an offset on, and their texts together are a gap. -/
inductive TriviaPiece.Tile : Nat → List TriviaPiece → List Char → Prop where
  | nil {offset : Nat} : Tile offset [] []
  | cons {offset : Nat} {kind : TriviaKind} {piece gap : List Char} {pieces : List TriviaPiece}
      (spells : kind.Spells offset piece) (further : Tile (offset + byteLength piece) pieces gap) :
      Tile offset (⟨kind, byteLength piece⟩ :: pieces) (piece ++ gap)

theorem isLineTerminator_of_isWhitespace {char : Char} (blank : isWhitespace char = true) :
    isLineTerminator char = false := by
  simp only [isWhitespace, Bool.or_eq_true, beq_iff_eq, Bool.and_eq_true, Bool.not_eq_true'] at blank
  rcases blank with rfl | ⟨-, other⟩
  · decide
  · exact other

namespace TriviaKind.Spells

variable {offset : Nat} {kind : TriviaKind} {piece : List Char}

theorem isLineBreak_iff (spells : kind.Spells offset piece) :
    kind.isLineBreak = true ↔ ∃ char ∈ piece, isLineTerminator char = true := by
  have slash : isLineTerminator '/' = false ∧ isLineTerminator '*' = false ∧
      isLineTerminator '#' = false ∧ isLineTerminator '!' = false ∧ isLineTerminator '\r' = true := by decide
  cases spells with
  | whitespace _ blank =>
      simp only [isLineBreak, Bool.false_eq_true, false_iff, not_exists, not_and, Bool.not_eq_true]
      exact fun char member => (blank char member).2
  | newline breaks => simp [isLineBreak, breaks]
  | newlinePair => simp [isLineBreak, slash]
  | lineComment onLine | shebang _ onLine =>
      simp only [isLineBreak, Bool.false_eq_true, List.mem_cons, exists_eq_or_imp, slash, false_or, false_iff,
        not_exists, not_and, Bool.not_eq_true]
      exact onLine
  | @blockComment body hasNewline ends breaks =>
      have inside : (∃ char ∈ '/' :: '*' :: (body ++ ['*', '/']), isLineTerminator char = true) ↔
          ∃ char ∈ body, isLineTerminator char = true := by
        simp [slash, or_and_right, exists_or]
      rw [inside, ← breaks]
      cases hasNewline <;> simp [isLineBreak]

end TriviaKind.Spells

namespace TriviaPiece.Tile

variable {offset : Nat} {pieces others : List TriviaPiece} {gap more : List Char}

theorem append (tiles : TriviaPiece.Tile offset pieces gap)
    (further : TriviaPiece.Tile (offset + byteLength gap) others more) :
    TriviaPiece.Tile offset (pieces ++ others) (gap ++ more) := by
  induction tiles with
  | nil => exact further
  | cons spells _ ih =>
      rw [List.append_assoc]
      refine .cons spells (ih ?_)
      rwa [byteLength_append, ← Nat.add_assoc] at further

theorem any_isLineBreak_iff (tiles : TriviaPiece.Tile offset pieces gap) :
    (pieces.any fun piece => piece.kind.isLineBreak) = true ↔ ∃ char ∈ gap, isLineTerminator char = true := by
  induction tiles with
  | nil => simp
  | cons spells _ ih =>
      rw [List.any_cons, Bool.or_eq_true, ih, spells.isLineBreak_iff]
      simp only [List.mem_append, or_and_right, exists_or]

end TriviaPiece.Tile

/-! ## What is skipped -/

/-- A comment ends at the first mark that can end it. -/
theorem Scan.taken_of_blockComment {source : List Char} {split : Split}
    (closed : Scan.blockComment source = some split) :
    ∃ body, split.taken = body ++ ['*', '/'] ∧ ¬['*', '/'] <:+: body ++ ['*'] := by
  fun_induction Scan.blockComment source generalizing split with
  | case1 => cases closed
  | case2 rest =>
      cases closed
      exact ⟨[], rfl, by decide⟩
  | case3 char rest other ih =>
      obtain ⟨inner, inside, rfl⟩ := Option.map_eq_some_iff.mp closed
      obtain ⟨body, taken, ends⟩ := ih inside
      have kept := Scan.text_blockComment inside
      refine ⟨char :: body, by simp [Split.after, taken], fun occurs => ?_⟩
      rcases List.infix_cons_iff.mp occurs with here | later
      · -- The mark would stand in front of the text that is left.
        cases body with
        | nil => simp at here
        | cons next body =>
            obtain ⟨rfl, second⟩ := List.cons_prefix_cons.mp here
            obtain ⟨rfl, -⟩ := List.cons_prefix_cons.mp second
            rw [Split.text, taken] at kept
            exact other _ rfl kept.symm
      · exact ends later

theorem spells_of_triviaPiece? {trailing : Bool} {offset : Nat} {text : List Char} {kind : TriviaKind}
    {split : Split} (found : triviaPiece? trailing offset text = some (kind, split)) :
    kind.Spells offset split.taken ∧ (trailing = true → kind.isLineBreak = false) := by
  have onLine : ∀ rest : List Char, ∀ char ∈ (Scan.lineComment rest).taken, isLineTerminator char = false :=
    fun rest char member => by simpa using Split.forall_mem_run char member
  have bare : ∀ {first second : Char} (rest : List Char), isLineTerminator first = false →
      isLineTerminator second = false → (Scan.lineComment (first :: second :: rest)).taken =
        first :: second :: (Scan.lineComment rest).taken := by
    intro first second rest one other
    simp [Scan.lineComment, Split.run, one, other]
  revert found
  fun_cases triviaPiece? trailing offset text with
  | case1 rest first =>
      rintro ⟨⟩
      rw [bare rest (by decide) (by decide)]
      exact ⟨.shebang first (onLine rest), fun _ => rfl⟩
  | case3 rest =>
      rintro ⟨⟩
      rw [bare rest (by decide) (by decide)]
      exact ⟨.lineComment (onLine rest), fun _ => rfl⟩
  | case6 rest comment closed hasNewline stays =>
      rintro ⟨⟩
      obtain ⟨body, taken, ends⟩ := Scan.taken_of_blockComment closed
      have breaks : hasNewline = true ↔ ∃ char ∈ body, isLineTerminator char = true := by
        have marks : isLineTerminator '*' = false ∧ isLineTerminator '/' = false := by decide
        simp only [hasNewline, taken, List.any_append, List.any_cons, marks, List.any_nil, Bool.or_false,
          List.any_eq_true]
      refine ⟨?_, fun behind => ?_⟩
      · simp only [Split.after, taken, List.cons_append, List.nil_append]
        exact .blockComment ends breaks
      · subst behind
        rw [Bool.true_and, Bool.not_eq_true] at stays
        rw [stays]
        rfl
  | case8 rest leads =>
      rintro ⟨⟩
      exact ⟨.newlinePair, fun behind => absurd behind leads⟩
  | case10 char rest _ _ _ _ breaks leads =>
      rintro ⟨⟩
      exact ⟨.newline breaks, fun behind => absurd behind leads⟩
  | case11 char rest _ _ _ _ _ blank =>
      rintro ⟨⟩
      refine ⟨.whitespace (by simp [Split.run, blank]) fun other member => ?_, fun _ => rfl⟩
      have blanks := Split.forall_mem_run other member
      exact ⟨blanks, isLineTerminator_of_isWhitespace blanks⟩
  | _ =>
      intro found
      cases found

theorem tiles_triviaWithin (trailing : Bool) (budget : List Char) (offset : Nat) (text : List Char) :
    ∃ skipped, text = skipped ++ (triviaWithin trailing budget offset text).2.2 ∧
      (triviaWithin trailing budget offset text).2.1 = offset + byteLength skipped ∧
      TriviaPiece.Tile offset (triviaWithin trailing budget offset text).1 skipped ∧
      (trailing = true → ((triviaWithin trailing budget offset text).1.any fun piece =>
        piece.kind.isLineBreak) = false) := by
  fun_induction triviaWithin trailing budget offset text with
  | case1 offset text => exact ⟨[], rfl, rfl, .nil, fun _ => rfl⟩
  | case2 _ _ offset text => exact ⟨[], rfl, rfl, .nil, fun _ => rfl⟩
  | case3 _ budget offset text kind split found length pieces stop rest inside ih =>
      rw [inside] at ih
      obtain ⟨skipped, cut, stops, tiles, unbroken⟩ := ih
      obtain ⟨spells, onLine⟩ := spells_of_triviaPiece? found
      refine ⟨split.taken ++ skipped, ?_, ?_, .cons spells tiles, fun behind => ?_⟩
      · rw [List.append_assoc, ← cut]
        exact (text_triviaPiece? found).symm
      · rw [stops, byteLength_append, ← Nat.add_assoc]
      · rw [List.any_cons, onLine behind, unbroken behind]
        rfl

theorem tiles_takeTrivia (trailing : Bool) (offset : Nat) (text : List Char) :
    ∃ skipped, text = skipped ++ (takeTrivia trailing offset text).2.2 ∧
      (takeTrivia trailing offset text).2.1 = offset + byteLength skipped ∧
      TriviaPiece.Tile offset (takeTrivia trailing offset text).1.pieces skipped ∧
      (trailing = true → (takeTrivia trailing offset text).1.hasLineBreak = false) :=
  tiles_triviaWithin trailing text offset text

namespace Tokenizer

variable {text : List Char} {tokenizer : Tokenizer}

theorem exists_leading (tokenizer : Tokenizer) :
    ∃ before source, tokenizer.rest = before ++ source ∧
      tokenizer.nextToken.1.span.start = tokenizer.offset + byteLength before ∧
      TriviaPiece.Tile tokenizer.offset tokenizer.nextToken.1.leading.pieces before := by
  obtain ⟨before, cut, starts, tiles, -⟩ := tiles_takeTrivia false tokenizer.offset tokenizer.rest
  cases ahead : takeTrivia false tokenizer.offset tokenizer.rest with
  | mk leading behind =>
    obtain ⟨start, source⟩ := behind
    rw [ahead] at cut starts tiles
    have begins := nextToken_of_ahead ahead
    exact ⟨before, source, cut, begins.2.trans starts, begins.1 ▸ tiles⟩

theorem exists_trailing (reads : tokenizer.Reads text) :
    ∃ front behind, text = front ++ (behind ++ tokenizer.nextToken.2.rest) ∧
      byteLength front = tokenizer.nextToken.1.span.stop ∧
      tokenizer.nextToken.2.offset = tokenizer.nextToken.1.span.stop + byteLength behind ∧
      TriviaPiece.Tile tokenizer.nextToken.1.span.stop tokenizer.nextToken.1.trailing.pieces behind ∧
      tokenizer.nextToken.1.trailing.hasLineBreak = false := by
  obtain ⟨front, rfl, offset⟩ := reads
  obtain ⟨before, cut, starts, -⟩ := tiles_takeTrivia false tokenizer.offset tokenizer.rest
  cases ahead : takeTrivia false tokenizer.offset tokenizer.rest with
  | mk leading behind =>
    obtain ⟨start, source⟩ := behind
    rw [ahead] at cut starts
    dsimp only at cut starts
    have kept := text_scanToken tokenizer.memory source
    cases scanned : scanToken tokenizer.memory source with
    | mk kind others =>
      obtain ⟨split, memory⟩ := others
      rw [scanned] at kept
      have stops : byteLength (front ++ (before ++ split.taken)) = start + byteLength split.taken := by
        rw [byteLength_append, byteLength_append, offset, starts, Nat.add_assoc]
      have whole : front ++ tokenizer.rest = front ++ (before ++ split.taken) ++ split.rest := by
        rw [cut, ← kept, Split.text]
        simp
      by_cases eof : kind = .eof
      · refine ⟨front ++ (before ++ split.taken), [], ?_⟩
        simp only [nextToken, ahead, scanned, if_pos eof]
        exact ⟨whole, stops, rfl, .nil, rfl⟩
      · obtain ⟨behind, also, offsets, tiles, unbroken⟩ :=
          tiles_takeTrivia true (start + byteLength split.taken) split.rest
        refine ⟨front ++ (before ++ split.taken), behind, ?_⟩
        simp only [nextToken, ahead, scanned, if_neg eof]
        exact ⟨by rw [← also]; exact whole, stops, offsets, tiles, unbroken rfl⟩

end Tokenizer

/-! ## The gaps of a text -/

namespace TokenStream

/-- Where the text of the token in front of an index ends; in front of the first one, where all text
starts. -/
def textStopBefore (stream : TokenStream) : Nat → Nat
  | 0 => 0
  | index + 1 => (stream.tokens[index]?.map fun token => token.span.stop).getD 0

def trailingBefore (stream : TokenStream) : Nat → Trivia
  | 0 => .empty
  | index + 1 => (stream.tokens[index]?.map Token.trailing).getD .empty

def gapBefore (stream : TokenStream) (index : Nat) (token : Token) : List Char :=
  slice stream.text (stream.textStopBefore index) token.span.start

end TokenStream

theorem getElem?_before {text : List Char} {index : Nat} {token : Token}
    (here : (tokenize text).tokens[index + 1]? = some token) :
    (tokenize text).tokens[index]? = some ((Tokenizer.ofText text).nth index) := by
  obtain ⟨inside, -⟩ := Array.getElem?_eq_some_iff.mp here
  have found := Array.getElem?_eq_getElem (Nat.lt_of_succ_lt inside)
  rw [found, (eq_nth_of_tokenize found).1]

/-- What stands in front of a token is tiled by what trails the token before and what leads this one. -/
theorem tiles_gapBefore {text : List Char} {index : Nat} {token : Token}
    (here : (tokenize text).tokens[index]? = some token) :
    TriviaPiece.Tile ((tokenize text).textStopBefore index)
        (((tokenize text).trailingBefore index).pieces ++ token.leading.pieces)
        ((tokenize text).gapBefore index token) ∧
      ((tokenize text).trailingBefore index).hasLineBreak = false := by
  obtain ⟨rfl, -⟩ := eq_nth_of_tokenize here
  cases index with
  | zero =>
      obtain ⟨before, source, cut, starts, tiles⟩ := (Tokenizer.ofText text).exists_leading
      refine ⟨?_, rfl⟩
      have gap : (tokenize text).gapBefore 0 ((Tokenizer.ofText text).nth 0) = before := by
        have sliced := slice_byteLength [] before source
        rw [List.nil_append, ← cut] at sliced
        rw [TokenStream.gapBefore, Tokenizer.nth, Tokenizer.advance, starts]
        exact sliced
      rw [gap]
      exact tiles
  | succ index =>
      have reads := (Tokenizer.reads_ofText text).advance index
      obtain ⟨front, behind, whole, stops, offsets, trails, unbroken⟩ := Tokenizer.exists_trailing reads
      obtain ⟨before, source, cut, starts, leads⟩ :=
        ((Tokenizer.ofText text).advance (index + 1)).exists_leading
      have earlier := getElem?_before here
      have stop : (tokenize text).textStopBefore (index + 1) =
          ((Tokenizer.ofText text).nth index).span.stop := by
        rw [TokenStream.textStopBefore, earlier]
        rfl
      have trailing : (tokenize text).trailingBefore (index + 1) =
          ((Tokenizer.ofText text).nth index).trailing := by
        rw [TokenStream.trailingBefore, earlier]
        rfl
      rw [Tokenizer.advance_succ] at cut starts leads
      have gap : (tokenize text).gapBefore (index + 1) ((Tokenizer.ofText text).nth (index + 1)) =
          behind ++ before := by
        have sliced := slice_byteLength front (behind ++ before) source
        rw [List.append_assoc, ← cut, ← whole, byteLength_append, ← Nat.add_assoc, stops, ← offsets,
          ← starts] at sliced
        rw [TokenStream.gapBefore, stop, Tokenizer.nth, Tokenizer.nth, Tokenizer.advance_succ]
        exact sliced
      rw [stop, trailing, gap, Tokenizer.nth, Tokenizer.nth, Tokenizer.advance_succ]
      exact ⟨trails.append (offsets ▸ leads), unbroken⟩

theorem stop_of_last {text : List Char} {index : Nat}
    (last : (tokenize text).tokens.size = index + 1) :
    ((Tokenizer.ofText text).nth index).span.stop = byteLength text ∧
      ((Tokenizer.ofText text).nth index).fullSpan.stop = byteLength text := by
  obtain ⟨count, given, -, -, empty⟩ := exists_count_of_tokenize text
  obtain rfl : count = index := by
    rw [← Array.length_toList, given, List.length_map, List.length_range] at last
    exact Nat.succ.inj last
  have reads := (Tokenizer.reads_ofText text).advance count
  obtain ⟨front, behind, whole, stops, offsets, -⟩ := Tokenizer.exists_trailing reads
  have stop : ((Tokenizer.ofText text).nth count).span.stop = byteLength text := by rw [empty]; rfl
  rw [Tokenizer.nth] at stop
  have total := congrArg byteLength whole
  rw [byteLength_append, byteLength_append, stops, stop] at total
  refine ⟨stop, ?_⟩
  rw [Tokenizer.fullSpan_nth, Tokenizer.advance_succ, offsets, stop]
  dsimp only
  omega

/-- A token of a text has a line break before it exactly if there is a line terminator between the text of
the token before, or the start of all text, and its own. What trails it holds none. The trivia between two
tokens tiles the gap between their texts, and behind the last token there is no gap. -/
theorem tokenize_attributes_line_breaks {text : List Char} {index : Nat} {token : Token}
    (here : (tokenize text).tokens[index]? = some token) :
    (token.hasLineBreakBefore = true ↔
      ∃ char ∈ (tokenize text).gapBefore index token, isLineTerminator char = true) ∧
    (∀ char ∈ slice text token.span.stop token.fullSpan.stop, isLineTerminator char = false) ∧
    TriviaPiece.Tile token.span.stop token.trailing.pieces
      (slice text token.span.stop token.fullSpan.stop) ∧
    TriviaPiece.Tile ((tokenize text).textStopBefore index)
      (((tokenize text).trailingBefore index).pieces ++ token.leading.pieces)
      ((tokenize text).gapBefore index token) ∧
    ((tokenize text).tokens.size = index + 1 →
      token.span.stop = byteLength text ∧ token.fullSpan.stop = byteLength text) := by
  obtain ⟨tiles, unbroken⟩ := tiles_gapBefore here
  have breaks : token.hasLineBreakBefore = true ↔
      ∃ char ∈ (tokenize text).gapBefore index token, isLineTerminator char = true := by
    have either := tiles.any_isLineBreak_iff
    rw [Trivia.hasLineBreak] at unbroken
    rwa [List.any_append, unbroken, Bool.false_or] at either
  obtain ⟨rfl, -⟩ := eq_nth_of_tokenize here
  obtain ⟨front, behind, whole, stops, offsets, trails, onLine⟩ :=
    Tokenizer.exists_trailing ((Tokenizer.reads_ofText text).advance index)
  have trailing : slice text ((Tokenizer.ofText text).nth index).span.stop
      ((Tokenizer.ofText text).nth index).fullSpan.stop = behind := by
    rw [Tokenizer.fullSpan_nth, Tokenizer.advance_succ, offsets, Tokenizer.nth, ← stops, whole]
    exact slice_byteLength front behind _
  rw [trailing]
  refine ⟨breaks, fun char member => ?_, trails, tiles, stop_of_last⟩
  by_contra terminates
  have found := trails.any_isLineBreak_iff.mpr ⟨char, member, by simpa using terminates⟩
  exact absurd found (by simpa [Trivia.hasLineBreak] using onLine)

/-- A comment over two lines does not trail the name in front of it, but leads the one behind it. -/
theorem tokenize_attributes_line_breaks_of_comment :
    let text := ['#', '!', '\r', '\n', 'a', ' ', '/', '*', '\n', '*', '/', 'b']
    let token : Token := ⟨⟨[⟨.multiLineComment true, 5⟩]⟩, .ident, ⟨11, 12⟩, .empty⟩
    (tokenize text).tokens[1]? = some token ∧
    (∃ char ∈ (tokenize text).gapBefore 1 token, isLineTerminator char = true) ∧
    TriviaPiece.Tile 5 [⟨.whitespace, 1⟩, ⟨.multiLineComment true, 5⟩] ((tokenize text).gapBefore 1 token) := by
  intro text token
  have here : (tokenize text).tokens[1]? = some token := by decide +kernel
  obtain ⟨breaks, -, -, tiles, -⟩ := tokenize_attributes_line_breaks here
  exact ⟨here, breaks.mp rfl, tiles⟩

end ScriptTree
