import ScriptTree.Proofs.Locality

/-! # Trivia between tokens

Tokens do not depend on the trivia between them. A text that is written anew from its tokens, with a
space or a line feed in front of each, has the same tokens with the same texts and the same line breaks:
one tokenizer on the old text and one on the new text remember the same at every token. -/
set_option autoImplicit false
namespace ScriptTree

open Text

/-! ## The text written anew -/

/-- What is written in front of a token: a line feed where it has a line break before it, else a space,
but none in front of the first token and of the end. -/
def Token.separator (isFirst : Bool) (token : Token) : List Char :=
  if token.hasLineBreakBefore then ['\n'] else if isFirst || token.kind == .eof then [] else [' ']

/-- Tokens of a text with nothing but separators between them. The end has no text of its own. -/
def respace (text : List Char) : Bool → List Token → List Char
  | _, [] => []
  | isFirst, token :: tokens =>
      token.separator isFirst ++ (token.span.sliceOf text ++ respace text false tokens)

def Token.outline (text : List Char) (token : Token) : Kind × List Char × Bool :=
  (token.kind, token.span.sliceOf text, token.hasLineBreakBefore)

namespace TokenStream

def respaced (stream : TokenStream) : List Char := respace stream.text true stream.tokens.toList

def outlines (stream : TokenStream) : List (Kind × List Char × Bool) :=
  stream.tokens.toList.map (Token.outline stream.text)

end TokenStream

/-! ## Texts that start with no trivia -/

/-- A text that starts with no white space and no comment. A comment that is never closed is none, and
of `#!` nothing is said. -/
structure Bare (text : List Char) : Prop where
  plain : ∀ char ∈ text.head?, isLineTerminator char = false ∧ isWhitespace char = false
  noLine : ¬['/', '/'] <+: text
  noBlock : ∀ rest, text = '/' :: '*' :: rest → Scan.blockComment rest = none

theorem bare_nil : Bare [] := ⟨by simp, by simp, by simp⟩

theorem Bare.of_triviaPiece? {offset : Nat} {text : List Char}
    (bare : triviaPiece? false offset text = none) : Bare text := by
  revert bare
  fun_cases triviaPiece? false offset text with
  | case1 | case3 | case6 | case8 | case10 | case11 =>
      intro found
      cases found
  | case2 rest later =>
      intro _
      refine ⟨?_, by simp, by simp⟩
      rintro _ ⟨⟩
      decide +kernel
  | case4 rest unclosed =>
      intro _
      refine ⟨?_, by simp, ?_⟩
      · rintro _ ⟨⟩
        decide +kernel
      · rintro _ ⟨⟩
        exact unclosed
  | case5 _ _ _ _ trailing => cases trailing
  | case7 _ trailing | case9 _ _ _ _ _ _ _ trailing => cases trailing
  | case12 char rest noBang noLine noBlock noPair noTerminator noSpace =>
      intro _
      refine ⟨?_, ?_, ?_⟩
      · rintro _ ⟨⟩
        exact ⟨by simpa using noTerminator, by simpa using noSpace⟩
      · rintro ⟨behind, same⟩
        obtain ⟨rfl, rfl⟩ := List.cons.inj same
        exact noLine behind rfl rfl
      · rintro behind same
        obtain ⟨rfl, rfl⟩ := List.cons.inj same
        exact absurd rfl (noBlock behind rfl)
  | case13 => exact fun _ => bare_nil

theorem Bare.triviaPiece?_eq_none {text : List Char} (bare : Bare text)
    (noBang : ¬['#', '!'] <+: text) (trailing : Bool) (offset : Nat) :
    triviaPiece? trailing offset text = none := by
  fun_cases triviaPiece? trailing offset text with
  | case1 | case2 => exact absurd (by simp) noBang
  | case3 => exact absurd (by simp) bare.noLine
  | case4 | case5 | case7 | case9 | case12 | case13 => rfl
  | case6 rest comment closed =>
      rw [bare.noBlock rest rfl] at closed
      cases closed
  | case8 rest => exact absurd (bare.plain _ rfl).1 (by decide)
  | case10 _ _ _ _ _ _ isTerminator =>
      rw [(bare.plain _ rfl).1] at isTerminator
      cases isTerminator
  | case11 _ _ _ _ _ _ _ isSpace =>
      rw [(bare.plain _ rfl).2] at isSpace
      cases isSpace

/-! ## Where trivia ends -/

theorem triviaPiece?_taken_ne_nil {trailing : Bool} {offset : Nat} {text : List Char}
    {kind : TriviaKind} {split : Split}
    (found : triviaPiece? trailing offset text = some (kind, split)) : split.taken ≠ [] := by
  revert found
  fun_cases triviaPiece? trailing offset text with
  | case1 | case3 =>
      rintro ⟨⟩
      simp [Scan.lineComment, Split.run, isLineTerminator]
  | case6 | case8 | case10 =>
      rintro ⟨⟩
      simp [Split.after]
  | case11 _ _ _ _ _ _ _ isSpace =>
      rintro ⟨⟩
      simp [Split.run, isSpace]
  | _ =>
      intro found
      cases found

theorem triviaWithin_stops (trailing : Bool) (budget : List Char) (offset : Nat) (text : List Char)
    (enough : text.length ≤ budget.length) :
    triviaPiece? trailing (triviaWithin trailing budget offset text).2.1
      (triviaWithin trailing budget offset text).2.2 = none := by
  fun_induction triviaWithin trailing budget offset text with
  | case1 offset text =>
      obtain rfl := List.length_eq_zero_iff.mp (Nat.le_zero.mp enough)
      rfl
  | case2 _ _ offset text bare => exact bare
  | case3 _ budget offset text kind split found length pieces stop rest inside ih =>
      rw [inside] at ih
      refine ih ?_
      have some := List.length_pos_iff.mpr (triviaPiece?_taken_ne_nil found)
      rw [← text_triviaPiece? found, Split.text, List.length_append, List.length_cons] at enough
      omega

theorem takeTrivia_stops (offset : Nat) (text : List Char) :
    Bare (takeTrivia false offset text).2.2 :=
  .of_triviaPiece? (triviaWithin_stops false text offset text (Nat.le_refl _))

theorem triviaWithin_of_none {trailing : Bool} {offset : Nat} {text : List Char}
    (bare : triviaPiece? trailing offset text = none) (budget : List Char) :
    triviaWithin trailing budget offset text = ([], offset, text) := by
  cases budget with
  | nil => rfl
  | cons _ budget => rw [triviaWithin, bare]

theorem takeTrivia_of_none {trailing : Bool} {offset : Nat} {text : List Char}
    (bare : triviaPiece? trailing offset text = none) :
    takeTrivia trailing offset text = (.empty, offset, text) := by
  rw [takeTrivia, triviaWithin_of_none bare]
  rfl

theorem takeTrivia_of_one {trailing : Bool} {offset : Nat} {char : Char} {text : List Char}
    {kind : TriviaKind}
    (found : triviaPiece? trailing offset (char :: text) = some (kind, ⟨[char], text⟩))
    (bare : triviaPiece? trailing (offset + byteLength [char]) text = none) :
    takeTrivia trailing offset (char :: text) =
      (⟨[⟨kind, byteLength [char]⟩]⟩, offset + byteLength [char], text) := by
  rw [takeTrivia, triviaWithin, found]
  dsimp only
  rw [triviaWithin_of_none bare]

/-! ## The text of a token starts with no trivia -/

/-- A spelling does not reach over a break. -/
theorem prefix_of_breaksOff {spelling taken more : List Char}
    (noSeparator : ' ' ∉ spelling ∧ '\n' ∉ spelling) (breaks : BreaksOff more)
    (starts : spelling <+: taken ++ more) : spelling <+: taken := by
  by_cases short : spelling.length ≤ taken.length
  · exact List.prefix_of_prefix_length_le starts (List.prefix_append taken more) short
  · obtain ⟨others, rfl⟩ := List.prefix_of_prefix_length_le (List.prefix_append taken more) starts
      (Nat.le_of_not_le short)
    cases others with
    | nil => simp at short
    | cons next others =>
        obtain ⟨behind, same⟩ := (List.prefix_append_right_inj taken).mp starts
        have separator := breaks next (by rw [← same]; rfl)
        rcases separator with rfl | rfl
        · exact absurd (by simp) noSeparator.1
        · exact absurd (by simp) noSeparator.2

theorem startsWith_taken (memory : Memory) (source : List Char) :
    (scanToken memory source).2.1.taken <+: source :=
  ⟨_, text_scanToken memory source⟩

theorem taken_of_bang (memory : Memory) (rest : List Char) :
    (scanToken memory ('#' :: '!' :: rest)).2.1.taken = ['#'] := by
  have noStart : isIdentifierStart '!' = false := by decide +kernel
  rw [scanToken_of_mem_markStarts memory (by decide) rfl]
  simp [scanMark, Memory.keep, scanPrivateName, Scan.identifierStart, noStart, Split.after]

theorem rest_of_block (memory : Memory) (rest : List Char) :
    (scanToken memory ('/' :: '*' :: rest)).2.1.rest = [] := by
  rw [scanToken_of_mem_markStarts memory (by decide) rfl]
  rfl

/-- What may stand behind the text of a token in place of its rest: a break, and nothing where nothing
was. -/
structure MayFollow (split : Split) (more : List Char) : Prop where
  breaks : BreaksOff more
  ends : split.rest = [] → more = []

section

variable {memory : Memory} {source more : List Char}

theorem scanToken_again (follows : MayFollow (scanToken memory source).2.1 more) :
    scanToken memory ((scanToken memory source).2.1.taken ++ more) =
      ((scanToken memory source).1, ⟨(scanToken memory source).2.1.taken, more⟩,
        (scanToken memory source).2.2) := by
  by_cases ends : (scanToken memory source).2.1.rest = []
  · have whole := text_scanToken memory source
    rw [Split.text, ends] at whole
    rw [follows.ends ends, whole]
    cases scanned : scanToken memory source with
    | mk kind others =>
        obtain ⟨⟨taken, rest⟩, after⟩ := others
        rw [scanned] at ends
        cases ends
        rfl
  · exact scanToken_taken_append ends follows.breaks

theorem Bare.taken_append (bare : Bare source)
    (follows : MayFollow (scanToken memory source).2.1 more) :
    Bare ((scanToken memory source).2.1.taken ++ more) := by
  have starts : ∀ spelling : List Char, ' ' ∉ spelling ∧ '\n' ∉ spelling →
      spelling <+: (scanToken memory source).2.1.taken ++ more → spelling <+: source :=
    fun spelling noSeparator longer =>
      (prefix_of_breaksOff noSeparator follows.breaks longer).trans (startsWith_taken memory source)
  refine ⟨?_, ?_, ?_⟩
  · intro char first
    by_cases some : source = []
    · subst some
      rw [follows.ends rfl] at first
      cases first
    · have begins := Scan.head?_append_of_ne_nil (takesToken_scanToken memory some).2.2 more
      rw [text_scanToken] at begins
      exact bare.plain char (begins ▸ first)
  · exact fun longer => bare.noLine (starts _ (by decide) longer)
  · intro rest same
    obtain ⟨behind, rfl⟩ := starts ['/', '*'] (by decide) ⟨rest, same.symm⟩
    have whole := text_scanToken memory ('/' :: '*' :: behind)
    rw [Split.text, rest_of_block] at whole
    rw [List.cons_append, List.cons_append, List.nil_append, follows.ends (rest_of_block _ _), whole]
      at same
    exact bare.noBlock rest same

theorem noBang_taken_append (breaks : BreaksOff more) :
    ¬['#', '!'] <+: (scanToken memory source).2.1.taken ++ more := by
  intro longer
  have starts := prefix_of_breaksOff (by decide) breaks longer
  obtain ⟨behind, rfl⟩ := starts.trans (startsWith_taken memory source)
  rw [List.cons_append, List.cons_append, List.nil_append, taken_of_bang] at starts
  simp at starts

end

/-- A text in front of which trivia ends, leading or trailing, wherever it stands. -/
structure StartsToken (text : List Char) : Prop extends Bare text where
  noBang : ¬['#', '!'] <+: text

namespace StartsToken

variable {text : List Char}

theorem triviaPiece? (starts : StartsToken text) (trailing : Bool) (offset : Nat) :
    triviaPiece? trailing offset text = none :=
  starts.toBare.triviaPiece?_eq_none starts.noBang trailing offset

theorem run_isWhitespace (starts : StartsToken text) :
    Split.run isWhitespace (' ' :: text) = ⟨[' '], text⟩ := by
  have space : isWhitespace ' ' = true := by decide +kernel
  cases text with
  | nil => simp [Split.run, space]
  | cons char rest => simp [Split.run, space, (starts.plain char rfl).2]

theorem takeTrivia_leading (starts : StartsToken text) (token : Token) (offset : Nat) :
    ∃ leading start, takeTrivia false offset (token.separator true ++ text) = (leading, start, text) ∧
      leading.hasLineBreak = token.hasLineBreakBefore := by
  cases broken : token.hasLineBreakBefore with
  | false =>
      rw [Token.separator, broken]
      exact ⟨_, _, takeTrivia_of_none (starts.triviaPiece? false offset), rfl⟩
  | true =>
      rw [Token.separator, broken]
      have found : ScriptTree.triviaPiece? false offset ('\n' :: text) =
          some (.newline, ⟨['\n'], text⟩) := by
        simp [ScriptTree.triviaPiece?, isLineTerminator]
      exact ⟨_, _, takeTrivia_of_one found (starts.triviaPiece? false _), rfl⟩

/-- Of a separator a space is trailing trivia of the token before it, and a line feed is left over. -/
theorem takeTrivia_trailing (starts : StartsToken text) (token : Token) (offset : Nat) :
    (takeTrivia true offset (token.separator false ++ text)).2.2 = token.separator true ++ text := by
  cases broken : token.hasLineBreakBefore with
  | true =>
      have found : ScriptTree.triviaPiece? true offset ('\n' :: text) = none := by
        simp [ScriptTree.triviaPiece?, isLineTerminator]
      simp only [Token.separator, broken, if_true, List.singleton_append]
      rw [takeTrivia_of_none found]
  | false =>
      cases isEof : token.kind == .eof with
      | true =>
          simp only [Token.separator, broken, isEof]
          exact congrArg (·.2.2) (takeTrivia_of_none (starts.triviaPiece? true offset))
      | false =>
          have found : ScriptTree.triviaPiece? true offset (' ' :: text) =
              some (.whitespace, ⟨[' '], text⟩) := by
            have space : isWhitespace ' ' = true := by decide +kernel
            simp [ScriptTree.triviaPiece?, isLineTerminator, space, starts.run_isWhitespace]
          simp only [Token.separator, broken, isEof]
          exact congrArg (·.2.2) (takeTrivia_of_one found (starts.triviaPiece? true _))

end StartsToken

/-! ## Two tokenizers side by side -/

namespace Tokenizer

/-- What asking for a token does, if leading trivia ends in front of a source text. -/
structure Scans (tokenizer : Tokenizer) (source : List Char) : Prop where
  kind : tokenizer.nextToken.1.kind = (scanToken tokenizer.memory source).1
  text : ∀ text, tokenizer.Reads text →
    tokenizer.nextToken.1.span.sliceOf text = (scanToken tokenizer.memory source).2.1.taken
  memory : tokenizer.nextToken.2.memory =
    { (scanToken tokenizer.memory source).2.2 with
      previous := some (scanToken tokenizer.memory source).1 }
  rest : ∃ offset, tokenizer.nextToken.2.rest =
    (takeTrivia true offset (scanToken tokenizer.memory source).2.1.rest).2.2

theorem scans {tokenizer : Tokenizer} {leading : Trivia} {start : Nat} {source : List Char}
    (ahead : takeTrivia false tokenizer.offset tokenizer.rest = (leading, start, source)) :
    tokenizer.Scans source ∧ tokenizer.nextToken.1.leading = leading := by
  obtain ⟨skipped, cut, starts, -⟩ := exists_takeTrivia false tokenizer.offset tokenizer.rest
  rw [ahead] at cut starts
  have kept := text_scanToken tokenizer.memory source
  have sliced : ∀ text, tokenizer.Reads text →
      slice text start (start + byteLength (scanToken tokenizer.memory source).2.1.taken) =
        (scanToken tokenizer.memory source).2.1.taken := by
    rintro text ⟨front, rfl, offset⟩
    have middle := slice_byteLength (front ++ skipped) (scanToken tokenizer.memory source).2.1.taken
      (scanToken tokenizer.memory source).2.1.rest
    rw [← Split.text, kept, byteLength_append, offset, ← starts, List.append_assoc] at middle
    rwa [cut]
  have next : tokenizer.nextToken.1.leading = leading ∧
      tokenizer.nextToken.1.kind = (scanToken tokenizer.memory source).1 ∧
      tokenizer.nextToken.1.span =
        ⟨start, start + byteLength (scanToken tokenizer.memory source).2.1.taken⟩ ∧
      tokenizer.nextToken.2.memory = { (scanToken tokenizer.memory source).2.2 with
        previous := some (scanToken tokenizer.memory source).1 } := by
    by_cases eof : (scanToken tokenizer.memory source).1 = .eof <;> simp [nextToken, ahead, eof]
  refine ⟨⟨next.2.1, fun text reads => ?_, next.2.2.2,
    start + byteLength (scanToken tokenizer.memory source).2.1.taken, ?_⟩, next.1⟩
  · rw [next.2.2.1]
    exact sliced text reads
  · by_cases eof : (scanToken tokenizer.memory source).1 = .eof
    · have none : source = [] :=
        Classical.byContradiction fun some => (takesToken_scanToken tokenizer.memory some).2.1 eof
      subst none
      simp only [nextToken, ahead, if_pos eof]
      rfl
    · simp [nextToken, ahead, eof]

/-- A token in its own text, between a separator and what may stand behind it, is found again, and the
tokenizer remembers the same. -/
theorem nextToken_again {text again more : List Char} {tokenizer other : Tokenizer}
    {source : List Char} (scans : tokenizer.Scans source) (bare : Bare source)
    (follows : MayFollow (scanToken tokenizer.memory source).2.1 more)
    (reads : tokenizer.Reads text) (readsAgain : other.Reads again)
    (memory : other.memory = tokenizer.memory)
    (rest : other.rest = tokenizer.nextToken.1.separator true ++
      (tokenizer.nextToken.1.span.sliceOf text ++ more)) :
    other.nextToken.1.outline again = tokenizer.nextToken.1.outline text ∧
      other.nextToken.2.memory = tokenizer.nextToken.2.memory ∧
      ∃ offset, other.nextToken.2.rest = (takeTrivia true offset more).2.2 := by
  rw [scans.text text reads] at rest
  have starts : StartsToken ((scanToken tokenizer.memory source).2.1.taken ++ more) :=
    ⟨bare.taken_append follows, noBang_taken_append follows.breaks⟩
  obtain ⟨leading, start, ahead, broken⟩ :=
    starts.takeTrivia_leading tokenizer.nextToken.1 other.offset
  rw [← rest] at ahead
  obtain ⟨found, leads⟩ := other.scans ahead
  have same := scanToken_again follows
  obtain ⟨offset, left⟩ := found.rest
  refine ⟨?_, ?_, offset, ?_⟩
  · rw [Token.outline, Token.outline, found.kind, found.text again readsAgain, memory, same,
      scans.kind, scans.text text reads, Token.hasLineBreakBefore, leads, broken]
  · rw [found.memory, scans.memory, memory, same]
  · rw [left, memory, same]

theorem exists_scans (tokenizer : Tokenizer) : ∃ source, tokenizer.Scans source ∧ Bare source :=
  ⟨_, (tokenizer.scans rfl).1, takeTrivia_stops tokenizer.offset tokenizer.rest⟩

namespace Run

variable {text : List Char} {tokenizer : Tokenizer} {tokens : List Token}

theorem sliceOf_span_of_eof (reads : tokenizer.Reads text)
    (eof : tokenizer.nextToken.1.kind = .eof) : tokenizer.nextToken.1.span.sliceOf text = [] := by
  obtain ⟨before, taken, behind, cuts⟩ := tokenizer.exists_cuts
  rw [cuts.sliceOf_span reads, cuts.empty.mp eof]

theorem breaksOff_respace (run : tokenizer.Run tokens) (reads : tokenizer.Reads text) :
    BreaksOff (respace text false tokens) := by
  cases run with
  | last eof =>
      rw [respace, respace, sliceOf_span_of_eof reads eof, Token.separator, eof]
      split <;> simp [BreaksOff]
  | more other further =>
      rw [respace, Token.separator]
      split <;> simp [BreaksOff, other]

theorem respace_of_nothing (run : tokenizer.Run tokens) (reads : tokenizer.Reads text)
    (nothing : tokenizer.rest = []) : respace text false tokens = [] := by
  have token := (tokenizer.nextToken_of_nothing nothing).1
  have eof : tokenizer.nextToken.1.kind = .eof := by rw [token]
  cases run with
  | last =>
      rw [respace, respace, sliceOf_span_of_eof reads eof, token]
      rfl
  | more other further => exact absurd eof other

theorem mayFollow {source : List Char} (scans : tokenizer.Scans source)
    (further : tokenizer.nextToken.2.Run tokens) (reads : tokenizer.Reads text) :
    MayFollow (scanToken tokenizer.memory source).2.1 (respace text false tokens) := by
  obtain ⟨before, taken, behind, cuts⟩ := tokenizer.exists_cuts
  refine ⟨further.breaksOff_respace (cuts.reads_next reads), fun ends => ?_⟩
  refine further.respace_of_nothing (cuts.reads_next reads) ?_
  obtain ⟨offset, rest⟩ := scans.rest
  rw [rest, ends]
  rfl

theorem startsToken_respace {token : Token} (run : tokenizer.Run (token :: tokens))
    (reads : tokenizer.Reads text) :
    StartsToken (token.span.sliceOf text ++ respace text false tokens) := by
  obtain ⟨source, scans, bare⟩ := tokenizer.exists_scans
  cases run with
  | last eof =>
      rw [sliceOf_span_of_eof reads eof]
      exact ⟨bare_nil, by simp [respace]⟩
  | more other further =>
      have follows := mayFollow scans further reads
      rw [scans.text text reads]
      exact ⟨bare.taken_append follows, noBang_taken_append follows.breaks⟩

/-- A tokenizer that has the text written anew in front of it, and remembers the same, comes to the same
tokens. -/
theorem exists_again {again : List Char} {other : Tokenizer} (run : tokenizer.Run tokens)
    (reads : tokenizer.Reads text) (readsAgain : other.Reads again)
    (memory : other.memory = tokenizer.memory) (rest : other.rest = respace text true tokens) :
    ∃ others, other.Run others ∧
      others.map (Token.outline again) = tokens.map (Token.outline text) := by
  induction run generalizing other with
  | @last tokenizer eof =>
      obtain ⟨source, scans, bare⟩ := tokenizer.exists_scans
      have follows : MayFollow (scanToken tokenizer.memory source).2.1 [] :=
        ⟨breaksOff_nil, fun _ => rfl⟩
      obtain ⟨same, -⟩ := nextToken_again scans bare follows reads readsAgain memory rest
      have kind : other.nextToken.1.kind = .eof := (congrArg Prod.fst same).trans eof
      exact ⟨_, .last kind, by rw [List.map_singleton, List.map_singleton, same]⟩
  | @more tokenizer tokens notEof further ih =>
      obtain ⟨source, scans, bare⟩ := tokenizer.exists_scans
      obtain ⟨before, taken, behind, cuts⟩ := tokenizer.exists_cuts
      obtain ⟨front, token, back, cutsAgain⟩ := other.exists_cuts
      obtain ⟨same, remembers, offset, left⟩ := nextToken_again scans bare
        (mayFollow scans further reads) reads readsAgain memory rest
      have kind : other.nextToken.1.kind ≠ .eof := fun eof =>
        notEof ((congrArg Prod.fst same).symm.trans eof)
      have ahead : other.nextToken.2.rest = respace text true tokens := by
        have readsNext := cuts.reads_next reads
        cases tokens with
        | nil => exact absurd further.length_pos (by simp)
        | cons next tokens =>
            rw [left]
            exact (further.startsToken_respace readsNext).takeTrivia_trailing next offset
      obtain ⟨others, onwards, outlines⟩ := ih (cuts.reads_next reads)
        (cutsAgain.reads_next readsAgain) remembers ahead
      exact ⟨_, .more kind onwards, by rw [List.map_cons, List.map_cons, same, outlines]⟩

theorem length_le (run : tokenizer.Run tokens) : tokens.length ≤ tokenizer.rest.length + 1 := by
  induction run with
  | last => simp
  | @more tokenizer tokens other further ih =>
      obtain ⟨before, taken, behind, cuts⟩ := tokenizer.exists_cuts
      have shorter := cuts.length_next_lt other
      rw [List.length_cons]
      omega

theorem toList_tokenize (run : (ofText text).Run tokens) : (tokenize text).tokens.toList = tokens :=
  run.tokensWithin_eq rfl run.length_le

end Run
end Tokenizer

/-- Every text has the tokens of the text that is written anew from them, up to trivia and to where
they stand. -/
theorem outlines_tokenize_respaced (text : List Char) :
    (tokenize (tokenize text).respaced).outlines = (tokenize text).outlines := by
  obtain ⟨tokens, run, -⟩ := (Tokenizer.ofText text).exists_run
  obtain ⟨others, onwards, outlines⟩ := run.exists_again (Tokenizer.reads_ofText text)
    (Tokenizer.reads_ofText (respace text true tokens)) rfl rfl
  have given := run.toList_tokenize
  have respaced : (tokenize text).respaced = respace text true tokens :=
    congrArg (respace text true) given
  rw [respaced, TokenStream.outlines, TokenStream.outlines, onwards.toList_tokenize, given]
  exact outlines

/-- The comment goes, and the question mark in front of the number stays one. -/
example : (tokenize ['x', '/', '*', '*', '/', '?', '.', '5', '\n', '/', 'y']).respaced =
    ['x', ' ', '?', ' ', '.', '5', '\n', '/', ' ', 'y'] := by decide +kernel

end ScriptTree
