import ScriptTree.Proofs.Tokenizing

/-! # What a token depends on

A scanner looks at characters behind what it takes: it stops at the first one that does not fit, and
some look further. Still a token is what it is if there is nothing behind it, or a space or a line feed:
whatever a scanner took it takes again from there. -/
set_option autoImplicit false
namespace ScriptTree

open Text

/-! ## What stands behind a token -/

/-- Nothing follows, or something that no token goes on with. -/
def BreaksOff (rest : List Char) : Prop := ∀ char ∈ rest.head?, char = ' ' ∨ char = '\n'

/-- What follows begins like `rest`, or breaks off. -/
def Follows (rest more : List Char) : Prop :=
  ∀ char ∈ more.head?, rest.head? = some char ∨ char = ' ' ∨ char = '\n'

theorem breaksOff_nil : BreaksOff [] := by simp [BreaksOff]

theorem BreaksOff.follows {more : List Char} (breaks : BreaksOff more) (rest : List Char) :
    Follows rest more :=
  fun char next => .inr (breaks char next)

theorem Follows.append {rest more : List Char} (follows : Follows rest more) (taken : List Char) :
    Follows (taken ++ rest) (taken ++ more) := by
  cases taken with
  | nil => exact follows
  | cons first others =>
      intro char next
      exact .inl next

/-- A class that neither character of a separator belongs to. -/
def Spares (accepts : Char → Bool) : Prop := accepts ' ' = false ∧ accepts '\n' = false

theorem Spares.not_accepts {accepts : Char → Bool} (spares : Spares accepts) {char : Char}
    (separator : char = ' ' ∨ char = '\n') : accepts char = false := by
  rcases separator with rfl | rfl
  · exact spares.1
  · exact spares.2

theorem spares_isDecimalDigit : Spares isDecimalDigit := by constructor <;> decide

theorem spares_isHexDigit : Spares isHexDigit := by constructor <;> decide

theorem spares_isIdentifierStart : Spares isIdentifierStart := by constructor <;> decide +kernel

theorem spares_isIdentifierPart : Spares isIdentifierPart := by constructor <;> decide +kernel

theorem spares_isDigitOrSeparator : Spares Scan.isDigitOrSeparator := by constructor <;> decide

/-! ## Scanners that stop -/

namespace Split

/-- What a scanner takes depends on the next character behind it alone. -/
def Sees (scan : List Char → Split) : Prop :=
  ∀ text more, Follows (scan text).rest more →
    scan ((scan text).taken ++ more) = ⟨(scan text).taken, more⟩

/-- A scanner takes the same where the text breaks off behind it. -/
def Ends (scan : List Char → Split) : Prop :=
  ∀ text more, BreaksOff more → scan ((scan text).taken ++ more) = ⟨(scan text).taken, more⟩

theorem head?_taken_append {split : Split} {more : List Char} {char : Char}
    (next : (split.taken ++ more).head? = some char) :
    split.text.head? = some char ∨ more.head? = some char := by
  rw [List.head?_append, Option.or_eq_some_iff] at next
  rcases next with taken | ⟨_, behind⟩
  · exact .inl (by rw [text, List.head?_append, taken, Option.some_or])
  · exact .inr behind

variable {first second : List Char → Split}

theorem Sees.ends (sees : Sees first) : Ends first :=
  fun text more breaks => sees text more (breaks.follows _)

theorem Sees.andThen_ends (sees : Sees first) (ends : Ends second)
    (keeps : ∀ source, (second source).text = source) :
    Ends fun text => (first text).andThen second := by
  intro text more breaks
  have follows : Follows (first text).rest ((second (first text).rest).taken ++ more) := by
    have whole := (breaks.follows (second (first text).rest).rest).append
      (second (first text).rest).taken
    rwa [← Split.text, keeps] at whole
  simp only [Split.andThen, Split.after]
  rw [List.append_assoc, sees _ _ follows, ends _ _ breaks]

theorem Sees.andThen (sees : Sees first) (further : Sees second)
    (keeps : ∀ source, (second source).text = source) :
    Sees fun text => (first text).andThen second := by
  intro text more behind
  have follows : Follows (first text).rest ((second (first text).rest).taken ++ more) := by
    have whole : Follows
        ((second (first text).rest).taken ++ (second (first text).rest).rest)
        ((second (first text).rest).taken ++ more) := Follows.append behind _
    rwa [← Split.text, keeps] at whole
  simp only [Split.andThen, Split.after]
  rw [List.append_assoc, sees _ _ follows, further _ _ behind]

theorem sees_run {accepts : Char → Bool} (spares : Spares accepts) : Sees (run accepts) := by
  intro text more follows
  have stops : more.takeWhile accepts = [] := by
    cases more with
    | nil => rfl
    | cons char others =>
        have refused : accepts char = false := by
          rcases follows char rfl with next | separator
          · have kept := List.head?_dropWhile_not accepts text
            rw [show (run accepts text).rest = text.dropWhile accepts from rfl] at next
            rw [next] at kept
            simpa using kept
          · exact spares.not_accepts separator
        simp [refused]
  have all : ∀ char ∈ text.takeWhile accepts, accepts char = true := Split.forall_mem_run
  have whole : more.takeWhile accepts ++ more.dropWhile accepts = more :=
    List.takeWhile_append_dropWhile
  rw [stops, List.nil_append] at whole
  simp only [run]
  rw [List.takeWhile_append_of_pos all, List.dropWhile_append_of_pos all, stops, whole,
    List.append_nil]

theorem sees_optional {char : Char} (other : char ≠ ' ' ∧ char ≠ '\n') : Sees (optional char) := by
  have passed : ∀ {rest more : List Char}, rest.head? ≠ some char → Follows rest more →
      optional char more = ⟨[], more⟩ := by
    intro rest more absent follows
    cases more with
    | nil => rfl
    | cons next others =>
        have different : next ≠ char := by
          rintro rfl
          rcases follows next rfl with same | rfl | rfl
          · exact absent same
          · exact other.1 rfl
          · exact other.2 rfl
        rw [optional, if_neg different]
  intro text more follows
  cases text with
  | nil => exact @passed [] _ (by simp) follows
  | cons next rest =>
      by_cases same : next = char
      · simp [optional, same]
      · rw [optional, if_neg same] at follows ⊢
        exact passed (by simpa using same) follows

end Split

namespace Scan

open Split

/-! ## Numbers -/

theorem sees_digits : Sees digits := sees_run spares_isDigitOrSeparator

theorem fraction_of_ne {text : List Char} (other : text.head? ≠ some '.') :
    fraction text = ⟨[], text⟩ := by
  unfold fraction
  split
  · exact absurd rfl other
  · rfl

theorem sees_fraction : Sees fraction := by
  intro text more follows
  by_cases point : text.head? = some '.'
  · obtain ⟨rest, rfl⟩ := List.head?_eq_some_iff.mp point
    have taken := sees_digits rest more follows
    simp only [fraction, after, List.cons_append, List.nil_append, taken]
  · rw [fraction_of_ne point] at follows ⊢
    refine fraction_of_ne fun next => ?_
    rcases follows '.' next with same | separator
    · exact point same
    · exact absurd separator (by decide)

abbrev IsExponentMark (mark : Char) : Prop := mark = 'e' ∨ mark = 'E'

theorem exponent_of_not_mark {text : List Char}
    (other : ∀ mark, text.head? = some mark → ¬IsExponentMark mark) : exponent text = ⟨[], text⟩ := by
  fun_cases exponent text with
  | case1 mark sign digit rest isMark | case2 mark sign digit rest isMark =>
      exact absurd isMark (other mark rfl)
  | case5 mark digit isMark => exact absurd isMark.1 (other mark rfl)
  | case3 | case4 | case6 | case7 => rfl

theorem taken_digits {digit : Char} (isDigit : isDecimalDigit digit = true) (rest : List Char) :
    (digits (digit :: rest)).taken = digit :: (digits rest).taken := by
  simp [digits, run, isDigitOrSeparator, isDigit]

/-- An exponent without a sign; the text behind it may be empty. -/
theorem exponent_digit {mark digit : Char} (isMark : IsExponentMark mark)
    (isDigit : isDecimalDigit digit = true) (rest : List Char) :
    exponent (mark :: digit :: rest) = (digits (digit :: rest)).after [mark] := by
  have isMark : mark = 'e' ∨ mark = 'E' := isMark
  cases rest with
  | nil => simp [exponent, isMark, isDigit, digits, run, isDigitOrSeparator, after]
  | cons next others => simp [exponent, isMark, isDigit]

theorem exponent_sign {mark sign digit : Char} (isMark : IsExponentMark mark)
    (isSign : sign = '+' ∨ sign = '-') (isDigit : isDecimalDigit digit = true) (rest : List Char) :
    exponent (mark :: sign :: digit :: rest) = (digits (digit :: rest)).after [mark, sign] := by
  have isMark : mark = 'e' ∨ mark = 'E' := isMark
  have noDigit : isDecimalDigit sign = false := by rcases isSign with rfl | rfl <;> decide
  simp [exponent, isMark, isSign, isDigit, noDigit]

theorem exponent_cases (text : List Char) : (exponent text).taken = [] ∨
    (∃ mark digit rest, IsExponentMark mark ∧ isDecimalDigit digit = true ∧
      text = mark :: digit :: rest) ∨
    ∃ mark sign digit rest, IsExponentMark mark ∧ (sign = '+' ∨ sign = '-') ∧
      isDecimalDigit digit = true ∧ text = mark :: sign :: digit :: rest := by
  fun_cases exponent text with
  | case1 mark sign digit rest isMark isDigit => exact .inr (.inl ⟨_, _, _, isMark, isDigit, rfl⟩)
  | case2 mark sign digit rest isMark _ signed =>
      exact .inr (.inr ⟨_, _, _, _, isMark, signed.1, signed.2, rfl⟩)
  | case5 mark digit marked => exact .inr (.inl ⟨_, _, _, marked.1, marked.2, rfl⟩)
  | case3 | case4 | case6 | case7 => exact .inl rfl

theorem sees_exponent_of_ne {text more : List Char} (some : (exponent text).taken ≠ [])
    (follows : Follows (exponent text).rest more) :
    exponent ((exponent text).taken ++ more) = ⟨(exponent text).taken, more⟩ := by
  rcases exponent_cases text with none | ⟨mark, digit, rest, isMark, isDigit, rfl⟩ |
    ⟨mark, sign, digit, rest, isMark, isSign, isDigit, rfl⟩
  · exact absurd none some
  · rw [exponent_digit isMark isDigit] at follows ⊢
    have seen := sees_digits (digit :: rest) more follows
    rw [taken_digits isDigit] at seen
    simp only [after, taken_digits isDigit, List.cons_append, List.nil_append] at seen ⊢
    rw [exponent_digit isMark isDigit, seen]
    rfl
  · rw [exponent_sign isMark isSign isDigit] at follows ⊢
    have seen := sees_digits (digit :: rest) more follows
    rw [taken_digits isDigit] at seen
    simp only [after, taken_digits isDigit, List.cons_append, List.nil_append] at seen ⊢
    rw [exponent_sign isMark isSign isDigit, seen]
    rfl

theorem head?_optional {char first : Char} {text : List Char}
    (next : (optional char text).taken.head? = some first) : first = char := by
  cases text with
  | nil => cases next
  | cons other rest =>
      simp only [Split.optional] at next
      split at next
      · rename_i same
        cases next
        exact same
      · cases next

theorem sees_bigMark : Sees (optional 'n') := sees_optional (by decide)

/-- An exponent, and the mark of a big integer behind it. Without an exponent there may be an `e` ahead
that is none, so the text has to break off. -/
theorem ends_exponent : Ends fun text => (exponent text).andThen (optional 'n') := by
  intro text more breaks
  have ended : ∀ rest, optional 'n' ((optional 'n' rest).taken ++ more) =
      ⟨(optional 'n' rest).taken, more⟩ :=
    fun rest => sees_bigMark.ends rest more breaks
  simp only [andThen, after]
  by_cases none : (exponent text).taken = []
  · have unmarked : exponent ((optional 'n' (exponent text).rest).taken ++ more) =
        ⟨[], (optional 'n' (exponent text).rest).taken ++ more⟩ := by
      refine exponent_of_not_mark fun mark next isMark => ?_
      rw [List.head?_append, Option.or_eq_some_iff] at next
      rcases next with taken | ⟨_, behind⟩
      · rw [head?_optional taken] at isMark
        exact absurd isMark (by decide)
      · rcases breaks mark behind with rfl | rfl <;> exact absurd isMark (by decide)
    rw [none, List.nil_append, unmarked, ended]
    rfl
  · have follows := (breaks.follows (optional 'n' (exponent text).rest).rest).append
      (optional 'n' (exponent text).rest).taken
    rw [← Split.text, text_optional] at follows
    rw [List.append_assoc, sees_exponent_of_ne none follows, ended]

theorem text_exponentEnd (source : List Char) :
    ((exponent source).andThen (optional 'n')).text = source := by
  rw [text_andThen (text_optional 'n'), text_exponent]

theorem andThen_andThen (split : Split) (first second : List Char → Split) :
    (split.andThen first).andThen second =
      split.andThen fun text => (first text).andThen second := by
  simp [andThen, after]

theorem ends_decimal (first : Char) : Ends (number.decimal first) := by
  unfold number.decimal
  by_cases point : first = '.'
  · simp only [if_pos point, andThen_andThen]
    exact sees_digits.andThen_ends ends_exponent text_exponentEnd
  · simp only [if_neg point, andThen_andThen]
    refine sees_digits.andThen_ends (sees_fraction.andThen_ends ends_exponent text_exponentEnd) ?_
    intro source
    rw [text_andThen text_exponentEnd, text_fraction]

theorem ends_number (first : Char) : Ends (number first) := by
  intro text more breaks
  have radix : ∀ {mark : Char} (rest : List Char), first = '0' ∧ isRadixMark mark = true →
      number first (mark :: rest) =
        ((run (fun char => isHexDigit char || char == '_') rest).andThen (optional 'n')).after [mark] := by
    intro mark rest isRadix
    simp [number, isRadix, andThen, after]
  have decimal : ∀ {text : List Char},
      (∀ mark, text.head? = some mark → ¬(first = '0' ∧ isRadixMark mark = true)) →
      number first text = number.decimal first text := by
    intro text other
    cases text with
    | nil => rfl
    | cons mark rest => rw [number, if_neg (other mark rfl)]
  have spares : Spares fun char => isHexDigit char || char == '_' := by constructor <;> decide
  have ends := (sees_run spares).andThen_ends sees_bigMark.ends fun source => text_optional 'n' source
  by_cases isRadix : ∃ mark, text.head? = some mark ∧ first = '0' ∧ isRadixMark mark = true
  · obtain ⟨mark, next, isRadix⟩ := isRadix
    obtain ⟨rest, rfl⟩ := List.head?_eq_some_iff.mp next
    have ended := ends rest more breaks
    dsimp only at ended
    rw [radix rest isRadix]
    simp only [after, List.cons_append, List.nil_append]
    rw [radix _ isRadix, ended]
    rfl
  · have other : ∀ mark, text.head? = some mark → ¬(first = '0' ∧ isRadixMark mark = true) :=
      fun mark next both => isRadix ⟨mark, next, both⟩
    rw [decimal other, decimal]
    · exact ends_decimal first text more breaks
    · intro mark next both
      rcases head?_taken_append next with same | behind
      · rw [text_decimal] at same
        exact other mark same both
      · rcases breaks mark behind with rfl | rfl <;> exact absurd both.2 (by decide)

/-! ## Identifiers -/

theorem hexDigits_taken_append {more : List Char} (count : Nat) (text : List Char)
    (breaks : (hexDigits count text).taken.length < count → BreaksOff more) :
    hexDigits count ((hexDigits count text).taken ++ more) = ⟨(hexDigits count text).taken, more⟩ := by
  have stops : ∀ count, BreaksOff more → hexDigits (count + 1) more = ⟨[], more⟩ := by
    intro count breaks
    cases more with
    | nil => rfl
    | cons char others =>
        rw [hexDigits, if_neg]
        simpa using spares_isHexDigit.not_accepts (breaks char rfl)
  fun_induction hexDigits count text with
  | case1 => rfl
  | case2 count => exact stops count (breaks (by simp))
  | case3 count char rest isHex ih =>
      have further := ih fun few => breaks (by simpa [after] using few)
      simp only [after, List.cons_append, List.nil_append, hexDigits, if_pos isHex, further]
  | case4 count char rest _ => exact stops count (breaks (by simp))

theorem unicodeEscape_of_ne {text : List Char} (other : text.head? ≠ some 'u') :
    unicodeEscape text = (false, ⟨[], text⟩) := by
  fun_cases unicodeEscape text with
  | case1 | case2 | case3 => exact absurd rfl other
  | case4 => rfl

theorem unicodeEscape_digits {rest : List Char} (noBrace : rest.head? ≠ some '\x7b') :
    unicodeEscape ('u' :: rest) =
      ((hexDigits 4 rest).taken.length == 4, (hexDigits 4 rest).after ['u']) := by
  rw [unicodeEscape]
  rintro others rfl
  exact noBrace rfl

theorem head?_hexDigits {count : Nat} {text : List Char} {char : Char}
    (next : (hexDigits count text).taken.head? = some char) : isHexDigit char = true := by
  fun_cases hexDigits count text with
  | case3 count first rest isHex =>
      simp only [hexDigits, if_pos isHex, after, List.cons_append, List.nil_append, List.head?_cons,
        Option.some.injEq] at next
      rwa [← next]
  | case1 | case2 => cases next
  | case4 count first rest isHex =>
      simp only [hexDigits, if_neg isHex] at next
      cases next

theorem unicodeEscape_closed {rest behind : List Char}
    (closed : (run isHexDigit rest).rest = '\x7d' :: behind) :
    unicodeEscape ('u' :: '\x7b' :: rest) =
      (true, ⟨'u' :: '\x7b' :: ((run isHexDigit rest).taken ++ ['\x7d']), behind⟩) := by
  simp only [unicodeEscape, after, closed]
  rfl

theorem unicodeEscape_unclosed {rest : List Char}
    (unclosed : (run isHexDigit rest).rest.head? ≠ some '\x7d') :
    unicodeEscape ('u' :: '\x7b' :: rest) =
      (false, (run isHexDigit rest).after ['u', '\x7b']) := by
  simp only [unicodeEscape, after]
  split
  · rename_i behind closed
    exact absurd (congrArg List.head? closed) unclosed
  · rfl

theorem unicodeEscape_taken_append {text more : List Char} {complete : Bool} {escape : Split}
    (scanned : unicodeEscape text = (complete, escape)) (breaks : complete = false → BreaksOff more) :
    unicodeEscape (escape.taken ++ more) = (complete, ⟨escape.taken, more⟩) := by
  have breaksAt : ∀ {char : Char}, complete = false → char ≠ ' ' → char ≠ '\n' →
      more.head? ≠ some char := by
    rintro char incomplete noSpace noLine next
    rcases breaks incomplete char next with rfl | rfl
    · exact noSpace rfl
    · exact noLine rfl
  by_cases marked : text.head? = some 'u'
  · obtain ⟨rest, rfl⟩ := List.head?_eq_some_iff.mp marked
    by_cases braced : rest.head? = some '\x7b'
    · obtain ⟨rest, rfl⟩ := List.head?_eq_some_iff.mp braced
      by_cases closed : (run isHexDigit rest).rest.head? = some '\x7d'
      · obtain ⟨behind, closed⟩ := List.head?_eq_some_iff.mp closed
        rw [unicodeEscape_closed closed] at scanned
        cases scanned
        have digits : run isHexDigit ((run isHexDigit rest).taken ++ '\x7d' :: more) =
            ⟨(run isHexDigit rest).taken, '\x7d' :: more⟩ := by
          refine sees_run spares_isHexDigit rest ('\x7d' :: more) fun char next => .inl ?_
          rw [closed]
          exact next
        have again := unicodeEscape_closed (congrArg Split.rest digits)
        rw [digits] at again
        simpa using again
      · rw [unicodeEscape_unclosed closed] at scanned
        cases scanned
        have digits := (sees_run spares_isHexDigit).ends rest more (breaks rfl)
        have again := @unicodeEscape_unclosed ((run isHexDigit rest).taken ++ more) (by
          rw [digits]
          exact breaksAt rfl (by decide) (by decide))
        rw [digits] at again
        simpa [after] using again
    · rw [unicodeEscape_digits braced] at scanned
      cases scanned
      have digits := @hexDigits_taken_append more 4 rest fun few =>
        breaks (beq_false_of_ne (Nat.ne_of_lt few))
      have again := @unicodeEscape_digits ((hexDigits 4 rest).taken ++ more) (by
        intro brace
        rw [List.head?_append, Option.or_eq_some_iff] at brace
        rcases brace with taken | ⟨none, behind⟩
        · exact absurd (head?_hexDigits taken) (by decide)
        · refine breaksAt (beq_false_of_ne ?_) (by decide) (by decide) behind
          rw [List.head?_eq_none_iff.mp none]
          decide)
      rw [digits] at again
      simpa [after] using again
  · rw [unicodeEscape_of_ne marked] at scanned
    cases scanned
    exact unicodeEscape_of_ne (breaksAt rfl (by decide) (by decide))

theorem identifierWithin_of_breaksOff {more : List Char} (breaks : BreaksOff more)
    (budget : List Char) : identifierWithin budget more = (false, ⟨[], more⟩) := by
  cases budget with
  | nil => rfl
  | cons char budget =>
      cases more with
      | nil => rfl
      | cons next others =>
          have separator := breaks next rfl
          have noPart := spares_isIdentifierPart.not_accepts separator
          have noEscape : next ≠ '\\' := by rcases separator with rfl | rfl <;> decide
          rw [identifierWithin, if_neg (by simp [noPart])]
          exact noEscape

/-- The rest of a word is the same where the text breaks off behind it, as long as the budget is enough
for what is taken. -/
theorem identifierWithin_taken_append {more : List Char} (breaks : BreaksOff more)
    (budget text other : List Char)
    (enough : (identifierWithin budget text).2.taken.length ≤ other.length) :
    identifierWithin other ((identifierWithin budget text).2.taken ++ more) =
      ((identifierWithin budget text).1, ⟨(identifierWithin budget text).2.taken, more⟩) := by
  fun_induction identifierWithin budget text generalizing other with
  | case1 text => exact identifierWithin_of_breaksOff breaks other
  | case2 => exact identifierWithin_of_breaksOff breaks other
  | case3 char budget rest escape scanned =>
      cases other with
      | nil => simp [after] at enough
      | cons first others =>
          have again := unicodeEscape_taken_append scanned fun _ => breaks
          simp only [after, List.cons_append, List.nil_append, identifierWithin, again]
  | case4 char budget rest escape scanned escaped inner inside ih =>
      cases other with
      | nil => simp [after] at enough
      | cons first others =>
          have again : unicodeEscape (escape.taken ++ (inner.taken ++ more)) =
              (true, ⟨escape.taken, inner.taken ++ more⟩) :=
            unicodeEscape_taken_append scanned (by simp)
          rw [inside] at ih
          have further := ih others (by simp [after] at enough ⊢; omega)
          simp only [after, List.cons_append, List.nil_append, List.append_assoc, identifierWithin,
            again, further]
  | case5 char budget next rest noEscape isPart escaped inner inside ih =>
      cases other with
      | nil => simp [after] at enough
      | cons first others =>
          rw [inside] at ih
          have further := ih others (by simpa [after] using enough)
          simp only [after, List.cons_append, List.nil_append]
          rw [identifierWithin, if_pos isPart]
          · simp only [further, after, List.cons_append, List.nil_append]
          · exact noEscape
  | case6 => exact identifierWithin_of_breaksOff breaks other

theorem identifierRest_taken_append {more : List Char} (breaks : BreaksOff more) (text : List Char) :
    identifierRest ((identifierRest text).2.taken ++ more) =
      ((identifierRest text).1, ⟨(identifierRest text).2.taken, more⟩) :=
  identifierWithin_taken_append breaks text text _ (by simp [identifierRest])

theorem identifierStart_taken_append {text more : List Char} {found : Bool} {start : Split}
    (scanned : identifierStart text = (found, start)) (breaks : found = false → BreaksOff more) :
    identifierStart (start.taken ++ more) = (found, ⟨start.taken, more⟩) := by
  have stops : BreaksOff more → identifierStart more = (false, ⟨[], more⟩) := by
    intro breaks
    cases more with
    | nil => rfl
    | cons next others =>
        have separator := breaks next rfl
        have noStart := spares_isIdentifierStart.not_accepts separator
        have noEscape : next ≠ '\\' := by rcases separator with rfl | rfl <;> decide
        rw [identifierStart, if_neg (by simp [noStart])]
        exact noEscape
  revert scanned
  fun_cases identifierStart text with
  | case1 rest complete escape inner =>
      rintro ⟨⟩
      have again := unicodeEscape_taken_append inner breaks
      simp only [after, List.cons_append, List.nil_append, identifierStart, again]
  | case2 char rest noEscape isStart =>
      rintro ⟨⟩
      rw [List.singleton_append, identifierStart, if_pos isStart]
      exact noEscape
  | case3 =>
      rintro ⟨⟩
      exact stops (breaks rfl)
  | case4 =>
      rintro ⟨⟩
      exact stops (breaks rfl)

/-! ## Literals -/

/-- What a literal takes begins like the text. -/
theorem head?_append_of_ne_nil {split : Split} (some : split.taken ≠ []) (more : List Char) :
    (split.taken ++ more).head? = split.text.head? := by
  obtain ⟨first, others, taken⟩ := List.exists_cons_of_ne_nil some
  simp [Split.text, taken]

theorem ne_backslash {char : Char} {rest : List Char}
    (noPair : ∀ next others, char = '\\' → rest = next :: others → False) (some : rest ≠ []) :
    char ≠ '\\' := by
  rintro rfl
  obtain ⟨next, others, rfl⟩ := List.exists_cons_of_ne_nil some
  exact noPair next others rfl rfl

theorem string_taken_ne_nil {quote : Char} {text : List Char} {split : Split}
    (found : string quote text = some split) : split.taken ≠ [] := by
  revert found
  fun_cases string quote text with
  | case1 | case5 =>
      intro found
      cases found
  | case4 =>
      rintro ⟨⟩
      exact List.cons_ne_nil _ _
  | case2 | case3 | case6 =>
      intro found
      obtain ⟨inner, _, rfl⟩ := Option.map_eq_some_iff.mp found
      exact List.cons_ne_nil _ _

theorem string_taken_append {quote : Char} {text more : List Char} {split : Split}
    (noEscape : quote ≠ '\\') (found : string quote text = some split) :
    string quote (split.taken ++ more) = some ⟨split.taken, more⟩ := by
  fun_induction string quote text generalizing split with
  | case1 => cases found
  | case2 rest ih =>
      obtain ⟨inner, inside, rfl⟩ := Option.map_eq_some_iff.mp found
      simp [after, string, ih inside]
  | case3 char rest noBreak ih =>
      obtain ⟨inner, inside, rfl⟩ := Option.map_eq_some_iff.mp found
      have begins := head?_append_of_ne_nil (string_taken_ne_nil inside) more
      rw [text_string inside] at begins
      simp only [after, List.cons_append, List.nil_append]
      rw [string, ih inside]
      · rfl
      · intro others isReturn next
        rw [next] at begins
        obtain ⟨behind, same⟩ := List.head?_eq_some_iff.mp begins.symm
        exact noBreak behind isReturn same
  | case4 =>
      cases found
      rw [List.singleton_append, string, if_pos rfl]
      · exact fun _ escape => absurd escape noEscape
      · exact fun _ _ escape => absurd escape noEscape
  | case5 => cases found
  | case6 char rest _ noPair noQuote noLine ih =>
      obtain ⟨inner, inside, rfl⟩ := Option.map_eq_some_iff.mp found
      have plain := ne_backslash noPair (by rintro rfl; cases inside)
      simp only [after, List.cons_append, List.nil_append]
      rw [string, if_neg noQuote, if_neg noLine, ih inside]
      · rfl
      · exact fun _ escape => absurd escape plain
      · exact fun _ _ escape => absurd escape plain

theorem template_taken_ne_nil {text : List Char} {continued : Bool} {split : Split}
    (found : template text = some (continued, split)) : split.taken ≠ [] := by
  revert found
  fun_cases template text with
  | case1 =>
      intro found
      cases found
  | case2 | case3 =>
      rintro ⟨⟩
      exact List.cons_ne_nil _ _
  | case4 | case5 =>
      intro found
      obtain ⟨⟨_, inner⟩, _, same⟩ := Option.map_eq_some_iff.mp found
      cases same
      exact List.cons_ne_nil _ _

theorem template_taken_append {text more : List Char} {continued : Bool} {split : Split}
    (found : template text = some (continued, split)) :
    template (split.taken ++ more) = some (continued, ⟨split.taken, more⟩) := by
  fun_induction template text generalizing continued split with
  | case1 => cases found
  | case2 | case3 =>
      cases found
      rfl
  | case4 char rest ih =>
      obtain ⟨⟨_, inner⟩, inside, same⟩ := Option.map_eq_some_iff.mp found
      cases same
      simp [after, template, ih inside]
  | case5 char rest noQuote noSubstitution noPair ih =>
      obtain ⟨⟨_, inner⟩, inside, same⟩ := Option.map_eq_some_iff.mp found
      cases same
      have begins := head?_append_of_ne_nil (template_taken_ne_nil inside) more
      rw [text_template inside] at begins
      have plain := ne_backslash noPair (by rintro rfl; cases inside)
      simp only [after, List.cons_append, List.nil_append]
      rw [template, ih inside]
      · rfl
      · exact noQuote
      · intro others isDollar next
        rw [next] at begins
        obtain ⟨behind, same⟩ := List.head?_eq_some_iff.mp begins.symm
        exact noSubstitution behind isDollar same
      · exact fun _ _ escape => absurd escape plain

theorem regexBody_taken_append {inClass : Bool} {text more : List Char} {split : Split}
    (found : regexBody inClass text = some split) :
    regexBody inClass (split.taken ++ more) = some ⟨split.taken, more⟩ := by
  fun_induction regexBody inClass text generalizing split with
  | case1 => cases found
  | case2 => cases found
  | case3 inClass char rest noLine ih =>
      obtain ⟨inner, inside, rfl⟩ := Option.map_eq_some_iff.mp found
      simp [after, regexBody, noLine, ih inside]
  | case4 => cases found
  | case5 inClass char rest noPair noLine closes =>
      cases found
      rw [List.singleton_append, regexBody, if_neg noLine, if_pos closes]
      rw [closes.1]
      exact fun _ _ escape => absurd escape (by decide)
  | case6 inClass char rest noPair noLine noClose =>
      rename_i ih
      obtain ⟨inner, inside, rfl⟩ := Option.map_eq_some_iff.mp found
      have plain := ne_backslash noPair (by rintro rfl; cases inside)
      simp only [after, List.cons_append, List.nil_append]
      rw [regexBody, if_neg noLine, if_neg noClose]
      · exact congrArg (Option.map (after [char])) (ih inside)
      · exact fun _ _ escape => absurd escape plain

theorem regex_taken_append {text more : List Char} {split : Split} (breaks : BreaksOff more)
    (found : regex text = some split) : regex (split.taken ++ more) = some ⟨split.taken, more⟩ := by
  obtain ⟨body, inside, rfl⟩ := Option.map_eq_some_iff.mp found
  have flags := (sees_run spares_isIdentifierPart).ends body.rest more breaks
  simp only [regex, andThen, after, List.append_assoc]
  rw [regexBody_taken_append inside]
  simp only [Option.map_some, flags]

end Scan

/-! ## Tokens -/

def Decision.chars : Decision → List Char
  | is _ => []
  | eat char behind otherwise => char :: (behind.chars ++ otherwise.chars)

/-- A decision that tries for no separator is the same where the text breaks off behind what it took. -/
theorem Decision.run_taken_append {decision : Decision} {more : List Char} (breaks : BreaksOff more)
    (spares : ' ' ∉ decision.chars ∧ '\n' ∉ decision.chars) (text : List Char) :
    decision.run ((decision.run text).2.taken ++ more) =
      ((decision.run text).1, ⟨(decision.run text).2.taken, more⟩) := by
  fun_induction run decision text with
  | case1 => rfl
  | case2 char behind otherwise text next kind split found ih =>
      rw [found] at ih
      simp only [chars, List.mem_cons, List.mem_append, not_or] at spares
      have further := ih ⟨spares.1.2.1, spares.2.2.1⟩
      simp [run, Split.after, further]
  | case3 char behind otherwise text other ih =>
      simp only [chars, List.mem_cons, List.mem_append, not_or] at spares
      have further := ih ⟨spares.1.2.2, spares.2.2.2⟩
      have missed : ((otherwise.run text).2.taken ++ more).head? ≠ some char := by
        intro next
        rcases Split.head?_taken_append next with same | separator
        · rw [text_run] at same
          exact other same
        · exact (breaks char separator).elim (Ne.symm spares.1.1) (Ne.symm spares.2.1)
      rw [run, if_neg missed, further]

/-- A scanned token that starts with a given character is the same where the text breaks off behind
it. -/
def Steady (first : Char) (scan : List Char → Kind × Split) : Prop :=
  ∀ rest, (scan rest).2.rest ≠ [] → ∃ tail, (scan rest).2.taken = first :: tail ∧
    ∀ more, BreaksOff more → scan (tail ++ more) = ((scan rest).1, ⟨first :: tail, more⟩)

theorem steady_decideAfter {decision : Decision}
    (spares : ' ' ∉ decision.chars ∧ '\n' ∉ decision.chars) (first : Char) :
    Steady first (decideAfter first decision) := by
  intro rest _
  refine ⟨(decision.run rest).2.taken, rfl, fun more breaks => ?_⟩
  simp [decideAfter, Decision.run_taken_append breaks spares, Split.after]

theorem steady_punctuator (first : Char) : Steady first (decideAfter first (.after first)) := by
  refine steady_decideAfter ?_ first
  unfold Decision.after
  split
  all_goals decide

theorem steady_scanPoints : Steady '.' scanPoints := by
  intro rest _
  fun_cases scanPoints rest with
  | case1 => exact ⟨['.', '.'], rfl, fun _ _ => rfl⟩
  | case2 =>
      refine ⟨[], rfl, fun more breaks => ?_⟩
      cases more with
      | nil => rfl
      | cons next others => rcases breaks next rfl with rfl | rfl <;> rfl

theorem steady_scanQuestionMark : Steady '?' scanQuestionMark := by
  have noPoint : ∀ entry ∈ Decision.questionMark.spellings, entry.2.head? ≠ some '.' := by decide
  intro rest behind
  fun_cases scanQuestionMark rest with
  | case1 =>
      refine ⟨['.'], rfl, fun more breaks => ?_⟩
      have notPointed : beforePointedNumber ('.' :: more) = false := by
        cases more with
        | nil => rfl
        | cons next others => rcases breaks next rfl with rfl | rfl <;> rfl
      simp [scanQuestionMark, notPointed]
  | case2 other =>
      rw [scanQuestionMark, if_neg other] at behind
      obtain ⟨tail, taken, again⟩ := steady_decideAfter (by decide) '?' rest behind
      refine ⟨tail, taken, fun more breaks => ?_⟩
      have missed : (tail ++ more).head? ≠ some '.' := by
        obtain ⟨entry, decided, -, spelled⟩ := mem_decideAfter '?' .questionMark rest
        rw [taken] at spelled
        rw [List.head?_append, (List.cons.inj spelled).2, ne_eq, Option.or_eq_some_iff]
        rintro (same | ⟨-, separator⟩)
        · exact noPoint entry decided same
        · exact absurd (breaks '.' separator) (by decide)
      rw [scanQuestionMark, if_neg fun next => missed next.1]
      exact again more breaks

theorem steady_scanWord (first : Char) : Steady first (scanWord first) := by
  intro rest _
  refine ⟨(Scan.identifierRest rest).2.taken, ?_, fun more breaks => ?_⟩
  · unfold scanWord
    dsimp only
    split <;> rfl
  · unfold scanWord
    rw [Scan.identifierRest_taken_append breaks rest]
    dsimp only [Split.after]
    split <;> rfl

theorem steady_number (first : Char) :
    Steady first fun rest => (.number, (Scan.number first rest).after [first]) := by
  intro rest _
  refine ⟨(Scan.number first rest).taken, rfl, fun more breaks => ?_⟩
  dsimp only
  rw [Scan.ends_number first rest more breaks]
  rfl

theorem closedOrUnknown_of_rest {kind : Kind} {text first : List Char} {scanned : Option Split}
    (behind : (closedOrUnknown kind text first scanned).2.rest ≠ []) :
    ∃ split, scanned = some split ∧ closedOrUnknown kind text first scanned = (kind, split.after first) := by
  cases scanned with
  | none => exact absurd rfl behind
  | some split => exact ⟨split, rfl, rfl⟩

theorem steady_string {quote : Char} (noEscape : quote ≠ '\\') :
    Steady quote fun rest =>
      closedOrUnknown .string (quote :: rest) [quote] (Scan.string quote rest) := by
  intro rest behind
  obtain ⟨split, found, scanned⟩ := closedOrUnknown_of_rest behind
  dsimp only
  refine ⟨split.taken, by rw [scanned]; rfl, fun more _ => ?_⟩
  rw [scanned, Scan.string_taken_append noEscape found]
  rfl

theorem steady_scanEscapedWord : Steady '\\' scanEscapedWord := by
  intro rest _
  cases scanned : Scan.unicodeEscape rest with
  | mk complete escape =>
    cases complete with
    | false =>
        refine ⟨escape.taken, by rw [scanEscapedWord, scanned]; rfl, fun more breaks => ?_⟩
        have again := Scan.unicodeEscape_taken_append scanned fun _ => breaks
        rw [scanEscapedWord, scanEscapedWord, again, scanned]
        rfl
    | true =>
        refine ⟨escape.taken ++ (Scan.identifierRest escape.rest).2.taken,
          by rw [scanEscapedWord, scanned]; rfl, fun more breaks => ?_⟩
        have again : Scan.unicodeEscape
            (escape.taken ++ ((Scan.identifierRest escape.rest).2.taken ++ more)) =
              (true, ⟨escape.taken, (Scan.identifierRest escape.rest).2.taken ++ more⟩) :=
          Scan.unicodeEscape_taken_append scanned (by simp)
        have further := Scan.identifierRest_taken_append breaks escape.rest
        rw [List.append_assoc, scanEscapedWord, scanEscapedWord, again, scanned]
        simp only [Split.andThen, Split.after, further]
        rfl

theorem steady_scanPrivateName : Steady '#' scanPrivateName := by
  intro rest _
  cases scanned : Scan.identifierStart rest with
  | mk found start =>
    cases found with
    | false =>
        refine ⟨start.taken, by rw [scanPrivateName, scanned]; rfl, fun more breaks => ?_⟩
        have again := Scan.identifierStart_taken_append scanned fun _ => breaks
        rw [scanPrivateName, scanPrivateName, again, scanned]
        rfl
    | true =>
        refine ⟨start.taken ++ (Scan.identifierRest start.rest).2.taken,
          by rw [scanPrivateName, scanned]; rfl, fun more breaks => ?_⟩
        have again : Scan.identifierStart
            (start.taken ++ ((Scan.identifierRest start.rest).2.taken ++ more)) =
              (true, ⟨start.taken, (Scan.identifierRest start.rest).2.taken ++ more⟩) :=
          Scan.identifierStart_taken_append scanned (by simp)
        have further := Scan.identifierRest_taken_append breaks start.rest
        rw [List.append_assoc, scanPrivateName, scanPrivateName, again, scanned]
        simp only [Split.andThen, Split.after, further]
        rfl

theorem steady_scanSlash (previous : Option Kind) : Steady '/' (scanSlash previous) := by
  intro rest behind
  by_cases isComment : rest.head? = some '*'
  · obtain ⟨others, rfl⟩ := List.head?_eq_some_iff.mp isComment
    exact absurd rfl behind
  · have opened : ∀ {rest : List Char}, rest.head? ≠ some '*' → scanSlash previous rest =
        if slashStartsRegex previous then
          closedOrUnknown .regex ('/' :: rest) ['/'] (Scan.regex rest)
        else decideAfter '/' .division rest := by
      intro rest noComment
      unfold scanSlash
      split
      · exact absurd rfl noComment
      · rfl
    rw [opened isComment] at behind ⊢
    by_cases isRegex : slashStartsRegex previous = true
    · rw [if_pos isRegex] at behind ⊢
      obtain ⟨split, found, scanned⟩ := closedOrUnknown_of_rest behind
      refine ⟨split.taken, by rw [scanned]; rfl, fun more breaks => ?_⟩
      have noComment : (split.taken ++ more).head? ≠ some '*' := by
        intro next
        rcases Split.head?_taken_append next with same | separator
        · rw [Scan.text_regex found] at same
          exact isComment same
        · exact absurd (breaks '*' separator) (by decide)
      rw [opened noComment, if_pos isRegex, scanned, Scan.regex_taken_append breaks found]
      rfl
    · rw [if_neg isRegex] at behind ⊢
      obtain ⟨tail, taken, again⟩ := steady_decideAfter (by decide) '/' rest behind
      refine ⟨tail, taken, fun more breaks => ?_⟩
      have noComment : (tail ++ more).head? ≠ some '*' := by
        intro next
        have text := text_decideAfter '/' .division rest
        rw [Split.text, taken, List.cons_append] at text
        rcases @Split.head?_taken_append ⟨tail, _⟩ _ _ next with same | separator
        · rw [Split.text_mk, (List.cons.inj text).2] at same
          exact isComment same
        · exact absurd (breaks '*' separator) (by decide)
      rw [opened noComment, if_neg isRegex]
      exact again more breaks

theorem template_taken_of_rest {memory : Memory} {first : Char} {rest : List Char}
    {closed continued : Kind} (behind : (memory.template first rest closed continued).2.1.rest ≠ []) :
    ∃ tail, (memory.template first rest closed continued).2.1.taken = first :: tail ∧
      ∀ more, memory.template first (tail ++ more) closed continued =
        ((memory.template first rest closed continued).1, ⟨first :: tail, more⟩,
          (memory.template first rest closed continued).2.2) := by
  revert behind
  fun_cases Memory.template memory first rest closed continued with
  | case1 => exact fun behind => absurd rfl behind
  | case2 chunk found =>
      intro _
      refine ⟨chunk.taken, rfl, fun more => ?_⟩
      rw [Memory.template, Scan.template_taken_append found]
      rfl
  | case3 chunk found =>
      intro _
      refine ⟨chunk.taken, rfl, fun more => ?_⟩
      rw [Memory.template, Scan.template_taken_append found]
      rfl

theorem closingBrace_taken_of_rest {memory : Memory} {rest : List Char}
    (behind : (memory.closingBrace rest).2.1.rest ≠ []) :
    ∃ tail, (memory.closingBrace rest).2.1.taken = '\x7d' :: tail ∧
      ∀ more, memory.closingBrace (tail ++ more) =
        ((memory.closingBrace rest).1, ⟨'\x7d' :: tail, more⟩, (memory.closingBrace rest).2.2) := by
  obtain ⟨previous, depth, substitutions⟩ := memory
  cases substitutions with
  | nil => exact ⟨[], rfl, fun _ => rfl⟩
  | cons opened outer =>
      by_cases same : opened = depth
      · simp only [Memory.closingBrace, if_pos same] at behind ⊢
        exact template_taken_of_rest behind
      · simp only [Memory.closingBrace, if_neg same]
        exact ⟨[], rfl, fun _ => rfl⟩

theorem taken_number_point {digit : Char} (isDigit : isDecimalDigit digit = true)
    (rest : List Char) : (Scan.number '.' (digit :: rest)).taken.head? = some digit := by
  simp [Scan.number, Scan.number.decimal, Split.andThen, Split.after, Scan.taken_digits isDigit]

section

variable {memory : Memory} {first : Char} {rest more : List Char}

theorem Steady.keep {scan : List Char → Kind × Split} (steady : Steady first scan)
    (behind : (scan rest).2.rest ≠ []) (breaks : BreaksOff more) :
    ∃ tail, (memory.keep (scan rest)).2.1.taken = first :: tail ∧
      memory.keep (scan (tail ++ more)) =
        ((memory.keep (scan rest)).1, ⟨first :: tail, more⟩, (memory.keep (scan rest)).2.2) := by
  obtain ⟨tail, taken, again⟩ := steady rest behind
  refine ⟨tail, taken, ?_⟩
  rw [again more breaks]
  rfl

theorem scanMark_taken_of_rest (behind : (scanMark memory first rest).2.1.rest ≠ [])
    (breaks : BreaksOff more) :
    ∃ tail, (scanMark memory first rest).2.1.taken = first :: tail ∧
      scanMark memory first (tail ++ more) = ((scanMark memory first rest).1, ⟨first :: tail, more⟩,
        (scanMark memory first rest).2.2) := by
  revert behind
  fun_cases scanMark memory first rest with
  | case1 | case2 => exact fun behind => (steady_string (by decide)).keep behind breaks
  | case3 =>
      intro behind
      obtain ⟨tail, taken, again⟩ := template_taken_of_rest behind
      exact ⟨tail, taken, again more⟩
  | case4 => exact fun behind => steady_scanEscapedWord.keep behind breaks
  | case5 => exact fun behind => steady_scanPrivateName.keep behind breaks
  | case6 => exact fun behind => (steady_scanSlash memory.previous).keep behind breaks
  | case7 => exact fun _ => ⟨[], rfl, rfl⟩
  | case8 =>
      intro behind
      obtain ⟨tail, taken, again⟩ := closingBrace_taken_of_rest behind
      exact ⟨tail, taken, again more⟩
  | case9 => exact fun behind => steady_scanPoints.keep behind breaks
  | case10 => exact fun behind => steady_scanQuestionMark.keep behind breaks
  | case11 =>
      intro behind
      have other : first ∉ markStarts := by simp_all [markStarts]
      obtain ⟨tail, taken, again⟩ := (steady_punctuator first).keep behind breaks
      exact ⟨tail, taken, (scanMark_of_notMem memory other _).trans again⟩

/-- The digit behind a point belongs to the number, and stays in front. -/
theorem startsPointedNumber_append {tail : List Char} (pointed : startsPointedNumber first rest = true)
    (taken : ((Scan.number first rest).after [first]).taken = first :: tail) :
    startsPointedNumber first (tail ++ more) = true := by
  simp only [startsPointedNumber, Bool.and_eq_true, beq_iff_eq] at pointed ⊢
  obtain ⟨rfl, pointed⟩ := pointed
  cases rest with
  | nil => cases pointed
  | cons digit others =>
      have isDigit : isDecimalDigit digit = true := pointed
      have same : (Scan.number '.' (digit :: others)).taken = tail := (List.cons.inj taken).2
      have starts := taken_number_point isDigit others
      rw [same] at starts
      exact ⟨rfl, by simpa [List.head?_append, starts] using isDigit⟩

/-- Behind a point that starts no number no digit comes to stand. -/
theorem not_startsPointedNumber_append {tail : List Char} (breaks : BreaksOff more)
    (notPointed : startsPointedNumber first (tail ++ rest) = false) :
    startsPointedNumber first (tail ++ more) = false := by
  simp only [startsPointedNumber, Bool.and_eq_false_iff] at notPointed ⊢
  cases tail with
  | cons next tail => exact notPointed
  | nil =>
      refine .inr ?_
      cases more with
      | nil => rfl
      | cons next others => exact spares_isDecimalDigit.not_accepts (breaks next rfl)

end

/-- A token is what it is if the text breaks off behind it: with the same memory it is scanned again. The
one exception is what is never closed, and that has nothing behind it. -/
theorem scanToken_taken_append {memory : Memory} {text more : List Char}
    (behind : (scanToken memory text).2.1.rest ≠ []) (breaks : BreaksOff more) :
    scanToken memory ((scanToken memory text).2.1.taken ++ more) =
      ((scanToken memory text).1, ⟨(scanToken memory text).2.1.taken, more⟩,
        (scanToken memory text).2.2) := by
  revert behind
  fun_cases scanToken memory text with
  | case1 => exact fun behind => absurd rfl behind
  | case2 first rest isStart =>
      intro behind
      obtain ⟨tail, taken, again⟩ := (steady_scanWord first).keep behind breaks
      rw [taken, List.cons_append, scanToken, if_pos isStart, again]
  | case3 first rest noStart isNumber =>
      intro behind
      obtain ⟨tail, taken, again⟩ := (steady_number first).keep behind breaks
      have isNumberAgain : (isDecimalDigit first || startsPointedNumber first (tail ++ more)) = true := by
        rw [Bool.or_eq_true] at isNumber ⊢
        exact isNumber.imp_right fun pointed => startsPointedNumber_append pointed taken
      rw [taken, List.cons_append, scanToken, if_neg noStart, if_pos isNumberAgain, again]
  | case4 first rest noStart noNumber =>
      intro behind
      obtain ⟨tail, taken, again⟩ := scanMark_taken_of_rest behind breaks
      have text := text_scanMark memory first rest
      rw [Split.text, taken, List.cons_append] at text
      have noNumberAgain :
          ¬(isDecimalDigit first || startsPointedNumber first (tail ++ more)) = true := by
        rw [← (List.cons.inj text).2, Bool.not_eq_true, Bool.or_eq_false_iff] at noNumber
        rw [Bool.not_eq_true, Bool.or_eq_false_iff]
        exact ⟨noNumber.1, not_startsPointedNumber_append breaks noNumber.2⟩
      rw [taken, List.cons_append, scanToken, if_neg noStart, if_neg noNumberAgain, again]

end ScriptTree
