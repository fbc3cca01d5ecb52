import ScriptTree.Proofs.TokensInPlace

/-! # Spellings of tokens

A token whose kind has a fixed spelling is spelled so. Of the punctuators that a text starts with the
longest is taken, apart from a question mark in front of a number that starts with a point. A word without
escapes goes on as far as there are characters that continue one, and is a keyword exactly if it is spelled
as one. -/
set_option autoImplicit false
namespace ScriptTree

open Text

/-! ## Tables -/

namespace Kind

theorem text_of_isPunctuator : ∀ kind ∈ all, kind.isPunctuator = true → kind.text ≠ none := by
  decide +kernel

theorem ofKeyword?_of_isKeyword : ∀ kind ∈ all, kind.isKeyword = true →
    kind.text.bind ofKeyword? = some kind := by
  decide +kernel

theorem isKeyword_of_isPunctuator {kind : Kind} (punctuates : kind.isPunctuator = true) :
    kind.isKeyword = false := by
  simp only [isPunctuator, decide_eq_true_eq] at punctuates
  have early : question2Eq.raw < breakKw.raw ∧ question2Eq.raw < asyncKw.raw := by decide
  simp only [isKeyword, isReservedWord, isContextualKeyword, Bool.or_eq_false_iff, Bool.and_eq_false_iff,
    decide_eq_false_iff_not]
  omega

theorem ofKeyword?_eq_some_iff {word : String} {kind : Kind} :
    ofKeyword? word = some kind ↔ kind.isKeyword = true ∧ kind.text = some word := by
  refine ⟨text_of_ofKeyword?, fun ⟨keyword, spelled⟩ => ?_⟩
  have found := ofKeyword?_of_isKeyword kind kind.mem_all keyword
  rwa [spelled] at found

theorem ofKeyword?_getD_eq_iff {word : String} {kind : Kind} (keyword : kind.isKeyword = true) :
    (ofKeyword? word).getD .ident = kind ↔ kind.text = some word := by
  have spelled : ofKeyword? word = some kind ↔ kind.text = some word := by
    rw [ofKeyword?_eq_some_iff, and_iff_right keyword]
  rw [← spelled]
  cases ofKeyword? word with
  | none =>
      refine iff_of_false ?_ nofun
      rintro rfl
      cases keyword
  | some found => simp

end Kind

/-! ## What makes which token -/

/-- A kind that has no spelling and is no name. -/
def Kind.IsNameless (kind : Kind) : Prop := kind.text = none ∧ kind ≠ .ident ∧ kind ≠ .privateName

instance (kind : Kind) : Decidable kind.IsNameless :=
  inferInstanceAs (Decidable (kind.text = none ∧ kind ≠ .ident ∧ kind ≠ .privateName))

theorem Kind.isNameless_unknown : Kind.unknown.IsNameless := by decide

theorem Kind.isNameless_number : Kind.number.IsNameless := by decide

theorem Kind.isNameless_eof : Kind.eof.IsNameless := by decide

def StartsNoWord (text : List Char) : Prop := ∀ first ∈ text.head?, isIdentifierStart first = false

theorem startsNoWord_cons {first : Char} (rest : List Char) (other : isIdentifierStart first = false) :
    StartsNoWord (first :: rest) := by
  rintro char ⟨⟩
  exact other

/-- How tokens come about: what a text starts with, and the kind and the text of the token. -/
inductive ScansAs : List Char → Kind → List Char → Prop where
  | word {first : Char} (rest : List Char) (starts : isIdentifierStart first = true) :
      ScansAs (first :: rest) (scanWord first rest).1 (scanWord first rest).2.taken
  | escapedWord (rest : List Char) :
      ScansAs ('\\' :: rest) (scanEscapedWord rest).1 (scanEscapedWord rest).2.taken
  | privateName (rest : List Char) :
      ScansAs ('#' :: rest) (scanPrivateName rest).1 (scanPrivateName rest).2.taken
  | punctuator {source taken : List Char} {kind : Kind} (longest : LongestPunctuator source kind taken)
      (noWord : StartsNoWord source) : ScansAs source kind taken
  | question {rest : List Char} (pointed : beforePointedNumber rest = true) :
      ScansAs ('?' :: rest) .question ['?']
  | other {source taken : List Char} {kind : Kind} (nameless : kind.IsNameless)
      (noWord : StartsNoWord source) : ScansAs source kind taken

namespace ScansAs

variable {source taken : List Char}

theorem closedOrUnknown {kind : Kind} (nameless : kind.IsNameless) (noWord : StartsNoWord source)
    (text first : List Char) (scanned : Option Split) :
    ScansAs source (ScriptTree.closedOrUnknown kind text first scanned).1 taken := by
  cases scanned with
  | none => exact .other Kind.isNameless_unknown noWord
  | some split => exact .other nameless noWord

theorem template (memory : Memory) {closed continued : Kind} (isClosed : closed.IsNameless)
    (isContinued : continued.IsNameless) (noWord : StartsNoWord source) (first : Char) (rest : List Char) :
    ScansAs source (memory.template first rest closed continued).1 taken := by
  unfold Memory.template
  split
  · exact .other Kind.isNameless_unknown noWord
  · exact .other isClosed noWord
  · exact .other isContinued noWord

theorem closingBrace (memory : Memory) {rest : List Char} (noWord : StartsNoWord ('\x7d' :: rest)) :
    ScansAs ('\x7d' :: rest) (memory.closingBrace rest).1 (memory.closingBrace rest).2.1.taken := by
  have listed : (Kind.rightBrace, ['\x7d']) ∈ punctuators :=
    mem_punctuators_iff.mpr ⟨rfl, "\x7d", rfl, by decide⟩
  fun_cases Memory.closingBrace memory rest with
  | case1 => exact .template _ (by decide) (by decide) noWord _ _
  | case2 | case3 => exact .punctuator (.brace rest listed (.inr rfl)) noWord

theorem slash (previous : Option Kind) {rest : List Char} (noWord : StartsNoWord ('/' :: rest)) :
    ScansAs ('/' :: rest) (scanSlash previous rest).1 (scanSlash previous rest).2.taken := by
  fun_cases scanSlash previous rest with
  | case1 => exact .other Kind.isNameless_unknown noWord
  | case2 => exact .closedOrUnknown (by decide) noWord _ _ _
  | case3 => exact .punctuator (.division rest) noWord

theorem questionMark {rest : List Char} (noWord : StartsNoWord ('?' :: rest)) :
    ScansAs ('?' :: rest) (scanQuestionMark rest).1 (scanQuestionMark rest).2.taken := by
  cases pointed : beforePointedNumber rest with
  | true =>
      rw [scanQuestionMark_of_pointed pointed]
      exact .question pointed
  | false => exact .punctuator (.questionMark pointed) noWord

theorem otherwise {first : Char} {rest : List Char} (noWord : StartsNoWord (first :: rest))
    (other : first ∉ markStarts) :
    ScansAs (first :: rest) (decideAfter first (.after first) rest).1
      (decideAfter first (.after first) rest).2.taken := by
  rcases LongestPunctuator.after other rest with longest | unknown
  · exact .punctuator longest noWord
  · rw [unknown]
    exact .other Kind.isNameless_unknown noWord

theorem mark (memory : Memory) {first : Char} {rest : List Char} (noWord : StartsNoWord (first :: rest)) :
    ScansAs (first :: rest) (scanMark memory first rest).1 (scanMark memory first rest).2.1.taken := by
  have braces : (Kind.leftBrace, ['\x7b']) ∈ punctuators :=
    mem_punctuators_iff.mpr ⟨rfl, "\x7b", rfl, by decide⟩
  fun_cases scanMark memory first rest with
  | case1 | case2 => exact .closedOrUnknown (by decide) noWord _ _ _
  | case3 => exact .template memory (by decide) (by decide) noWord _ _
  | case4 => exact .escapedWord rest
  | case5 => exact .privateName rest
  | case6 => exact .slash _ noWord
  | case7 => exact .punctuator (.brace rest braces (.inl rfl)) noWord
  | case8 => exact .closingBrace memory noWord
  | case9 => exact .punctuator (.points rest) noWord
  | case10 => exact .questionMark noWord
  | case11 => exact .otherwise noWord (by simp_all [markStarts])

end ScansAs

theorem scansAs_scanToken (memory : Memory) (source : List Char) :
    ScansAs source (scanToken memory source).1 (scanToken memory source).2.1.taken := by
  fun_cases scanToken memory source with
  | case1 => exact .other Kind.isNameless_eof (by simp [StartsNoWord])
  | case2 first rest starts => exact .word rest starts
  | case3 first rest noWord =>
      exact .other Kind.isNameless_number (startsNoWord_cons rest (by simpa using noWord))
  | case4 first rest noWord => exact .mark memory (startsNoWord_cons rest (by simpa using noWord))

/-! ## Words without escapes -/

/-- Where no escape is taken, an identifier goes on as far as there are characters that continue one. -/
theorem Scan.identifierWithin_of_plain {budget text : List Char} (enough : text.length ≤ budget.length)
    (plain : '\\' ∉ (identifierWithin budget text).2.taken) :
    identifierWithin budget text = (false, Split.run isIdentifierPart text) := by
  fun_induction identifierWithin budget text with
  | case1 text =>
      obtain rfl := List.length_eq_zero_iff.mp (Nat.le_zero.mp enough)
      rfl
  | case2 => rfl
  | case3 | case4 => exact absurd (by simp [Split.after]) plain
  | case5 _ budget char rest _ part escaped more inside ih =>
      rw [inside] at ih
      have further := ih (by simpa using enough) fun later => plain (by simp [Split.after, later])
      cases further
      simp [Split.after, Split.run, part]
  | case6 _ budget char rest _ other => simp [Split.run, other]

theorem Scan.identifierRest_of_plain {text : List Char} (plain : '\\' ∉ (identifierRest text).2.taken) :
    identifierRest text = (false, Split.run isIdentifierPart text) :=
  identifierWithin_of_plain (Nat.le_refl text.length) plain

theorem scanWord_snd (first : Char) (rest : List Char) :
    (scanWord first rest).2 = (Scan.identifierRest rest).2.after [first] := by
  unfold scanWord
  dsimp only
  split <;> rfl

theorem kind_scanWord (first : Char) (rest : List Char) :
    (scanWord first rest).1 = .ident ∨
      Kind.ofKeyword? (String.ofList (scanWord first rest).2.taken) = some (scanWord first rest).1 := by
  rw [scanWord_snd]
  unfold scanWord
  dsimp only
  split
  · rename_i keyword found
    split
    · exact .inl rfl
    · exact .inr found
  · exact .inl rfl

theorem kind_scanEscapedWord (rest : List Char) :
    (scanEscapedWord rest).1 = .ident ∨ (scanEscapedWord rest).1 = .unknown := by
  unfold scanEscapedWord
  split
  · exact .inr rfl
  · exact .inl rfl

theorem kind_scanPrivateName (rest : List Char) :
    (scanPrivateName rest).1 = .privateName ∨ (scanPrivateName rest).1 = .unknown := by
  unfold scanPrivateName
  split
  · exact .inr rfl
  · exact .inl rfl

theorem text_kind_scanEscapedWord (rest : List Char) : (scanEscapedWord rest).1.text = none := by
  rcases kind_scanEscapedWord rest with same | same <;> rw [same] <;> rfl

theorem text_kind_scanPrivateName (rest : List Char) : (scanPrivateName rest).1.text = none := by
  rcases kind_scanPrivateName rest with same | same <;> rw [same] <;> rfl

theorem scanWord_of_plain {first : Char} {rest : List Char} (starts : isIdentifierStart first = true)
    (plain : '\\' ∉ (scanWord first rest).2.taken) :
    (scanWord first rest).2.taken = (first :: rest).takeWhile isIdentifierPart ∧
      (scanWord first rest).1 =
        (Kind.ofKeyword? (String.ofList (scanWord first rest).2.taken)).getD .ident := by
  have part : isIdentifierPart first = true := by simp [isIdentifierPart, starts]
  rw [scanWord_snd] at plain ⊢
  have run : Scan.identifierRest rest = (false, Split.run isIdentifierPart rest) :=
    Scan.identifierRest_of_plain fun later => plain (by simp [Split.after, later])
  refine ⟨by simp [run, Split.after, Split.run, part], ?_⟩
  simp only [scanWord, run]
  cases Kind.ofKeyword? (String.ofList ((Split.run isIdentifierPart rest).after [first]).taken) <;> rfl

/-! ## What is said of each token -/

theorem Kind.text_ne_none {kind : Kind} (spelled : kind.isPunctuator = true ∨ kind.isKeyword = true) :
    kind.text ≠ none := by
  intro none
  rcases spelled with punctuates | keyword
  · exact text_of_isPunctuator kind kind.mem_all punctuates none
  · have found := ofKeyword?_of_isKeyword kind kind.mem_all keyword
    rw [none] at found
    cases found

/-- A question mark in front of a number that starts with a point. -/
def BeforePointedNumber (text : List Char) : Prop :=
  ∃ digit rest, text = '?' :: '.' :: digit :: rest ∧ isDecimalDigit digit = true

theorem exists_of_beforePointedNumber {rest : List Char} (pointed : beforePointedNumber rest = true) :
    ∃ digit behind, rest = '.' :: digit :: behind ∧ isDecimalDigit digit = true := by
  unfold beforePointedNumber at pointed
  split at pointed
  · exact ⟨_, _, rfl, pointed⟩
  · cases pointed

namespace ScansAs

variable {source taken : List Char} {kind : Kind}

theorem eq_spelling (scans : ScansAs source kind taken) {spelling : String}
    (spelled : kind.text = some spelling) : taken = spelling.toList := by
  cases scans with
  | @word first rest starts =>
      rcases kind_scanWord first rest with ident | keyword
      · rw [ident] at spelled
        cases spelled
      · rw [(Kind.text_of_ofKeyword? keyword).2] at spelled
        cases spelled
        exact String.toList_ofList.symm
  | escapedWord rest =>
      rw [text_kind_scanEscapedWord] at spelled
      cases spelled
  | privateName rest =>
      rw [text_kind_scanPrivateName] at spelled
      cases spelled
  | punctuator longest =>
      obtain ⟨-, other, same, rfl⟩ := mem_punctuators_iff.mp longest.listed
      cases spelled.symm.trans same
      rfl
  | question =>
      cases spelled
      rfl
  | other nameless =>
      rw [nameless.1] at spelled
      cases spelled

/-- Of the punctuators in front the longest is taken, with the one exception. -/
theorem length_le (scans : ScansAs source kind taken) (punctuates : kind.isPunctuator = true)
    {entry : Kind × List Char} (listed : entry ∈ punctuators) (starts : entry.2 <+: source) :
    entry.2.length ≤ taken.length ∨
      kind = .question ∧ entry.1 = .questionDot ∧ BeforePointedNumber source := by
  cases scans with
  | @word first rest =>
      rcases kind_scanWord first rest with ident | keyword
      · rw [ident] at punctuates
        cases punctuates
      · have word := (Kind.text_of_ofKeyword? keyword).1
        rw [Kind.isKeyword_of_isPunctuator punctuates] at word
        cases word
  | escapedWord rest =>
      exact absurd (text_kind_scanEscapedWord rest) (Kind.text_ne_none (.inl punctuates))
  | privateName rest =>
      exact absurd (text_kind_scanPrivateName rest) (Kind.text_ne_none (.inl punctuates))
  | punctuator longest => exact .inl (longest.longest entry listed starts)
  | @question rest pointed =>
      -- The second character is a point, so `??` is not in front.
      obtain ⟨digit, behind, rfl, isDigit⟩ := exists_of_beforePointedNumber pointed
      obtain ⟨word, others⟩ := entry
      match others, starts, listed with
      | [], _, _ => exact .inl (Nat.zero_le _)
      | [first], _, _ => exact .inl (Nat.le_refl _)
      | first :: second :: others, starts, listed =>
          obtain ⟨rfl, further⟩ := List.cons_prefix_cons.mp starts
          obtain ⟨rfl, -⟩ := List.cons_prefix_cons.mp further
          rcases (ofSharedStart_of_mem listed).question rfl with pair | decided
          · exact .inr ⟨rfl, congrArg Prod.fst pair, digit, behind, rfl, isDigit⟩
          · have short := @Decision.length_le_of_isApart .questionMark (by decide) ('.' :: others) _ decided
              (List.prefix_rfl)
            simp [Decision.questionMark, Decision.run] at short
  | other nameless => exact absurd nameless.1 (Kind.text_ne_none (.inl punctuates))

/-- A word without a backslash is as long as it can be, and its text tells its kind. -/
theorem eq_takeWhile (scans : ScansAs source kind taken)
    (word : kind = .ident ∨ kind.isKeyword = true ∨ ¬StartsNoWord source) (plain : '\\' ∉ taken) :
    taken = source.takeWhile isIdentifierPart ∧
      kind = (Kind.ofKeyword? (String.ofList taken)).getD .ident := by
  have refuse : ¬(kind ≠ .ident ∧ kind.isKeyword = false ∧ StartsNoWord source) := by
    rintro ⟨other, noKeyword, noWord⟩
    rcases word with ident | keyword | starts
    · exact other ident
    · rw [noKeyword] at keyword
      cases keyword
    · exact starts noWord
  cases scans with
  | word rest starts => exact scanWord_of_plain starts plain
  | escapedWord rest =>
      refine absurd ?_ plain
      unfold scanEscapedWord
      split <;> simp [Split.after]
  | privateName rest =>
      have noWord : StartsNoWord ('#' :: rest) := startsNoWord_cons rest (by decide +kernel)
      rcases kind_scanPrivateName rest with name | unknown
      · exact absurd ⟨by rw [name]; decide, by rw [name]; rfl, noWord⟩ refuse
      · exact absurd ⟨by rw [unknown]; decide, by rw [unknown]; rfl, noWord⟩ refuse
  | punctuator longest noWord =>
      have punctuates := (mem_punctuators_iff.mp longest.listed).1
      refine absurd ⟨?_, Kind.isKeyword_of_isPunctuator punctuates, noWord⟩ refuse
      rintro rfl
      cases punctuates
  | question =>
      exact absurd ⟨by decide, rfl, startsNoWord_cons _ (by decide +kernel)⟩ refuse
  | other nameless noWord =>
      refine absurd ⟨nameless.2.1, ?_, noWord⟩ refuse
      by_contra keyword
      exact Kind.text_ne_none (.inr (by simpa using keyword)) nameless.1

end ScansAs

/-! ## The tokens of a text -/

/-- A token of a text whose kind has a spelling is spelled so. No punctuator in front of a punctuator is
longer, but for `?.` where it belongs to a question mark and a number. A token that is a word or starts as
one, and has no backslash, takes all characters that continue a word; it is a keyword exactly if it is
spelled as that keyword, and an identifier otherwise. -/
theorem tokenize_spells_longest {text : List Char} {index : Nat} {token : Token}
    (here : (tokenize text).tokens[index]? = some token) :
    (∀ spelling, token.kind.text = some spelling →
      (tokenize text).tokenText token = spelling.toList) ∧
    (token.kind.isPunctuator = true → ∀ (other : Kind) (spelling : String), other.isPunctuator = true →
      other.text = some spelling → spelling.toList <+: (tokenize text).ahead token →
        spelling.toList.length ≤ ((tokenize text).tokenText token).length ∨
          token.kind = .question ∧ other = .questionDot ∧
            BeforePointedNumber ((tokenize text).ahead token)) ∧
    (token.kind = .ident ∨ token.kind.isKeyword = true ∨
        (∃ first ∈ ((tokenize text).ahead token).head?, isIdentifierStart first = true) →
      '\\' ∉ (tokenize text).tokenText token →
        (tokenize text).tokenText token = ((tokenize text).ahead token).takeWhile isIdentifierPart ∧
        (∀ keyword : Kind, keyword.isKeyword = true → (token.kind = keyword ↔
          keyword.text = some (String.ofList ((tokenize text).tokenText token)))) ∧
        ((∀ keyword : Kind, keyword.isKeyword = true →
          keyword.text ≠ some (String.ofList ((tokenize text).tokenText token))) →
            token.kind = .ident)) := by
  obtain ⟨memory, finds⟩ := exists_finds here
  have scans := scansAs_scanToken memory ((tokenize text).ahead token)
  rw [← finds.kind, ← finds.text] at scans
  refine ⟨fun spelling => scans.eq_spelling, fun punctuates other spelling isOther spelled starts => ?_,
    fun word plain => ?_⟩
  · exact scans.length_le punctuates (mem_punctuators_iff.mpr ⟨isOther, spelling, spelled, rfl⟩) starts
  · obtain ⟨longest, kind⟩ := scans.eq_takeWhile (word.imp_right (Or.imp_right (by
      rintro ⟨first, leads, starts⟩ noWord
      rw [noWord first leads] at starts
      cases starts))) plain
    refine ⟨longest, fun keyword isKeyword => ?_, fun none => ?_⟩
    · rw [kind]
      exact Kind.ofKeyword?_getD_eq_iff isKeyword
    · rw [kind]
      cases found : Kind.ofKeyword? (String.ofList ((tokenize text).tokenText token)) with
      | none => rfl
      | some keyword =>
          obtain ⟨isKeyword, spelled⟩ := Kind.text_of_ofKeyword? found
          exact absurd spelled (none keyword isKeyword)

/-- The question mark and the point in `a?.5>>>=if_` are two tokens, and the keyword goes on. -/
theorem tokenize_spells_longest_of_question :
    let text := ['a', '?', '.', '5', '>', '>', '>', '=', 'i', 'f', '_']
    let question : Token := ⟨.empty, .question, ⟨1, 2⟩, .empty⟩
    let shift : Token := ⟨.empty, .ushrEq, ⟨4, 8⟩, .empty⟩
    let name : Token := ⟨.empty, .ident, ⟨8, 11⟩, .empty⟩
    ((tokenize text).tokens[1]? = some question ∧ (tokenize text).tokenText question = ['?'] ∧
      BeforePointedNumber ((tokenize text).ahead question)) ∧
    ((tokenize text).tokens[3]? = some shift ∧ (tokenize text).tokenText shift = ['>', '>', '>', '=']) ∧
    (tokenize text).tokens[4]? = some name ∧
      (tokenize text).tokenText name = ((tokenize text).ahead name).takeWhile isIdentifierPart := by
  intro text question shift name
  have first : (tokenize text).tokens[1]? = some question := by decide +kernel
  have second : (tokenize text).tokens[3]? = some shift := by decide +kernel
  have third : (tokenize text).tokens[4]? = some name := by decide +kernel
  have spelled := (tokenize_spells_longest first).1 "?" rfl
  have plain : '\\' ∉ (tokenize text).tokenText name := by decide +kernel
  refine ⟨⟨first, spelled, ?_⟩, ⟨second, (tokenize_spells_longest second).1 ">>>=" rfl⟩, third,
    ((tokenize_spells_longest third).2.2 (.inl rfl) plain).1⟩
  have pair : "?.".toList <+: (tokenize text).ahead question := by decide +kernel
  rcases (tokenize_spells_longest first).2.1 rfl .questionDot "?." rfl rfl pair with short | pointed
  · rw [spelled] at short
    exact absurd short (by decide)
  · exact pointed.2.2

end ScriptTree
