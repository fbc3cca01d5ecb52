import ScriptTree.Proofs.TokensInPlace

/-! # Delimited literals

Strings, the parts of templates and regular expressions are told by what closes them. Their grammars are
given here without the scanners: what stands behind the character that opens a literal, up to the first end
that is not escaped. A scanner finds such an end exactly if there is one; otherwise the rest of the text is
one unknown token. -/
set_option autoImplicit false
namespace ScriptTree

open Text

/-! ## Grammars -/

/-- What stands behind the quote that opens a string, with the quote that closes it. A line feed behind an
escaped carriage return is escaped with it. -/
inductive StringTail (quote : Char) : List Char → Prop where
  | close : StringTail quote [quote]
  | plain {char : Char} {rest : List Char}
      (ordinary : char ≠ quote ∧ char ≠ '\\' ∧ char ≠ '\n' ∧ char ≠ '\r')
      (further : StringTail quote rest) : StringTail quote (char :: rest)
  | escape {char : Char} {rest : List Char} (further : StringTail quote rest) :
      StringTail quote ('\\' :: char :: rest)
  | escapedPair {rest : List Char} (further : StringTail quote rest) :
      StringTail quote ('\\' :: '\r' :: '\n' :: rest)

/-- What stands behind the character that opens a part of a template, with what ends it: a substitution if
the template is continued. -/
inductive TemplateTail : Bool → List Char → Prop where
  | close : TemplateTail false ['\x60']
  | substitute : TemplateTail true ['$', '\x7b']
  | plain {continued : Bool} {char : Char} {rest : List Char} (ordinary : char ≠ '\x60' ∧ char ≠ '\\')
      (noSubstitution : char = '$' → rest.head? ≠ some '\x7b') (further : TemplateTail continued rest) :
      TemplateTail continued (char :: rest)
  | escape {continued : Bool} {char : Char} {rest : List Char} (further : TemplateTail continued rest) :
      TemplateTail continued ('\\' :: char :: rest)

/-- What stands behind the bracket that opens a class of characters, with the bracket that closes it. -/
inductive ClassTail : List Char → Prop where
  | close : ClassTail [']']
  | plain {char : Char} {rest : List Char}
      (ordinary : char ≠ ']' ∧ char ≠ '\\' ∧ isLineTerminator char = false) (further : ClassTail rest) :
      ClassTail (char :: rest)
  | escape {char : Char} {rest : List Char} (onLine : isLineTerminator char = false)
      (further : ClassTail rest) : ClassTail ('\\' :: char :: rest)

/-- What stands behind the slash that opens a regular expression, with the slash that closes it. -/
inductive RegexTail : List Char → Prop where
  | close : RegexTail ['/']
  | plain {char : Char} {rest : List Char}
      (ordinary : char ≠ '/' ∧ char ≠ '[' ∧ char ≠ '\\' ∧ isLineTerminator char = false)
      (further : RegexTail rest) : RegexTail (char :: rest)
  | escape {char : Char} {rest : List Char} (onLine : isLineTerminator char = false)
      (further : RegexTail rest) : RegexTail ('\\' :: char :: rest)
  | inClass {members rest : List Char} (closes : ClassTail members) (further : RegexTail rest) :
      RegexTail ('[' :: (members ++ rest))

/-- A literal from the character that opens it to what closes it, and the kind of its token. The flags of a
regular expression stand behind. -/
inductive Delimited : Kind → List Char → Prop where
  | string {quote : Char} {tail : List Char} (isQuote : quote = '\x22' ∨ quote = '\x27')
      (closes : StringTail quote tail) : Delimited .string (quote :: tail)
  | template {tail : List Char} (closes : TemplateTail false tail) :
      Delimited .noSubstitutionTemplate ('\x60' :: tail)
  | templateHead {tail : List Char} (closes : TemplateTail true tail) :
      Delimited .templateHead ('\x60' :: tail)
  | templateMiddle {tail : List Char} (closes : TemplateTail true tail) :
      Delimited .templateMiddle ('\x7d' :: tail)
  | templateTail {tail : List Char} (closes : TemplateTail false tail) :
      Delimited .templateTail ('\x7d' :: tail)
  | regex {tail : List Char} (closes : RegexTail tail) : Delimited .regex ('/' :: tail)

def Kind.flags (kind : Kind) (rest : List Char) : List Char :=
  if kind = .regex then rest.takeWhile isIdentifierPart else []

/-- A text at an index of a stream that starts with a character that opens a delimited literal there. -/
inductive TokenStream.OpensLiteral (stream : TokenStream) (index : Nat) : List Char → Prop where
  | quote {quote : Char} {rest : List Char} (isQuote : quote = '\x22' ∨ quote = '\x27') :
      OpensLiteral stream index (quote :: rest)
  | backtick {rest : List Char} : OpensLiteral stream index ('\x60' :: rest)
  | brace {rest : List Char} (continues : stream.ContinuesTemplate index) :
      OpensLiteral stream index ('\x7d' :: rest)
  /-- A comment up to the end of the line is trivia, so no token starts with two slashes. -/
  | slash {rest : List Char} (starts : slashStartsRegex (stream.kindsBefore index).getLast? = true)
      (noComment : rest.head? ≠ some '*') : OpensLiteral stream index ('/' :: rest)

/-! ## Scanners and grammars -/

namespace Scan

theorem stringTail_of_string {quote : Char} {source : List Char} {split : Split}
    (found : string quote source = some split) : StringTail quote split.taken := by
  fun_induction string quote source generalizing split with
  | case1 => cases found
  | case2 rest ih =>
      obtain ⟨inner, inside, rfl⟩ := Option.map_eq_some_iff.mp found
      exact .escapedPair (ih inside)
  | case3 char rest _ ih =>
      obtain ⟨inner, inside, rfl⟩ := Option.map_eq_some_iff.mp found
      exact .escape (ih inside)
  | case4 =>
      cases found
      exact .close
  | case5 => cases found
  | case6 char rest noPair noEscape noQuote noBreak ih =>
      obtain ⟨inner, inside, rfl⟩ := Option.map_eq_some_iff.mp found
      rw [not_or] at noBreak
      refine .plain ⟨noQuote, ?_, noBreak⟩ (ih inside)
      rintro rfl
      cases rest with
      | nil => cases inside
      | cons next rest => exact noEscape next rest rfl rfl

/-- Nothing but an escape takes a line feed. -/
theorem head?_of_stringTail {quote : Char} {tail : List Char} (noFeed : quote ≠ '\n')
    (closes : StringTail quote tail) : tail.head? ≠ some '\n' := by
  cases closes with
  | close => simpa using noFeed
  | plain ordinary => simpa using ordinary.2.2.1
  | escape | escapedPair => simp

theorem string_append {quote : Char} {tail : List Char} (isQuote : quote = '\x22' ∨ quote = '\x27')
    (closes : StringTail quote tail) (rest : List Char) :
    string quote (tail ++ rest) = some ⟨tail, rest⟩ := by
  have plainQuote : quote ≠ '\\' ∧ quote ≠ '\n' := by rcases isQuote with rfl | rfl <;> decide
  induction closes with
  | close =>
      rw [List.singleton_append, string, if_pos rfl]
      · exact fun _ same => absurd same plainQuote.1
      · exact fun _ _ same => absurd same plainQuote.1
  | @plain char behind ordinary further ih =>
      rw [List.cons_append, string, if_neg ordinary.1, if_neg (by simp [ordinary.2.2]), ih]
      · rfl
      · exact fun _ same => absurd same ordinary.2.1
      · exact fun _ _ same => absurd same ordinary.2.1
  | @escape char behind further ih =>
      rw [List.cons_append, List.cons_append, string, ih]
      · rfl
      · rintro more rfl same
        -- The text behind an escape does not start with a line feed.
        have feeds := head?_of_stringTail plainQuote.2 further
        cases behind with
        | nil => cases further
        | cons next behind =>
            rw [List.cons_append] at same
            exact feeds (by rw [(List.cons.inj same).1]; rfl)
  | escapedPair further ih =>
      rw [List.cons_append, List.cons_append, List.cons_append, string, ih]
      rfl

theorem templateTail_of_template {source : List Char} {continued : Bool} {split : Split}
    (found : template source = some (continued, split)) : TemplateTail continued split.taken := by
  fun_induction template source generalizing continued split with
  | case1 => cases found
  | case2 =>
      cases found
      exact .close
  | case3 =>
      cases found
      exact .substitute
  | case4 char rest ih =>
      obtain ⟨⟨_, inner⟩, inside, same⟩ := Option.map_eq_some_iff.mp found
      cases same
      exact .escape (ih inside)
  | case5 char rest noEnd noSubstitution noEscape ih =>
      obtain ⟨⟨_, inner⟩, inside, same⟩ := Option.map_eq_some_iff.mp found
      cases same
      have kept := text_template inside
      refine .plain ⟨noEnd, ?_⟩ ?_ (ih inside)
      · rintro rfl
        cases rest with
        | nil => cases inside
        | cons next rest => exact noEscape next rest rfl rfl
      · rintro rfl brace
        obtain ⟨others, taken⟩ : ∃ others, inner.taken = '\x7b' :: others :=
          List.head?_eq_some_iff.mp brace
        rw [Split.text, taken] at kept
        exact noSubstitution _ rfl kept.symm

theorem template_append {continued : Bool} {tail : List Char} (closes : TemplateTail continued tail)
    (rest : List Char) : template (tail ++ rest) = some (continued, ⟨tail, rest⟩) := by
  induction closes with
  | close => rfl
  | substitute => rfl
  | @plain continued char behind ordinary noSubstitution further ih =>
      rw [List.cons_append, template, ih]
      · rfl
      · exact ordinary.1
      · rintro more rfl same
        cases behind with
        | nil => cases further
        | cons next behind =>
            rw [List.cons_append] at same
            exact noSubstitution rfl (by rw [(List.cons.inj same).1]; rfl)
      · exact fun _ _ same => absurd same ordinary.2
  | escape further ih =>
      rw [List.cons_append, List.cons_append, template, ih]
      rfl

/-- Inside a class of characters the expression goes on behind it. -/
def RegexRest : Bool → List Char → Prop
  | false, taken => RegexTail taken
  | true, taken => ∃ members rest, taken = members ++ rest ∧ ClassTail members ∧ RegexTail rest

theorem regexRest_of_regexBody {inClass : Bool} {source : List Char} {split : Split}
    (found : regexBody inClass source = some split) : RegexRest inClass split.taken := by
  fun_induction regexBody inClass source generalizing split with
  | case1 | case2 | case4 => cases found
  | case3 inClass char rest onLine ih =>
      obtain ⟨inner, inside, rfl⟩ := Option.map_eq_some_iff.mp found
      have further := ih inside
      cases inClass with
      | false => exact .escape (by simpa using onLine) further
      | true =>
          obtain ⟨members, behind, taken, closes, goesOn⟩ := further
          refine ⟨'\\' :: char :: members, behind, by simp [Split.after, taken], ?_, goesOn⟩
          exact .escape (by simpa using onLine) closes
  | case5 inClass char rest noEscape onLine ends =>
      cases found
      obtain ⟨rfl, rfl⟩ := ends
      exact .close
  | case6 inClass char rest noEscape onLine goesOn inside =>
      rename_i ih
      obtain ⟨inner, within, rfl⟩ := Option.map_eq_some_iff.mp found
      have further := ih within
      have plain : char ≠ '\\' := by
        rintro rfl
        cases rest with
        | nil => cases within
        | cons next rest => exact noEscape next rest rfl rfl
      have onLine : isLineTerminator char = false := by simpa using onLine
      cases inClass with
      | false =>
          by_cases opens : char = '['
          · subst opens
            obtain ⟨members, behind, taken, closes, goesOn⟩ := further
            have whole : RegexTail ('[' :: (members ++ behind)) := .inClass closes goesOn
            rwa [← taken] at whole
          · have outside : inside = false := by simp [inside, opens]
            rw [outside] at further
            exact .plain ⟨fun slash => goesOn ⟨slash, rfl⟩, opens, plain, onLine⟩ further
      | true =>
          by_cases closes : char = ']'
          · subst closes
            exact ⟨[']'], inner.taken, rfl, .close, further⟩
          · have outside : inside = true := by simp [inside, closes]
            rw [outside] at further
            obtain ⟨members, behind, taken, closed, goesOn⟩ := further
            refine ⟨char :: members, behind, by simp [Split.after, taken], ?_, goesOn⟩
            exact .plain ⟨closes, plain, onLine⟩ closed

theorem regexBody_cons {inClass : Bool} {char : Char} (rest : List Char) (plain : char ≠ '\\')
    (onLine : isLineTerminator char = false) (goesOn : ¬(char = '/' ∧ inClass = false)) :
    regexBody inClass (char :: rest) =
      (regexBody (if char = '[' then true else if char = ']' then false else inClass) rest).map
        (Split.after [char]) := by
  rw [regexBody, if_neg (by simp [onLine]), if_neg goesOn]
  exact fun _ _ same => absurd same plain

theorem regexBody_escape {inClass : Bool} {char : Char} (rest : List Char)
    (onLine : isLineTerminator char = false) :
    regexBody inClass ('\\' :: char :: rest) =
      (regexBody inClass rest).map (Split.after ['\\', char]) := by
  rw [regexBody, if_neg (by simp [onLine])]

theorem regexBody_class {members : List Char} (closes : ClassTail members) (more : List Char) :
    regexBody true (members ++ more) = (regexBody false more).map (Split.after members) := by
  have joined : ∀ (first members : List Char) (found : Option Split),
      (found.map (Split.after members)).map (Split.after first) =
        found.map (Split.after (first ++ members)) := by
    intro first members found
    cases found <;> simp [Split.after]
  induction closes with
  | close =>
      rw [List.singleton_append, regexBody_cons more (by decide) (by decide) (by decide)]
      rfl
  | @plain char behind ordinary further ih =>
      rw [List.cons_append, regexBody_cons _ ordinary.2.1 ordinary.2.2 (by simp), if_neg ordinary.1,
        ite_self, ih, joined]
      rfl
  | escape onLine further ih =>
      rw [List.cons_append, List.cons_append, regexBody_escape _ onLine, ih, joined]
      rfl

theorem regexBody_append {tail : List Char} (closes : RegexTail tail) (rest : List Char) :
    regexBody false (tail ++ rest) = some ⟨tail, rest⟩ := by
  induction closes with
  | close => simp [regexBody, isLineTerminator]
  | @plain char behind ordinary further ih =>
      obtain ⟨noEnd, noClass, plain, onLine⟩ := ordinary
      rw [List.cons_append, regexBody_cons _ plain onLine fun ends => noEnd ends.1, if_neg noClass,
        ite_self, ih]
      rfl
  | escape onLine further ih =>
      rw [List.cons_append, List.cons_append, regexBody_escape _ onLine, ih]
      rfl
  | inClass closes further ih =>
      rw [List.cons_append, List.append_assoc, regexBody_cons _ (by decide) (by decide) (by decide),
        if_pos rfl, regexBody_class closes, ih]
      rfl

end Scan

/-! ## What a first character opens -/

section

variable {form : Kind} {tail : List Char}

theorem delimited_quote_iff {quote : Char} (isQuote : quote = '\x22' ∨ quote = '\x27') :
    Delimited form (quote :: tail) ↔ form = .string ∧ StringTail quote tail := by
  constructor
  · intro delimited
    cases delimited with
    | string _ closes => exact ⟨rfl, closes⟩
    | _ => exact absurd isQuote (by decide)
  · rintro ⟨rfl, closes⟩
    exact .string isQuote closes

theorem delimited_backtick_iff : Delimited form ('\x60' :: tail) ↔ ∃ continued : Bool,
    form = (if continued then .templateHead else .noSubstitutionTemplate) ∧ TemplateTail continued tail := by
  constructor
  · intro delimited
    cases delimited with
    | string isQuote => exact absurd isQuote (by decide)
    | template closes => exact ⟨false, rfl, closes⟩
    | templateHead closes => exact ⟨true, rfl, closes⟩
  · rintro ⟨continued, rfl, closes⟩
    cases continued with
    | false => exact .template closes
    | true => exact .templateHead closes

theorem delimited_brace_iff : Delimited form ('\x7d' :: tail) ↔ ∃ continued : Bool,
    form = (if continued then .templateMiddle else .templateTail) ∧ TemplateTail continued tail := by
  constructor
  · intro delimited
    cases delimited with
    | string isQuote => exact absurd isQuote (by decide)
    | templateMiddle closes => exact ⟨true, rfl, closes⟩
    | templateTail closes => exact ⟨false, rfl, closes⟩
  · rintro ⟨continued, rfl, closes⟩
    cases continued with
    | false => exact .templateTail closes
    | true => exact .templateMiddle closes

theorem delimited_slash_iff : Delimited form ('/' :: tail) ↔ form = .regex ∧ RegexTail tail := by
  constructor
  · intro delimited
    cases delimited with
    | string isQuote => exact absurd isQuote (by decide)
    | regex closes => exact ⟨rfl, closes⟩
  · rintro ⟨rfl, closes⟩
    exact .regex closes

theorem Delimited.exists_cons {taken : List Char} (delimited : Delimited form taken) :
    ∃ first tail, taken = first :: tail := by
  cases delimited <;> exact ⟨_, _, rfl⟩

end

theorem TokenStream.OpensLiteral.exists_cons {stream : TokenStream} {index : Nat} {source : List Char}
    (opens : stream.OpensLiteral index source) : ∃ first rest, source = first :: rest := by
  cases opens <;> exact ⟨_, _, rfl⟩

/-! ## Tokens that open literals -/

/-- What is scanned is the literal that a text starts with, and its flags, if it starts with one. Otherwise
it is unknown, and takes the whole text. -/
structure ReadsLiteral (first : Char) (rest : List Char) (kind : Kind) (split : Split) : Prop where
  closed : ∀ form tail more, Delimited form (first :: tail) → rest = tail ++ more →
    kind = form ∧ split.taken = first :: (tail ++ form.flags more)
  unclosed : (∀ form tail more, Delimited form (first :: tail) → rest ≠ tail ++ more) →
    kind = .unknown ∧ split = Split.whole (first :: rest)

namespace ReadsLiteral

variable {rest : List Char}

theorem string {quote : Char} (isQuote : quote = '\x22' ∨ quote = '\x27') :
    ReadsLiteral quote rest
      (closedOrUnknown .string (quote :: rest) [quote] (Scan.string quote rest)).1
      (closedOrUnknown .string (quote :: rest) [quote] (Scan.string quote rest)).2 := by
  constructor
  · rintro form tail more delimited rfl
    obtain ⟨rfl, closes⟩ := (delimited_quote_iff isQuote).mp delimited
    rw [Scan.string_append isQuote closes]
    exact ⟨rfl, by simp [closedOrUnknown, Split.after, Kind.flags]⟩
  · intro none
    cases found : Scan.string quote rest with
    | none => exact ⟨rfl, rfl⟩
    | some split =>
        have closes := Scan.stringTail_of_string found
        exact absurd (Scan.text_string found).symm
          (none .string _ _ ((delimited_quote_iff isQuote).mpr ⟨rfl, closes⟩))

theorem template (memory : Memory) {first : Char} {closed continued : Kind}
    (noFlags : closed ≠ .regex ∧ continued ≠ .regex)
    (opens : ∀ {form : Kind} {tail : List Char}, Delimited form (first :: tail) ↔ ∃ isContinued : Bool,
      form = (if isContinued then continued else closed) ∧ TemplateTail isContinued tail) :
    ReadsLiteral first rest (memory.template first rest closed continued).1
      (memory.template first rest closed continued).2.1 := by
  constructor
  · rintro form tail more delimited rfl
    obtain ⟨isContinued, rfl, closes⟩ := opens.mp delimited
    rw [Memory.template, Scan.template_append closes]
    cases isContinued with
    | false => exact ⟨rfl, by simp [Split.after, Kind.flags, noFlags]⟩
    | true => exact ⟨rfl, by simp [Split.after, Kind.flags, noFlags]⟩
  · intro none
    rw [Memory.template]
    cases found : Scan.template rest with
    | none => exact ⟨rfl, rfl⟩
    | some scanned =>
        obtain ⟨isContinued, split⟩ := scanned
        have closes := Scan.templateTail_of_template found
        exact absurd (Scan.text_template found).symm (none _ _ _ (opens.mpr ⟨isContinued, rfl, closes⟩))

theorem regex : ReadsLiteral '/' rest
    (closedOrUnknown .regex ('/' :: rest) ['/'] (Scan.regex rest)).1
    (closedOrUnknown .regex ('/' :: rest) ['/'] (Scan.regex rest)).2 := by
  constructor
  · rintro form tail more delimited rfl
    obtain ⟨rfl, closes⟩ := delimited_slash_iff.mp delimited
    rw [Scan.regex, Scan.regexBody_append closes]
    exact ⟨rfl, by simp [closedOrUnknown, Split.andThen, Split.run, Split.after, Kind.flags]⟩
  · intro none
    cases found : Scan.regexBody false rest with
    | none =>
        rw [Scan.regex, found]
        exact ⟨rfl, rfl⟩
    | some body =>
        have closes : RegexTail body.taken := Scan.regexRest_of_regexBody found
        exact absurd (Scan.text_regexBody found).symm
          (none .regex _ _ (delimited_slash_iff.mpr ⟨rfl, closes⟩))

end ReadsLiteral

theorem closingBrace_of_continues {memory : Memory}
    (continues : memory.substitutions.head? = some memory.braceDepth) (rest : List Char) : ∃ outer, memory.closingBrace rest =
      { memory with substitutions := outer }.template '\x7d' rest .templateTail .templateMiddle := by
  obtain ⟨outer, opened⟩ := List.head?_eq_some_iff.mp continues
  exact ⟨outer, by simp [Memory.closingBrace, opened]⟩

theorem scanSlash_of_regex {previous : Option Kind} {rest : List Char}
    (starts : slashStartsRegex previous = true) (noComment : rest.head? ≠ some '*') :
    scanSlash previous rest = closedOrUnknown .regex ('/' :: rest) ['/'] (Scan.regex rest) := by
  fun_cases scanSlash previous rest with
  | case1 => exact absurd rfl noComment
  | case2 => rfl
  | case3 _ divides => exact absurd starts divides

theorem scanToken_slash (memory : Memory) (rest : List Char) :
    scanToken memory ('/' :: rest) = memory.keep (scanSlash memory.previous rest) :=
  scanToken_of_mem_markStarts memory (by decide) rfl

theorem readsLiteral_scanToken {stream : TokenStream} {index : Nat} {memory : Memory} {first : Char}
    {rest : List Char} (opens : stream.OpensLiteral index (first :: rest))
    (previous : memory.previous = (stream.kindsBefore index).getLast?)
    (continues : stream.ContinuesTemplate index → memory.substitutions.head? = some memory.braceDepth) :
    ReadsLiteral first rest (scanToken memory (first :: rest)).1 (scanToken memory (first :: rest)).2.1 := by
  cases opens with
  | quote isQuote =>
      rcases isQuote with rfl | rfl
      · rw [scanToken_of_mem_markStarts memory (by decide) rfl]
        exact .string (.inl rfl)
      · rw [scanToken_of_mem_markStarts memory (by decide) rfl]
        exact .string (.inr rfl)
  | backtick =>
      rw [scanToken_of_mem_markStarts memory (by decide) rfl]
      exact .template memory (by decide) delimited_backtick_iff
  | brace goesOn =>
      obtain ⟨outer, closes⟩ := closingBrace_of_continues (continues goesOn) rest
      have scanned : scanMark memory '\x7d' rest = memory.closingBrace rest := rfl
      rw [scanToken_of_mem_markStarts memory (by decide) rfl, scanned, closes]
      exact .template _ (by decide) delimited_brace_iff
  | slash starts noComment =>
      rw [← previous] at starts
      rw [scanToken_slash, scanSlash_of_regex starts noComment]
      exact .regex

/-! ## The tokens of a text -/

/-- A token that opens a delimited literal is that literal, up to the first end of it, and its flags, if the
text from there on starts with one. Otherwise it is unknown and takes the rest of the text, so that only the
end follows. -/
theorem tokenize_reads_literals {text : List Char} {index : Nat} {token : Token}
    (here : (tokenize text).tokens[index]? = some token)
    (opens : (tokenize text).OpensLiteral index ((tokenize text).ahead token)) :
    (∀ form taken rest, Delimited form taken → (tokenize text).ahead token = taken ++ rest →
      token.kind = form ∧ (tokenize text).tokenText token = taken ++ form.flags rest) ∧
    ((∀ form taken rest, Delimited form taken → (tokenize text).ahead token ≠ taken ++ rest) →
      token.kind = .unknown ∧ (tokenize text).tokenText token = (tokenize text).ahead token ∧
        token.span.stop = byteLength text ∧ (tokenize text).EndsBehind index) := by
  obtain ⟨memory, finds⟩ := exists_finds here
  obtain ⟨first, rest, ahead⟩ := opens.exists_cons
  have kind := finds.kind
  have taken := finds.text
  have ends := finds.ends
  rw [ahead] at opens kind taken ends ⊢
  have some : first :: rest ≠ [] := List.cons_ne_nil first rest
  obtain ⟨closed, unclosed⟩ := readsLiteral_scanToken opens finds.previous
    (finds.continues (ahead ▸ some)).mpr
  refine ⟨fun form literal more delimited same => ?_, fun none => ?_⟩
  · obtain ⟨other, tail, rfl⟩ := delimited.exists_cons
    obtain ⟨rfl, behind⟩ := List.cons.inj same
    obtain ⟨reads, whole⟩ := closed form tail more delimited behind
    rw [kind, taken, reads, whole]
    exact ⟨rfl, rfl⟩
  · obtain ⟨unknown, whole⟩ := unclosed fun form tail more delimited same =>
      none form (first :: tail) more delimited (by rw [same]; rfl)
    rw [whole] at taken ends
    rw [kind, unknown, taken]
    exact ⟨rfl, rfl, ends some rfl⟩

/-- A class and a backslash hide slashes; the last quote is hidden too, so nothing closes the string. -/
theorem tokenize_reads_literals_of_class :
    let text := ['/', '[', '/', ']', '\\', '/', '/', 'g', ' ', '\x22', '\\', '\x22']
    let regex : Token := ⟨.empty, .regex, ⟨0, 8⟩, ⟨[⟨.whitespace, 1⟩]⟩⟩
    let unclosed : Token := ⟨.empty, .unknown, ⟨9, 12⟩, .empty⟩
    ((tokenize text).tokens[0]? = some regex ∧
      (tokenize text).OpensLiteral 0 ((tokenize text).ahead regex) ∧
      (tokenize text).tokenText regex = ['/', '[', '/', ']', '\\', '/', '/'] ++ ['g']) ∧
    (tokenize text).tokens[1]? = some unclosed ∧
      (tokenize text).OpensLiteral 1 ((tokenize text).ahead unclosed) ∧ (tokenize text).EndsBehind 1 := by
  intro text regex unclosed
  have first : (tokenize text).tokens[0]? = some regex := by decide +kernel
  have second : (tokenize text).tokens[1]? = some unclosed := by decide +kernel
  have front : (tokenize text).ahead regex = text := rfl
  have back : (tokenize text).ahead unclosed = ['\x22', '\\', '\x22'] := by decide +kernel
  have opensRegex : (tokenize text).OpensLiteral 0 ((tokenize text).ahead regex) := by
    rw [front]
    exact .slash rfl (by decide)
  have opensString : (tokenize text).OpensLiteral 1 ((tokenize text).ahead unclosed) := by
    rw [back]
    exact .quote (.inl rfl)
  have closes : RegexTail ['[', '/', ']', '\\', '/', '/'] :=
    @RegexTail.inClass ['/', ']'] _ (.plain (by decide) .close) (.escape (by decide) .close)
  refine ⟨⟨first, opensRegex, ?_⟩, second, opensString, ?_⟩
  · exact ((tokenize_reads_literals first opensRegex).1 _ _ _ (.regex closes) front).2
  · refine ((tokenize_reads_literals second opensString).2 ?_).2.2.2
    intro form taken rest delimited same
    rw [back] at same
    obtain ⟨quote, tail, rfl⟩ := delimited.exists_cons
    obtain ⟨rfl, behind⟩ := List.cons.inj same
    have read := Scan.string_append (.inl rfl) ((delimited_quote_iff (.inl rfl)).mp delimited).2 rest
    rw [← show ['\\', '\x22'] = tail ++ rest from behind] at read
    cases read

end ScriptTree
