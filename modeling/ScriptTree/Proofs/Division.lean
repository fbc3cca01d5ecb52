import ScriptTree.Proofs.Literals

/-! # Divisions and regular expressions

A slash divides behind a value. The tokenizer tells a value by the kind of its last token alone, so it does
not see that a word is the name of a property. Behind an identifier, a private name or a word that is a value
or a name elsewhere too, a slash divides. Behind the other reserved words, and behind `yield` and `await`, a
regular expression is read. -/
set_option autoImplicit false
namespace ScriptTree

open Text

namespace Kind

/-- What `Production.memberName` takes behind a point. -/
def memberNames : List Kind := [.ident, .privateName] ++ Production.keywords

/-- A reserved word that is no value, or a word that is an operator in some functions. -/
def endsNoValue (kind : Kind) : Bool :=
  kind == .yieldKw || kind == .awaitKw ||
    kind.isReservedWord && !([.trueKw, .falseKw, .nullKw, .thisKw, .superKw].contains kind)

theorem slashStartsRegex_eq_endsNoValue :
    ∀ kind ∈ memberNames, slashStartsRegex (some kind) = kind.endsNoValue := by
  decide +kernel

end Kind

/-! ## What a slash is read as -/

/-- A slash that divides takes an equals sign behind it. -/
def division (rest : List Char) : Kind × Split :=
  if rest.head? = some '=' then (.slashEq, ⟨['/', '='], rest.tail⟩) else (.slash, ⟨['/'], rest⟩)

theorem decideAfter_slash (rest : List Char) : decideAfter '/' .division rest = division rest := by
  by_cases equals : rest.head? = some '='
  · simp [decideAfter, Decision.division, Decision.run, division, equals, Split.after]
  · simp [decideAfter, Decision.division, Decision.run, division, equals, Split.after]

theorem scanSlash_of_division {previous : Option Kind} {rest : List Char}
    (divides : slashStartsRegex previous = false) (noComment : rest.head? ≠ some '*') :
    scanSlash previous rest = division rest := by
  fun_cases scanSlash previous rest with
  | case1 => exact absurd rfl noComment
  | case2 _ starts => rw [divides] at starts; cases starts
  | case3 => exact decideAfter_slash rest

theorem TokenStream.getLast?_kindsBefore {stream : TokenStream} {index : Nat} {token : Token}
    (here : stream.tokens[index]? = some token) :
    (stream.kindsBefore (index + 1)).getLast? = some token.kind := by
  rw [← Array.getElem?_toList] at here
  rw [TokenStream.kindsBefore, List.take_add_one, here]
  simp

/-! ## Behind names of properties -/

/-- A slash behind what can be the name of a property, and no comment, is a division unless the name is one
of the words that end no value elsewhere. Behind those it starts a regular expression, which takes the rest
of the text if it is never closed. It makes no difference whether the name stands behind a point. -/
theorem tokenize_divides_behind_member_names {text rest : List Char} {index : Nat} {name token : Token}
    (named : (tokenize text).tokens[index]? = some name) (isName : name.kind ∈ Kind.memberNames)
    (here : (tokenize text).tokens[index + 1]? = some token)
    (slash : (tokenize text).ahead token = '/' :: rest) (noComment : rest.head? ≠ some '*') :
    (name.kind.endsNoValue = false →
      (∀ more, rest = '=' :: more →
        token.kind = .slashEq ∧ (tokenize text).tokenText token = ['/', '=']) ∧
      (rest.head? ≠ some '=' → token.kind = .slash ∧ (tokenize text).tokenText token = ['/'])) ∧
    (name.kind.endsNoValue = true →
      (∀ tail more, RegexTail tail → rest = tail ++ more → token.kind = .regex ∧
        (tokenize text).tokenText token = '/' :: (tail ++ more.takeWhile isIdentifierPart)) ∧
      ((∀ tail more, RegexTail tail → rest ≠ tail ++ more) →
        token.kind = .unknown ∧ token.span.stop = byteLength text)) := by
  obtain ⟨memory, finds⟩ := exists_finds here
  have previous : memory.previous = some name.kind :=
    finds.previous.trans (TokenStream.getLast?_kindsBefore named)
  have starts := Kind.slashStartsRegex_eq_endsNoValue name.kind isName
  have kind := finds.kind
  have taken := finds.text
  have ends := finds.ends
  rw [slash, scanToken_slash, previous] at kind taken ends
  refine ⟨fun value => ?_, fun noValue => ?_⟩
  · rw [scanSlash_of_division (starts.trans value) noComment] at kind taken
    refine ⟨?_, fun other => ?_⟩
    · rintro more rfl
      exact ⟨kind, taken⟩
    · rw [division, if_neg other] at kind taken
      exact ⟨kind, taken⟩
  · rw [scanSlash_of_regex (starts.trans noValue) noComment] at kind taken ends
    obtain ⟨closed, unclosed⟩ := @ReadsLiteral.regex rest
    refine ⟨fun tail more closes same => ?_, fun none => ?_⟩
    · obtain ⟨isRegex, whole⟩ := closed .regex tail more (.regex closes) same
      exact ⟨kind.trans isRegex, taken.trans whole⟩
    · obtain ⟨isUnknown, whole⟩ := unclosed fun form tail more delimited =>
        none tail more (delimited_slash_iff.mp delimited).2
      refine ⟨kind.trans isUnknown, (ends (List.cons_ne_nil _ _) ?_).1⟩
      exact congrArg Split.rest whole

/-- Behind `?.of` a slash divides, behind `?.in` it is read up to the end of the text. -/
theorem tokenize_divides_behind_of :
    let divided := ['a', '?', '.', 'o', 'f', '/', '=', 'g']
    let unclosed := ['a', '?', '.', 'i', 'n', '/', '=', 'g']
    let slashEq : Token := ⟨.empty, .slashEq, ⟨5, 7⟩, .empty⟩
    let unknown : Token := ⟨.empty, .unknown, ⟨5, 8⟩, .empty⟩
    (((tokenize divided).tokens[2]?.map Token.kind = some .ofKw ∧
      (tokenize divided).tokens[3]? = some slashEq) ∧ slashEq.kind = .slashEq) ∧
    ((tokenize unclosed).tokens[2]?.map Token.kind = some .inKw ∧
      (tokenize unclosed).tokens[3]? = some unknown) ∧
      unknown.span.stop = byteLength unclosed := by
  intro divided unclosed slashEq unknown
  have named : (tokenize divided).tokens[2]? = some ⟨.empty, .ofKw, ⟨3, 5⟩, .empty⟩ := by decide +kernel
  have here : (tokenize divided).tokens[3]? = some slashEq := by decide +kernel
  have reserved : (tokenize unclosed).tokens[2]? = some ⟨.empty, .inKw, ⟨3, 5⟩, .empty⟩ := by
    decide +kernel
  have last : (tokenize unclosed).tokens[3]? = some unknown := by decide +kernel
  have noEnd : ∀ tail more, RegexTail tail → ['=', 'g'] ≠ tail ++ more := by
    intro tail more closes same
    have found := Scan.regexBody_append closes more
    rw [← same] at found
    cases found
  refine ⟨⟨⟨by rw [named]; rfl, here⟩, ?_⟩, ⟨by rw [reserved]; rfl, last⟩, ?_⟩
  · exact (((tokenize_divides_behind_member_names named (by decide +kernel) here rfl (by decide)).1
      (by decide)).1 _ rfl).1
  · exact (((tokenize_divides_behind_member_names reserved (by decide +kernel) last rfl (by decide)).2
      (by decide)).2 noEnd).2

/-- Behind `.return` two slashes that divide are read as one regular expression. -/
theorem tokenize_reads_regex_behind_return :
    let text := ['a', '.', 'r', 'e', 't', 'u', 'r', 'n', ' ', '/', 'b', '/']
    ∃ point name token,
      (tokenize text).tokens[1]? = some point ∧ point.kind = .dot ∧
      (tokenize text).tokens[2]? = some name ∧ name.kind = .returnKw ∧ name.kind ∈ Kind.memberNames ∧
      (tokenize text).tokens[3]? = some token ∧ (tokenize text).ahead token = ['/', 'b', '/'] ∧
      token.kind = .regex :=
  ⟨⟨.empty, .dot, ⟨1, 2⟩, .empty⟩, ⟨.empty, .returnKw, ⟨2, 8⟩, ⟨[⟨.whitespace, 1⟩]⟩⟩,
    ⟨.empty, .regex, ⟨9, 12⟩, .empty⟩, by decide +kernel⟩

end ScriptTree
