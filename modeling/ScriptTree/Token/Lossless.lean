import ScriptTree.Token.Tokenizer

/-! # Scanning loses nothing

Every scanner cuts a text in two: what it takes, and what follows. Put together again the two are the
text, for the pieces of a token, for trivia and for the token itself. -/
set_option autoImplicit false
namespace ScriptTree
namespace Split

def text (split : Split) : List Char := split.taken ++ split.rest

@[simp] theorem text_mk (taken rest : List Char) : (Split.mk taken rest).text = taken ++ rest := rfl

@[simp] theorem text_after (first : List Char) (split : Split) :
    (split.after first).text = first ++ split.text := by
  simp [after, text]

@[simp] theorem text_run (accepts : Char → Bool) (source : List Char) :
    (run accepts source).text = source := by
  simp [run, text]

theorem forall_mem_run {accepts : Char → Bool} {source : List Char} :
    ∀ char ∈ (run accepts source).taken, accepts char = true :=
  List.all_eq_true.mp List.all_takeWhile

theorem text_andThen {scan : List Char → Split} (keeps : ∀ source, (scan source).text = source)
    (split : Split) : (split.andThen scan).text = split.text := by
  rw [andThen, text_after, keeps, text]

@[simp] theorem text_optional (char : Char) (source : List Char) :
    (optional char source).text = source := by
  cases source with
  | nil => rfl
  | cons next rest =>
      simp only [optional]
      split <;> simp [text]

@[simp] theorem text_whole (source : List Char) : (whole source).text = source := by
  simp [whole, text]

end Split

namespace Scan

open Text

theorem text_blockComment {source : List Char} {split : Split}
    (found : blockComment source = some split) : split.text = source := by
  fun_induction blockComment source generalizing split with
  | case1 => cases found
  | case2 rest =>
      cases found
      rfl
  | case3 char rest _ ih =>
      obtain ⟨inner, inside, rfl⟩ := Option.map_eq_some_iff.mp found
      simp [ih inside]

theorem text_string {quote : Char} {source : List Char} {split : Split}
    (found : string quote source = some split) : split.text = source := by
  fun_induction string quote source generalizing split with
  | case1 => cases found
  | case2 rest ih =>
      obtain ⟨inner, inside, rfl⟩ := Option.map_eq_some_iff.mp found
      simp [ih inside]
  | case3 char rest _ ih =>
      obtain ⟨inner, inside, rfl⟩ := Option.map_eq_some_iff.mp found
      simp [ih inside]
  | case4 =>
      cases found
      rfl
  | case5 => cases found
  | case6 char rest _ _ _ _ ih =>
      obtain ⟨inner, inside, rfl⟩ := Option.map_eq_some_iff.mp found
      simp [ih inside]

theorem text_template {source : List Char} {continued : Bool} {split : Split}
    (found : template source = some (continued, split)) : split.text = source := by
  fun_induction template source generalizing continued split with
  | case1 => cases found
  | case2 =>
      cases found
      rfl
  | case3 =>
      cases found
      rfl
  | case4 char rest ih =>
      obtain ⟨⟨_, inner⟩, inside, same⟩ := Option.map_eq_some_iff.mp found
      cases same
      simp [ih inside]
  | case5 char rest _ _ _ ih =>
      obtain ⟨⟨_, inner⟩, inside, same⟩ := Option.map_eq_some_iff.mp found
      cases same
      simp [ih inside]

theorem text_regexBody {inClass : Bool} {source : List Char} {split : Split}
    (found : regexBody inClass source = some split) : split.text = source := by
  fun_induction regexBody inClass source generalizing split with
  | case1 => cases found
  | case2 => cases found
  | case3 inClass char rest _ ih =>
      obtain ⟨inner, inside, rfl⟩ := Option.map_eq_some_iff.mp found
      simp [ih inside]
  | case4 => cases found
  | case5 =>
      cases found
      rfl
  | case6 =>
      rename_i ih
      obtain ⟨inner, within, rfl⟩ := Option.map_eq_some_iff.mp found
      simp [ih within]

theorem text_regex {source : List Char} {split : Split} (found : regex source = some split) :
    split.text = source := by
  obtain ⟨body, inside, rfl⟩ := Option.map_eq_some_iff.mp found
  rw [Split.text_andThen (Split.text_run isIdentifierPart), text_regexBody inside]

@[simp] theorem text_hexDigits (count : Nat) (source : List Char) :
    (hexDigits count source).text = source := by
  fun_induction hexDigits count source <;> simp_all

@[simp] theorem text_unicodeEscape (source : List Char) :
    (unicodeEscape source).2.text = source := by
  fun_cases unicodeEscape source with
  | case1 rest digits more closed =>
      have kept : digits.text = 'u' :: '\x7b' :: rest := by simp [digits]
      simpa [Split.text, closed] using kept
  | case2 rest digits => simp [digits]
  | case3 rest _ digits => simp [digits]
  | case4 => rfl

theorem text_of_unicodeEscape {source : List Char} {complete : Bool} {escape : Split}
    (found : unicodeEscape source = (complete, escape)) : escape.text = source := by
  have kept := text_unicodeEscape source
  rwa [found] at kept

@[simp] theorem text_identifierWithin (budget source : List Char) :
    (identifierWithin budget source).2.text = source := by
  fun_induction identifierWithin budget source with
  | case1 => rfl
  | case2 => rfl
  | case3 _ budget rest escape found => simp [text_of_unicodeEscape found]
  | case4 _ budget rest escape found escaped more inside ih =>
      rw [inside] at ih
      have kept := text_of_unicodeEscape found
      change more.text = escape.rest at ih
      change ((more.after escape.taken).after ['\\']).text = '\\' :: rest
      rw [Split.text_after, Split.text_after, ih, ← kept]
      rfl
  | case5 _ budget char rest _ _ escaped more inside ih =>
      rw [inside] at ih
      simp [ih]
  | case6 => rfl

@[simp] theorem text_identifierRest (source : List Char) :
    (identifierRest source).2.text = source :=
  text_identifierWithin source source

@[simp] theorem text_identifierStart (source : List Char) :
    (identifierStart source).2.text = source := by
  fun_cases identifierStart source with
  | case1 rest complete escape found => simp [text_of_unicodeEscape found]
  | case2 => rfl
  | case3 => rfl
  | case4 => rfl

@[simp] theorem text_digits (source : List Char) : (digits source).text = source :=
  Split.text_run isDigitOrSeparator source

@[simp] theorem text_exponent (source : List Char) : (exponent source).text = source := by
  fun_cases exponent source <;> simp

@[simp] theorem text_fraction (source : List Char) : (fraction source).text = source := by
  fun_cases fraction source <;> simp

theorem text_decimal (first : Char) (source : List Char) :
    (number.decimal first source).text = source := by
  have kept : ∀ split : Split, split.text = source →
      ((split.andThen exponent).andThen (Split.optional 'n')).text = source := by
    intro split same
    rw [Split.text_andThen (Split.text_optional 'n'), Split.text_andThen text_exponent, same]
  unfold number.decimal
  split
  · exact kept _ (text_digits source)
  · exact kept _ (by rw [Split.text_andThen text_fraction, text_digits])

@[simp] theorem text_number (first : Char) (source : List Char) :
    (number first source).text = source := by
  fun_cases number first source with
  | case1 mark rest =>
      rw [Split.text_andThen (Split.text_optional 'n'), Split.text_after, Split.text_run]
      rfl
  | case2 => exact text_decimal _ _
  | case3 => exact text_decimal _ _

end Scan

/-! ## Trivia -/

theorem text_triviaPiece? {trailing : Bool} {offset : Nat} {source : List Char} {kind : TriviaKind}
    {split : Split} (found : triviaPiece? trailing offset source = some (kind, split)) :
    split.text = source := by
  revert found
  fun_cases triviaPiece? trailing offset source with
  | case1 | case3 | case8 | case10 | case11 =>
      intro found
      cases found
      simp [Scan.lineComment]
  | case6 rest comment closed =>
      intro found
      cases found
      simp [Scan.text_blockComment closed]
  | _ =>
      intro found
      cases found

/-! ## Tokens -/

@[simp] theorem Decision.text_run (decision : Decision) (source : List Char) :
    (decision.run source).2.text = source := by
  fun_induction Decision.run decision source with
  | case1 => rfl
  | case2 char behind otherwise source next kind split found ih =>
      obtain ⟨rest, rfl⟩ := List.head?_eq_some_iff.mp next
      rw [found] at ih
      rw [Split.text_after, ih]
      rfl
  | case3 _ _ _ _ _ ih => exact ih

@[simp] theorem text_decideAfter (first : Char) (decision : Decision) (rest : List Char) :
    (decideAfter first decision rest).2.text = first :: rest := by
  simp [decideAfter]

@[simp] theorem text_scanPoints (rest : List Char) : (scanPoints rest).2.text = '.' :: rest := by
  fun_cases scanPoints rest <;> rfl

@[simp] theorem text_scanQuestionMark (rest : List Char) :
    (scanQuestionMark rest).2.text = '?' :: rest := by
  fun_cases scanQuestionMark rest with
  | case1 next =>
      obtain ⟨behind, rfl⟩ := List.head?_eq_some_iff.mp next.1
      rfl
  | case2 => exact text_decideAfter _ _ _

@[simp] theorem text_scanWord (first : Char) (rest : List Char) :
    (scanWord first rest).2.text = first :: rest := by
  have kept := Scan.text_identifierRest rest
  unfold scanWord
  cases found : Scan.identifierRest rest with
  | mk escaped more =>
      rw [found] at kept
      change more.text = rest at kept
      dsimp only
      split <;> simp [kept]

theorem text_closedOrUnknown {kind : Kind} {source first rest : List Char} {scanned : Option Split}
    (same : source = first ++ rest) (keeps : ∀ split, scanned = some split → split.text = rest) :
    (closedOrUnknown kind source first scanned).2.text = source := by
  cases scanned with
  | none => simp [closedOrUnknown]
  | some split => simp [closedOrUnknown, keeps split rfl, same]

@[simp] theorem text_scanSlash (previous : Option Kind) (rest : List Char) :
    (scanSlash previous rest).2.text = '/' :: rest := by
  fun_cases scanSlash previous rest with
  | case1 => simp
  | case2 => exact text_closedOrUnknown rfl fun _ => Scan.text_regex
  | case3 => exact text_decideAfter '/' _ rest

@[simp] theorem text_scanPrivateName (rest : List Char) :
    (scanPrivateName rest).2.text = '#' :: rest := by
  have kept := Scan.text_identifierStart rest
  unfold scanPrivateName
  split
  · rename_i start found
    rw [found] at kept
    change start.text = rest at kept
    simp [kept]
  · rename_i start found
    rw [found] at kept
    change start.text = rest at kept
    simp [Split.text_andThen Scan.text_identifierRest, kept]

@[simp] theorem text_scanEscapedWord (rest : List Char) :
    (scanEscapedWord rest).2.text = '\\' :: rest := by
  unfold scanEscapedWord
  split
  · rename_i escape found
    simp [Scan.text_of_unicodeEscape found]
  · rename_i escape found
    simp [Split.text_andThen Scan.text_identifierRest, Scan.text_of_unicodeEscape found]

@[simp] theorem text_template (memory : Memory) (first : Char) (rest : List Char)
    (closed continued : Kind) :
    (memory.template first rest closed continued).2.1.text = first :: rest := by
  unfold Memory.template
  split
  · simp
  · rename_i chunk found
    simp [Scan.text_template found]
  · rename_i chunk found
    simp [Scan.text_template found]

@[simp] theorem text_closingBrace (memory : Memory) (rest : List Char) :
    (memory.closingBrace rest).2.1.text = '\x7d' :: rest := by
  fun_cases Memory.closingBrace memory rest <;> simp

theorem text_scanMark (memory : Memory) (first : Char) (rest : List Char) :
    (scanMark memory first rest).2.1.text = first :: rest := by
  fun_cases scanMark memory first rest with
  | case1 | case2 => exact text_closedOrUnknown rfl fun _ => Scan.text_string
  | case3 => exact text_template memory _ _ _ _
  | case4 => exact text_scanEscapedWord _
  | case5 => exact text_scanPrivateName _
  | case6 => exact text_scanSlash _ _
  | case7 => rfl
  | case8 => exact text_closingBrace _ _
  | case9 => exact text_scanPoints _
  | case10 => exact text_scanQuestionMark _
  | case11 => exact text_decideAfter _ _ _

/-- A token and what follows it are the text that the token was cut from. -/
theorem text_scanToken (memory : Memory) (source : List Char) :
    (scanToken memory source).2.1.text = source := by
  fun_cases scanToken memory source with
  | case1 => rfl
  | case2 first rest => exact text_scanWord first rest
  | case3 first rest => simp [Memory.keep]
  | case4 first rest => exact text_scanMark memory first rest

end ScriptTree
