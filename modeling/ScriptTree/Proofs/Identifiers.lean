import ScriptTree.Proofs.Spelling

/-! # Names

An identifier is a character that starts a name, or an escape, and then characters that continue one, or
escapes. The tokenizer accepts an escape without digits in its braces as well, and where the name ends it
takes what an escape starts with although none follows. Where each backslash begins a complete escape there
is no such end, and the identifier is a name. -/
set_option autoImplicit false
namespace ScriptTree

open Text

/-! ## Escapes and names -/

/-- An escape in a name: four hexadecimal digits, or at least so many between braces. One digit makes it
complete. -/
inductive Escape (fewest : Nat) : List Char → Prop where
  | four {digits : List Char} (hex : ∀ digit ∈ digits, isHexDigit digit = true)
      (length : digits.length = 4) : Escape fewest ('\\' :: 'u' :: digits)
  | braced {digits : List Char} (hex : ∀ digit ∈ digits, isHexDigit digit = true)
      (enough : fewest ≤ digits.length) : Escape fewest ('\\' :: 'u' :: '\x7b' :: (digits ++ ['\x7d']))

/-- What a name is made of: an escape, or a character of a class. -/
def NameUnit (fewest : Nat) (accepts : Char → Bool) (unit : List Char) : Prop :=
  Escape fewest unit ∨ ∃ char, unit = [char] ∧ accepts char = true

/-- A unit that starts a name, and units that continue it. -/
def IsName (fewest : Nat) (name : List Char) : Prop :=
  ∃ first later, name = first ++ List.flatten later ∧ NameUnit fewest isIdentifierStart first ∧
    ∀ unit ∈ later, NameUnit fewest isIdentifierPart unit

/-- Each backslash in a name begins a complete escape in the text, which goes on with what is behind it. -/
def EscapesComplete (name behind : List Char) : Prop :=
  ∀ front rest, name = front ++ '\\' :: rest →
    ∃ escape, Escape 1 escape ∧ escape <+: '\\' :: rest ++ behind

/-- The start of something in a language. -/
def Opens (language : List Char → Prop) (taken : List Char) : Prop := ∃ more, language (taken ++ more)

/-- The longest part that a text and something in a language start with. -/
structure LongestOpening (language : List Char → Prop) (source taken : List Char) : Prop where
  front : taken <+: source
  opens : Opens language taken
  longest : ∀ other, other <+: source → Opens language other → other.length ≤ taken.length

/-- What the tokenizer takes for a name: the longest opening of a further unit is part of it, although it is
no unit. -/
def ReadsName (name behind : List Char) : Prop :=
  ∃ whole cut, name = whole ++ cut ∧ IsName 0 whole ∧
    LongestOpening (NameUnit 0 isIdentifierPart) (cut ++ behind) cut ∧ ¬NameUnit 0 isIdentifierPart cut

theorem isHexDigit_brace : isHexDigit '\x7b' = false ∧ isHexDigit '\x7d' = false := by decide

theorem not_hex_brace {rest : List Char} : ¬∀ digit ∈ '\x7b' :: rest, isHexDigit digit = true := by
  intro hex
  have isHex := hex '\x7b' List.mem_cons_self
  rw [isHexDigit_brace.1] at isHex
  cases isHex

theorem noPart_backslash : isIdentifierPart '\\' = false := by decide +kernel

theorem noStart_backslash : isIdentifierStart '\\' = false := by decide +kernel

/-- Digits in front of a closing brace are all the digits there are. -/
theorem run_isHexDigit {digits : List Char} (hex : ∀ digit ∈ digits, isHexDigit digit = true)
    (more : List Char) : Split.run isHexDigit (digits ++ '\x7d' :: more) = ⟨digits, '\x7d' :: more⟩ := by
  simp [Split.run, List.takeWhile_append_of_pos hex, List.dropWhile_append_of_pos hex, isHexDigit_brace.2]

namespace Escape

variable {fewest : Nat} {escape : List Char}

theorem four_lt_length (isEscape : Escape 1 escape) : 4 < escape.length := by
  cases isEscape with
  | four _ length => simp [length]
  | @braced digits _ enough =>
      have positive : 0 < digits.length := enough
      simpa using positive

theorem digits_iff {digits : List Char} (hex : ∀ digit ∈ digits, isHexDigit digit = true) :
    Escape fewest ('\\' :: 'u' :: digits) ↔ digits.length = 4 := by
  refine ⟨fun isEscape => ?_, .four hex⟩
  cases isEscape with
  | four _ length => exact length
  | braced => exact absurd hex not_hex_brace

theorem braced_iff {inner : List Char} :
    Escape fewest ('\\' :: 'u' :: '\x7b' :: inner) ↔
      ∃ digits : List Char, (∀ digit ∈ digits, isHexDigit digit = true) ∧ fewest ≤ digits.length ∧
        inner = digits ++ ['\x7d'] := by
  constructor
  · intro isEscape
    cases isEscape with
    | four hex _ => exact absurd hex not_hex_brace
    | braced hex enough => exact ⟨_, hex, enough, rfl⟩
  · rintro ⟨digits, hex, enough, rfl⟩
    exact .braced hex enough

theorem mono {more : Nat} (atLeast : fewest ≤ more) (isEscape : Escape more escape) :
    Escape fewest escape := by
  cases isEscape with
  | four hex length => exact .four hex length
  | braced hex enough => exact .braced hex (Nat.le_trans atLeast enough)

theorem head?_eq (isEscape : Escape fewest escape) : escape.head? = some '\\' := by
  cases isEscape <;> rfl

theorem tail_ne_backslash (isEscape : Escape fewest escape) : ∀ char ∈ escape.tail, char ≠ '\\' := by
  rintro char inside rfl
  cases isEscape with
  | four hex _ =>
      rcases List.mem_cons.mp inside with same | digit
      · exact absurd same (by decide)
      · exact absurd (hex _ digit) (by decide)
  | braced hex _ =>
      simp only [List.tail_cons, List.mem_cons, List.mem_append, List.not_mem_nil, or_false] at inside
      rcases inside with same | same | digit | same
      · exact absurd same (by decide)
      · exact absurd same (by decide)
      · exact absurd (hex _ digit) (by decide)
      · exact absurd same (by decide)

/-- No escape goes on to a longer one. -/
theorem eq_of_prefix {other : Nat} {longer : List Char} (isEscape : Escape fewest escape)
    (isLonger : Escape other longer) (starts : escape <+: longer) : escape = longer := by
  obtain ⟨more, same⟩ := starts
  cases isEscape with
  | @four digits hex length =>
      obtain ⟨digit, others, rfl⟩ := List.exists_cons_of_length_pos (l := digits) (by omega)
      cases isLonger with
      | four _ four =>
          refine List.IsPrefix.eq_of_length ⟨more, same⟩ (by simp [length, four])
      | @braced inner _ _ =>
          obtain ⟨rfl, -⟩ : digit = '\x7b' ∧ others ++ more = inner ++ ['\x7d'] := by simpa using same
          exact absurd hex not_hex_brace
  | @braced digits hex _ =>
      cases isLonger with
      | @four others hexOthers _ =>
          have brace : others = '\x7b' :: (digits ++ ['\x7d'] ++ more) := by simpa using same.symm
          rw [brace] at hexOthers
          exact absurd hexOthers not_hex_brace
      | @braced others hexOthers _ =>
          have within : digits ++ '\x7d' :: more = others ++ ['\x7d'] := by simpa using same
          have equal := congrArg (Split.run isHexDigit) within
          rw [run_isHexDigit hex, run_isHexDigit hexOthers] at equal
          cases equal
          rfl

end Escape

/-- What an escape goes on with after its backslash, where digits between braces may be missing. -/
theorem opens_escape_iff {taken : List Char} :
    Opens (Escape 0) ('\\' :: taken) ↔ taken = [] ∨
      ∃ digits : List Char, (∀ digit ∈ digits, isHexDigit digit = true) ∧
        (taken = 'u' :: digits ∧ digits.length ≤ 4 ∨ taken = 'u' :: '\x7b' :: digits ∨
          taken = 'u' :: '\x7b' :: (digits ++ ['\x7d'])) := by
  constructor
  · rintro ⟨more, isEscape⟩
    match taken with
    | [] => exact .inl rfl
    | mark :: others =>
        generalize same : '\\' :: mark :: others ++ more = escape at isEscape
        refine .inr ?_
        cases isEscape with
        | @four digits hex length =>
            obtain ⟨rfl, rfl⟩ : mark = 'u' ∧ others ++ more = digits := by simpa using same
            refine ⟨others, fun digit inside => hex digit (List.mem_append_left _ inside),
              .inl ⟨rfl, ?_⟩⟩
            rw [← length, List.length_append]
            exact Nat.le_add_right _ _
        | @braced digits hex _ =>
            obtain ⟨rfl, braced⟩ : mark = 'u' ∧ others ++ more = '\x7b' :: (digits ++ ['\x7d']) := by
              simpa using same
            rcases List.append_eq_cons_iff.mp braced with ⟨rfl, -⟩ | ⟨inner, rfl, closes⟩
            · exact ⟨[], nofun, .inl ⟨rfl, Nat.zero_le 4⟩⟩
            rcases List.append_eq_append_iff.mp closes with ⟨brace, rfl, last⟩ | ⟨behind, rfl, -⟩
            · rcases List.append_eq_singleton_iff.mp last.symm with ⟨rfl, -⟩ | ⟨rfl, -⟩
              · exact ⟨digits, hex, .inr (.inl (by simp))⟩
              · exact ⟨digits, hex, .inr (.inr rfl)⟩
            · exact ⟨inner, fun digit inside => hex digit (List.mem_append_left _ inside),
                .inr (.inl rfl)⟩
  · rintro (rfl | ⟨digits, hex, ⟨rfl, length⟩ | rfl | rfl⟩)
    · exact ⟨['u', '\x7b', '\x7d'], @Escape.braced 0 [] nofun (Nat.le_refl 0)⟩
    · refine ⟨List.replicate (4 - digits.length) '0', .four (fun digit inside => ?_) (by simp; omega)⟩
      rcases List.mem_append.mp inside with isDigit | isZero
      · exact hex digit isDigit
      · rw [List.eq_of_mem_replicate isZero]
        decide
    · exact ⟨['\x7d'], .braced hex (Nat.zero_le _)⟩
    · exact ⟨[], by simpa using Escape.braced hex (Nat.zero_le _)⟩

/-! ## What the scanners take -/

namespace Scan

theorem prefix_takeWhile {accepts : Char → Bool} {front text : List Char} (starts : front <+: text)
    (accepted : ∀ char ∈ front, accepts char = true) : front <+: text.takeWhile accepts := by
  obtain ⟨more, rfl⟩ := starts
  rw [List.takeWhile_append_of_pos accepted]
  exact List.prefix_append _ _

theorem taken_hexDigits (count : Nat) (text : List Char) :
    (hexDigits count text).taken = (text.takeWhile isHexDigit).take count := by
  fun_induction hexDigits count text with
  | case1 | case2 => simp
  | case3 count char rest isHex ih => simp [Split.after, ih, isHex]
  | case4 count char rest isOther => simp [isOther]

/-- The scanner of escapes takes as much as an escape starts with, and tells whether it is an escape. -/
structure ScansEscape (text : List Char) (complete : Bool) (taken : List Char) : Prop where
  front : taken <+: text
  opens : Opens (Escape 0) ('\\' :: taken)
  longest : ∀ other, other <+: text → Opens (Escape 0) ('\\' :: other) → other.length ≤ taken.length
  complete_iff : complete = true ↔ Escape 0 ('\\' :: taken)

namespace ScansEscape

theorem bare {text : List Char} (other : text.head? ≠ some 'u') : ScansEscape text false [] where
  front := List.nil_prefix
  opens := opens_escape_iff.mpr (.inl rfl)
  longest := by
    intro front starts begins
    obtain ⟨more, rfl⟩ := starts
    rcases opens_escape_iff.mp begins with rfl | ⟨digits, -, ⟨rfl, -⟩ | rfl | rfl⟩
    · exact Nat.le_refl 0
    all_goals exact absurd rfl other
  complete_iff := ⟨nofun, nofun⟩

theorem digits {rest : List Char} (noBrace : rest.head? ≠ some '\x7b') :
    ScansEscape ('u' :: rest) ((hexDigits 4 rest).taken.length == 4) ('u' :: (hexDigits 4 rest).taken) := by
  have front : (hexDigits 4 rest).taken <+: rest := by
    rw [taken_hexDigits]
    exact (List.take_prefix _ _).trans (List.takeWhile_prefix _)
  have hex : ∀ digit ∈ (hexDigits 4 rest).taken, isHexDigit digit = true := by
    intro digit inside
    rw [taken_hexDigits] at inside
    exact Split.forall_mem_run digit (List.mem_of_mem_take inside)
  have few : (hexDigits 4 rest).taken.length ≤ 4 := by
    rw [taken_hexDigits]
    exact List.length_take_le _ _
  refine ⟨List.cons_prefix_cons.mpr ⟨rfl, front⟩,
    opens_escape_iff.mpr (.inr ⟨_, hex, .inl ⟨rfl, few⟩⟩), fun other starts begins => ?_, ?_⟩
  · rcases opens_escape_iff.mp begins with rfl | ⟨digits, isHex, ⟨rfl, short⟩ | rfl | rfl⟩
    · exact Nat.zero_le _
    · have run := (prefix_takeWhile (List.cons_prefix_cons.mp starts).2 isHex).length_le
      rw [taken_hexDigits, List.length_cons, List.length_cons, List.length_take]
      omega
    all_goals
      obtain ⟨more, same⟩ := (List.cons_prefix_cons.mp starts).2
      exact absurd (congrArg List.head? same.symm) noBrace
  · rw [beq_iff_eq, Escape.digits_iff hex]

/-- Digits in front of what is no digit are the longest opening between braces. -/
theorem length_le_of_run {rest other : List Char} {count : Nat}
    (starts : other <+: 'u' :: '\x7b' :: rest) (begins : Opens (Escape 0) ('\\' :: other))
    (few : (Split.run isHexDigit rest).taken.length ≤ count)
    (ends : (Split.run isHexDigit rest).rest.head? = some '\x7d' →
      (Split.run isHexDigit rest).taken.length < count) : other.length ≤ count + 2 := by
  rcases opens_escape_iff.mp begins with rfl | ⟨digits, hex, ⟨rfl, -⟩ | rfl | rfl⟩
  · exact Nat.zero_le _
  · have within := (List.cons_prefix_cons.mp starts).2
    match digits, hex with
    | [], _ => exact Nat.le_add_left 1 (count + 1)
    | digit :: _, hex =>
        obtain ⟨rfl, -⟩ := List.cons_prefix_cons.mp within
        exact absurd hex not_hex_brace
  · have within := (List.cons_prefix_cons.mp (List.cons_prefix_cons.mp starts).2).2
    have run : digits.length ≤ (Split.run isHexDigit rest).taken.length :=
      (prefix_takeWhile within hex).length_le
    simp only [List.length_cons]
    omega
  · obtain ⟨more, rfl⟩ := (List.cons_prefix_cons.mp (List.cons_prefix_cons.mp starts).2).2
    rw [List.append_assoc, List.singleton_append, run_isHexDigit hex] at ends
    have short : digits.length < count := ends rfl
    simp only [List.length_cons, List.length_append, List.length_nil]
    omega

theorem closed {rest behind : List Char} (closed : (Split.run isHexDigit rest).rest = '\x7d' :: behind) :
    ScansEscape ('u' :: '\x7b' :: rest) true
      ('u' :: '\x7b' :: ((Split.run isHexDigit rest).taken ++ ['\x7d'])) := by
  have hex : ∀ digit ∈ (Split.run isHexDigit rest).taken, isHexDigit digit = true :=
    Split.forall_mem_run
  have front : (Split.run isHexDigit rest).taken ++ ['\x7d'] <+: rest := by
    refine ⟨behind, ?_⟩
    rw [List.append_assoc, List.singleton_append, ← closed]
    exact Split.text_run isHexDigit rest
  refine ⟨by simpa using front, opens_escape_iff.mpr (.inr ⟨_, hex, .inr (.inr rfl)⟩),
    fun other starts begins => ?_, iff_of_true rfl (.braced hex (Nat.zero_le _))⟩
  have short := length_le_of_run starts begins (Nat.le_succ _) fun _ => Nat.lt_succ_self _
  simpa using short

theorem unclosed {rest : List Char} (unclosed : (Split.run isHexDigit rest).rest.head? ≠ some '\x7d') :
    ScansEscape ('u' :: '\x7b' :: rest) false ('u' :: '\x7b' :: (Split.run isHexDigit rest).taken) := by
  have hex : ∀ digit ∈ (Split.run isHexDigit rest).taken, isHexDigit digit = true :=
    Split.forall_mem_run
  have front : (Split.run isHexDigit rest).taken <+: rest := List.takeWhile_prefix isHexDigit
  refine ⟨by simpa using front, opens_escape_iff.mpr (.inr ⟨_, hex, .inr (.inl rfl)⟩),
    fun other starts begins => ?_, iff_of_false nofun fun isEscape => ?_⟩
  · exact length_le_of_run starts begins (Nat.le_refl _) fun closed => absurd closed unclosed
  · obtain ⟨digits, -, -, same⟩ := Escape.braced_iff.mp isEscape
    have isHex := hex '\x7d' (by simp [same])
    rw [isHexDigit_brace.2] at isHex
    cases isHex

end ScansEscape

theorem scansEscape_of_unicodeEscape {text : List Char} {complete : Bool} {escape : Split}
    (scanned : unicodeEscape text = (complete, escape)) : ScansEscape text complete escape.taken := by
  by_cases marked : text.head? = some 'u'
  · obtain ⟨rest, rfl⟩ := List.head?_eq_some_iff.mp marked
    by_cases braced : rest.head? = some '\x7b'
    · obtain ⟨rest, rfl⟩ := List.head?_eq_some_iff.mp braced
      by_cases closed : (Split.run isHexDigit rest).rest.head? = some '\x7d'
      · obtain ⟨behind, closed⟩ := List.head?_eq_some_iff.mp closed
        cases (unicodeEscape_closed closed).symm.trans scanned
        exact .closed closed
      · cases (unicodeEscape_unclosed closed).symm.trans scanned
        exact .unclosed closed
    · cases (unicodeEscape_digits braced).symm.trans scanned
      exact .digits braced
  · cases (unicodeEscape_of_ne marked).symm.trans scanned
    exact .bare marked

/-- An incomplete escape is the longest opening of a unit, and no unit. -/
theorem ScansEscape.cut {text taken : List Char} (scans : ScansEscape text false taken) :
    LongestOpening (NameUnit 0 isIdentifierPart) ('\\' :: text) ('\\' :: taken) ∧
      ¬NameUnit 0 isIdentifierPart ('\\' :: taken) := by
  obtain ⟨more, isEscape⟩ := scans.opens
  refine ⟨⟨List.cons_prefix_cons.mpr ⟨rfl, scans.front⟩, ⟨more, .inl isEscape⟩, ?_⟩, ?_⟩
  · rintro other starts ⟨more, isEscape | ⟨char, alone, part⟩⟩
    · match other with
      | [] => exact Nat.zero_le _
      | first :: others =>
          obtain ⟨rfl, within⟩ := List.cons_prefix_cons.mp starts
          exact Nat.succ_le_succ (scans.longest others within ⟨more, isEscape⟩)
    · match other with
      | [] => exact Nat.zero_le _
      | first :: others =>
          obtain ⟨rfl, -⟩ := List.cons_prefix_cons.mp starts
          obtain rfl := List.head_eq_of_cons_eq alone
          rw [noPart_backslash] at part
          cases part
  · rintro (isEscape | ⟨char, alone, part⟩)
    · cases scans.complete_iff.mpr isEscape
    · cases alone
      rw [noPart_backslash] at part
      cases part

theorem longestOpening_nil {text : List Char} (noEscape : text.head? ≠ some '\\')
    (noPart : ∀ char ∈ text.head?, isIdentifierPart char = false) :
    LongestOpening (NameUnit 0 isIdentifierPart) text [] ∧ ¬NameUnit 0 isIdentifierPart [] := by
  refine ⟨⟨List.nil_prefix, ⟨['$'], .inr ⟨'$', rfl, by decide +kernel⟩⟩, ?_⟩, ?_⟩
  · rintro other ⟨behind, rfl⟩ ⟨more, unit⟩
    match other with
    | [] => exact Nat.le_refl 0
    | first :: others =>
        rcases unit with isEscape | ⟨char, alone, part⟩
        · exact absurd isEscape.head?_eq noEscape
        · obtain rfl := List.head_eq_of_cons_eq alone
          rw [noPart first rfl] at part
          cases part
  · rintro (isEscape | ⟨char, alone, -⟩)
    · cases isEscape
    · cases alone

theorem longestOpening_end : LongestOpening (NameUnit 0 isIdentifierPart) [] [] ∧
    ¬NameUnit 0 isIdentifierPart [] :=
  longestOpening_nil nofun nofun

/-- What continues an identifier: units, and the longest opening of a further one. -/
theorem exists_units_of_identifierWithin {budget text : List Char} (enough : text.length ≤ budget.length) :
    ∃ units cut, (identifierWithin budget text).2.taken = List.flatten units ++ cut ∧
      (∀ unit ∈ units, NameUnit 0 isIdentifierPart unit) ∧
      LongestOpening (NameUnit 0 isIdentifierPart) (cut ++ (identifierWithin budget text).2.rest) cut ∧
      ¬NameUnit 0 isIdentifierPart cut := by
  fun_induction identifierWithin budget text with
  | case1 text =>
      obtain rfl := List.length_eq_zero_iff.mp (Nat.le_zero.mp enough)
      exact ⟨[], [], rfl, List.forall_mem_nil _, longestOpening_end⟩
  | case2 => exact ⟨[], [], rfl, List.forall_mem_nil _, longestOpening_end⟩
  | case3 _ budget rest escape scanned =>
      have cut := (scansEscape_of_unicodeEscape scanned).cut
      have kept : escape.taken ++ escape.rest = rest := text_of_unicodeEscape scanned
      rw [← kept] at cut
      exact ⟨[], '\\' :: escape.taken, rfl, List.forall_mem_nil _, cut⟩
  | case4 _ budget rest escape scanned escaped more inside ih =>
      have scans := scansEscape_of_unicodeEscape scanned
      have kept : escape.taken ++ escape.rest = rest := text_of_unicodeEscape scanned
      rw [inside] at ih
      obtain ⟨units, cut, taken, areUnits, ends⟩ := ih (by
        simp only [← kept, List.length_cons, List.length_append] at enough
        omega)
      refine ⟨('\\' :: escape.taken) :: units, cut, ?_, ?_, ends⟩
      · simp only [Split.after, List.flatten_cons, List.append_assoc, ← taken]
        rfl
      · exact List.forall_mem_cons.mpr ⟨.inl (scans.complete_iff.mp rfl), areUnits⟩
  | case5 _ budget char rest _ part escaped more inside ih =>
      rw [inside] at ih
      obtain ⟨units, cut, taken, areUnits, ends⟩ := ih (Nat.le_of_succ_le_succ enough)
      refine ⟨[char] :: units, cut, ?_, ?_, ends⟩
      · simp only [Split.after, List.flatten_cons, List.append_assoc, ← taken]
      · exact List.forall_mem_cons.mpr ⟨.inr ⟨char, rfl, part⟩, areUnits⟩
  | case6 _ budget char rest noEscape other =>
      refine ⟨[], [], rfl, List.forall_mem_nil _, longestOpening_nil (fun backslash => ?_) ?_⟩
      · exact noEscape (Option.some.inj backslash)
      · rintro first ⟨⟩
        simpa using other

theorem nameUnit_of_identifierStart {text : List Char} {start : Split}
    (scanned : identifierStart text = (true, start)) : NameUnit 0 isIdentifierStart start.taken := by
  fun_cases identifierStart text with
  | case1 rest complete escape inner =>
      have scans := scansEscape_of_unicodeEscape inner
      simp only [identifierStart, inner, Prod.mk.injEq] at scanned
      obtain ⟨rfl, rfl⟩ := scanned
      exact .inl (scans.complete_iff.mp rfl)
  | case2 char rest _ starts =>
      rw [identifierStart, if_pos starts] at scanned
      · cases scanned
        exact .inr ⟨char, rfl, starts⟩
      · assumption
  | case3 char rest _ other =>
      rw [identifierStart, if_neg other] at scanned
      · cases scanned
      · assumption
  | case4 => cases scanned

theorem readsName_identifierRest {first : List Char} (starts : NameUnit 0 isIdentifierStart first)
    (text : List Char) :
    ReadsName (first ++ (identifierRest text).2.taken) (identifierRest text).2.rest := by
  obtain ⟨units, cut, taken, areUnits, ends⟩ := exists_units_of_identifierWithin (Nat.le_refl text.length)
  refine ⟨first ++ units.flatten, cut, ?_, ⟨first, units, rfl, starts, areUnits⟩, ends⟩
  rw [List.append_assoc, ← taken]
  rfl

end Scan

/-! ## Names and their backslashes -/

namespace NameUnit

variable {fewest : Nat} {accepts : Char → Bool} {unit : List Char}

theorem of_backslash (noBackslash : accepts '\\' = false) (isUnit : NameUnit fewest accepts unit)
    {front rest : List Char} (split : unit = front ++ '\\' :: rest) :
    front = [] ∧ Escape fewest unit := by
  rcases isUnit with isEscape | ⟨char, rfl, accepted⟩
  · refine ⟨?_, isEscape⟩
    match front with
    | [] => rfl
    | first :: others =>
        rw [split] at isEscape
        exact absurd rfl (isEscape.tail_ne_backslash '\\' (by simp))
  · obtain ⟨rfl, rfl, -⟩ : front = [] ∧ char = '\\' ∧ rest = [] := by
      rcases List.append_eq_singleton_iff.mp split.symm with ⟨rfl, same⟩ | ⟨-, none⟩
      · cases same
        exact ⟨rfl, rfl, rfl⟩
      · cases none
    rw [noBackslash] at accepted
    cases accepted

theorem complete (isUnit : NameUnit 0 accepts unit) {more behind : List Char}
    (complete : EscapesComplete (unit ++ more) behind) : NameUnit 1 accepts unit := by
  refine isUnit.imp_left fun isEscape => ?_
  obtain ⟨rest, rfl⟩ := List.head?_eq_some_iff.mp isEscape.head?_eq
  obtain ⟨escape, whole, starts⟩ := complete [] (rest ++ more) rfl
  have begins : '\\' :: rest <+: '\\' :: (rest ++ more) ++ behind := ⟨more ++ behind, by simp⟩
  rcases List.prefix_or_prefix_of_prefix starts begins with shorter | longer
  · rwa [← whole.eq_of_prefix isEscape shorter]
  · rwa [isEscape.eq_of_prefix whole longer]

end NameUnit

theorem EscapesComplete.rest {front rest behind : List Char}
    (complete : EscapesComplete (front ++ rest) behind) : EscapesComplete rest behind := by
  rintro before after rfl
  exact complete (front ++ before) after (List.append_assoc ..).symm

theorem NameUnit.escapesComplete {accepts : Char → Bool} (noBackslash : accepts '\\' = false)
    {unit later behind : List Char} (isUnit : NameUnit 1 accepts unit)
    (further : EscapesComplete later behind) : EscapesComplete (unit ++ later) behind := by
  intro front rest split
  rcases List.append_eq_append_iff.mp split with ⟨between, rfl, same⟩ | ⟨within, rfl, same⟩
  · exact further between rest same
  · match within, same with
    | [], same => exact further [] rest same.symm
    | char :: within, same =>
        obtain ⟨rfl, rfl⟩ := List.cons_eq_cons.mp same
        obtain ⟨rfl, isEscape⟩ := isUnit.of_backslash noBackslash rfl
        exact ⟨_, isEscape, later ++ behind, by simp⟩

theorem escapesComplete_flatten {units : List (List Char)} {behind : List Char}
    (areUnits : ∀ unit ∈ units, NameUnit 1 isIdentifierPart unit) :
    EscapesComplete units.flatten behind := by
  induction units with
  | nil =>
      intro front rest split
      cases front <;> cases split
  | cons unit units ih =>
      obtain ⟨isUnit, others⟩ := List.forall_mem_cons.mp areUnits
      exact isUnit.escapesComplete noPart_backslash (ih others)

theorem IsName.escapesComplete {name : List Char} (isName : IsName 1 name) (behind : List Char) :
    EscapesComplete name behind := by
  obtain ⟨first, later, rfl, starts, areUnits⟩ := isName
  exact starts.escapesComplete noStart_backslash (escapesComplete_flatten areUnits)

theorem complete_of_flatten {units : List (List Char)} {behind : List Char}
    (areUnits : ∀ unit ∈ units, NameUnit 0 isIdentifierPart unit)
    (complete : EscapesComplete units.flatten behind) :
    ∀ unit ∈ units, NameUnit 1 isIdentifierPart unit := by
  induction units with
  | nil => nofun
  | cons unit units ih =>
      obtain ⟨isUnit, others⟩ := List.forall_mem_cons.mp areUnits
      exact List.forall_mem_cons.mpr ⟨isUnit.complete complete, ih others complete.rest⟩

theorem ReadsName.isName_iff {name behind : List Char} (reads : ReadsName name behind) :
    IsName 1 name ↔ EscapesComplete name behind := by
  refine ⟨fun isName => isName.escapesComplete behind, fun complete => ?_⟩
  obtain ⟨whole, cut, rfl, ⟨first, later, rfl, starts, areUnits⟩, opening, noUnit⟩ := reads
  obtain rfl : cut = [] := by
    match cut with
    | [] => rfl
    | mark :: rest =>
        -- A complete escape there would be the longest opening itself, which is no unit.
        obtain ⟨more, isEscape | ⟨char, alone, part⟩⟩ := opening.opens
        · obtain rfl : mark = '\\' := Option.some.inj isEscape.head?_eq
          obtain ⟨escape, whole, begins⟩ := complete.rest [] rest rfl
          have isUnit : NameUnit 0 isIdentifierPart escape := .inl (whole.mono (Nat.zero_le 1))
          have short := opening.longest escape begins ⟨[], by rwa [List.append_nil]⟩
          have within := List.prefix_of_prefix_length_le begins (List.prefix_append _ behind) short
          have same := whole.eq_of_prefix isEscape (within.trans (List.prefix_append _ more))
          have all : escape = '\\' :: rest := within.eq_of_length_le (by simp [same])
          rw [all] at isUnit
          exact absurd isUnit noUnit
        · obtain ⟨rfl, rfl, rfl⟩ : mark = char ∧ rest = [] ∧ more = [] := by simpa using alone
          exact absurd (.inr ⟨mark, rfl, part⟩) noUnit
  rw [List.append_nil] at complete ⊢
  exact ⟨first, later, rfl, starts.complete complete, complete_of_flatten areUnits complete.rest⟩

/-! ## The tokens of a text -/

/-- What stands in front of the name in a token that is one. -/
def Kind.sigil (kind : Kind) : List Char := if kind = .privateName then ['#'] else []

theorem readsName_scanWord {first : Char} (starts : isIdentifierStart first = true) (rest : List Char) :
    ReadsName (scanWord first rest).2.taken (scanWord first rest).2.rest := by
  rw [scanWord_snd]
  exact Scan.readsName_identifierRest (.inr ⟨first, rfl, starts⟩) rest

theorem readsName_scanEscapedWord {rest : List Char} (ident : (scanEscapedWord rest).1 = .ident) :
    ReadsName (scanEscapedWord rest).2.taken (scanEscapedWord rest).2.rest := by
  unfold scanEscapedWord at ident ⊢
  split at ident
  · cases ident
  · rename_i escape scanned
    have scans := Scan.scansEscape_of_unicodeEscape scanned
    have starts : NameUnit 0 isIdentifierStart ('\\' :: escape.taken) := .inl (scans.complete_iff.mp rfl)
    exact Scan.readsName_identifierRest starts escape.rest

theorem readsName_scanPrivateName {rest : List Char} (named : (scanPrivateName rest).1 = .privateName) :
    ∃ name, (scanPrivateName rest).2.taken = '#' :: name ∧ ReadsName name (scanPrivateName rest).2.rest := by
  unfold scanPrivateName at named ⊢
  split at named
  · cases named
  · rename_i start scanned
    have starts := Scan.nameUnit_of_identifierStart scanned
    exact ⟨start.taken ++ (Scan.identifierRest start.rest).2.taken, rfl,
      Scan.readsName_identifierRest starts start.rest⟩

namespace ScansAs

variable {source taken : List Char} {kind : Kind}

theorem readsName (scans : ScansAs source kind taken) (isName : kind = .ident ∨ kind = .privateName) :
    ∃ name behind, taken = kind.sigil ++ name ∧ source = taken ++ behind ∧ ReadsName name behind := by
  cases scans with
  | @word first rest starts =>
      have ident : (scanWord first rest).1 = .ident := by
        refine (kind_scanWord first rest).resolve_right fun keyword => ?_
        have isKeyword := (Kind.text_of_ofKeyword? keyword).1
        rcases isName with same | same <;> rw [same] at isKeyword <;> cases isKeyword
      refine ⟨_, _, ?_, (text_scanWord first rest).symm, readsName_scanWord starts rest⟩
      rw [ident]
      rfl
  | escapedWord rest =>
      have ident : (scanEscapedWord rest).1 = .ident := by
        refine (kind_scanEscapedWord rest).resolve_right fun unknown => ?_
        rw [unknown] at isName
        exact absurd isName (by decide)
      refine ⟨_, _, ?_, (text_scanEscapedWord rest).symm, readsName_scanEscapedWord ident⟩
      rw [ident]
      rfl
  | privateName rest =>
      have named : (scanPrivateName rest).1 = .privateName := by
        refine (kind_scanPrivateName rest).resolve_right fun unknown => ?_
        rw [unknown] at isName
        exact absurd isName (by decide)
      obtain ⟨name, taken, reads⟩ := readsName_scanPrivateName named
      refine ⟨name, _, ?_, (text_scanPrivateName rest).symm, reads⟩
      rw [named]
      exact taken
  | punctuator longest =>
      have punctuates := (mem_punctuators_iff.mp longest.listed).1
      rcases isName with rfl | rfl <;> cases punctuates
  | question => exact absurd isName (by decide)
  | other nameless => exact (isName.elim nameless.2.1 nameless.2.2).elim

end ScansAs

/-- An identifier, and a private name behind its `#`, is read as a name: a unit that starts one, units that
continue one, and the longest opening of a further unit. It is a name, whose escapes are complete, exactly
if each backslash in it begins a complete escape. -/
theorem tokenize_reads_names {text : List Char} {index : Nat} {token : Token}
    (here : (tokenize text).tokens[index]? = some token)
    (isName : token.kind = .ident ∨ token.kind = .privateName) :
    ∃ name behind, (tokenize text).tokenText token = token.kind.sigil ++ name ∧
      (tokenize text).ahead token = (tokenize text).tokenText token ++ behind ∧
      ReadsName name behind ∧ (IsName 1 name ↔ EscapesComplete name behind) := by
  obtain ⟨memory, finds⟩ := exists_finds here
  have scans := scansAs_scanToken memory ((tokenize text).ahead token)
  rw [← finds.kind, ← finds.text] at scans
  obtain ⟨name, behind, spelled, ahead, reads⟩ := scans.readsName isName
  exact ⟨name, behind, spelled, ahead, reads, reads.isName_iff⟩

/-- In `#\u{62}c` the escape is complete. -/
theorem tokenize_reads_names_of_escape :
    let text := ['#', '\\', 'u', '\x7b', '6', '2', '\x7d', 'c']
    let token : Token := ⟨.empty, .privateName, ⟨0, 8⟩, .empty⟩
    (tokenize text).tokens[0]? = some token ∧
      ∃ name behind, (tokenize text).tokenText token = '#' :: name ∧ ReadsName name behind ∧
        IsName 1 name := by
  intro text token
  have here : (tokenize text).tokens[0]? = some token := by decide +kernel
  obtain ⟨name, behind, spelled, ahead, reads, isName⟩ := tokenize_reads_names here (.inr rfl)
  refine ⟨here, name, behind, spelled, reads, isName.mpr ?_⟩
  have all : (tokenize text).tokenText token = text := by decide +kernel
  obtain rfl : ['\\', 'u', '\x7b', '6', '2', '\x7d', 'c'] = name := by
    rw [all] at spelled
    exact List.tail_eq_of_cons_eq spelled
  intro front rest split
  match front with
  | [] =>
      obtain rfl := List.tail_eq_of_cons_eq split
      have hex : isHexDigit '6' = true ∧ isHexDigit '2' = true := by decide
      have complete : Escape 1 ['\\', 'u', '\x7b', '6', '2', '\x7d'] :=
        @Escape.braced 1 ['6', '2'] (by simp [hex]) (Nat.le_succ 1)
      exact ⟨_, complete, 'c' :: behind, rfl⟩
  | _ :: front =>
      have inside : '\\' ∈ ['u', '\x7b', '6', '2', '\x7d', 'c'] := by
        rw [List.tail_eq_of_cons_eq split]
        simp
      exact absurd inside (by decide)

/-- A backslash at the end of a text belongs to the identifier in front of it, and `\u{}` is an identifier,
although neither is a complete escape. -/
theorem tokenize_keeps_incomplete_escapes :
    let cut := ['a', '\\']
    let braces := ['\\', 'u', '\x7b', '\x7d']
    ((tokenize cut).tokens[0]? = some ⟨.empty, .ident, ⟨0, 2⟩, .empty⟩ ∧
      (tokenize cut).tokenText ⟨.empty, .ident, ⟨0, 2⟩, .empty⟩ = cut ∧ ¬IsName 1 cut) ∧
    (tokenize braces).tokens[0]? = some ⟨.empty, .ident, ⟨0, 4⟩, .empty⟩ ∧
      (tokenize braces).tokenText ⟨.empty, .ident, ⟨0, 4⟩, .empty⟩ = braces ∧ ¬IsName 1 braces := by
  intro cut braces
  refine ⟨⟨by decide +kernel, by decide +kernel, fun isName => ?_⟩, by decide +kernel, by decide +kernel,
    fun isName => ?_⟩
  · obtain ⟨escape, complete, starts⟩ := isName.escapesComplete [] ['a'] [] rfl
    have short : escape.length ≤ 1 := starts.length_le
    have long := complete.four_lt_length
    omega
  · obtain ⟨escape, complete, starts⟩ := isName.escapesComplete [] [] ['u', '\x7b', '\x7d'] rfl
    have short : escape.length ≤ 4 := starts.length_le
    have long := complete.four_lt_length
    omega

end ScriptTree
