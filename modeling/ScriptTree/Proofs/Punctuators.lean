import ScriptTree.Token.Lossless

/-! # The longest punctuator

Which spellings a decision can end with is read off its choices. If no character that is tried for is tried
for again where it was missed, a decision takes the longest of its spellings that the text starts with. The
spellings of the decisions of the tokenizer are those of the punctuators, so the longest punctuator is taken;
the one exception is a question mark in front of a number that starts with a point. -/
set_option autoImplicit false
namespace ScriptTree

/-! ## Punctuators and their spellings -/

def punctuators : List (Kind × List Char) :=
  (Kind.all.filter Kind.isPunctuator).filterMap fun kind =>
    kind.text.map fun spelling => (kind, spelling.toList)

theorem mem_punctuators_iff {kind : Kind} {word : List Char} :
    (kind, word) ∈ punctuators ↔
      kind.isPunctuator = true ∧ ∃ spelling, kind.text = some spelling ∧ word = spelling.toList := by
  simp only [punctuators, List.mem_filterMap, List.mem_filter, Option.map_eq_some_iff, Prod.mk.injEq]
  constructor
  · rintro ⟨kind, ⟨-, punctuates⟩, spelling, spelled, rfl, rfl⟩
    exact ⟨punctuates, spelling, spelled, rfl⟩
  · rintro ⟨punctuates, spelling, spelled, rfl⟩
    exact ⟨kind, ⟨kind.mem_all, punctuates⟩, spelling, spelled, rfl, rfl⟩

/-- A punctuator that a text starts with, and no longer one. -/
structure LongestPunctuator (source : List Char) (kind : Kind) (taken : List Char) : Prop where
  listed : (kind, taken) ∈ punctuators
  longest : ∀ entry ∈ punctuators, entry.2 <+: source → entry.2.length ≤ taken.length

/-! ## What a decision takes -/

namespace Decision

/-- The kinds that a decision can end with, each with what is taken for it. -/
def spellings : Decision → List (Kind × List Char)
  | is kind => [(kind, [])]
  | eat char behind otherwise =>
      behind.spellings.map (fun (kind, word) => (kind, char :: word)) ++ otherwise.spellings

/-- No spelling for the case that a character was missed starts with that character. -/
def IsApart : Decision → Prop
  | is _ => True
  | eat char behind otherwise =>
      (∀ entry ∈ otherwise.spellings, entry.2.head? ≠ some char) ∧ behind.IsApart ∧ otherwise.IsApart

instance decidableIsApart : (decision : Decision) → Decidable decision.IsApart
  | is _ => inferInstanceAs (Decidable True)
  | eat char behind otherwise =>
      have := behind.decidableIsApart
      have := otherwise.decidableIsApart
      inferInstanceAs (Decidable ((∀ entry ∈ otherwise.spellings, entry.2.head? ≠ some char) ∧
        behind.IsApart ∧ otherwise.IsApart))

theorem run_mem_spellings (decision : Decision) (source : List Char) :
    ((decision.run source).1, (decision.run source).2.taken) ∈ decision.spellings := by
  fun_induction run decision source with
  | case1 => exact List.mem_singleton_self _
  | case2 char behind otherwise source next kind split found ih =>
      rw [found] at ih
      exact List.mem_append_left _ (List.mem_map_of_mem ih)
  | case3 _ _ _ _ _ ih => exact List.mem_append_right _ ih

/-- Of the spellings that a text starts with the longest is taken. -/
theorem length_le_of_isApart {decision : Decision} (apart : decision.IsApart) {source : List Char}
    {entry : Kind × List Char} (listed : entry ∈ decision.spellings) (starts : entry.2 <+: source) :
    entry.2.length ≤ (decision.run source).2.taken.length := by
  fun_induction run decision source generalizing entry with
  | case1 =>
      obtain rfl := List.mem_singleton.mp listed
      exact Nat.le_refl 0
  | case2 char behind otherwise source next kind split found ih =>
      obtain ⟨rest, rfl⟩ := List.head?_eq_some_iff.mp next
      rcases List.mem_append.mp listed with eaten | missed
      · obtain ⟨inner, member, rfl⟩ := List.mem_map.mp eaten
        rw [found] at ih
        exact Nat.succ_le_succ (ih apart.2.1 member (List.cons_prefix_cons.mp starts).2)
      · -- Only an empty spelling for the other case can be in front here.
        have other := apart.1 entry missed
        cases word : entry.2 with
        | nil => exact Nat.zero_le _
        | cons first behind =>
            rw [word] at starts other
            exact absurd (congrArg some (List.cons_prefix_cons.mp starts).1) other
  | case3 char behind otherwise source other ih =>
      rcases List.mem_append.mp listed with eaten | missed
      · obtain ⟨inner, -, rfl⟩ := List.mem_map.mp eaten
        obtain ⟨rest, rfl⟩ := starts
        exact absurd rfl other
      · exact ih apart.2.2 missed starts

end Decision

/-! ## The decisions of the tokenizer -/

section

open Decision

variable {first : Char} {rest : List Char}

theorem isApart_after (first : Char) : (after first).IsApart := by
  unfold after
  split
  all_goals decide

/-- A character and what is decided behind it spell a punctuator, or nothing is known of it. -/
theorem mem_punctuators_of_after (first : Char) : ∀ entry ∈ (after first).spellings,
    entry = (.unknown, []) ∨ (entry.1, first :: entry.2) ∈ punctuators := by
  unfold after
  split
  case h_20 =>
    intro entry listed
    exact .inl (List.mem_singleton.mp listed)
  all_goals decide +kernel

/-- Each other punctuator is decided behind its first character. -/
theorem mem_spellings_after {kind : Kind} {first : Char} {word : List Char}
    (listed : (kind, first :: word) ∈ punctuators) (other : first ∉ markStarts) :
    (kind, word) ∈ (after first).spellings := by
  have all : punctuators.all fun (kind, spelling) => spelling.head?.all fun first =>
      markStarts.contains first || (after first).spellings.contains (kind, spelling.tail) := by
    decide +kernel
  have decided := List.all_eq_true.mp all _ listed
  simpa [other] using decided

/-- What stands behind a slash, a question mark and a point makes a punctuator with them. -/
theorem mem_punctuators_of_shared :
    (∀ entry ∈ division.spellings, (entry.1, '/' :: entry.2) ∈ punctuators) ∧
      (∀ entry ∈ questionMark.spellings, (entry.1, '?' :: entry.2) ∈ punctuators) ∧
      (.questionDot, ['?', '.']) ∈ punctuators ∧ (.dot, ['.']) ∈ punctuators ∧
      (.dot3, ['.', '.', '.']) ∈ punctuators := by
  decide +kernel

/-- What punctuators with such a start are. -/
structure OfSharedStart (entry : Kind × List Char) : Prop where
  brace : entry.2.head? = some '\x7b' ∨ entry.2.head? = some '\x7d' → entry.2.length = 1
  slash : entry.2.head? = some '/' → (entry.1, entry.2.tail) ∈ division.spellings
  point : entry.2.head? = some '.' → entry.2 = ['.'] ∨ entry.2 = ['.', '.', '.']
  question : entry.2.head? = some '?' →
    entry = (.questionDot, ['?', '.']) ∨ (entry.1, entry.2.tail) ∈ questionMark.spellings

theorem ofSharedStart_of_mem {entry : Kind × List Char} (listed : entry ∈ punctuators) :
    OfSharedStart entry := by
  have all : ∀ entry ∈ punctuators,
      (entry.2.head? = some '\x7b' ∨ entry.2.head? = some '\x7d' → entry.2.length = 1) ∧
        (entry.2.head? = some '/' → (entry.1, entry.2.tail) ∈ division.spellings) ∧
        (entry.2.head? = some '.' → entry.2 = ['.'] ∨ entry.2 = ['.', '.', '.']) ∧
        (entry.2.head? = some '?' →
          entry = (.questionDot, ['?', '.']) ∨ (entry.1, entry.2.tail) ∈ questionMark.spellings) := by
    decide +kernel
  obtain ⟨brace, slash, point, question⟩ := all entry listed
  exact ⟨brace, slash, point, question⟩

/-- A spelling that a text starts with is empty or starts as the text does. -/
theorem head?_of_prefix {word : List Char} (starts : word <+: first :: rest) :
    word = [] ∨ word.head? = some first := by
  cases word with
  | nil => exact .inl rfl
  | cons char word => exact .inr (congrArg some (List.cons_prefix_cons.mp starts).1)

theorem mem_decideAfter (first : Char) (decision : Decision) (rest : List Char) :
    ∃ entry ∈ decision.spellings, (decideAfter first decision rest).1 = entry.1 ∧
      (decideAfter first decision rest).2.taken = first :: entry.2 :=
  ⟨_, decision.run_mem_spellings rest, rfl, rfl⟩

end

namespace LongestPunctuator

variable {first : Char} {rest : List Char} {kind : Kind}

theorem decideAfter {decision : Decision} (apart : decision.IsApart)
    (listed : ((decideAfter first decision rest).1, (decideAfter first decision rest).2.taken) ∈ punctuators)
    (complete : ∀ entry ∈ punctuators, entry.2 <+: first :: rest → entry.2.head? = some first →
      (entry.1, entry.2.tail) ∈ decision.spellings) :
    LongestPunctuator (first :: rest) (decideAfter first decision rest).1
      (decideAfter first decision rest).2.taken := by
  refine ⟨listed, fun entry member starts => ?_⟩
  rcases head?_of_prefix starts with none | leads
  · rw [none]
    exact Nat.zero_le _
  · obtain ⟨word, spelled⟩ := List.head?_eq_some_iff.mp leads
    have decided := complete entry member starts leads
    rw [spelled] at starts decided ⊢
    exact Nat.succ_le_succ
      (Decision.length_le_of_isApart apart decided (List.cons_prefix_cons.mp starts).2)

theorem after (other : first ∉ markStarts) (rest : List Char) :
    LongestPunctuator (first :: rest) (ScriptTree.decideAfter first (.after first) rest).1
        (ScriptTree.decideAfter first (.after first) rest).2.taken ∨
      (ScriptTree.decideAfter first (.after first) rest).1 = .unknown := by
  obtain ⟨entry, decided, kind, taken⟩ := mem_decideAfter first (.after first) rest
  rcases mem_punctuators_of_after first entry decided with rfl | listed
  · exact .inr kind
  · refine .inl (decideAfter (isApart_after first) (by rwa [kind, taken]) fun entry member _ leads => ?_)
    obtain ⟨kind, spelling⟩ := entry
    obtain ⟨word, rfl⟩ := List.head?_eq_some_iff.mp leads
    exact mem_spellings_after member other

theorem division (rest : List Char) :
    LongestPunctuator ('/' :: rest) (ScriptTree.decideAfter '/' .division rest).1
      (ScriptTree.decideAfter '/' .division rest).2.taken := by
  obtain ⟨entry, decided, kind, taken⟩ := mem_decideAfter '/' .division rest
  refine decideAfter (by decide) ?_ fun entry member _ leads => (ofSharedStart_of_mem member).slash leads
  rw [kind, taken]
  exact mem_punctuators_of_shared.1 entry decided

theorem points (rest : List Char) :
    LongestPunctuator ('.' :: rest) (scanPoints rest).1 (scanPoints rest).2.taken := by
  obtain ⟨-, -, -, dot, dot3⟩ := mem_punctuators_of_shared
  fun_cases scanPoints rest with
  | case1 rest =>
      refine ⟨dot3, fun entry member starts => ?_⟩
      rcases head?_of_prefix starts with none | leads
      · simp [none]
      · rcases (ofSharedStart_of_mem member).point leads with one | three
        · simp [one]
        · simp [three]
  | case2 rest noPoints =>
      refine ⟨dot, fun entry member starts => ?_⟩
      rcases head?_of_prefix starts with none | leads
      · simp [none]
      · rcases (ofSharedStart_of_mem member).point leads with one | three
        · simp [one]
        · rw [three] at starts
          obtain ⟨more, same⟩ := starts
          exact absurd (List.cons.inj same).2.symm (noPoints more)

theorem questionDot (rest : List Char) :
    LongestPunctuator ('?' :: '.' :: rest) .questionDot ['?', '.'] := by
  refine ⟨mem_punctuators_of_shared.2.2.1, fun entry member starts => ?_⟩
  rcases head?_of_prefix starts with none | leads
  · simp [none]
  · rcases (ofSharedStart_of_mem member).question leads with pair | decided
    · simp [pair]
    · -- What else starts with a question mark has another one in front of the point.
      obtain ⟨word, spelled⟩ := List.head?_eq_some_iff.mp leads
      rw [spelled] at starts decided ⊢
      have short := @Decision.length_le_of_isApart .questionMark (by decide) ('.' :: rest) _ decided
        (List.cons_prefix_cons.mp starts).2
      exact Nat.le_succ_of_le (Nat.succ_le_succ short)

/-- A question mark that no number with a point in front follows. -/
theorem questionMark (notPointed : beforePointedNumber rest = false) :
    LongestPunctuator ('?' :: rest) (scanQuestionMark rest).1 (scanQuestionMark rest).2.taken := by
  fun_cases scanQuestionMark rest with
  | case1 next =>
      obtain ⟨behind, rfl⟩ := List.head?_eq_some_iff.mp next.1
      exact questionDot behind
  | case2 other =>
      obtain ⟨entry, decided, kind, taken⟩ := mem_decideAfter '?' .questionMark rest
      refine decideAfter (by decide) ?_ fun entry member starts leads => ?_
      · rw [kind, taken]
        exact mem_punctuators_of_shared.2.1 entry decided
      refine ((ofSharedStart_of_mem member).question leads).resolve_left ?_
      rintro rfl
      obtain ⟨more, same⟩ := starts
      refine other ⟨?_, by simp [notPointed]⟩
      rw [← (List.cons.inj same).2]
      rfl

theorem brace {first : Char} (rest : List Char) (listed : (kind, [first]) ∈ punctuators)
    (isBrace : first = '\x7b' ∨ first = '\x7d') : LongestPunctuator (first :: rest) kind [first] := by
  refine ⟨listed, fun entry other starts => ?_⟩
  rcases head?_of_prefix starts with none | leads
  · simp [none]
  · exact Nat.le_of_eq ((ofSharedStart_of_mem other).brace (by simpa [leads] using isBrace))

end LongestPunctuator

/-- A point that a digit follows is left to the number. -/
theorem scanQuestionMark_of_pointed {rest : List Char} (pointed : beforePointedNumber rest = true) :
    scanQuestionMark rest = (.question, ⟨['?'], rest⟩) := by
  unfold beforePointedNumber at pointed
  split at pointed
  · simp [scanQuestionMark, beforePointedNumber, pointed, decideAfter, Decision.questionMark, Decision.run,
      Split.after]
  · cases pointed

end ScriptTree
