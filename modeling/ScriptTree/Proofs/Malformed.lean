import ScriptTree.Proofs.Contents

/-! # Malformed input

Every token that a production takes is of a kind that the guards have told, and none of them is unknown.
So no attempt comes past an unknown token, and whatever a parse expects, it expects no later than there:
a parse of a stream with an unknown token fails, and its error stands at that token or in front of it. -/
set_option autoImplicit false
namespace ScriptTree

def Terminals.KnownTo (terminals : Terminals) (position : Nat) : Prop :=
  ∀ earlier < position, terminals.kindAt earlier ≠ .unknown

namespace Terminals.KnownTo

variable {terminals : Terminals} {position other : Nat}

theorem zero : terminals.KnownTo 0 := fun _ before => absurd before (Nat.not_lt_zero _)

theorem succ (front : terminals.KnownTo position) (known : terminals.kindAt position ≠ .unknown) :
    terminals.KnownTo (position + 1) := by
  intro earlier before
  rcases Nat.lt_succ_iff_lt_or_eq.mp before with less | rfl
  · exact front earlier less
  · exact known

theorem of_le (known : terminals.KnownTo position) (less : other ≤ position) : terminals.KnownTo other :=
  fun earlier before => known earlier (Nat.lt_of_lt_of_le before less)

theorem max (front : terminals.KnownTo position) (otherFront : terminals.KnownTo other) :
    terminals.KnownTo (max position other) := by
  intro earlier before
  by_cases less : earlier < position
  · exact front earlier less
  · exact otherFront earlier (by omega)

end Terminals.KnownTo

namespace Furthest

variable (furthest : Furthest) (position : Nat)

@[simp] theorem position_advance :
    (furthest.advance position).position = max furthest.position position := by
  rw [advance]
  split
  · rename_i less
    exact (Nat.max_eq_right (Nat.le_of_lt less)).symm
  · rename_i notLess
    exact (Nat.max_eq_left (Nat.le_of_not_lt notLess)).symm

@[simp] theorem position_expect (kind : Kind) :
    (furthest.expect position kind).position = max furthest.position position := by
  rw [expect]
  split
  · omega
  · exact furthest.position_advance position

@[simp] theorem position_expectConstruct (name : String) :
    (furthest.expectConstruct position name).position = max furthest.position position := by
  rw [expectConstruct]
  split
  · omega
  · dsimp only
    split <;> exact furthest.position_advance position

end Furthest

/-! ## No attempt comes past an unknown token -/

/-- A parse came past no unknown token, and no attempt of it expected anything behind one. -/
def Parse.StaysKnown (terminals : Terminals) : Parse → Prop
  | .matched place history =>
      terminals.KnownTo place.position ∧ terminals.KnownTo history.furthest.position
  | .refused history => terminals.KnownTo history.furthest.position
  | .outOfFuel => True

namespace Parse.StaysKnown

variable {terminals : Terminals} {parse : Parse}

theorem andThen {next : Place → History → Parse} (stays : parse.StaysKnown terminals)
    (goesOn : ∀ place history, parse = .matched place history → terminals.KnownTo place.position →
      terminals.KnownTo history.furthest.position → (next place history).StaysKnown terminals) :
    (parse.andThen next).StaysKnown terminals := by
  cases parse with
  | matched place history => exact goesOn place history rfl stays.1 stays.2
  | refused history => exact stays
  | outOfFuel => trivial

theorem orElse {otherwise : History → Parse} (stays : parse.StaysKnown terminals)
    (goesOn : ∀ history, terminals.KnownTo history.furthest.position →
      (otherwise history).StaysKnown terminals) : (parse.orElse otherwise).StaysKnown terminals := by
  cases parse with
  | matched place history => exact stays
  | refused history => exact goesOn history stays
  | outOfFuel => trivial

theorem close {around : Place → Place} (stays : parse.StaysKnown terminals)
    (same : ∀ inner, (around inner).position = inner.position) :
    (parse.andThen fun inner later => .matched (around inner) later).StaysKnown terminals := by
  apply stays.andThen
  intro inner later _ front known
  exact ⟨same inner ▸ front, known⟩

end Parse.StaysKnown

section Runs

variable {σ : Type} {watch : Watch σ} {terminals : Terminals}

def Watch.TakesKnown (watch : Watch σ) : Prop :=
  ∀ {state taken : σ} {kinds : List Kind}, watch.take state kinds = some taken → .unknown ∉ kinds

theorem Watch.keeps_true (watch : Watch σ) : watch.Keeps fun _ _ _ _ => True := by
  constructor <;> intros <;> trivial

/-- The calls of a nonterminal come past no unknown token from where there is none in front. -/
def CallsStayKnown (terminals : Terminals)
    (call : Nonterminal → Scope → Place → History → Parse) : Prop :=
  ∀ (nonterminal : Nonterminal) (scope : Scope) (place : Place) (history : History),
    nonterminal.isProper = true → terminals.Shows place.position nonterminal.known →
    terminals.KnownTo place.position → terminals.KnownTo history.furthest.position →
    (call nonterminal scope place history).StaysKnown terminals

variable [DecidableEq σ] {call : Nonterminal → Scope → Place → History → Parse}

theorem Production.shows_of_nest {production : Production} {state : σ × Ahead} {scope : Scope}
    {before after : Place} {history later : History} (legal : production.watched watch state ≠ .illegal)
    (shows : terminals.Shows before.position state.2)
    (matched : production.nest terminals call scope before history = .matched after later) :
    ∃ reached, production.watched watch state = .reaches reached ∧
      terminals.Shows after.position reached.2 := by
  have satisfied : CallsSatisfy call (watch.Relates (fun _ _ _ _ => True) terminals) :=
    fun _ _ _ _ _ _ _ _ _ => trivial
  have derives := production.derives_of_nest satisfied scope before after history later matched
  obtain ⟨reached, reaches, showsAfter, -⟩ :=
    watch.keeps_true.finds_of_derives production state scope before after legal shows derives
  exact ⟨reached, reaches, showsAfter⟩

theorem Production.staysKnown (takesKnown : watch.TakesKnown) (calls : CallsStayKnown terminals call)
    (production : Production) :
    ∀ (state : σ × Ahead) (scope : Scope) (place : Place) (history : History),
      production.watched watch state ≠ .illegal → terminals.Shows place.position state.2 →
      terminals.KnownTo place.position → terminals.KnownTo history.furthest.position →
      (production.nest terminals call scope place history).StaysKnown terminals := by
  induction production with
  | empty | hole =>
      intro state scope place history _ _ front known
      exact ⟨front, known⟩
  | refuse =>
      intro state scope place history _ _ _ known
      exact known
  | take =>
      intro state scope place history legal shows front known
      obtain ⟨reached, found⟩ := Verdict.ofOption_ne_illegal legal
      obtain ⟨kinds, member, takes, -⟩ := Watch.takeNext_eq_some found
      have here : terminals.kindAt place.position ∈ kinds := shows _ member
      exact ⟨front.succ fun unknown => takesKnown takes (unknown ▸ here), known⟩
  | expected kind | expectedConstruct name =>
      intro state scope place history _ _ front known
      exact ⟨front, by simpa [History.expect, History.expectConstruct] using known.max front⟩
  | call nonterminal =>
      intro state scope place history legal shows front known
      obtain ⟨reached, found⟩ := Verdict.ofOption_ne_illegal legal
      obtain ⟨proper, knows, -, -⟩ := Watch.callNext_eq_some found
      exact calls nonterminal scope place history proper (shows.of_subset knows) front known
  | seq first second firstIh secondIh =>
      intro state scope place history legal shows front known
      obtain ⟨firstLegal, secondLegal⟩ := Verdict.andThen_ne_illegal legal
      apply (firstIh state scope place history firstLegal shows front known).andThen
      intro middle meanwhile matched middleFront middleKnown
      obtain ⟨between, reaches, middleShows⟩ := shows_of_nest firstLegal shows matched
      exact secondIh between scope middle meanwhile (secondLegal _ reaches) middleShows middleFront
        middleKnown
  | branch guard yes no yesIh noIh =>
      intro state scope place history legal shows front known
      obtain ⟨yesLegal, noLegal⟩ := Verdict.merge_ne_illegal legal
      rw [nest]
      split
      · rename_i admitted
        exact yesIh _ scope place history yesLegal ((Guard.shows_facts admitted).append shows) front known
      · exact noIh state scope place history noLegal shows front known
  | node kind body ih =>
      intro state scope place history legal shows front known
      obtain ⟨bodyLegal, -⟩ := Verdict.andThen_ne_illegal legal
      exact (ih _ scope place.inside history bodyLegal shows front known).close fun _ => rfl
  | wrap kind body ih =>
      intro state scope place history legal shows front known
      rw [watched] at legal
      split at legal
      · obtain ⟨bodyLegal, -⟩ := Verdict.andThen_ne_illegal legal
        rw [nest]
        split
        · exact known
        · exact (ih _ scope place.inside history bodyLegal shows front known).close fun _ => rfl
      · exact absurd rfl legal
  | fork head guard kindYes yes kindNo no headIh yesIh noIh =>
      intro state scope place history legal shows front known
      rw [watched] at legal
      split at legal
      · obtain ⟨headLegal, tailLegal⟩ := Verdict.andThen_ne_illegal legal
        apply (headIh _ scope place.inside history headLegal shows front known).andThen
        intro middle meanwhile matched middleFront middleKnown
        have inside : terminals.Shows place.inside.position state.2 := shows
        obtain ⟨between, reaches, middleShows⟩ := shows_of_nest headLegal inside matched
        obtain ⟨yesLegal, noLegal⟩ := Verdict.merge_ne_illegal (tailLegal _ reaches)
        split
        · rename_i admitted
          exact (yesIh _ scope middle meanwhile (Verdict.andThen_ne_illegal yesLegal).1
            ((Guard.shows_facts admitted).append middleShows) middleFront middleKnown).close fun _ => rfl
        · exact (noIh _ scope middle meanwhile (Verdict.andThen_ne_illegal noLegal).1 middleShows
            middleFront middleKnown).close fun _ => rfl
      · exact absurd rfl legal
  | orElse first second firstIh secondIh =>
      intro state scope place history legal shows front known
      obtain ⟨firstLegal, secondLegal⟩ := Verdict.merge_ne_illegal legal
      apply (firstIh state scope place history firstLegal shows front known).orElse
      intro later laterKnown
      exact secondIh state scope place later secondLegal shows front laterKnown
  | onceOrElse first second firstIh secondIh =>
      intro state scope place history legal shows front known
      obtain ⟨firstLegal, secondLegal⟩ := Verdict.merge_ne_illegal legal
      rw [nest]
      split
      · exact secondIh state scope place history secondLegal shows front known
      · apply (firstIh state scope place history firstLegal shows front known).orElse
        intro later laterKnown
        exact secondIh state scope place _ secondLegal shows front laterKnown
  | inScope change body ih =>
      intro state scope place history legal shows front known
      exact ih state (change.apply scope) place history legal shows front known
  | list body ih =>
      intro state scope place history legal shows front known
      obtain ⟨bodyLegal, -⟩ := Verdict.andThen_ne_illegal legal
      exact (ih state scope place.inside history bodyLegal shows front known).close fun _ => rfl
  | markTarget =>
      intro state scope place history _ _ front known
      refine ⟨front, ?_⟩
      cases completed : place.completed <;> simpa [History.markTarget, completed] using known

theorem Nonterminal.nestWith_staysKnown (takesKnown : watch.TakesKnown)
    (passes : ∀ nonterminal ∈ listed, watch.passes nonterminal = true) (terminals : Terminals)
    (fuel : Nat) : CallsStayKnown terminals (nestWith production terminals fuel) := by
  induction fuel with
  | zero =>
      intro nonterminal scope place history _ _ _ _
      trivial
  | succ fuel ih =>
      intro nonterminal scope place history proper shows front known
      obtain ⟨ahead, passed⟩ := Watch.watched_of_passes (passes nonterminal (mem_listed proper))
      have legal : nonterminal.production.watched watch (watch.entry nonterminal, nonterminal.known) ≠
          .illegal := by simp [passed]
      exact nonterminal.production.staysKnown takesKnown ih _ scope place history legal shows front known

end Runs

/-! ## Errors -/

theorem contentWatch_takesKnown : contentWatch.TakesKnown := Content.unknown_notMem_of_take

/-- A run of a rule came past no unknown token, and expected nothing behind one. -/
theorem Rule.run_known (rule : Rule) (terminals : Terminals) :
    match rule.nonterminal.run terminals with
    | .matched state => terminals.KnownTo state.position ∧ terminals.KnownTo state.furthest.position
    | .refused state => terminals.KnownTo state.furthest.position
    | .outOfFuel => True := by
  have stays := Nonterminal.nestWith_staysKnown contentWatch_takesKnown contentWatch_passes terminals
    (Nonterminal.enoughFuel terminals) rule.nonterminal .outermost .start .start rule.isProper_nonterminal
    (rule.known_nonterminal ▸ .nil) .zero .zero
  have mirrors := Nonterminal.run_mirrors terminals rule.nonterminal rule.role_nonterminal
    rule.isProper_nonterminal
  cases ran : rule.nonterminal.run terminals with
  | matched state =>
      rw [ran] at mirrors
      obtain ⟨_, _, _, _, _, _, _, parsed⟩ := mirrors
      rw [parsed] at stays
      exact stays
  | refused state =>
      rw [ran] at mirrors
      obtain ⟨_, _, _, _, parsed⟩ := mirrors
      rw [parsed] at stays
      exact stays
  | outOfFuel => trivial

section Stream

variable {stream : TokenStream}

theorem TokenStream.kindAt_tokens {index : Nat} {token : Token} (here : stream.tokens[index]? = some token) :
    Terminals.kindAt stream.tokens index = token.kind := by
  simp [Terminals.kindAt, here]

/-- The error of a parse stands where no token in front is unknown. -/
theorem parseStream_known {rule : Rule} {error : SyntaxError}
    (failed : parseStream rule stream = .error (.syntaxError error)) :
    Terminals.KnownTo stream.tokens error.position := by
  have known := rule.run_known stream.tokens
  rw [parseStream, Outcome.toParse.eq_def] at failed
  split at failed
  · cases failed
  · rename_i state ran
    rw [ran] at known
    cases failed
    exact known.of_le (Nat.min_le_left _ _)
  · rename_i state ran
    rw [ran] at known
    split at failed
    · split at failed <;> cases failed
    · cases failed
      have further : Terminals.KnownTo stream.tokens (state.expect .eof).furthest.position := by
        simpa [ParseState.expect] using known.2.max known.1
      exact further.of_le (Nat.min_le_left _ _)

theorem kind_ne_unknown_of_parseStream (accepts : stream.Accepts) {rule : Rule} {tree : SyntaxTree}
    (parsed : parseStream rule stream = .ok tree) {index : Nat} {token : Token}
    (here : stream.tokens[index]? = some token) : token.kind ≠ .unknown := by
  have known := rule.run_known stream.tokens
  rw [parseStream, Outcome.toParse.eq_def] at parsed
  split at parsed
  · cases parsed
  · cases parsed
  · rename_i state ran
    rw [ran] at known
    split at parsed
    · rename_i whole
      by_cases last : index = stream.eofIndex
      · rw [(accepts.kind_eq_eof_iff here).mpr last]
        decide
      · have size := accepts.size_eq
        have inside := (Array.getElem?_eq_some_iff.mp here).1
        rw [← TokenStream.kindAt_tokens here]
        exact known.1 index (by omega)
    · cases parsed

end Stream

/-- Malformed input is never taken: the trees of all matches and parses place their tokens, a stream that
parses has no unknown tokens, and the error of a parse that fails stands no further than any of them. -/
theorem matchRule_refuses_malformed {text : List Char} {tokens : Array Token} {stream : TokenStream}
    (accepted : TokenStream.ofTokens text tokens = .ok stream) (rule : Rule) :
    (∀ (position : Nat) (tree : SyntaxTree) (next : Cursor),
      matchRule rule (.atToken stream position) = .ok (tree, next) → tree.PlacesTokens) ∧
    (∀ tree : SyntaxTree, parseStream rule stream = .ok tree →
      tree.PlacesTokens ∧ ∀ token ∈ stream.tokens, token.kind ≠ .unknown) ∧
    ∀ failure, parseStream rule stream = .error failure → ∃ error, failure = .syntaxError error ∧
      ∀ index token, stream.tokens[index]? = some token → token.kind = .unknown →
        error.position ≤ index := by
  obtain ⟨-, accepts⟩ := TokenStream.accepts_of_ofTokens accepted
  obtain ⟨ofMatch, ofParse⟩ := accepts.holds_of_matched rule fun _ before _ _ _ matched =>
    matched.placesTokens accepts before
  refine ⟨ofMatch, ?_, ?_⟩
  · intro tree parsed
    refine ⟨ofParse tree parsed, ?_⟩
    intro token member
    obtain ⟨index, here⟩ := Array.mem_iff_getElem?.mp member
    exact kind_ne_unknown_of_parseStream accepts parsed here
  · intro failure failed
    rcases parseStream_cases accepts rule with ⟨error, refused, _⟩ | ⟨_, _, parsed, _⟩
    · rw [refused] at failed
      cases failed
      refine ⟨error, rfl, ?_⟩
      intro index token here unknown
      apply Nat.le_of_not_lt
      intro behind
      exact parseStream_known refused index behind ((TokenStream.kindAt_tokens here).trans unknown)
    · rw [parsed] at failed
      cases failed

/-- A reserved word names a property, and the sign behind the object is unknown: what comes before it
matches, and the error of the parse stands no further. -/
theorem matchRule_refuses_unknown_sign :
    let text := ['x', '=', '\x7b', 'e', 'n', 'u', 'm', ':', 'y', '\x7d', '@']
    let stream := tokenize text
    TokenStream.ofTokens text stream.tokens = .ok stream ∧
    stream.tokens.toList.map Token.kind =
      [.ident, .eq, .leftBrace, .enumKw, .colon, .ident, .rightBrace, .unknown, .eof] ∧
    (∃ tree next, matchRule .expression (.atToken stream 0) = .ok (tree, next) ∧ tree.PlacesTokens) ∧
    ∃ error, parseStream .expression stream = .error (.syntaxError error) ∧ error.position ≤ 7 := by
  intro text stream
  have accepted : TokenStream.ofTokens text stream.tokens = .ok stream := rfl
  have kinds : stream.tokens.toList.map Token.kind =
      [.ident, .eq, .leftBrace, .enumKw, .colon, .ident, .rightBrace, .unknown, .eof] := by
    decide +kernel
  have found : (matchRule .expression (.atToken stream 0)).toOption.isSome = true := by decide +kernel
  have failed : (parseStream .expression stream).toOption.isNone = true := by decide +kernel
  obtain ⟨ofMatch, -, errors⟩ := matchRule_refuses_malformed accepted .expression
  refine ⟨accepted, kinds, ?_, ?_⟩
  · cases result : matchRule .expression (.atToken stream 0) with
    | error failure =>
        rw [result] at found
        cases found
    | ok pair => exact ⟨pair.1, pair.2, rfl, ofMatch 0 pair.1 pair.2 result⟩
  · cases result : parseStream .expression stream with
    | ok tree =>
        rw [result] at failed
        cases failed
    | error failure =>
        obtain ⟨error, rfl, bound⟩ := errors failure result
        have unknown : stream.tokens[7]?.map Token.kind = some .unknown := by decide +kernel
        obtain ⟨token, here, isUnknown⟩ := Option.map_eq_some_iff.mp unknown
        exact ⟨error, rfl, bound 7 token here isUnknown⟩

end ScriptTree
