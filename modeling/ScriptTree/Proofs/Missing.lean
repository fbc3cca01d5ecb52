import ScriptTree.Proofs.Expectations
import ScriptTree.Proofs.Lookahead

/-! # What is missing

A production records a demand where guards have failed that would hold if the demand were met. What these
guards have told is kept track of along the production: lookaheads that the next tokens do not show. So a
syntax error asks for nothing that it found, with one exception. Where neither form of a function is
announced, `async` is recorded as expected although it is there, if `function` does not stand behind it. -/
set_option autoImplicit false
set_option maxRecDepth 4000
namespace ScriptTree

/-! ## Guards that fail -/

/-- Lookaheads under which a guard holds, whatever else is so. -/
def Guard.suffices : Guard → List Ahead
  | .next offset kinds => [[(offset, kinds)]]
  | .identifier offset => [[(offset, [.ident])]]
  | .and first second =>
      first.suffices.flatMap fun ahead => second.suffices.map fun more => ahead ++ more
  | .or first second => first.suffices ++ second.suffices
  | _ => []

/-- The next tokens at a position show none of some lookaheads. -/
def Terminals.Lacks (terminals : Terminals) (position : Nat) (missing : List Ahead) : Prop :=
  ∀ ahead ∈ missing, ¬terminals.Shows position ahead

section

variable {terminals : Terminals} {position : Nat} {missing more : List Ahead}

theorem Terminals.Lacks.nil : terminals.Lacks position [] := by simp [Lacks]

theorem Terminals.Lacks.append (lacks : terminals.Lacks position missing)
    (further : terminals.Lacks position more) : terminals.Lacks position (missing ++ more) := by
  intro ahead member
  rcases List.mem_append.mp member with earlier | later
  · exact lacks ahead earlier
  · exact further ahead later

theorem Guard.holds_of_shows {guard : Guard} {state : ParseState} {ahead : Ahead}
    (member : ahead ∈ guard.suffices) (shows : terminals.Shows state.position ahead) :
    guard.holds terminals state = true := by
  induction guard generalizing ahead with
  | next offset kinds =>
      obtain rfl := List.mem_singleton.mp member
      simpa [holds] using shows _ (List.mem_singleton.mpr rfl)
  | identifier offset =>
      obtain rfl := List.mem_singleton.mp member
      have ident : terminals.kindAt (state.position + offset) = .ident := by
        simpa using shows _ (List.mem_singleton.mpr rfl)
      simp [holds, ParseState.isIdentifierAt, ident]
  | and first second firstIh secondIh =>
      obtain ⟨one, firstMember, later⟩ := List.mem_flatMap.mp member
      obtain ⟨other, secondMember, rfl⟩ := List.mem_map.mp later
      rw [holds, firstIh firstMember (shows.of_subset fun _ => List.mem_append_left _),
        secondIh secondMember (shows.of_subset fun _ => List.mem_append_right _), Bool.and_self]
  | or first second firstIh secondIh =>
      rw [holds, Bool.or_eq_true]
      rcases List.mem_append.mp member with inFirst | inSecond
      · exact .inl (firstIh inFirst shows)
      · exact .inr (secondIh inSecond shows)
  | lineBreak | yieldOperator | awaitOperator | completed | completedTarget | not => cases member

theorem Guard.lacks_suffices {guard : Guard} {state : ParseState}
    (fails : guard.holds terminals state = false) : terminals.Lacks state.position guard.suffices := by
  intro ahead member shows
  rw [holds_of_shows member shows] at fails
  cases fails

end

/-! ## Demands of a production -/

namespace Production

def staysPut : Production → Bool
  | .empty | .refuse | .expected _ | .expectedConstruct _ | .hole | .markTarget => true
  | .seq first second | .branch _ first second => first.staysPut && second.staysPut
  | _ => false

/-- What a production records as expected, each time with lookaheads that the next tokens do not show.
Those of `missing` are not shown where the production starts. -/
def demands : Production → List Ahead → List (Demand × List Ahead)
  | .expected kind, missing => [(.kind kind, missing)]
  | .expectedConstruct name, missing => [(.construct name, missing)]
  | .seq first second, missing =>
      first.demands missing ++ second.demands (if first.staysPut then missing else [])
  | .branch guard yes no, missing => yes.demands missing ++ no.demands (missing ++ guard.suffices)
  | .fork head guard _ yes _ no, missing =>
      head.demands missing ++ yes.demands [] ++ no.demands guard.suffices
  | .orElse first second, missing | .onceOrElse first second, missing =>
      first.demands missing ++ second.demands missing
  | .node _ body, missing | .wrap _ body, missing | .inScope _ body, missing | .list body, missing =>
      body.demands missing
  | _, _ => []

variable {terminals : Terminals} {call : Nonterminal → ParseState → Outcome}

theorem position_of_staysPut {production : Production} (stays : production.staysPut = true)
    {state next : ParseState} (ran : production.run terminals call state = .matched next) :
    next.position = state.position := by
  induction production generalizing state next with
  | empty | expected | expectedConstruct | hole =>
      cases ran
      rfl
  | refuse => cases ran
  | markTarget =>
      cases ran
      unfold ParseState.markTarget
      split <;> rfl
  | seq first second firstIh secondIh =>
      obtain ⟨firstStays, secondStays⟩ := Bool.and_eq_true_iff.mp stays
      rw [run] at ran
      cases middle : first.run terminals call state with
      | matched between =>
          rw [middle] at ran
          exact (secondIh secondStays ran).trans (firstIh firstStays middle)
      | refused between | outOfFuel =>
          rw [middle] at ran
          cases ran
  | branch guard yes no yesIh noIh =>
      obtain ⟨yesStays, noStays⟩ := Bool.and_eq_true_iff.mp stays
      rw [run] at ran
      split at ran
      · exact yesIh yesStays ran
      · exact noIh noStays ran
  | take | call | node | fork | wrap | orElse | onceOrElse | inScope | list => cases stays

/-- Where a demand is recorded the next tokens do not show what is known to be missing. -/
theorem Passes.exists_lacks {production part : Production} {state place : ParseState} {demand : Demand}
    (passes : production.Passes terminals call state part place) (records : part = demand.production)
    {missing : List Ahead} (lacks : terminals.Lacks state.position missing) :
    ∃ known, (demand, known) ∈ production.demands missing ∧ terminals.Lacks place.position known := by
  induction passes generalizing missing with
  | here part place =>
      subst records
      exact ⟨missing, by cases demand <;> exact List.mem_singleton.mpr rfl, lacks⟩
  | seqFirst passes ih | orElseFirst passes ih | onceFirst _ passes ih =>
      obtain ⟨known, member, known_lacks⟩ := ih records lacks
      exact ⟨known, List.mem_append_left _ member, known_lacks⟩
  | @seqSecond first second part state next place ran passes ih =>
      have after : terminals.Lacks next.position (if first.staysPut then missing else []) := by
        split
        · rename_i stays
          rwa [position_of_staysPut stays ran]
        · exact .nil
      obtain ⟨known, member, known_lacks⟩ := ih records after
      exact ⟨known, List.mem_append_right _ member, known_lacks⟩
  | branchYes holds passes ih =>
      obtain ⟨known, member, known_lacks⟩ := ih records lacks
      exact ⟨known, List.mem_append_left _ member, known_lacks⟩
  | branchNo fails passes ih =>
      obtain ⟨known, member, known_lacks⟩ := ih records (lacks.append (Guard.lacks_suffices fails))
      exact ⟨known, List.mem_append_right _ member, known_lacks⟩
  | forkHead passes ih =>
      obtain ⟨known, member, known_lacks⟩ := ih records lacks
      exact ⟨known, List.mem_append_left _ (List.mem_append_left _ member), known_lacks⟩
  | forkYes ran holds passes ih =>
      obtain ⟨known, member, known_lacks⟩ := ih records .nil
      exact ⟨known, List.mem_append_left _ (List.mem_append_right _ member), known_lacks⟩
  | forkNo ran fails passes ih =>
      obtain ⟨known, member, known_lacks⟩ := ih records (Guard.lacks_suffices fails)
      exact ⟨known, List.mem_append_right _ member, known_lacks⟩
  | orElseSecond ran passes ih | onceSecond _ ran passes ih | onceAgain _ passes ih =>
      obtain ⟨known, member, known_lacks⟩ := ih records lacks
      exact ⟨known, List.mem_append_right _ member, known_lacks⟩
  | node passes ih | wrap _ passes ih | inScope passes ih | list passes ih => exact ih records lacks

end Production

/-! ## Demands of the grammar -/

namespace Demand

def describe : Demand → String
  | .kind wanted => wanted.describe
  | .construct name => name

def sameWords (demand : Demand) : List Kind :=
  Kind.all.filter fun kind => kind.isToken && kind.describe == demand.describe

end Demand

/-- The token ahead is not of the kind, or it is an `async` without a `function` behind it. -/
def Kind.isExcluded (kind : Kind) (missing : List Ahead) : Bool :=
  (missing.any fun ahead =>
    match ahead with
    | [(0, kinds)] => kinds.contains kind
    | _ => false) ||
  kind == .asyncKw && missing.contains [(0, [.asyncKw]), (1, [.functionKw])]

theorem Kind.of_isExcluded {kind : Kind} {missing : List Ahead} (excluded : kind.isExcluded missing = true)
    {terminals : Terminals} {position : Nat} (lacks : terminals.Lacks position missing)
    (there : terminals.kindAt position = kind) :
    kind = .asyncKw ∧ terminals.kindAt (position + 1) ≠ .functionKw := by
  rcases Bool.or_eq_true_iff.mp excluded with alone | form
  · obtain ⟨ahead, member, names⟩ := List.any_eq_true.mp alone
    refine absurd ?_ (lacks ahead member)
    split at names
    · intro fact inside
      obtain rfl := List.mem_singleton.mp inside
      subst there
      exact List.contains_iff_mem.mp names
    · cases names
  · obtain ⟨async, listed⟩ := Bool.and_eq_true_iff.mp form
    obtain rfl := beq_iff_eq.mp async
    refine ⟨rfl, fun follows => ?_⟩
    refine absurd ?_ (lacks _ (List.contains_iff_mem.mp listed))
    simp [Terminals.Shows, there, follows]

namespace Nonterminal

def demands (nonterminal : Nonterminal) : List (Demand × List Ahead) := nonterminal.production.demands []

theorem isExcluded_of_mem_demands {nonterminal : Nonterminal} {demand : Demand} {missing : List Ahead}
    (member : (demand, missing) ∈ nonterminal.demands) {kind : Kind} (same : kind ∈ demand.sameWords) :
    kind.isExcluded missing = true := by
  have passes : ∀ other ∈ listed, (other.demands.all fun entry =>
      entry.1.sameWords.all fun kind => kind.isExcluded entry.2) = true := by decide +kernel
  have all : (nonterminal.demands.all fun entry =>
      entry.1.sameWords.all fun kind => kind.isExcluded entry.2) = true := by
    cases nonterminal with
    | jumpStatement kind =>
        -- Which jump it is makes no difference.
        exact passes (.jumpStatement .breakStatement) (mem_listed rfl)
    | _ => exact passes _ (mem_listed rfl)
  exact List.all_eq_true.mp (List.all_eq_true.mp all _ member) kind same

end Nonterminal

/-! ## Syntax errors -/

namespace TokenStream

variable {stream : TokenStream} {rule : Rule}

/-- What a run records as expected is not there, `async` apart. -/
theorem excluded_of_mem_expectations (accepts : stream.Accepts) {expectation : Expectation}
    (member : expectation ∈ stream.expectations rule) {token : Token}
    (here : stream.tokens[expectation.position]? = some token)
    (same : token.kind.describe = expectation.demand.describe) :
    token.kind = .asyncKw ∧
      Terminals.kindAt stream.tokens (expectation.position + 1) ≠ .functionKw := by
  obtain ⟨offset, fits⟩ := accepts.fits here
  have named : token.kind ∈ expectation.demand.sameWords := by
    simp [Demand.sameWords, Kind.mem_all, fits.isToken, same]
  have there := TokenStream.kindAt_tokens here
  rcases List.mem_append.mp member with recorded | last
  · obtain ⟨owner, start, depth, place, -, passes, position⟩ := Nonterminal.exists_passes_of_mem recorded
    obtain ⟨missing, listed, lacks⟩ := passes.exists_lacks rfl .nil
    rw [position] at lacks
    exact Kind.of_isExcluded (Nonterminal.isExcluded_of_mem_demands listed named) lacks there
  · cases ran : rule.nonterminal.run stream.tokens with
    | matched state =>
        rw [ran, Outcome.onMatch] at last
        split at last
        · cases last
        · rename_i before
          obtain rfl := List.mem_singleton.mp last
          -- Something is left over, so the end is not there yet.
          have eof : token.kind = .eof := by
            have words : ∀ kind ∈ (Demand.kind .eof).sameWords, kind = .eof := by decide +kernel
            exact words _ named
          exact absurd (Nat.le_of_eq ((accepts.kind_eq_eof_iff here).mp eof).symm) before
    | refused state | outOfFuel =>
        rw [ran] at last
        cases last

theorem exists_demand_of_mem_alternatives {furthest : Furthest}
    (sums : furthest.Sums (stream.expectations rule)) {words : String}
    (named : words ∈ (stream.syntaxError furthest).alternatives) :
    ∃ demand : Demand, ⟨furthest.position, demand⟩ ∈ stream.expectations rule ∧ demand.describe = words := by
  rcases List.mem_append.mp named with construct | kind
  · have recorded : words ∈ furthest.constructs := construct
    rw [sums.constructs, mem_constructsAt_iff] at recorded
    exact ⟨_, recorded, rfl⟩
  · obtain ⟨wanted, member, rfl⟩ := List.mem_map.mp kind
    exact ⟨.kind wanted, (sums.expected wanted).mp ((KindSet.mem_toList _ _).mp member), rfl⟩

end TokenStream

/-- A syntax error does not ask for what it found, in the kinds that it expects as in the words of its
message, unless that is an `async` that no `function` follows. -/
theorem parseStream_error_asks_for_other {text : List Char} {tokens : Array Token} {stream : TokenStream}
    (accepted : TokenStream.ofTokens text tokens = .ok stream) {rule : Rule} {failure : ParseFailure}
    (failed : parseStream rule stream = .error failure) :
    ∃ error, failure = .syntaxError error ∧
      (error.expected.contains error.found = true ∨ error.found.describe ∈ error.alternatives →
        error.found = .asyncKw ∧
          (stream.tokens[error.position + 1]?.map Token.kind) ≠ some .functionKw) := by
  obtain ⟨-, accepts⟩ := TokenStream.accepts_of_ofTokens accepted
  obtain ⟨furthest, rfl, sums⟩ := TokenStream.exists_sums_of_parseStream accepts failed
  refine ⟨_, rfl, fun asks => ?_⟩
  have named : (stream.syntaxError furthest).found.describe ∈ (stream.syntaxError furthest).alternatives := by
    rcases asks with contains | named
    · exact List.mem_append_right _ (List.mem_map_of_mem ((KindSet.mem_toList _ _).mpr contains))
    · exact named
  obtain ⟨demand, recorded, words⟩ := TokenStream.exists_demand_of_mem_alternatives sums named
  obtain ⟨same, -, token, here, found, -⟩ := TokenStream.syntaxError_of_sums accepts sums
  rw [found] at words ⊢
  obtain ⟨async, follows⟩ := TokenStream.excluded_of_mem_expectations accepts recorded here words.symm
  refine ⟨async, fun function => follows ?_⟩
  rw [same] at function
  obtain ⟨next, there, isFunction⟩ := Option.map_eq_some_iff.mp function
  exact (TokenStream.kindAt_tokens there).trans isFunction

/-- Behind the element of an array. -/
theorem parseStream_error_asks_for_other_in_array :
    let text := ['[', 'a', ')']
    let stream := tokenize text
    TokenStream.ofTokens text stream.tokens = .ok stream ∧
    ∃ error, parseStream .expression stream = .error (.syntaxError error) ∧
      error.message = "expected `]` or `,`, found `)`" ∧ error.expected.contains error.found = false ∧
      error.found.describe ∉ error.alternatives := by
  intro text stream
  have accepted : TokenStream.ofTokens text stream.tokens = .ok stream := rfl
  have failed : parseStream .expression stream =
      .error (.syntaxError ⟨2, ⟨2, 3⟩, .rightParen, .ofList [.rightBracket, .comma], []⟩) := by
    decide +kernel
  obtain ⟨error, same, asks⟩ := parseStream_error_asks_for_other accepted failed
  cases same
  have other : Kind.rightParen ≠ .asyncKw := by decide
  refine ⟨accepted, _, failed, by decide +kernel, ?_, fun named => other (asks (.inr named)).1⟩
  exact Bool.eq_false_iff.mpr fun contains => other (asks (.inl contains)).1

/-- Neither form of a function is announced by an `async` alone. -/
theorem parseStream_error_asks_for_async :
    let text := ['a', 's', 'y', 'n', 'c', ' ', 'x']
    let stream := tokenize text
    TokenStream.ofTokens text stream.tokens = .ok stream ∧
    ∃ error, parseStream .functionDeclaration stream = .error (.syntaxError error) ∧
      error.expected.contains error.found = true ∧
      error.message = "expected `function` or `async`, found `async`" :=
  ⟨rfl, ⟨0, ⟨0, 5⟩, .asyncKw, .ofList [.asyncKw, .functionKw], []⟩, by decide +kernel⟩

end ScriptTree
