import ScriptTree.Proofs.Agreement

/-! # Parsing without a table

The table of failed arrows only saves work where no word depends on the scope: a parse that tries every
arrow again gives the same tree, ends at the same token and fails with the same error. Where `await` is
an operator in one reading and a name in another, marks of the one are found in the other, and the
table is seen. -/
set_option autoImplicit false
set_option maxRecDepth 4000
namespace ScriptTree

/-! ## Productions that remember nothing -/

/-- A plain choice wherever a failure of the first way would be remembered. -/
@[simp] def Production.forgetful : Production → Production
  | .seq first second => .seq first.forgetful second.forgetful
  | .branch guard yes no => .branch guard yes.forgetful no.forgetful
  | .node kind body => .node kind body.forgetful
  | .fork head guard kindYes yes kindNo no =>
      .fork head.forgetful guard kindYes yes.forgetful kindNo no.forgetful
  | .wrap kind body => .wrap kind body.forgetful
  | .orElse first second | .onceOrElse first second => .orElse first.forgetful second.forgetful
  | .inScope change body => .inScope change body.forgetful
  | .list body => .list body.forgetful
  | production => production

def Nonterminal.forgetful (nonterminal : Nonterminal) : Production := nonterminal.production.forgetful

namespace Production

theorem check_forgetful (production : Production) (phase : Phase) :
    production.forgetful.check phase = production.check phase := by
  induction production generalizing phase with
  | seq first second firstIh secondIh => rw [forgetful, check, check, firstIh, funext secondIh]
  | branch guard first second firstIh secondIh | orElse first second firstIh secondIh
  | onceOrElse first second firstIh secondIh => rw [forgetful, check, check, firstIh, secondIh]
  | fork head guard kindYes yes kindNo no headIh yesIh noIh =>
      simp only [forgetful, check, headIh, yesIh, noIh]
  | node kind body ih | wrap kind body ih | inScope change body ih | list body ih =>
      rw [forgetful, check, check, ih]
  | _ => rfl

theorem survey_forgetful (production : Production) (rank : Nat) (outlook : Outlook) :
    production.forgetful.survey rank outlook = production.survey rank outlook := by
  induction production generalizing outlook with
  | seq first second firstIh secondIh => rw [forgetful, survey, survey, firstIh, funext secondIh]
  | branch guard first second firstIh secondIh | orElse first second firstIh secondIh
  | onceOrElse first second firstIh secondIh => rw [forgetful, survey, survey, firstIh, secondIh]
  | fork head guard kindYes yes kindNo no headIh yesIh noIh =>
      simp only [forgetful, survey, headIh, yesIh, noIh]
  | node kind body ih | wrap kind body ih | inScope change body ih | list body ih =>
      rw [forgetful, survey, survey, ih]
  | _ => rfl

theorem settle_forgetful (production : Production) (headed : Bool) :
    production.forgetful.settle headed = production.settle headed := by
  induction production generalizing headed with
  | seq first second firstIh secondIh => rw [forgetful, settle, settle, firstIh, funext secondIh]
  | branch guard first second firstIh secondIh | orElse first second firstIh secondIh
  | onceOrElse first second firstIh secondIh => rw [forgetful, settle, settle, firstIh, secondIh]
  | fork head guard kindYes yes kindNo no headIh yesIh noIh =>
      simp only [forgetful, settle, headIh, yesIh, noIh]
  | node kind body ih | wrap kind body ih | inScope change body ih | list body ih =>
      rw [forgetful, settle, settle, ih]
  | _ => rfl

theorem account_forgetful (terminals : Terminals) (call : Nonterminal → Scope → Place → Account)
    (production : Production) (scope : Scope) (place : Place) :
    production.forgetful.account terminals call scope place =
      production.account terminals call scope place := by
  induction production generalizing scope place with
  | seq first second firstIh secondIh =>
      rw [forgetful, account, account, firstIh, funext (secondIh scope)]
  | branch guard first second firstIh secondIh | orElse first second firstIh secondIh
  | onceOrElse first second firstIh secondIh => rw [forgetful, account, account, firstIh, secondIh]
  | fork head guard kindYes yes kindNo no headIh yesIh noIh =>
      simp only [forgetful, account, headIh, yesIh, noIh]
  | node kind body ih | wrap kind body ih | inScope change body ih | list body ih =>
      simp only [forgetful, account, ih]
  | _ => rfl

theorem triesOnce_forgetful (production : Production) :
    production.forgetful.triesOnce false = true := by
  induction production with
  | fork head guard kindYes yes kindNo no headIh yesIh noIh =>
      simp only [forgetful, triesOnce, headIh, yesIh, noIh, Bool.and_self]
  | seq first second firstIh secondIh | branch guard first second firstIh secondIh
  | orElse first second firstIh secondIh | onceOrElse first second firstIh secondIh =>
      simp only [forgetful, triesOnce, firstIh, secondIh, Bool.and_self]
  | node kind body ih | wrap kind body ih | inScope change body ih | list body ih => exact ih
  | _ => rfl

end Production

theorem toldLikeProductions_forgetful : ToldLikeProductions false Nonterminal.forgetful where
  account nonterminal _ _ _ _ := Production.account_forgetful _ _ nonterminal.production _ _
  settle nonterminal _ := nonterminal.production.settle_forgetful _
  triesOnce nonterminal := nonterminal.production.triesOnce_forgetful
  parentheses := rfl

/-! ## Runs of a rule -/

def RunTold (memo : Bool) (outcome : Outcome) : Account → Prop
  | .matched told notes => ∃ state trace, outcome = .matched state ∧ state.position = told.position ∧
      state.furthest = notes.foldl Furthest.note .start ∧ Trace.Sound trace ∧
      trace.forest = told.forest ∧ state.log = (trace.events none).toArray
  | .refused notes => ∃ state, outcome = .refused state ∧
      state.furthest = notes.foldl Furthest.note .start
  | .outOfFuel => memo = true ∨ outcome = .outOfFuel

section Runs

variable {terminals : Terminals} {memo : Bool} {grammar : Nonterminal → Production}

theorem Rule.nestWith_asTold (noWords : terminals.NoWords) (like : ToldLikeProductions memo grammar)
    (rule : Rule) (fuel : Nat) :
    AsTold terminals memo
      (Place.Settled terminals .empty (.reaches (rule.nonterminal.role == .node))) .start
      (rule.nonterminal.nestWith grammar terminals fuel .outermost .start .start)
      (rule.nonterminal.accountWith Nonterminal.production terminals fuel .outermost (.fresh 0)) :=
  (Nonterminal.nestWith_asTold noWords like fuel).other rule.nonterminal .outermost .start .start
    rule.isProper_nonterminal (by rw [rule.role_nonterminal]; decide) History.Sound.start

theorem Rule.runTold (noWords : terminals.NoWords) (like : ToldLikeProductions memo grammar)
    (sameCheck : ∀ nonterminal phase,
      (grammar nonterminal).check phase = nonterminal.production.check phase)
    (rule : Rule) (fuel : Nat) :
    RunTold memo (rule.nonterminal.runWith grammar terminals fuel .start)
      (rule.nonterminal.accountWith Nonterminal.production terminals fuel .outermost (.fresh 0)) := by
  have mirrors := Nonterminal.runWith_mirrors sameCheck terminals fuel rule.nonterminal .beforeRoot
    (.afterRoot true) [] [] .empty .start rule.isProper_nonterminal (by rw [rule.role_nonterminal]; rfl)
    ⟨rfl, rfl, trivial, by simp⟩ (by simp [Phase.isHeaded])
  have does := rule.nestWith_asTold noWords like fuel
  cases told : rule.nonterminal.accountWith Nonterminal.production terminals fuel .outermost (.fresh 0)
    with
  | matched toldPlace notes =>
      rw [told] at does
      obtain ⟨place, later, parsed, ⟨_, _, agrees⟩, follows, _⟩ := does
      obtain ⟨trace, state, ran, lays, rfl, rfl⟩ := mirrors.run_matched parsed
      exact ⟨state, trace, ran, agrees.position, follows.furthest, lays.sound,
        agrees.forest.trans (Forest.empty_append _), lays.log_eq⟩
  | refused notes =>
      rw [told] at does
      obtain ⟨later, parsed, follows, _⟩ := does
      obtain ⟨state, ran, rfl⟩ := mirrors.run_refused parsed
      exact ⟨state, ran, follows.furthest⟩
  | outOfFuel =>
      rw [told] at does
      exact does.imp id mirrors.run_outOfFuel

end Runs

section Rules

variable {terminals : Terminals} {last : Nat}

theorem Rule.account_ne_outOfFuel (noWords : terminals.NoWords) (ends : terminals.EndsAt last)
    (size : terminals.size = last + 1) (rule : Rule) :
    rule.nonterminal.accountWith Nonterminal.production terminals (Nonterminal.enoughFuel terminals)
      .outermost (.fresh 0) ≠ .outOfFuel := by
  intro out
  -- Without the table a parse runs out of fuel where its account does, and it never does.
  have does := rule.nestWith_asTold noWords toldLikeProductions_forgetful
    (Nonterminal.enoughFuel terminals)
  have surveyed : Surveyed last 0 (.reaches rule.nonterminal.outlook)
      (rule.nonterminal.nestWith Nonterminal.forgetful terminals (Nonterminal.enoughFuel terminals)
        .outermost .start .start) :=
    Nonterminal.nestWith_surveyed (fun nonterminal => nonterminal.production.survey_forgetful) ends _
      rule.nonterminal .outermost .start .start
      (by rw [rule.needs_nonterminal]; exact Nat.zero_le _)
      (rule.nonterminal.cost_lt_enoughFuel size)
  rw [out] at does
  rcases does with remembers | unfinished
  · cases remembers
  · rw [unfinished] at surveyed
    exact surveyed

def Rule.runWith (rule : Rule) (grammar : Nonterminal → Production) (terminals : Terminals)
    (start : Nat) : Outcome :=
  rule.nonterminal.runWith grammar terminals (Nonterminal.fuelFrom terminals start) (.startAt start)

/-- Outcomes that come to the same match and to the same parse, wherever their tokens stand. -/
structure Outcome.IsAsGood (outcome other : Outcome) : Prop where
  toMatch : ∀ stream start,
    (other.shift start).toMatch stream start = (outcome.shift start).toMatch stream start
  toParse : ∀ stream, other.toParse stream = outcome.toParse stream

/-- The runs of a rule with the table and without it come to the same. -/
theorem Rule.run_forgetful (noWords : terminals.NoWords) (ends : terminals.EndsAt last)
    (size : terminals.size = last + 1) (rule : Rule) :
    (rule.runWith Nonterminal.production terminals 0).IsAsGood
      (rule.runWith Nonterminal.forgetful terminals 0) := by
  have withTable := rule.runTold noWords toldLikeProductions_production (fun _ _ => rfl)
    (Nonterminal.enoughFuel terminals)
  have without := rule.runTold noWords toldLikeProductions_forgetful
    (fun nonterminal => nonterminal.production.check_forgetful) (Nonterminal.enoughFuel terminals)
  cases told : rule.nonterminal.accountWith Nonterminal.production terminals
      (Nonterminal.enoughFuel terminals) .outermost (.fresh 0) with
  | matched place notes =>
      rw [told] at withTable without
      obtain ⟨state, trace, ran, position, furthest, sound, forest, log⟩ := withTable
      obtain ⟨other, again, plainRan, samePosition, sameFurthest, plainSound, sameForest, plainLog⟩ :=
        without
      have assembled (stream : TokenStream) (start : Nat) :
          SyntaxTree.ofLog stream start (other.log.map (Event.shift start)) =
            SyntaxTree.ofLog stream start (state.log.map (Event.shift start)) := by
        rw [SyntaxTree.ofLog, SyntaxTree.ofLog, log, plainLog, trace.steps_events start sound,
          again.steps_events start plainSound, forest, sameForest]
      have same : rule.runWith Nonterminal.production terminals 0 = .matched state := ran
      have plainSame : rule.runWith Nonterminal.forgetful terminals 0 = .matched other := plainRan
      rw [same, plainSame]
      refine ⟨fun stream start => ?_, fun stream => ?_⟩
      · simp only [Outcome.shift, Outcome.toMatch, ParseState.shift, assembled, position,
          samePosition]
      · have whole := assembled stream 0
        rw [Event.map_shift_zero, Event.map_shift_zero] at whole
        simp only [Outcome.toParse, whole, position, samePosition, ParseState.expect, furthest, sameFurthest]
  | refused notes =>
      rw [told] at withTable without
      obtain ⟨state, ran, furthest⟩ := withTable
      obtain ⟨other, plainRan, sameFurthest⟩ := without
      have same : rule.runWith Nonterminal.production terminals 0 = .refused state := ran
      have plainSame : rule.runWith Nonterminal.forgetful terminals 0 = .refused other := plainRan
      rw [same, plainSame]
      exact ⟨fun _ _ => rfl, fun _ => by simp only [Outcome.toParse, furthest, sameFurthest]⟩
  | outOfFuel => exact absurd told (rule.account_ne_outOfFuel noWords ends size)

end Rules

/-! ## Matching without a table -/

def matchRuleWith (grammar : Nonterminal → Production) (rule : Rule) (cursor : Cursor) :
    Except MatchFailure (SyntaxTree × Cursor) :=
  (rule.runWith grammar cursor.stream.tokens cursor.position).toMatch cursor.stream cursor.position

def parseStreamWith (grammar : Nonterminal → Production) (rule : Rule) (stream : TokenStream) :
    Except ParseFailure SyntaxTree :=
  (rule.runWith grammar stream.tokens 0).toParse stream

theorem matchRuleWith_production : matchRuleWith Nonterminal.production = matchRule := rfl

theorem parseStreamWith_production : parseStreamWith Nonterminal.production = parseStream := rfl

theorem Cursor.noWords_terminals (cursor : Cursor)
    (noWords : ∀ token ∈ cursor.stream.tokens, token.kind ∉ operatorWords) :
    cursor.terminals.NoWords := by
  intro position
  simp only [Terminals.kindAt, terminals, Terminals.ofTokens, List.getElem?_toArray, List.getElem?_drop,
    Array.getElem?_toList]
  cases here : cursor.stream.tokens[cursor.position + position]? with
  | none => decide
  | some token => exact noWords token (Array.mem_of_getElem? here)

/-- Where no token is a word that depends on the scope, matching and parsing without the table of failed
arrows is matching and parsing with it: the same trees, the same cursors and the same errors. -/
theorem matchRule_needs_no_table {text : List Char} {tokens : Array Token} {stream : TokenStream}
    (accepted : TokenStream.ofTokens text tokens = .ok stream)
    (noWords : ∀ token ∈ stream.tokens, token.kind ∉ operatorWords) (rule : Rule) :
    (∀ position, matchRuleWith Nonterminal.forgetful rule (.atToken stream position) =
      matchRule rule (.atToken stream position)) ∧
    parseStreamWith Nonterminal.forgetful rule stream = parseStream rule stream := by
  obtain ⟨-, accepts⟩ := TokenStream.accepts_of_ofTokens accepted
  have runs := fun position => rule.run_forgetful
    ((Cursor.atToken stream position).noWords_terminals noWords)
    (Cursor.endsAt_terminals accepts position) (Cursor.size_terminals accepts position)
  have moved : ∀ (grammar : Nonterminal → Production) (cursor : Cursor),
      rule.runWith grammar cursor.stream.tokens cursor.position =
        (rule.runWith grammar cursor.terminals 0).shift cursor.position := by
    intro grammar cursor
    rw [Rule.runWith, ParseState.startAt_eq]
    exact Nonterminal.runWith_cursor grammar cursor rule.nonterminal .start
  constructor
  · intro position
    rw [← matchRuleWith_production, matchRuleWith, matchRuleWith, moved, moved]
    exact (runs position).toMatch stream _
  · rw [← parseStreamWith_production, parseStreamWith, parseStreamWith, ← Cursor.terminals_start]
    exact (runs 0).toParse stream

/-- The head of a loop is read in three ways, and each of them comes to the same parentheses. -/
theorem matchRule_needs_no_table_in_loop :
    let text := ['f', 'o', 'r', '(', '(', 'a', ')', ';', ';', ')', ';']
    let stream := tokenize text
    TokenStream.ofTokens text stream.tokens = .ok stream ∧
    (∀ token ∈ stream.tokens, token.kind ∉ operatorWords) ∧
    (parseStream .forStatement stream).toOption.isSome = true ∧
    (∀ position, matchRuleWith Nonterminal.forgetful .forStatement (.atToken stream position) =
      matchRule .forStatement (.atToken stream position)) ∧
    parseStreamWith Nonterminal.forgetful .forStatement stream = parseStream .forStatement stream := by
  intro text stream
  have accepted : TokenStream.ofTokens text stream.tokens = .ok stream := rfl
  have noWords : ∀ token ∈ stream.tokens, token.kind ∉ operatorWords := by decide +kernel
  exact ⟨accepted, noWords, by decide +kernel, matchRule_needs_no_table accepted noWords .forStatement⟩

/-- With an `await` the table is seen: once the arrow has failed, its first parameter is read as a call
argument, in which `(await[x])` may be assigned to. The next reading of the head finds the mark, and
the arrow would match if it were tried again. -/
theorem matchRule_needs_table_for_await :
    let text := ['f', 'o', 'r', '(', 'v', 'a', 'r', '[', 'x', ']', '=', 'a', 's', 'y', 'n', 'c', '(',
      'a', '=', '(', 'a', 'w', 'a', 'i', 't', '[', 'x', ']', ')', '=', '1', ')', '=', '>', '\x7b',
      '\x7d', ';', ';', ')', ';']
    let stream := tokenize text
    TokenStream.ofTokens text stream.tokens = .ok stream ∧
    (parseStream .script stream).toOption.isSome = false ∧
    (parseStreamWith Nonterminal.forgetful .script stream).toOption.isSome = true := by
  intro text stream
  exact ⟨rfl, by decide +kernel, by decide +kernel⟩

end ScriptTree
