import Mathlib.Data.List.Induction
import ScriptTree.Proofs.Brackets
import ScriptTree.Proofs.Respacing

/-! # Substitutions of templates

A tokenizer counts the braces that are open, and keeps that count at each open substitution. The counts
are those of the braces that were opened behind the parts of templates that are still to be continued: what
stands behind such a part is read, with braces and templates as brackets, to the braces that are open in it.
So a part of a template goes on with the innermost one, and a closing brace goes on with a template if and
only if none was opened in its substitution. -/
set_option autoImplicit false
namespace ScriptTree

open Text

/-! ## Delimiters -/

def Kind.isDelimiter (kind : Kind) : Bool :=
  [.leftBrace, .rightBrace, .templateHead, .templateMiddle, .templateTail].contains kind

/-- The parts of templates that are not continued yet, innermost first, behind a token at an index. -/
def Kind.continues (pending : List Nat) (index : Nat) : Kind → List Nat
  | .templateHead => index :: pending
  | .templateMiddle => index :: pending.tail
  | .templateTail => pending.tail
  | _ => pending

/-- The indices of the heads and middles of templates that no later middle or tail has continued, the most
recent one first: a middle or a tail continues the most recent one. -/
def pendingParts (kinds : List Kind) : List Nat :=
  kinds.zipIdx.foldl (fun pending (kind, index) => kind.continues pending index) []

/-- The braces and the parts of templates behind an index. -/
def delimitersBehind (index : Nat) (kinds : List Kind) : List Kind :=
  (kinds.drop (index + 1)).filter Kind.isDelimiter

section Pending

variable {kinds : List Kind} {kind : Kind} {part : Nat}

theorem pendingParts_concat (kinds : List Kind) (kind : Kind) :
    pendingParts (kinds ++ [kind]) = kind.continues (pendingParts kinds) kinds.length := by
  simp [pendingParts, List.zipIdx_append]

theorem Kind.continues_of_not_delimiter (other : kind.isDelimiter = false) (pending : List Nat) (index : Nat) :
    kind.continues pending index = pending := by
  cases kind <;> first | rfl | cases other

theorem delimitersBehind_concat (before : part < kinds.length) (kind : Kind) :
    delimitersBehind part (kinds ++ [kind]) = delimitersBehind part kinds ++ [kind].filter Kind.isDelimiter := by
  rw [delimitersBehind, List.drop_append_of_le_length before, List.filter_append]
  rfl

theorem Kind.mem_continues {pending : List Nat} {index : Nat} (member : part ∈ kind.continues pending index) :
    part ∈ pending ∨ part = index ∧ (kind = .templateHead ∨ kind = .templateMiddle) := by
  cases kind with
  | templateHead =>
      rcases List.mem_cons.mp member with here | earlier
      · exact .inr ⟨here, .inl rfl⟩
      · exact .inl earlier
  | templateMiddle =>
      rcases List.mem_cons.mp member with here | earlier
      · exact .inr ⟨here, .inr rfl⟩
      · exact .inl (List.mem_of_mem_tail earlier)
  | templateTail => exact .inl (List.mem_of_mem_tail member)
  | _ => exact .inl member

theorem kind_of_mem_pendingParts (member : part ∈ pendingParts kinds) :
    kinds[part]? = some .templateHead ∨ kinds[part]? = some .templateMiddle := by
  induction kinds using List.reverseRecOn with
  | nil => cases member
  | append_singleton kinds kind ih =>
      rw [pendingParts_concat] at member
      rcases Kind.mem_continues member with earlier | ⟨rfl, continued⟩
      · have found := ih earlier
        have inside : part < kinds.length := by
          rcases found with head | middle
          · exact (List.getElem?_eq_some_iff.mp head).1
          · exact (List.getElem?_eq_some_iff.mp middle).1
        rwa [List.getElem?_append_left inside]
      · rw [List.getElem?_concat_length]
        rcases continued with rfl | rfl
        · exact .inl rfl
        · exact .inr rfl

end Pending

/-! ## What scanning a token remembers -/

namespace Memory

/-- What a token at the start of a text is, and what is remembered behind it: the text starts with a closing
brace exactly if the token ends a brace or a substitution. -/
inductive Turns (memory : Memory) (text : List Char) : Kind → Memory → Prop where
  | other {kind : Kind} (undelimiting : kind.isDelimiter = false) (start : text.head? ≠ some '\x7d') :
      Turns memory text kind memory
  | opens (start : text.head? ≠ some '\x7d') :
      Turns memory text .leftBrace { memory with braceDepth := memory.braceDepth + 1 }
  | closes (start : text.head? = some '\x7d')
      (inside : memory.substitutions.head? ≠ some memory.braceDepth) :
      Turns memory text .rightBrace { memory with braceDepth := memory.braceDepth - 1 }
  | starts (start : text.head? ≠ some '\x7d') :
      Turns memory text .templateHead
        { memory with substitutions := memory.braceDepth :: memory.substitutions }
  | goesOn {outer : List Nat} (start : text.head? = some '\x7d')
      (ended : memory.substitutions = memory.braceDepth :: outer) :
      Turns memory text .templateMiddle { memory with substitutions := memory.braceDepth :: outer }
  | ends {outer : List Nat} (start : text.head? = some '\x7d')
      (ended : memory.substitutions = memory.braceDepth :: outer) :
      Turns memory text .templateTail { memory with substitutions := outer }
  /-- A part that is never closed takes the rest of the text. -/
  | unclosed {outer : List Nat} (start : text.head? = some '\x7d')
      (ended : memory.substitutions = memory.braceDepth :: outer) :
      Turns memory text .unknown { memory with substitutions := outer }

end Memory

section Scanning

theorem isDelimiter_of_isKeyword {kind : Kind} (keyword : kind.isKeyword = true) :
    kind.isDelimiter = false := by
  cases delimits : kind.isDelimiter with
  | false => rfl
  | true =>
      simp only [Kind.isDelimiter, List.contains_iff_mem, List.mem_cons, List.not_mem_nil, or_false] at delimits
      rcases delimits with rfl | rfl | rfl | rfl | rfl <;> cases keyword

theorem isDelimiter_scanWord (first : Char) (rest : List Char) :
    (scanWord first rest).1.isDelimiter = false := by
  unfold scanWord
  dsimp only
  split
  · rename_i kind found
    split
    · rfl
    · exact isDelimiter_of_isKeyword (Kind.text_of_ofKeyword? found).1
  · rfl

theorem isDelimiter_closedOrUnknown {kind : Kind} (other : kind.isDelimiter = false) (text first : List Char)
    (scanned : Option Split) : (closedOrUnknown kind text first scanned).1.isDelimiter = false := by
  cases scanned with
  | none => rfl
  | some split => exact other

theorem head?_of_mem_punctuators : ∀ entry ∈ punctuators, entry.1.isDelimiter = true →
    entry.2.head? = some '\x7b' ∨ entry.2.head? = some '\x7d' := by
  decide +kernel

theorem isDelimiter_decideAfter {decision : Decision}
    (plain : ∀ entry ∈ decision.spellings, entry.1.isDelimiter = false) (first : Char)
    (rest : List Char) : (decideAfter first decision rest).1.isDelimiter = false := by
  obtain ⟨entry, decided, kind, -⟩ := mem_decideAfter first decision rest
  rw [kind, plain entry decided]

theorem isDelimiter_punctuator {first : Char} (rest : List Char) (notLeft : first ≠ '\x7b')
    (notRight : first ≠ '\x7d') : (decideAfter first (.after first) rest).1.isDelimiter = false := by
  refine isDelimiter_decideAfter (fun entry decided => ?_) first rest
  rcases mem_punctuators_of_after first entry decided with rfl | listed
  · rfl
  · cases delimits : entry.1.isDelimiter with
    | false => rfl
    | true =>
        rcases head?_of_mem_punctuators (entry.1, first :: entry.2) listed delimits with left | right
        · exact absurd (Option.some.inj left) notLeft
        · exact absurd (Option.some.inj right) notRight

theorem isDelimiter_scanPoints (rest : List Char) : (scanPoints rest).1.isDelimiter = false := by
  fun_cases scanPoints rest <;> rfl

theorem isDelimiter_scanQuestionMark (rest : List Char) :
    (scanQuestionMark rest).1.isDelimiter = false := by
  fun_cases scanQuestionMark rest with
  | case1 => rfl
  | case2 => exact isDelimiter_decideAfter (by decide) '?' rest

theorem isDelimiter_scanSlash (previous : Option Kind) (rest : List Char) :
    (scanSlash previous rest).1.isDelimiter = false := by
  fun_cases scanSlash previous rest with
  | case1 => rfl
  | case2 => exact isDelimiter_closedOrUnknown rfl _ _ _
  | case3 => exact isDelimiter_decideAfter (by decide) '/' rest

theorem isDelimiter_scanPrivateName (rest : List Char) : (scanPrivateName rest).1.isDelimiter = false := by
  unfold scanPrivateName
  split <;> rfl

theorem isDelimiter_scanEscapedWord (rest : List Char) : (scanEscapedWord rest).1.isDelimiter = false := by
  unfold scanEscapedWord
  split <;> rfl

/-- What a token does, if an unclosed part of a template takes the rest of the text. -/
structure Memory.Scanned (memory : Memory) (text : List Char) (scanned : Kind × Split × Memory) : Prop where
  turns : memory.Turns text scanned.1 scanned.2.2
  whole : text.head? = some '\x7d' → scanned.1 = .unknown → scanned.2.1.rest = []

namespace Memory

variable {memory after : Memory} {text : List Char} {kind : Kind} {split : Split}

theorem Scanned.of_ne_unknown (turns : memory.Turns text kind after) (known : kind ≠ .unknown) :
    memory.Scanned text (kind, split, after) :=
  ⟨turns, fun _ unknown => absurd unknown known⟩

theorem Scanned.of_start (turns : memory.Turns text kind after) (start : text.head? ≠ some '\x7d') :
    memory.Scanned text (kind, split, after) :=
  ⟨turns, fun brace => absurd brace start⟩

theorem scanned_closingBrace (memory : Memory) (rest : List Char) :
    memory.Scanned ('\x7d' :: rest) (memory.closingBrace rest) := by
  fun_cases closingBrace memory rest with
  | case1 outer ended =>
      unfold template
      split
      · exact ⟨.unclosed rfl ended, fun _ _ => rfl⟩
      · exact .of_ne_unknown (.ends rfl ended) (by decide)
      · exact .of_ne_unknown (.goesOn rfl ended) (by decide)
  | case2 depth outer opened inside =>
      refine .of_ne_unknown (.closes rfl ?_) (by decide)
      rw [opened]
      exact fun same => inside (Option.some.inj same)
  | case3 none =>
      refine .of_ne_unknown (.closes rfl ?_) (by decide)
      rw [none]
      simp

theorem scanned_template (memory : Memory) {first : Char} (rest : List Char) (start : first ≠ '\x7d') :
    memory.Scanned (first :: rest) (memory.template first rest .noSubstitutionTemplate .templateHead) := by
  have other : (first :: rest).head? ≠ some '\x7d' := fun same => start (Option.some.inj same)
  unfold template
  split
  · exact .of_start (.other rfl other) other
  · exact .of_start (.other rfl other) other
  · exact .of_start (.starts other) other

theorem scanned_keep (memory : Memory) {first : Char} (rest : List Char) (start : first ≠ '\x7d')
    {scanned : Kind × Split} (undelimiting : scanned.1.isDelimiter = false) :
    memory.Scanned (first :: rest) (Memory.keep memory scanned) := by
  have other : (first :: rest).head? ≠ some '\x7d' := fun same => start (Option.some.inj same)
  exact .of_start (.other undelimiting other) other

theorem scanned_scanMark (memory : Memory) (first : Char) (rest : List Char) :
    memory.Scanned (first :: rest) (scanMark memory first rest) := by
  fun_cases scanMark memory first rest with
  | case1 | case2 => exact memory.scanned_keep _ (by decide) (isDelimiter_closedOrUnknown rfl _ _ _)
  | case3 => exact memory.scanned_template _ (by decide)
  | case4 => exact memory.scanned_keep _ (by decide) (isDelimiter_scanEscapedWord _)
  | case5 => exact memory.scanned_keep _ (by decide) (isDelimiter_scanPrivateName _)
  | case6 => exact memory.scanned_keep _ (by decide) (isDelimiter_scanSlash _ _)
  | case7 => exact .of_start (.opens (by simp)) (by simp)
  | case8 => exact memory.scanned_closingBrace _
  | case9 => exact memory.scanned_keep _ (by decide) (isDelimiter_scanPoints _)
  | case10 => exact memory.scanned_keep _ (by decide) (isDelimiter_scanQuestionMark _)
  | case11 _ _ _ _ _ _ _ notLeft notRight =>
      exact memory.scanned_keep rest notRight (isDelimiter_punctuator rest notLeft notRight)

end Memory

theorem scanned_scanToken (memory : Memory) (text : List Char) :
    memory.Scanned text (scanToken memory text) := by
  fun_cases scanToken memory text with
  | case1 => exact .of_start (.other rfl (by simp)) (by simp)
  | case2 first rest starts =>
      exact memory.scanned_keep rest (by rintro rfl; cases starts) (isDelimiter_scanWord first rest)
  | case3 first rest _ number => exact memory.scanned_keep rest (by rintro rfl; cases number) rfl
  | case4 first rest => exact memory.scanned_scanMark first rest

end Scanning

/-! ## What is remembered agrees with the tokens -/

/-- What stands behind each part that is to be continued is read to the braces that are open in it, and to
the templates in those. The counts of open braces differ by the number of those in between. The stack holds
what was opened behind the innermost part of those that are told of here. -/
inductive Tracks (kinds : List Kind) : Nat → List Nat → List Nat → List Bracket → Prop where
  | outside {depth : Nat} {stack : List Bracket} : Tracks kinds depth [] [] stack
  | within {saved part : Nat} {outer pending : List Nat} {stack : List Bracket} (count : Nat)
      (before : part < kinds.length)
      (reads : Bracket.read [] (delimitersBehind part kinds) = some (stack ++ List.replicate count .curly))
      (further : Tracks kinds saved outer pending (stack ++ List.replicate count .curly ++ [.template])) :
      Tracks kinds (saved + count) (saved :: outer) (part :: pending) stack

namespace Tracks

variable {kinds : List Kind} {kind : Kind} {depth : Nat} {depths pending : List Nat}
  {stack next : List Bracket}

theorem concat (tracks : Tracks kinds depth depths pending stack)
    (reads : Bracket.read stack ([kind].filter Kind.isDelimiter) = some next) :
    Tracks (kinds ++ [kind]) depth depths pending next := by
  induction tracks generalizing next with
  | outside => exact .outside
  | within count before inside further ih =>
      have around := Bracket.read_stack_append (List.replicate count .curly) reads
      refine .within count (by rw [List.length_append]; exact Nat.lt_add_right _ before) ?_
        (ih (Bracket.read_stack_append [.template] around))
      rw [delimitersBehind_concat before]
      exact Bracket.read_append_of inside around

theorem begin (tracks : Tracks (kinds ++ [kind]) depth depths pending [.template]) :
    Tracks (kinds ++ [kind]) depth (depth :: depths) (kinds.length :: pending) [] := by
  refine .within 0 (by simp) ?_ tracks
  have nothing : delimitersBehind kinds.length (kinds ++ [kind]) = [] := by
    rw [delimitersBehind, List.drop_of_length_le (by simp)]
    rfl
  rw [nothing]
  rfl

theorem brace {saved part count others : Nat} {outer : List Nat} (before : part < kinds.length)
    (reads : Bracket.read [] (delimitersBehind part kinds) = some (List.replicate count .curly))
    (further : Tracks kinds saved outer pending (List.replicate count .curly ++ [.template]))
    (step : Bracket.read (List.replicate count .curly) ([kind].filter Kind.isDelimiter) =
      some (List.replicate others .curly)) :
    Tracks (kinds ++ [kind]) (saved + others) (saved :: outer) (part :: pending) [] := by
  refine .within others (by rw [List.length_append]; exact Nat.lt_add_right _ before) ?_
    (further.concat (Bracket.read_stack_append [.template] step))
  rw [delimitersBehind_concat before]
  exact Bracket.read_append_of reads step

theorem ended {outer : List Nat} (tracks : Tracks kinds depth depths pending [])
    (same : depths = depth :: outer) :
    ∃ part rest, pending = part :: rest ∧ Bracket.read [] (delimitersBehind part kinds) = some [] ∧
      Tracks kinds depth outer rest [.template] := by
  cases tracks with
  | outside => cases same
  | @within saved part _ rest _ count before reads further =>
      injection same with saves outside
      obtain rfl : count = 0 := by omega
      subst outside
      exact ⟨part, rest, rfl, reads, further⟩

variable {memory after : Memory} {text : List Char}

theorem turn (tracks : Tracks kinds memory.braceDepth memory.substitutions (pendingParts kinds) [])
    (turns : memory.Turns text kind after) (closed : text.head? = some '\x7d' → kind ≠ .unknown) :
    Tracks (kinds ++ [kind]) after.braceDepth after.substitutions (pendingParts (kinds ++ [kind])) [] := by
  obtain ⟨previous, depth, substitutions⟩ := memory
  rw [pendingParts_concat]
  generalize pendingParts kinds = pending at tracks ⊢
  cases turns with
  | other undelimiting start =>
      rw [Kind.continues_of_not_delimiter undelimiting]
      apply tracks.concat
      simp [undelimiting]
  | opens start =>
      cases tracks with
      | outside => exact .outside
      | within count before reads further =>
          have opened : Bracket.read (List.replicate count .curly) ([Kind.leftBrace].filter Kind.isDelimiter) =
              some (List.replicate (count + 1) .curly) := rfl
          exact brace before reads further opened
  | closes start inside =>
      cases tracks with
      | outside => exact .outside
      | within count before reads further =>
          cases count with
          | zero => exact absurd rfl inside
          | succ count => exact brace before reads further rfl
  | starts start => exact (tracks.concat rfl).begin
  | goesOn start same =>
      obtain ⟨part, rest, rfl, -, around⟩ := tracks.ended same
      exact (around.concat rfl).begin
  | ends start same =>
      obtain ⟨part, rest, rfl, -, around⟩ := tracks.ended same
      exact around.concat rfl
  | unclosed start same => exact absurd rfl (closed start)

end Tracks

namespace Tokenizer

def firstKinds (tokenizer : Tokenizer) (count : Nat) : List Kind :=
  (List.range count).map fun index => (tokenizer.nth index).kind

theorem firstKinds_succ (tokenizer : Tokenizer) (count : Nat) :
    tokenizer.firstKinds (count + 1) = tokenizer.firstKinds count ++ [(tokenizer.nth count).kind] := by
  simp [firstKinds, List.range_succ]

/-- Asking for a token does to what is remembered what the token does. A part of a template that is never
closed uses up the text. -/
theorem turns_nextToken {text : List Char} {tokenizer : Tokenizer} (reads : tokenizer.Reads text) :
    ∃ source after, tokenizer.memory.Turns source tokenizer.nextToken.1.kind after ∧
      tokenizer.nextToken.2.memory = { after with previous := some tokenizer.nextToken.1.kind } ∧
      ((tokenizer.nextToken.1.span.sliceOf text).head? = some '\x7d' → source.head? = some '\x7d') ∧
      (source.head? = some '\x7d' → tokenizer.nextToken.1.kind = .unknown →
        tokenizer.nextToken.2.rest = [] ∧ tokenizer.nextToken.1.span.stop = byteLength text) := by
  cases ahead : takeTrivia false tokenizer.offset tokenizer.rest with
  | mk leading behind =>
    obtain ⟨start, source⟩ := behind
    obtain ⟨scans, -⟩ := scans ahead
    obtain ⟨turns, whole⟩ := scanned_scanToken tokenizer.memory source
    have kept := text_scanToken tokenizer.memory source
    rw [← scans.kind] at turns whole
    refine ⟨source, _, turns, ?_, fun begins => ?_, fun begins unknown => ?_⟩
    · rw [scans.kind, scans.memory]
    · rw [scans.text text reads] at begins
      obtain ⟨tail, taken⟩ := List.head?_eq_some_iff.mp begins
      rw [← kept, Split.text, taken]
      rfl
    · have rest := whole begins unknown
      obtain ⟨offset, left⟩ := scans.rest
      rw [rest] at left
      have nothing : tokenizer.nextToken.2.rest = [] := left
      have stops : tokenizer.nextToken.1.span.stop = tokenizer.nextToken.2.offset := by
        simp only [nextToken, ahead, rest]
        split <;> rfl
      obtain ⟨before, taken, behind, cuts⟩ := tokenizer.exists_cuts
      rw [stops]
      exact ⟨nothing, (cuts.reads_next reads).offset_of_nothing nothing⟩

/-- What a tokenizer remembers agrees with the kinds in front of it, until the text is used up. -/
theorem tracks_advance (text : List Char) (count : Nat) :
    ((ofText text).advance count).rest = [] ∨
      Tracks ((ofText text).firstKinds count) ((ofText text).advance count).memory.braceDepth
        ((ofText text).advance count).memory.substitutions
        (pendingParts ((ofText text).firstKinds count)) [] := by
  induction count with
  | zero => exact .inr .outside
  | succ count ih =>
      rw [firstKinds_succ, advance_succ]
      rcases ih with nothing | tracks
      · exact .inl (nextToken_of_nothing _ nothing).2.1
      · obtain ⟨source, after, turns, remembers, -, unclosed⟩ :=
          turns_nextToken ((reads_ofText text).advance count)
        by_cases usesUp : source.head? = some '\x7d' ∧ ((ofText text).nth count).kind = .unknown
        · exact .inl (unclosed usesUp.1 usesUp.2).1
        · rw [remembers]
          have turned := tracks.turn turns fun start other => usesUp ⟨start, other⟩
          exact .inr turned

end Tokenizer

/-! ## The tokens of a text -/

namespace Tracks

variable {kinds : List Kind} {kind : Kind} {memory after : Memory} {text : List Char} {pending : List Nat}

/-- A middle or a tail continues the innermost part, in which everything is closed. -/
theorem nested_of_turns (tracks : Tracks kinds memory.braceDepth memory.substitutions pending [])
    (turns : memory.Turns text kind after) (continues : kind = .templateMiddle ∨ kind = .templateTail) :
    ∃ part outer, pending = part :: outer ∧ Nested false (delimitersBehind part kinds) := by
  have innermost : ∀ {outer : List Nat}, memory.substitutions = memory.braceDepth :: outer →
      ∃ part outer, pending = part :: outer ∧ Nested false (delimitersBehind part kinds) := by
    intro outer same
    obtain ⟨part, rest, pends, reads, -⟩ := tracks.ended same
    exact ⟨part, rest, pends, Bracket.read_eq_nil_iff.mp reads⟩
  cases turns with
  | other undelimiting start => rcases continues with rfl | rfl <;> cases undelimiting
  | goesOn start same | ends start same => exact innermost same
  | _ => simp at continues

/-- A closing brace closes a brace if one is open in the innermost part, and goes on with the template
otherwise. -/
theorem leavesOpen_of_turns {part : Nat} {outer : List Nat}
    (tracks : Tracks kinds memory.braceDepth memory.substitutions (part :: outer) [])
    (turns : memory.Turns text kind after) (start : text.head? = some '\x7d') :
    ∃ count, LeavesOpen (List.replicate count .curly) (delimitersBehind part kinds) ∧
      (kind = .rightBrace ↔ 0 < count) ∧
      (count = 0 → kind = .templateMiddle ∨ kind = .templateTail ∨ kind = .unknown) := by
  obtain ⟨previous, depth, substitutions⟩ := memory
  cases tracks with
  | within count before reads further =>
      have leaves := (LeavesOpen.closed .empty).run reads
      refine ⟨count, leaves, ?_⟩
      cases turns with
      | other undelimiting other => exact absurd start other
      | opens other => exact absurd start other
      | starts other => exact absurd start other
      | closes start inside =>
          have some : count ≠ 0 := by
            rintro rfl
            exact inside rfl
          simp [some, Nat.pos_of_ne_zero]
      | goesOn start same | ends start same | unclosed start same =>
          have none : count = 0 := by
            injection same with saves
            exact Nat.add_eq_left.mp saves.symm
          simp [none]

end Tracks

def TokenStream.kindsBefore (stream : TokenStream) (index : Nat) : List Kind :=
  (stream.tokens.toList.take index).map Token.kind

theorem eq_nth_of_tokenize {text : List Char} {index : Nat} {token : Token}
    (here : (tokenize text).tokens[index]? = some token) :
    token = (Tokenizer.ofText text).nth index ∧
      (tokenize text).kindsBefore index = (Tokenizer.ofText text).firstKinds index := by
  obtain ⟨tokens, run, few⟩ := (Tokenizer.ofText text).exists_run
  have given : (tokenize text).tokens.toList = tokens := run.tokensWithin_eq rfl few
  rw [← Array.getElem?_toList, given] at here
  obtain ⟨inside, -⟩ := List.getElem?_eq_some_iff.mp here
  rw [run.eq_map_nth] at here
  refine ⟨by simpa [inside, eq_comm] using here, ?_⟩
  rw [TokenStream.kindsBefore, given, run.eq_map_nth, Tokenizer.firstKinds, ← List.map_take, List.take_range,
    Nat.min_eq_left (Nat.le_of_lt inside), List.map_map]
  rfl

/-- In the tokens of a text each middle and tail of a template continues the most recent head or middle that
is not continued yet, and the braces and the templates between the two are nested. While a part is to be
continued, a token that starts with a closing brace is one exactly if braces are open that were opened behind
that part; otherwise it goes on with the template, or is unknown and takes the rest of the text. -/
theorem tokenize_nests_substitutions {text : List Char} {index : Nat} {token : Token}
    (here : (tokenize text).tokens[index]? = some token) :
    (token.kind = .templateMiddle ∨ token.kind = .templateTail →
      ∃ part outer, pendingParts ((tokenize text).kindsBefore index) = part :: outer ∧
        (((tokenize text).kindsBefore index)[part]? = some .templateHead ∨
          ((tokenize text).kindsBefore index)[part]? = some .templateMiddle) ∧
        Nested false (delimitersBehind part ((tokenize text).kindsBefore index))) ∧
    ∀ part outer, pendingParts ((tokenize text).kindsBefore index) = part :: outer →
      ((tokenize text).tokenText token).head? = some '\x7d' →
      ∃ count, LeavesOpen (List.replicate count .curly)
          (delimitersBehind part ((tokenize text).kindsBefore index)) ∧
        (token.kind = .rightBrace ↔ 0 < count) ∧
        (count = 0 → token.kind = .templateMiddle ∨ token.kind = .templateTail ∨
          token.kind = .unknown ∧ token.span.stop = byteLength text) := by
  obtain ⟨rfl, kinds⟩ := eq_nth_of_tokenize here
  rw [kinds]
  have reads := (Tokenizer.reads_ofText text).advance index
  rcases Tokenizer.tracks_advance text index with nothing | tracks
  · -- Behind the text there is only the end, again and again.
    have eof := (Tokenizer.nextToken_of_nothing _ nothing).1
    have empty : (tokenize text).tokenText ((Tokenizer.ofText text).nth index) = [] := by
      rw [TokenStream.tokenText, Tokenizer.nth, eof]
      simp [Span.sliceOf, Span.emptyAt, slice, takeBytes]
    refine ⟨fun continues => ?_, fun part outer _ start => ?_⟩
    · rw [Tokenizer.nth, eof] at continues
      rcases continues with middle | tail
      · cases middle
      · cases tail
    · rw [empty] at start
      cases start
  · obtain ⟨source, after, turns, -, starts, unclosed⟩ := Tokenizer.turns_nextToken reads
    refine ⟨fun continues => ?_, fun part outer pends start => ?_⟩
    · obtain ⟨part, outer, pends, nested⟩ := tracks.nested_of_turns turns continues
      exact ⟨part, outer, pends, kind_of_mem_pendingParts (pends ▸ List.mem_cons_self), nested⟩
    · rw [pends] at tracks
      obtain ⟨count, leaves, closes, goesOn⟩ := tracks.leavesOpen_of_turns turns (starts start)
      refine ⟨count, leaves, closes, fun none => ?_⟩
      rcases goesOn none with middle | tail | unknown
      · exact .inl middle
      · exact .inr (.inl tail)
      · exact .inr (.inr ⟨unknown, (unclosed (starts start) unknown).2⟩)

/-- In a substitution with a brace and a template each closing brace closes what is innermost. -/
theorem tokenize_nests_substitutions_of_template :
    let text := ['\x60', '$', '\x7b', '\x7b', '\x60', '$', '\x7b', '\x7d', '\x60', '\x7d', '\x7d', '\x60']
    (∃ token, (tokenize text).tokens[5]? = some token ∧ token.kind = .templateTail ∧
      pendingParts ((tokenize text).kindsBefore 5) = [0] ∧
      Nested false (delimitersBehind 0 ((tokenize text).kindsBefore 5))) ∧
    ∃ token, (tokenize text).tokens[4]? = some token ∧
      pendingParts ((tokenize text).kindsBefore 4) = [0] ∧
      ((tokenize text).tokenText token).head? = some '\x7d' ∧ token.kind = .rightBrace ∧
      ∃ count > 0, LeavesOpen (List.replicate count .curly)
        (delimitersBehind 0 ((tokenize text).kindsBefore 4)) := by
  intro text
  have tail : (tokenize text).tokens[5]? = some ⟨.empty, .templateTail, ⟨10, 12⟩, .empty⟩ := by
    decide +kernel
  have brace : (tokenize text).tokens[4]? = some ⟨.empty, .rightBrace, ⟨9, 10⟩, .empty⟩ := by
    decide +kernel
  have pendsTail : pendingParts ((tokenize text).kindsBefore 5) = [0] := by decide +kernel
  have pendsBrace : pendingParts ((tokenize text).kindsBefore 4) = [0] := by decide +kernel
  have starts : ((tokenize text).tokenText ⟨.empty, .rightBrace, ⟨9, 10⟩, .empty⟩).head? = some '\x7d' := by
    decide +kernel
  refine ⟨⟨_, tail, rfl, pendsTail, ?_⟩, _, brace, pendsBrace, starts, rfl, ?_⟩
  · obtain ⟨part, outer, pends, -, nested⟩ := (tokenize_nests_substitutions tail).1 (.inr rfl)
    cases pendsTail.symm.trans pends
    exact nested
  · obtain ⟨count, leaves, closes, -⟩ := (tokenize_nests_substitutions brace).2 0 [] pendsBrace starts
    exact ⟨count, closes.mp rfl, leaves⟩

end ScriptTree
