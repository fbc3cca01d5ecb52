import ScriptTree.Proofs.Substitutions

/-! # Tokens where they stand

A token of a text is what is scanned from where it starts, with what the tokenizer remembers there. What it
remembers is told by the tokens in front of it: the kind of the last one, and whether a closing brace goes
on with a template. A token that takes the rest of the text is followed by the end alone. -/
set_option autoImplicit false
namespace ScriptTree

open Text

namespace TokenStream

def ahead (stream : TokenStream) (token : Token) : List Char := dropBytes token.span.start stream.text

/-- A substitution is open in front of an index, and whatever was opened in it is closed again: a closing
brace goes on with the template. -/
def ContinuesTemplate (stream : TokenStream) (index : Nat) : Prop :=
  ∃ part outer, pendingParts (stream.kindsBefore index) = part :: outer ∧
    Nested false (delimitersBehind part (stream.kindsBefore index))

structure EndsBehind (stream : TokenStream) (index : Nat) : Prop where
  size : stream.tokens.size = index + 2
  eof : stream.tokens[index + 1]? = some ⟨.empty, .eof, .emptyAt (byteLength stream.text), .empty⟩

/-- The token at an index is scanned from where it starts with what is remembered there. -/
structure Finds (stream : TokenStream) (index : Nat) (token : Token) (memory : Memory) : Prop where
  kind : token.kind = (scanToken memory (stream.ahead token)).1
  text : stream.tokenText token = (scanToken memory (stream.ahead token)).2.1.taken
  bare : Bare (stream.ahead token)
  previous : memory.previous = (stream.kindsBefore index).getLast?
  continues : stream.ahead token ≠ [] →
    (memory.substitutions.head? = some memory.braceDepth ↔ stream.ContinuesTemplate index)
  ends : stream.ahead token ≠ [] → (scanToken memory (stream.ahead token)).2.1.rest = [] →
    token.span.stop = byteLength stream.text ∧ stream.EndsBehind index

end TokenStream

/-- Where the counts of braces agree nothing is open in the innermost part that is to be continued, and the
other way round. -/
theorem Tracks.head?_eq_iff {kinds : List Kind} {depth : Nat} {depths pending : List Nat}
    (tracks : Tracks kinds depth depths pending []) :
    depths.head? = some depth ↔
      ∃ part outer, pending = part :: outer ∧ Nested false (delimitersBehind part kinds) := by
  constructor
  · intro same
    obtain ⟨outer, opened⟩ := List.head?_eq_some_iff.mp same
    obtain ⟨part, rest, pends, reads, -⟩ := tracks.ended opened
    exact ⟨part, rest, pends, Bracket.read_eq_nil_iff.mp reads⟩
  · rintro ⟨part, outer, rfl, nested⟩
    cases tracks with
    | @within saved _ _ _ _ count before reads further =>
        -- Nothing is left open, so no brace is counted.
        rw [Bracket.read_eq_nil_iff.mpr nested] at reads
        obtain rfl : count = 0 := (List.replicate_eq_nil_iff _).mp (Option.some.inj reads).symm
        rfl

namespace Tokenizer

variable {text : List Char}

theorem previous_advance (text : List Char) (index : Nat) :
    ((ofText text).advance index).memory.previous = ((ofText text).firstKinds index).getLast? := by
  cases index with
  | zero => rfl
  | succ index =>
      obtain ⟨before, taken, behind, cuts⟩ := ((ofText text).advance index).exists_cuts
      rw [advance_succ, cuts.previous, firstKinds_succ, List.getLast?_concat]
      rfl

theorem nextToken_of_ahead {tokenizer : Tokenizer} {leading : Trivia} {start : Nat} {source : List Char}
    (ahead : takeTrivia false tokenizer.offset tokenizer.rest = (leading, start, source)) :
    tokenizer.nextToken.1.leading = leading ∧ tokenizer.nextToken.1.span.start = start := by
  simp only [nextToken, ahead]
  split <;> exact ⟨rfl, rfl⟩

theorem exists_scans_at {tokenizer : Tokenizer} (reads : tokenizer.Reads text) :
    ∃ source, dropBytes tokenizer.nextToken.1.span.start text = source ∧ tokenizer.Scans source ∧
      Bare source ∧ (source ≠ [] → tokenizer.rest ≠ []) ∧
      ((scanToken tokenizer.memory source).2.1.rest = [] →
        tokenizer.nextToken.2.rest = [] ∧ tokenizer.nextToken.1.span.stop = byteLength text) := by
  have bare := takeTrivia_stops tokenizer.offset tokenizer.rest
  obtain ⟨skipped, cut, starts, -⟩ := exists_takeTrivia false tokenizer.offset tokenizer.rest
  cases ahead : takeTrivia false tokenizer.offset tokenizer.rest with
  | mk leading behind =>
    obtain ⟨start, source⟩ := behind
    rw [ahead] at bare cut starts
    dsimp only at cut starts
    obtain ⟨scans, -⟩ := scans ahead
    have begins := (nextToken_of_ahead ahead).2
    refine ⟨source, ?_, scans, bare, ?_, fun ends => ?_⟩
    · obtain ⟨front, rfl, offset⟩ := reads
      rw [begins, starts, cut, ← offset, ← byteLength_append, ← List.append_assoc,
        dropBytes_byteLength]
    · rintro some none
      rw [none] at cut
      exact some (List.append_eq_nil_iff.mp cut.symm).2
    · have stops : tokenizer.nextToken.1.span.stop = tokenizer.nextToken.2.offset := by
        simp only [nextToken, ahead, ends]
        split <;> rfl
      obtain ⟨offset, left⟩ := scans.rest
      rw [ends] at left
      have nothing : tokenizer.nextToken.2.rest = [] := left
      obtain ⟨before, taken, behind, cuts⟩ := tokenizer.exists_cuts
      rw [stops]
      exact ⟨nothing, (cuts.reads_next reads).offset_of_nothing nothing⟩

end Tokenizer

/-- The tokens of a text are those that its tokenizer gives out, up to the first end. -/
theorem exists_count_of_tokenize (text : List Char) :
    ∃ count, (tokenize text).tokens.toList =
        (List.range (count + 1)).map (Tokenizer.ofText text).nth ∧
      (∀ index < count, ((Tokenizer.ofText text).nth index).kind ≠ .eof) ∧
      ((Tokenizer.ofText text).nth count).kind = .eof ∧
      ((Tokenizer.ofText text).nth count).span = .emptyAt (byteLength text) := by
  have reads := Tokenizer.reads_ofText text
  obtain ⟨tokens, run, -⟩ := (Tokenizer.ofText text).exists_run
  obtain ⟨count, counted⟩ : ∃ count, tokens.length = count + 1 :=
    ⟨tokens.length - 1, by have := run.length_pos; omega⟩
  obtain ⟨eof, empty, -⟩ := run.nth_last reads counted.symm
  refine ⟨count, ?_, fun index before => (run.nth_before reads (by omega)).1, eof, empty⟩
  rw [run.toList_tokenize, ← counted]
  exact run.eq_map_nth

theorem endsBehind_of_nothing {text : List Char} {index : Nat}
    (here : index < (tokenize text).tokens.size)
    (other : ((Tokenizer.ofText text).nth index).kind ≠ .eof)
    (nothing : ((Tokenizer.ofText text).advance (index + 1)).rest = []) :
    (tokenize text).EndsBehind index := by
  obtain ⟨count, given, before, eof, -⟩ := exists_count_of_tokenize text
  have size : (tokenize text).tokens.size = count + 1 := by
    rw [← Array.length_toList, given, List.length_map, List.length_range]
  have next : (Tokenizer.ofText text).nth (index + 1) =
      ⟨.empty, .eof, .emptyAt (byteLength text), .empty⟩ :=
    (((Tokenizer.reads_ofText text).advance (index + 1)).nth_of_nothing nothing) 0
  have last : index + 1 = count := by
    have inside : index ≠ count := by
      rintro rfl
      exact other eof
    by_contra different
    exact before (index + 1) (by omega) (congrArg Token.kind next)
  refine ⟨by omega, ?_⟩
  rw [← Array.getElem?_toList, given, List.getElem?_map, List.getElem?_range (by omega)]
  exact congrArg some next

theorem exists_finds {text : List Char} {index : Nat} {token : Token}
    (here : (tokenize text).tokens[index]? = some token) :
    ∃ memory, (tokenize text).Finds index token memory := by
  obtain ⟨inside, -⟩ := Array.getElem?_eq_some_iff.mp here
  obtain ⟨rfl, kinds⟩ := eq_nth_of_tokenize here
  have reads := (Tokenizer.reads_ofText text).advance index
  obtain ⟨source, ahead, scans, bare, some, ends⟩ := Tokenizer.exists_scans_at reads
  have stands : (tokenize text).ahead ((Tokenizer.ofText text).nth index) = source := ahead
  refine ⟨((Tokenizer.ofText text).advance index).memory, ?_⟩
  constructor <;> try rw [stands]
  · exact scans.kind
  · exact scans.text text reads
  · exact bare
  · rw [kinds]
    exact Tokenizer.previous_advance text index
  · intro more
    rcases Tokenizer.tracks_advance text index with nothing | tracks
    · exact absurd nothing (some more)
    · rw [tracks.head?_eq_iff, TokenStream.ContinuesTemplate, kinds]
  · intro more usesUp
    obtain ⟨nothing, stops⟩ := ends usesUp
    refine ⟨stops, endsBehind_of_nothing inside ?_ ?_⟩
    · rw [Tokenizer.nth, scans.kind]
      exact (takesToken_scanToken _ more).2.1
    · rw [Tokenizer.advance_succ]
      exact nothing

end ScriptTree
