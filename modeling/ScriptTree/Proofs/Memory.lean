import ScriptTree.Proofs.ParseAccounts

/-! # What a parse remembers

A parse remembers its furthest failure, the marked targets and the arrows that failed, and looks at the
last two. It does what an account tells as long as this memory is sound: every mark stands on
parentheses that are read there and hold something to assign to, and every arrow in the table is
refused again, with nothing to note that is not known. Where no word depends on the scope, parentheses
are read in one way at a position, so the marks are right and the table makes no difference. -/
set_option autoImplicit false
set_option maxRecDepth 4000
namespace ScriptTree

/-! ## The furthest failure -/

namespace Furthest

def note (furthest : Furthest) : Note → Furthest
  | .kind position kind => furthest.expect position kind
  | .construct position name => furthest.expectConstruct position name
  | .target _ => furthest

def Knows (furthest : Furthest) : Note → Prop
  | .kind position kind =>
      position < furthest.position ∨
        position = furthest.position ∧ furthest.expected.contains kind = true
  | .construct position name =>
      position < furthest.position ∨ position = furthest.position ∧ name ∈ furthest.constructs
  | .target _ => True

/-- Everything that is known at the one is known at the other. -/
def Within (furthest other : Furthest) : Prop :=
  furthest.position < other.position ∨
    furthest.position = other.position ∧
      (∀ kind, furthest.expected.contains kind = true → other.expected.contains kind = true) ∧
      ∀ name ∈ furthest.constructs, name ∈ other.constructs

variable {furthest other more : Furthest} {note : Note} {position : Nat}

theorem Within.refl (furthest : Furthest) : furthest.Within furthest :=
  .inr ⟨rfl, fun _ => id, fun _ => id⟩

theorem Within.trans (within : furthest.Within other) (further : other.Within more) :
    furthest.Within more := by
  rcases within with less | ⟨same, kinds, names⟩ <;>
    rcases further with beyond | ⟨equal, moreKinds, moreNames⟩
  · exact .inl (Nat.lt_trans less beyond)
  · exact .inl (equal ▸ less)
  · exact .inl (same ▸ beyond)
  · exact .inr ⟨same.trans equal, fun kind known => moreKinds kind (kinds kind known),
      fun name known => moreNames name (names name known)⟩

theorem Knows.within (known : furthest.Knows note) (within : furthest.Within other) :
    other.Knows note := by
  cases note with
  | kind position kind =>
      rcases known with before | ⟨rfl, known⟩ <;> rcases within with less | ⟨same, kinds, _⟩
      · exact .inl (Nat.lt_trans before less)
      · exact .inl (same ▸ before)
      · exact .inl less
      · exact .inr ⟨same, kinds kind known⟩
  | construct position name =>
      rcases known with before | ⟨rfl, known⟩ <;> rcases within with less | ⟨same, _, names⟩
      · exact .inl (Nat.lt_trans before less)
      · exact .inl (same ▸ before)
      · exact .inl less
      · exact .inr ⟨same, names name known⟩
  | target position => trivial

/-! ### Recording a note -/

theorem expect_before (before : position < furthest.position) (kind : Kind) :
    furthest.expect position kind = furthest := by
  rw [expect, if_pos before]

theorem expect_here (furthest : Furthest) (kind : Kind) :
    furthest.expect furthest.position kind =
      { furthest with expected := furthest.expected.insert kind } := by
  simp [expect, advance]

theorem expect_beyond (beyond : furthest.position < position) (kind : Kind) :
    furthest.expect position kind = ⟨position, KindSet.empty.insert kind, []⟩ := by
  simp [expect, advance, beyond, Nat.not_lt_of_gt beyond]

theorem expectConstruct_before (before : position < furthest.position) (name : String) :
    furthest.expectConstruct position name = furthest := by
  rw [expectConstruct, if_pos before]

theorem expectConstruct_known {name : String} (known : name ∈ furthest.constructs) :
    furthest.expectConstruct furthest.position name = furthest := by
  simp [expectConstruct, advance, known]

theorem expectConstruct_here {name : String} (unknown : name ∉ furthest.constructs) :
    furthest.expectConstruct furthest.position name =
      { furthest with constructs := furthest.constructs ++ [name] } := by
  simp [expectConstruct, advance, unknown]

theorem expectConstruct_beyond (beyond : furthest.position < position) (name : String) :
    furthest.expectConstruct position name = ⟨position, .empty, [name]⟩ := by
  simp [expectConstruct, advance, beyond, Nat.not_lt_of_gt beyond]

theorem note_eq_of_knows (known : furthest.Knows note) : furthest.note note = furthest := by
  cases note with
  | kind position kind =>
      rcases known with before | ⟨rfl, known⟩
      · exact expect_before before kind
      · rw [Furthest.note, expect_here, KindSet.insert_of_contains known]
  | construct position name =>
      rcases known with before | ⟨rfl, known⟩
      · exact expectConstruct_before before name
      · exact expectConstruct_known known
  | target position => rfl

theorem knows_note (furthest : Furthest) (note : Note) : (furthest.note note).Knows note := by
  cases note with
  | kind position kind =>
      rw [Furthest.note]
      rcases Nat.lt_trichotomy position furthest.position with before | rfl | beyond
      · rw [expect_before before]
        exact .inl before
      · rw [expect_here]
        exact .inr ⟨rfl, by simp⟩
      · rw [expect_beyond beyond]
        exact .inr ⟨rfl, by simp⟩
  | construct position name =>
      rw [Furthest.note]
      rcases Nat.lt_trichotomy position furthest.position with before | rfl | beyond
      · rw [expectConstruct_before before]
        exact .inl before
      · by_cases known : name ∈ furthest.constructs
        · rw [expectConstruct_known known]
          exact .inr ⟨rfl, known⟩
        · rw [expectConstruct_here known]
          exact .inr ⟨rfl, by simp⟩
      · rw [expectConstruct_beyond beyond]
        exact .inr ⟨rfl, by simp⟩
  | target position => trivial

theorem within_note (furthest : Furthest) (note : Note) : furthest.Within (furthest.note note) := by
  cases note with
  | kind position kind =>
      rw [Furthest.note]
      rcases Nat.lt_trichotomy position furthest.position with before | rfl | beyond
      · rw [expect_before before]
        exact .refl _
      · rw [expect_here]
        exact .inr ⟨rfl, fun other known => by simp [known], fun _ => id⟩
      · rw [expect_beyond beyond]
        exact .inl beyond
  | construct position name =>
      rw [Furthest.note]
      rcases Nat.lt_trichotomy position furthest.position with before | rfl | beyond
      · rw [expectConstruct_before before]
        exact .refl _
      · by_cases known : name ∈ furthest.constructs
        · rw [expectConstruct_known known]
          exact .refl _
        · rw [expectConstruct_here known]
          exact .inr ⟨rfl, fun _ => id, fun other listed => List.mem_append_left _ listed⟩
      · rw [expectConstruct_beyond beyond]
        exact .inl beyond
  | target position => exact .refl _

/-! ### Recording some notes -/

theorem within_foldl (notes : List Note) (furthest : Furthest) :
    furthest.Within (notes.foldl Furthest.note furthest) := by
  induction notes generalizing furthest with
  | nil => exact .refl _
  | cons first rest ih => exact (furthest.within_note first).trans (ih _)

theorem knows_foldl {notes : List Note} (member : note ∈ notes) (furthest : Furthest) :
    (notes.foldl Furthest.note furthest).Knows note := by
  induction notes generalizing furthest with
  | nil => cases member
  | cons first rest ih =>
      rcases List.mem_cons.mp member with rfl | later
      · exact (furthest.knows_note note).within (within_foldl rest _)
      · exact ih later _

theorem foldl_eq_of_knows {notes : List Note} (known : ∀ note ∈ notes, furthest.Knows note) :
    notes.foldl Furthest.note furthest = furthest := by
  induction notes with
  | nil => rfl
  | cons first rest ih =>
      rw [List.foldl_cons, note_eq_of_knows (known first List.mem_cons_self)]
      exact ih fun note member => known note (List.mem_cons_of_mem _ member)

end Furthest

/-! ## Histories -/

namespace History

/-- A history is what some notes make of another one, the table of failed arrows apart. -/
structure Follows (before later : History) (notes : List Note) : Prop where
  furthest : later.furthest = notes.foldl Furthest.note before.furthest
  targets : ∀ position, position ∈ later.targets ↔
    position ∈ before.targets ∨ .target position ∈ notes

def Knows (history : History) (note : Note) : Prop :=
  history.furthest.Knows note ∧ ∀ position, note = .target position → position ∈ history.targets

variable {before middle later history : History} {notes more : List Note} {note : Note}

theorem Follows.refl (history : History) : history.Follows history [] :=
  ⟨rfl, fun _ => by simp⟩

theorem Follows.append (follows : before.Follows middle notes) (further : middle.Follows later more) :
    before.Follows later (notes ++ more) where
  furthest := by rw [further.furthest, follows.furthest, List.foldl_append]
  targets := by
    intro position
    rw [further.targets, follows.targets, List.mem_append, or_assoc]

theorem Follows.knows (follows : before.Follows later notes) (known : before.Knows note) :
    later.Knows note := by
  refine ⟨?_, fun position same => (follows.targets position).mpr (.inl (known.2 position same))⟩
  rw [follows.furthest]
  exact known.1.within (Furthest.within_foldl notes _)

theorem Follows.knows_of_mem (follows : before.Follows later notes) (member : note ∈ notes) :
    later.Knows note := by
  refine ⟨?_, fun position same => (follows.targets position).mpr (.inr (same ▸ member))⟩
  rw [follows.furthest]
  exact Furthest.knows_foldl member _

/-- Notes that are known make nothing new of a history. -/
theorem follows_of_knows (known : ∀ note ∈ notes, history.Knows note) :
    history.Follows history notes where
  furthest := (Furthest.foldl_eq_of_knows fun note member => (known note member).1).symm
  targets := by
    intro position
    constructor
    · exact .inl
    · rintro (marked | noted)
      · exact marked
      · exact (known _ noted).2 position rfl

theorem follows_expect (history : History) (position : Nat) (kind : Kind) :
    history.Follows (history.expect position kind) [.kind position kind] :=
  ⟨rfl, fun _ => by simp [expect]⟩

theorem follows_expectConstruct (history : History) (position : Nat) (name : String) :
    history.Follows (history.expectConstruct position name) [.construct position name] :=
  ⟨rfl, fun _ => by simp [expectConstruct]⟩

theorem follows_markTarget (history : History) (place : Place) :
    history.Follows (history.markTarget place.completed) place.targetNotes := by
  rw [Place.targetNotes]
  cases place.completed with
  | none => exact .refl _
  | some node =>
      refine ⟨rfl, fun position => ?_⟩
      simp [markTarget, or_comm]

theorem follows_rememberArrow (history : History) (position : Nat) (scope : Scope) :
    history.Follows (history.rememberArrow position scope) [] :=
  ⟨rfl, fun _ => by simp [rememberArrow]⟩

end History

/-! ## Sound memory -/

section Sound

variable {terminals : Terminals}

/-- Parentheses that are read at a position, with what they hold. -/
def Terminals.Parenthesizes (terminals : Terminals) (first : Nat) (inside : Forest) : Prop :=
  ∃ fuel scope after notes,
    Nonterminal.accountWith Nonterminal.production terminals fuel .parenthesized scope (.fresh first) =
        .matched after notes ∧
      after.forest = Forest.empty.node .parenthesizedExpression inside

/-- Where no word depends on the scope, parentheses are read in one way. -/
theorem Terminals.Parenthesizes.unique (noWords : terminals.NoWords) {first : Nat}
    {inside other : Forest} (reads : terminals.Parenthesizes first inside)
    (again : terminals.Parenthesizes first other) : inside = other := by
  obtain ⟨fuel, scope, after, notes, matched, forest⟩ := reads
  obtain ⟨more, second, later, further, rematched, sameForest⟩ := again
  have alike := Nonterminal.accountWith_alike Nonterminal.isBlind_production fuel more .parenthesized
    scope second (.fresh first) (.inr noWords : terminals.SameScopes scope second)
  rw [matched, rematched] at alike
  cases alike
  cases forest.symm.trans sameForest
  rfl

/-- A mark that stands on parentheses to assign to. -/
def Terminals.IsMark (terminals : Terminals) (position : Nat) : Prop :=
  ∃ first inside, position = first + 1 ∧ terminals.Parenthesizes first inside ∧ inside.isTarget = true

/-- An arrow that is refused with nothing to note that a history does not know. -/
def History.Refuses (terminals : Terminals) (history : History) (position : Nat) (scope : Scope) :
    Prop :=
  ∃ fuel notes,
    Nonterminal.accountWith Nonterminal.production terminals fuel .arrow scope (.fresh position) =
        .refused notes ∧
      ∀ note ∈ notes, history.Knows note

structure History.Sound (terminals : Terminals) (history : History) : Prop where
  targets : ∀ position ∈ history.targets, terminals.IsMark position
  arrows : ∀ position scope, (position, scope) ∈ history.failedArrows →
    history.Refuses terminals position scope

namespace History.Sound

variable {before later history : History} {notes : List Note}

theorem start : Sound terminals .start :=
  ⟨fun _ marked => absurd marked List.not_mem_nil, fun _ _ failed => absurd failed List.not_mem_nil⟩

theorem follows (sound : before.Sound terminals) (follows : before.Follows later notes)
    (sameArrows : later.failedArrows = before.failedArrows)
    (marks : ∀ position, .target position ∈ notes → terminals.IsMark position) :
    later.Sound terminals where
  targets := by
    intro position marked
    rcases (follows.targets position).mp marked with earlier | noted
    · exact sound.targets position earlier
    · exact marks position noted
  arrows := by
    intro position scope failed
    rw [sameArrows] at failed
    obtain ⟨fuel, refusal, refused, known⟩ := sound.arrows position scope failed
    exact ⟨fuel, refusal, refused, fun note member => follows.knows (known note member)⟩

theorem expect (sound : history.Sound terminals) (position : Nat) (kind : Kind) :
    (history.expect position kind).Sound terminals :=
  sound.follows (history.follows_expect position kind) rfl (by simp)

theorem expectConstruct (sound : history.Sound terminals) (position : Nat) (name : String) :
    (history.expectConstruct position name).Sound terminals :=
  sound.follows (history.follows_expectConstruct position name) rfl (by simp)

theorem rememberArrow (sound : history.Sound terminals) {position : Nat} {scope : Scope}
    (refuses : history.Refuses terminals position scope) :
    (history.rememberArrow position scope).Sound terminals where
  targets := sound.targets
  arrows := by
    intro other within failed
    rcases List.mem_cons.mp failed with same | earlier
    · cases same
      exact refuses
    · exact sound.arrows other within earlier

end History.Sound

end Sound

end ScriptTree
