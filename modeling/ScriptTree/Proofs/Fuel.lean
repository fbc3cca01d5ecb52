import ScriptTree.Proofs.Nesting

/-! # Fuel does not decide

More fuel leaves a finished parse as it is. So a production gives a result if it does so with all fuel
from some amount on, and what productions give is put together from what their parts give. -/
set_option autoImplicit false
namespace ScriptTree

/-! ## More fuel -/

namespace Parse

/-- A parse did not finish, or it is the other one. -/
def IsWithin (parse other : Parse) : Prop := parse = .outOfFuel ∨ parse = other

theorem IsWithin.andThen {parse other : Parse} {next further : Place → History → Parse}
    (within : parse.IsWithin other)
    (later : ∀ place history, (next place history).IsWithin (further place history)) :
    (parse.andThen next).IsWithin (other.andThen further) := by
  rcases within with rfl | rfl
  · exact .inl rfl
  · cases parse with
    | matched place history => exact later place history
    | refused history => exact .inr rfl
    | outOfFuel => exact .inl rfl

theorem IsWithin.orElse {parse other : Parse} {otherwise second : History → Parse}
    (within : parse.IsWithin other)
    (later : ∀ history, (otherwise history).IsWithin (second history)) :
    (parse.orElse otherwise).IsWithin (other.orElse second) := by
  rcases within with rfl | rfl
  · exact .inl rfl
  · cases parse with
    | matched place history => exact .inr rfl
    | refused history => exact later history
    | outOfFuel => exact .inl rfl

end Parse

def CallsWithin (call other : Nonterminal → Scope → Place → History → Parse) : Prop :=
  ∀ (nonterminal : Nonterminal) (scope : Scope) (place : Place) (history : History),
    (call nonterminal scope place history).IsWithin (other nonterminal scope place history)

theorem Production.nest_isWithin {terminals : Terminals}
    {call other : Nonterminal → Scope → Place → History → Parse} (within : CallsWithin call other)
    (production : Production) :
    ∀ (scope : Scope) (place : Place) (history : History),
      (production.nest terminals call scope place history).IsWithin
        (production.nest terminals other scope place history) := by
  induction production with
  | empty | refuse | take | expected kind | expectedConstruct name | hole | markTarget =>
      intro scope place history
      exact .inr rfl
  | call nonterminal =>
      intro scope place history
      exact within nonterminal scope place history
  | seq first second firstIh secondIh =>
      intro scope place history
      exact (firstIh scope place history).andThen fun middle later => secondIh scope middle later
  | branch guard yes no yesIh noIh =>
      intro scope place history
      simp only [nest]
      split
      · exact yesIh scope place history
      · exact noIh scope place history
  | node kind body ih =>
      intro scope place history
      exact (ih scope place.inside history).andThen fun _ _ => .inr rfl
  | fork head guard kindYes yes kindNo no headIh yesIh noIh =>
      intro scope place history
      refine (headIh scope place.inside history).andThen fun middle meanwhile => ?_
      split
      · exact (yesIh scope middle meanwhile).andThen fun _ _ => .inr rfl
      · exact (noIh scope middle meanwhile).andThen fun _ _ => .inr rfl
  | wrap kind body ih =>
      intro scope place history
      simp only [nest]
      cases place.completed with
      | none => exact .inr rfl
      | some wrapped => exact (ih scope place.inside history).andThen fun _ _ => .inr rfl
  | orElse first second firstIh secondIh =>
      intro scope place history
      exact (firstIh scope place history).orElse fun later => secondIh scope place later
  | onceOrElse first second firstIh secondIh =>
      intro scope place history
      simp only [nest]
      split
      · exact secondIh scope place history
      · exact (firstIh scope place history).orElse fun later => secondIh scope place _
  | inScope change body ih =>
      intro scope place history
      exact ih (change.apply scope) place history
  | list body ih =>
      intro scope place history
      exact (ih scope place.inside history).andThen fun _ _ => .inr rfl

namespace Nonterminal

variable {grammar : Nonterminal → Production} {terminals : Terminals}

theorem nestWith_isWithin (fuel : Nat) :
    CallsWithin (nestWith grammar terminals fuel) (nestWith grammar terminals (fuel + 1)) := by
  induction fuel with
  | zero =>
      intro nonterminal scope place history
      exact .inl rfl
  | succ fuel ih =>
      intro nonterminal scope place history
      exact (grammar nonterminal).nest_isWithin ih scope place history

theorem nestWith_eq_of_le {fuel more : Nat} (le : fuel ≤ more) (nonterminal : Nonterminal)
    (scope : Scope) (place : Place) (history : History)
    (finished : nestWith grammar terminals fuel nonterminal scope place history ≠ .outOfFuel) :
    nestWith grammar terminals more nonterminal scope place history =
      nestWith grammar terminals fuel nonterminal scope place history := by
  obtain ⟨extra, rfl⟩ := Nat.exists_eq_add_of_le le
  induction extra with
  | zero => rfl
  | succ extra ih =>
      have same := ih (Nat.le_add_right fuel extra)
      rcases nestWith_isWithin (fuel + extra) nonterminal scope place history with out | longer
      · exact absurd (same.symm.trans out) finished
      · rw [← same, ← Nat.add_assoc, ← longer]

end Nonterminal
end ScriptTree
