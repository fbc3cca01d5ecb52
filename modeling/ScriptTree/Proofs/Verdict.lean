/-! # Verdicts

A check of a production by recursion on its form ends in a verdict. Checks of two ways are merged by
joining what they reach. -/
set_option autoImplicit false
namespace ScriptTree

/-- The outcome of a check: the production may not stand there, it never matches, or something is
known wherever it matches. -/
inductive Verdict (α : Type) where
  | illegal
  | never
  | reaches (value : α)
  deriving DecidableEq, Repr

namespace Verdict

variable {α : Type}

def ofOption : Option α → Verdict α
  | some value => reaches value
  | none => illegal

def andThen (verdict : Verdict α) (next : α → Verdict α) : Verdict α :=
  match verdict with
  | illegal => illegal
  | never => never
  | reaches value => next value

def merge (join : α → α → Option α) : Verdict α → Verdict α → Verdict α
  | illegal, _ | _, illegal => illegal
  | never, verdict | verdict, never => verdict
  | reaches first, reaches second => ofOption (join first second)

variable {verdict other : Verdict α} {join : α → α → Option α} {value : α}

theorem andThen_of_reaches {next : α → Verdict α} (reached : verdict = .reaches value) :
    verdict.andThen next = next value := by
  rw [reached, andThen]

theorem andThen_ne_illegal {next : α → Verdict α} (legal : verdict.andThen next ≠ .illegal) :
    verdict ≠ .illegal ∧ ∀ value, verdict = .reaches value → next value ≠ .illegal := by
  cases verdict with
  | illegal => exact absurd rfl legal
  | never => exact ⟨by simp, by simp⟩
  | reaches value =>
      refine ⟨by simp, ?_⟩
      rintro _ ⟨⟩
      exact legal

theorem merge_ne_illegal (legal : verdict.merge join other ≠ .illegal) :
    verdict ≠ .illegal ∧ other ≠ .illegal := by
  cases verdict <;> cases other <;> simp_all [merge]

theorem ofOption_ne_illegal {option : Option α} (legal : ofOption option ≠ .illegal) :
    ∃ value, option = some value := by
  cases option with
  | none => exact absurd rfl legal
  | some value => exact ⟨value, rfl⟩

theorem of_ite_ne_illegal {condition : Prop} [Decidable condition]
    (legal : (if condition then verdict else .illegal) ≠ .illegal) :
    condition ∧ verdict ≠ .illegal := by
  split at legal
  · rename_i holds
    exact ⟨holds, legal⟩
  · exact absurd rfl legal

theorem of_ite_ofOption_ne_illegal {condition : Prop} [Decidable condition] {option : Option α}
    (legal : (if condition then ofOption option else .illegal) ≠ .illegal) :
    condition ∧ ∃ value, option = some value :=
  (of_ite_ne_illegal legal).imp_right ofOption_ne_illegal

/-- What one way reaches is kept by a merge, or joined with what the other one reaches. -/
theorem merge_reaches_left (legal : (reaches value).merge join other ≠ .illegal) :
    ∃ merged, (reaches value).merge join other = .reaches merged ∧
      (merged = value ∨ ∃ second, join value second = some merged) := by
  cases other with
  | illegal => exact absurd rfl legal
  | never => exact ⟨value, rfl, .inl rfl⟩
  | reaches second =>
      obtain ⟨merged, joined⟩ := ofOption_ne_illegal legal
      exact ⟨merged, by rw [merge, joined, ofOption], .inr ⟨second, joined⟩⟩

theorem merge_reaches_right (legal : verdict.merge join (reaches value) ≠ .illegal) :
    ∃ merged, verdict.merge join (reaches value) = .reaches merged ∧
      (merged = value ∨ ∃ first, join first value = some merged) := by
  cases verdict with
  | illegal => exact absurd rfl legal
  | never => exact ⟨value, rfl, .inl rfl⟩
  | reaches first =>
      obtain ⟨merged, joined⟩ := ofOption_ne_illegal legal
      exact ⟨merged, by rw [merge, joined, ofOption], .inr ⟨first, joined⟩⟩

end Verdict
end ScriptTree
