import ScriptTree.Proofs.Fuel

/-! # What productions take

A production takes what lies between two places if it matches there, whatever was tried before. What is
known of the targets marked so far may be asked for and is handed on. There is a rule for every form of
production, and for the forms that refuse where another one is tried. -/
set_option autoImplicit false
namespace ScriptTree

/-- What is known of the targets that were marked. -/
abbrev Marks := List Nat → Prop

def Marks.any : Marks := fun _ => True

def Place.behindToken (place : Place) (kind : Kind) : Place :=
  { place with
    position := place.position + 1
    forest := place.forest.token place.position kind }

namespace Place

variable (place inner : Place) (kind : Kind) (first : Nat)

@[simp] theorem position_inside : place.inside.position = place.position := rfl

@[simp] theorem position_behindToken :
    (place.behindToken kind).position = place.position + 1 := rfl

@[simp] theorem position_addNode : (place.addNode kind inner).position = inner.position := rfl

@[simp] theorem position_addList : (place.addList inner).position = inner.position := rfl

@[simp] theorem position_wrapNode :
    (place.wrapNode kind first inner).position = inner.position := rfl

end Place

theorem Guard.admits_of_mem {terminals : Terminals} {scope : Scope} {place : Place}
    {targets : List Nat} {kind : Kind} {kinds : List Kind}
    (next : terminals.kindAt place.position = kind) (member : kind ∈ kinds) :
    Guard.admits terminals scope place targets (.next 0 kinds) = true := by
  rw [admits, Nat.add_zero, next]
  exact List.contains_iff_mem.mpr member

theorem Guard.rejects_of_notMem {terminals : Terminals} {scope : Scope} {place : Place}
    {targets : List Nat} {kinds : List Kind} (other : terminals.kindAt place.position ∉ kinds) :
    Guard.admits terminals scope place targets (.next 0 kinds) = false := by
  rw [admits, Nat.add_zero]
  exact Bool.eq_false_iff.mpr fun listed => other (List.contains_iff_mem.mp listed)

theorem Guard.admits_and {terminals : Terminals} {scope : Scope} {place : Place}
    {targets : List Nat} {first second : Guard} :
    Guard.admits terminals scope place targets (.and first second) = true ↔
      first.admits terminals scope place targets = true ∧
        second.admits terminals scope place targets = true := by
  rw [admits, Bool.and_eq_true]

theorem Guard.admits_or {terminals : Terminals} {scope : Scope} {place : Place}
    {targets : List Nat} {first second : Guard} :
    Guard.admits terminals scope place targets (.or first second) = true ↔
      first.admits terminals scope place targets = true ∨
        second.admits terminals scope place targets = true := by
  rw [admits, Bool.or_eq_true]

namespace Production

/-- With fuel enough a production gives a result. -/
def Gives (terminals : Terminals) (production : Production) (scope : Scope) (place : Place)
    (history : History) (result : Parse) : Prop :=
  ∃ enough, ∀ fuel, enough ≤ fuel →
    production.nest terminals (Nonterminal.nestWith Nonterminal.production terminals fuel) scope place
      history = result

/-- A production matches between two places, and marks what it is said to. -/
def Takes (terminals : Terminals) (production : Production) (scope : Scope) (before : Place)
    (required : Marks) (after : Place) (ensured : Marks) : Prop :=
  ∀ history, required history.targets → ∃ later,
    production.Gives terminals scope before history (.matched after later) ∧ ensured later.targets

section Gives

variable {terminals : Terminals} {first second body yes no : Production} {scope : Scope}
  {place middle inner : Place} {history meanwhile later : History} {result : Parse}

theorem Gives.call {nonterminal : Nonterminal}
    (gives : nonterminal.production.Gives terminals scope place history result) :
    (Production.call nonterminal).Gives terminals scope place history result := by
  obtain ⟨enough, gives⟩ := gives
  refine ⟨enough + 1, ?_⟩
  intro fuel le
  obtain ⟨less, rfl⟩ : ∃ less, fuel = less + 1 := ⟨fuel - 1, by omega⟩
  exact gives less (by omega)

theorem Gives.seq (gives : first.Gives terminals scope place history (.matched middle meanwhile))
    (further : second.Gives terminals scope middle meanwhile result) :
    (Production.seq first second).Gives terminals scope place history result := by
  obtain ⟨enough, gives⟩ := gives
  obtain ⟨more, further⟩ := further
  refine ⟨max enough more, ?_⟩
  intro fuel le
  rw [nest, gives fuel (by omega), Parse.andThen, further fuel (by omega)]

theorem Gives.close {built : Place → Place} {whole : Production}
    (gives : body.Gives terminals scope place.inside history (.matched inner later))
    (same : ∀ call, whole.nest terminals call scope place history =
      (body.nest terminals call scope place.inside history).andThen fun inner later =>
        .matched (built inner) later) :
    whole.Gives terminals scope place history (.matched (built inner) later) := by
  obtain ⟨enough, gives⟩ := gives
  refine ⟨enough, ?_⟩
  intro fuel le
  rw [same, gives fuel le, Parse.andThen]

/-- A production that is tried once and refuses gives way to the other one. -/
theorem Gives.onceOrElse (second : Production)
    (refuses : first.Gives terminals scope place history (.refused meanwhile)) :
    ∃ earlier : History, ∀ result, second.Gives terminals scope place earlier result →
      (Production.onceOrElse first second).Gives terminals scope place history result := by
  obtain ⟨enough, refuses⟩ := refuses
  by_cases failed : history.failedArrows.contains (place.position, scope) = true
  · refine ⟨history, ?_⟩
    rintro result ⟨more, further⟩
    refine ⟨more, ?_⟩
    intro fuel le
    rw [nest, if_pos failed, further fuel le]
  · refine ⟨meanwhile.rememberArrow place.position scope, ?_⟩
    rintro result ⟨more, further⟩
    refine ⟨max enough more, ?_⟩
    intro fuel le
    rw [nest, if_neg failed, refuses fuel (by omega), Parse.orElse, further fuel (by omega)]

end Gives

namespace Takes

variable {terminals : Terminals} {first second body yes no : Production} {scope : Scope}
  {before middle after inner : Place} {required between ensured : Marks} {guard : Guard} {kind : Kind}

theorem weaken {stronger weaker : Marks}
    (takes : body.Takes terminals scope before required after ensured)
    (pre : ∀ targets, stronger targets → required targets)
    (post : ∀ targets, ensured targets → weaker targets) :
    body.Takes terminals scope before stronger after weaker := by
  intro history holds
  obtain ⟨later, gives, ensures⟩ := takes history (pre _ holds)
  exact ⟨later, gives, post _ ensures⟩

theorem forget (takes : body.Takes terminals scope before required after ensured) :
    body.Takes terminals scope before required after .any :=
  takes.weaken (fun _ => id) fun _ _ => trivial

theorem cast {there : Place} (takes : body.Takes terminals scope before required after ensured)
    (same : after = there) : body.Takes terminals scope before required there ensured :=
  same ▸ takes

theorem call {nonterminal : Nonterminal}
    (takes : nonterminal.production.Takes terminals scope before required after ensured) :
    (Production.call nonterminal).Takes terminals scope before required after ensured := by
  intro history holds
  obtain ⟨later, gives, ensures⟩ := takes history holds
  exact ⟨later, gives.call, ensures⟩

theorem empty : Production.empty.Takes terminals scope before required before required :=
  fun history holds => ⟨history, ⟨0, fun _ _ => rfl⟩, holds⟩

theorem expected : (Production.expected kind).Takes terminals scope before required before required :=
  fun history holds => ⟨history.expect before.position kind, ⟨0, fun _ _ => rfl⟩, holds⟩

theorem take (next : terminals.kindAt before.position = kind) :
    Production.take.Takes terminals scope before required (before.behindToken kind) required := by
  intro history holds
  refine ⟨history, ⟨0, fun _ _ => ?_⟩, holds⟩
  rw [nest, Place.take, next]
  rfl

theorem markTarget {start : Nat} (completed : before.completed = some (kind, start)) :
    Production.markTarget.Takes terminals scope before required before fun targets =>
      start ∈ targets := by
  intro history _
  refine ⟨history.markTarget before.completed, ⟨0, fun _ _ => rfl⟩, ?_⟩
  rw [completed]
  exact List.mem_cons_self

theorem seq (takes : first.Takes terminals scope before required middle between)
    (further : second.Takes terminals scope middle between after ensured) :
    (Production.seq first second).Takes terminals scope before required after ensured := by
  intro history holds
  obtain ⟨meanwhile, gives, known⟩ := takes history holds
  obtain ⟨later, givesFurther, ensures⟩ := further meanwhile known
  exact ⟨later, gives.seq givesFurther, ensures⟩

theorem branch
    (takesYes : yes.Takes terminals scope before
      (fun targets => required targets ∧ guard.admits terminals scope before targets = true) after
      ensured)
    (takesNo : no.Takes terminals scope before
      (fun targets => required targets ∧ guard.admits terminals scope before targets = false) after
      ensured) :
    (Production.branch guard yes no).Takes terminals scope before required after ensured := by
  intro history holds
  cases admits : guard.admits terminals scope before history.targets with
  | true =>
      obtain ⟨later, ⟨enough, gives⟩, ensures⟩ := takesYes history ⟨holds, admits⟩
      refine ⟨later, ⟨enough, ?_⟩, ensures⟩
      intro fuel le
      rw [nest, if_pos admits, gives fuel le]
  | false =>
      obtain ⟨later, ⟨enough, gives⟩, ensures⟩ := takesNo history ⟨holds, admits⟩
      refine ⟨later, ⟨enough, ?_⟩, ensures⟩
      intro fuel le
      rw [nest, if_neg (by simp [admits]), gives fuel le]

theorem branch_yes
    (admits : ∀ targets, required targets → guard.admits terminals scope before targets = true)
    (takes : yes.Takes terminals scope before required after ensured) :
    (Production.branch guard yes no).Takes terminals scope before required after ensured := by
  refine branch (takes.weaken (fun _ both => both.1) fun _ => id) ?_
  rintro history ⟨holds, rejects⟩
  rw [admits _ holds] at rejects
  cases rejects

theorem branch_no
    (rejects : ∀ targets, required targets → guard.admits terminals scope before targets = false)
    (takes : no.Takes terminals scope before required after ensured) :
    (Production.branch guard yes no).Takes terminals scope before required after ensured := by
  refine branch ?_ (takes.weaken (fun _ both => both.1) fun _ => id)
  rintro history ⟨holds, admits⟩
  rw [rejects _ holds] at admits
  cases admits

theorem expect (next : terminals.kindAt before.position = kind) :
    (Production.expect kind).Takes terminals scope before required (before.behindToken kind)
      required :=
  branch_yes (fun _ _ => Guard.admits_of_mem next List.mem_cons_self) (take next)

theorem node (takes : body.Takes terminals scope before.inside required inner ensured) :
    (Production.node kind body).Takes terminals scope before required (before.addNode kind inner)
      ensured := by
  intro history holds
  obtain ⟨later, gives, ensures⟩ := takes history holds
  exact ⟨later, gives.close fun _ => rfl, ensures⟩

theorem list (takes : body.Takes terminals scope before.inside required inner ensured) :
    (Production.list body).Takes terminals scope before required (before.addList inner) ensured := by
  intro history holds
  obtain ⟨later, gives, ensures⟩ := takes history holds
  exact ⟨later, gives.close fun _ => rfl, ensures⟩

theorem wrap {wrapped : Kind} {start : Nat} (completed : before.completed = some (wrapped, start))
    (takes : body.Takes terminals scope before.inside required inner ensured) :
    (Production.wrap kind body).Takes terminals scope before required
      (before.wrapNode kind start inner) ensured := by
  intro history holds
  obtain ⟨later, gives, ensures⟩ := takes history holds
  refine ⟨later, gives.close fun call => ?_, ensures⟩
  rw [nest, completed]

theorem select {cases : List (Guard × Production)} {otherwise : Production}
    (entry : Guard × Production)
    (found : ∀ targets, required targets →
      cases.find? (fun other => other.1.admits terminals scope before targets) = some entry)
    (takes : entry.2.Takes terminals scope before required after ensured) :
    (Production.select cases otherwise).Takes terminals scope before required after ensured := by
  intro history holds
  obtain ⟨later, ⟨enough, gives⟩, ensures⟩ := takes history holds
  refine ⟨later, ⟨enough, ?_⟩, ensures⟩
  intro fuel le
  rw [← gives fuel le]
  replace found := found _ holds
  induction cases with
  | nil => cases found
  | cons other rest ih =>
      rw [Production.select, nest]
      rw [List.find?_cons] at found
      split at found
      · rename_i admits
        cases found
        rw [if_pos admits]
      · rename_i rejects
        rw [if_neg (by simp [rejects])]
        exact ih found

theorem select_otherwise {cases : List (Guard × Production)} {otherwise : Production}
    (rejects : ∀ targets, required targets → ∀ entry ∈ cases,
      entry.1.admits terminals scope before targets = false)
    (takes : otherwise.Takes terminals scope before required after ensured) :
    (Production.select cases otherwise).Takes terminals scope before required after ensured := by
  induction cases with
  | nil => exact takes
  | cons entry rest ih =>
      exact branch_no (fun targets holds => rejects targets holds entry (by simp))
        (ih fun targets holds other member => rejects targets holds other (by simp [member]))

theorem hole :
    Production.hole.Takes terminals scope before required before.addHole required :=
  fun history holds => ⟨history, ⟨0, fun _ _ => rfl⟩, holds⟩

theorem orElse_left (takes : first.Takes terminals scope before required after ensured) :
    (Production.orElse first second).Takes terminals scope before required after ensured := by
  intro history holds
  obtain ⟨later, ⟨enough, gives⟩, ensures⟩ := takes history holds
  refine ⟨later, ⟨enough, ?_⟩, ensures⟩
  intro fuel le
  rw [nest, gives fuel le, Parse.orElse]

end Takes

def Refuses (terminals : Terminals) (production : Production) (scope : Scope) (place : Place) : Prop :=
  ∀ history, ∃ later, production.Gives terminals scope place history (.refused later)

namespace Refuses

variable {terminals : Terminals} {first second body yes no : Production} {scope : Scope}
  {before middle after : Place} {ensured : Marks} {guard : Guard} {kind : Kind}

theorem refuse : Production.refuse.Refuses terminals scope before :=
  fun history => ⟨history, 0, fun _ _ => rfl⟩

theorem call {nonterminal : Nonterminal} (refuses : nonterminal.production.Refuses terminals scope before) :
    (Production.call nonterminal).Refuses terminals scope before := by
  intro history
  obtain ⟨later, gives⟩ := refuses history
  exact ⟨later, gives.call⟩

theorem seq (takes : first.Takes terminals scope before .any middle .any)
    (refuses : second.Refuses terminals scope middle) :
    (Production.seq first second).Refuses terminals scope before := by
  intro history
  obtain ⟨meanwhile, gives, -⟩ := takes history trivial
  obtain ⟨later, further⟩ := refuses meanwhile
  exact ⟨later, gives.seq further⟩

theorem seq_left (refuses : first.Refuses terminals scope before) :
    (Production.seq first second).Refuses terminals scope before := by
  intro history
  obtain ⟨later, enough, gives⟩ := refuses history
  refine ⟨later, enough, ?_⟩
  intro fuel le
  rw [nest, gives fuel le, Parse.andThen]

theorem branch_no (rejects : ∀ targets, guard.admits terminals scope before targets = false)
    (refuses : no.Refuses terminals scope before) :
    (Production.branch guard yes no).Refuses terminals scope before := by
  intro history
  obtain ⟨later, enough, gives⟩ := refuses history
  refine ⟨later, enough, ?_⟩
  intro fuel le
  rw [nest, if_neg (by simp [rejects]), gives fuel le]

theorem expect (other : terminals.kindAt before.position ≠ kind) :
    (Production.expect kind).Refuses terminals scope before :=
  .branch_no (fun _ => Guard.rejects_of_notMem (by simpa using other)) (.seq .expected .refuse)

theorem node (refuses : body.Refuses terminals scope before.inside) :
    (Production.node kind body).Refuses terminals scope before := by
  intro history
  obtain ⟨later, enough, gives⟩ := refuses history
  refine ⟨later, enough, ?_⟩
  intro fuel le
  rw [nest, gives fuel le, Parse.andThen]

/-- Where the first way refuses, the second one is tried, whatever the first has marked. -/
theorem orElse (refuses : first.Refuses terminals scope before)
    (takes : second.Takes terminals scope before .any after ensured) :
    (Production.orElse first second).Takes terminals scope before .any after ensured := by
  intro history _
  obtain ⟨meanwhile, enough, refused⟩ := refuses history
  obtain ⟨later, ⟨more, gives⟩, ensures⟩ := takes meanwhile trivial
  refine ⟨later, ⟨max enough more, ?_⟩, ensures⟩
  intro fuel le
  rw [nest, refused fuel (by omega), Parse.orElse, gives fuel (by omega)]

end Refuses
end Production
end ScriptTree
