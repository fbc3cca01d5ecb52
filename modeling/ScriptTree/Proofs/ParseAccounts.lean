import ScriptTree.Proofs.OperatorWords

/-! # Accounts

An account tells what a production does by itself: where it leads, and what it adds to the history of a
parse. It never looks at that history. Whether parentheses may be assigned to is read off what they
hold, and what was tried before is tried again. Calls are told from where they start alone, apart from
the node that a tail is put around. -/
set_option autoImplicit false
set_option maxRecDepth 4000
namespace ScriptTree

/-! ## Parentheses to assign to -/

namespace Forest

def isTarget : Forest → Bool
  | token (node (token empty _ opening) kind inside) _ closing =>
      opening == .leftParen && closing == .rightParen &&
        (Grammar.simpleTargets.contains kind || kind == .parenthesizedExpression && inside.isTarget)
  | _ => false

/-- What the last node holds, tokens behind it apart. -/
def last? : Forest → Option Forest
  | node _ _ inside => some inside
  | token before _ _ => before.last?
  | _ => none

end Forest

/-! ## What an account says -/

/-- What a parse adds to its history. -/
inductive Note where
  | kind (position : Nat) (kind : Kind)
  | construct (position : Nat) (name : String)
  | target (position : Nat)
  deriving DecidableEq, Repr

inductive Account where
  | matched (place : Place) (notes : List Note)
  | refused (notes : List Note)
  | outOfFuel
  deriving DecidableEq

namespace Account

def behind (notes : List Note) : Account → Account
  | matched place later => matched place (notes ++ later)
  | refused later => refused (notes ++ later)
  | outOfFuel => outOfFuel

@[simp] theorem behind_nil (account : Account) : account.behind [] = account := by
  cases account <;> rfl

def andThen (account : Account) (next : Place → Account) : Account :=
  match account with
  | matched place notes => (next place).behind notes
  | refused notes => refused notes
  | outOfFuel => outOfFuel

def orElse (account otherwise : Account) : Account :=
  match account with
  | matched place notes => matched place notes
  | refused notes => otherwise.behind notes
  | outOfFuel => outOfFuel

end Account

namespace Place

/-- A position at which nothing was taken yet. -/
def fresh (position : Nat) : Place := ⟨position, .empty, none⟩

def join (place after : Place) : Place :=
  ⟨after.position, place.forest ++ after.forest, after.completed⟩

/-- The marks of the node completed last, if it is a pair of parentheses. -/
def marks (place : Place) : List Nat :=
  match place.completed, place.forest.last? with
  | some (_, first), some inside => if inside.isTarget then [first + 1] else []
  | _, _ => []

def targetNotes (place : Place) : List Note :=
  match place.completed with
  | some (_, first) => [.target first]
  | none => []

end Place

/-- Tells a production; `call` tells the productions it calls. -/
def Production.account (terminals : Terminals) (call : Nonterminal → Scope → Place → Account) :
    Production → Scope → Place → Account
  | .empty, _, place => .matched place []
  | .refuse, _, _ => .refused []
  | .take, _, place => .matched (place.take terminals) []
  | .expected kind, _, place => .matched place [.kind place.position kind]
  | .expectedConstruct name, _, place => .matched place [.construct place.position name]
  | .call nonterminal, scope, place =>
      if nonterminal.role = .tail then call nonterminal scope place
      else (call nonterminal scope (.fresh place.position)).andThen fun after =>
        .matched (place.join after) []
  | .seq first second, scope, place =>
      (first.account terminals call scope place).andThen (second.account terminals call scope)
  | .branch guard yes no, scope, place =>
      if guard.admits terminals scope place place.marks then yes.account terminals call scope place
      else no.account terminals call scope place
  | .node kind body, scope, place =>
      (body.account terminals call scope place.inside).andThen fun inner =>
        .matched (place.addNode kind inner) []
  | .fork head guard kindYes yes kindNo no, scope, place =>
      (head.account terminals call scope place.inside).andThen fun middle =>
        if guard.admits terminals scope middle middle.marks then
          (yes.account terminals call scope middle).andThen fun inner =>
            .matched (place.addNode kindYes inner) []
        else
          (no.account terminals call scope middle).andThen fun inner =>
            .matched (place.addNode kindNo inner) []
  | .wrap kind body, scope, place =>
      match place.completed with
      | none => .refused []
      | some (_, first) =>
          (body.account terminals call scope place.inside).andThen fun inner =>
            .matched (place.wrapNode kind first inner) []
  | .orElse first second, scope, place | .onceOrElse first second, scope, place =>
      (first.account terminals call scope place).orElse (second.account terminals call scope place)
  | .inScope change body, scope, place => body.account terminals call (change.apply scope) place
  | .list body, scope, place =>
      (body.account terminals call scope place.inside).andThen fun inner =>
        .matched (place.addList inner) []
  | .hole, _, place => .matched place.addHole []
  | .markTarget, _, place => .matched place place.targetNotes

/-- Tells a nonterminal of a grammar, with calls nested at most `fuel` deep. -/
def Nonterminal.accountWith (grammar : Nonterminal → Production) (terminals : Terminals) :
    Nat → Nonterminal → Scope → Place → Account
  | 0, _, _, _ => .outOfFuel
  | fuel + 1, nonterminal, scope, place =>
      (grammar nonterminal).account terminals (accountWith grammar terminals fuel) scope place

/-! ## Accounts of one parse -/

/-- Two accounts of one parse, as far as they are finished; `strict` says that their notes are the
same. -/
inductive Account.Alike (strict : Prop) : Account → Account → Prop where
  | matched (place : Place) {notes more : List Note} (same : strict → notes = more) :
      Alike strict (.matched place notes) (.matched place more)
  | refused {notes more : List Note} (same : strict → notes = more) :
      Alike strict (.refused notes) (.refused more)
  | leftUnfinished (account : Account) : Alike strict .outOfFuel account
  | rightUnfinished (account : Account) : Alike strict account .outOfFuel

namespace Account.Alike

variable {strict weaker : Prop} {left right : Account}

theorem refl (account : Account) : Alike strict account account := by
  cases account with
  | matched place notes => exact .matched place fun _ => rfl
  | refused notes => exact .refused fun _ => rfl
  | outOfFuel => exact .leftUnfinished _

theorem weaken (alike : Alike weaker left right) (implied : strict → weaker) :
    Alike strict left right := by
  cases alike with
  | matched place same => exact .matched place fun known => same (implied known)
  | refused same => exact .refused fun known => same (implied known)
  | leftUnfinished account => exact .leftUnfinished _
  | rightUnfinished account => exact .rightUnfinished _

theorem behind (alike : Alike strict left right) {notes more : List Note}
    (before : strict → notes = more) : Alike strict (left.behind notes) (right.behind more) := by
  cases alike with
  | matched place same => exact .matched place fun known => by rw [before known, same known]
  | refused same => exact .refused fun known => by rw [before known, same known]
  | leftUnfinished account => exact .leftUnfinished _
  | rightUnfinished account => exact .rightUnfinished _

theorem andThen {next further : Place → Account} (alike : Alike strict left right)
    (later : ∀ place, Alike strict (next place) (further place)) :
    Alike strict (left.andThen next) (right.andThen further) := by
  cases alike with
  | matched place same => exact (later place).behind same
  | refused same => exact .refused same
  | leftUnfinished account => exact .leftUnfinished _
  | rightUnfinished account => exact .rightUnfinished _

theorem orElse {otherwise second : Account} (alike : Alike strict left right)
    (later : Alike strict otherwise second) :
    Alike strict (left.orElse otherwise) (right.orElse second) := by
  cases alike with
  | matched place same => exact .matched place same
  | refused same => exact later.behind same
  | leftUnfinished account => exact .leftUnfinished _
  | rightUnfinished account => exact .rightUnfinished _

end Account.Alike

/-! ## Scopes that make no difference -/

def Terminals.NoWords (terminals : Terminals) : Prop :=
  ∀ position, terminals.kindAt position ∉ operatorWords

def Guard.needsWord : Guard → Bool
  | .next _ kinds => kinds.all operatorWords.contains
  | _ => false

/-- Whether a guard asks for the scope only behind such a word. -/
def Guard.isBlind : Guard → Bool
  | .yieldOperator | .awaitOperator => false
  | .not guard => guard.isBlind
  | .and first second => first.isBlind && (first.needsWord || second.isBlind)
  | .or first second => first.isBlind && second.isBlind
  | _ => true

/-- The word of a `for await`, which may be left out. -/
def Production.awaitWord : Production := .branch .awaitOperator (eat .awaitKw) .empty

/-- Whether a production takes the same in every scope where there are no such words. -/
def Production.isBlind : Production → Bool
  | .branch guard yes no =>
      branch guard yes no == awaitWord || guard.isBlind && yes.isBlind && no.isBlind
  | .seq first second | .orElse first second | .onceOrElse first second =>
      first.isBlind && second.isBlind
  | .node _ body | .wrap _ body | .inScope _ body | .list body => body.isBlind
  | .fork head guard _ yes _ no => head.isBlind && guard.isBlind && yes.isBlind && no.isBlind
  | _ => true

theorem Nonterminal.isBlind_production (nonterminal : Nonterminal) :
    nonterminal.production.isBlind = true := by
  have passes : ∀ other ∈ listed, other.production.isBlind = true := by decide +kernel
  cases nonterminal with
  | jumpStatement kind => rfl
  | _ => exact passes _ (mem_listed rfl)

/-- The scopes of two accounts are the same, or make no difference. -/
def Terminals.SameScopes (terminals : Terminals) (left right : Scope) : Prop :=
  left = right ∨ terminals.NoWords

section Blind

variable {terminals : Terminals} {left right : Scope}

theorem Terminals.SameScopes.apply (same : terminals.SameScopes left right) (change : ScopeChange) :
    terminals.SameScopes (change.apply left) (change.apply right) :=
  same.imp (fun equal => by rw [equal]) id

theorem Terminals.NoWords.isIdentifierAt_eq (noWords : terminals.NoWords) (position : Nat) :
    ParseState.isIdentifierAt terminals left position =
      ParseState.isIdentifierAt terminals right position := by
  have other := noWords position
  unfold ParseState.isIdentifierAt
  split
  · rfl
  · rename_i word
    exact absurd (by rw [word]; decide) other
  · rename_i word
    exact absurd (by rw [word]; decide) other
  · rfl

theorem Guard.not_admits_of_needsWord (guard : Guard) (noWords : terminals.NoWords)
    (needs : guard.needsWord = true) (scope : Scope) (place : Place) (targets : List Nat) :
    guard.admits terminals scope place targets = false := by
  cases guard with
  | next offset kinds =>
      have other := noWords (place.position + offset)
      rw [needsWord, List.all_eq_true] at needs
      rw [admits, Bool.eq_false_iff]
      intro listed
      exact other (List.contains_iff_mem.mp (needs _ (List.contains_iff_mem.mp listed)))
  | _ => cases needs

theorem Guard.admits_eq (same : terminals.SameScopes left right) (guard : Guard)
    (blind : guard.isBlind = true) (place : Place) (targets : List Nat) :
    guard.admits terminals left place targets = guard.admits terminals right place targets := by
  obtain rfl | noWords := same
  · rfl
  induction guard with
  | next offset kinds => rfl
  | lineBreak offset => rfl
  | identifier offset => exact noWords.isIdentifierAt_eq _
  | yieldOperator => cases blind
  | awaitOperator => cases blind
  | completed kinds => rfl
  | completedTarget => rfl
  | not guard ih => rw [admits, admits, ih blind]
  | and first second firstIh secondIh =>
      obtain ⟨firstBlind, rest⟩ := Bool.and_eq_true_iff.mp blind
      rw [admits, admits, firstIh firstBlind]
      rcases Bool.or_eq_true_iff.mp rest with needs | secondBlind
      · rw [first.not_admits_of_needsWord noWords needs, Bool.false_and, Bool.false_and]
      · rw [secondIh secondBlind]
  | or first second firstIh secondIh =>
      obtain ⟨firstBlind, secondBlind⟩ := Bool.and_eq_true_iff.mp blind
      rw [admits, admits, firstIh firstBlind, secondIh secondBlind]

end Blind

def CallsAlike (terminals : Terminals) (call other : Nonterminal → Scope → Place → Account) : Prop :=
  ∀ (nonterminal : Nonterminal) (left right : Scope) (place : Place),
    terminals.SameScopes left right →
    (call nonterminal left place).Alike (left = right) (other nonterminal right place)

/-- Where there is no such word, the clause that may be left out is left out. -/
theorem Production.exists_awaitWord {terminals : Terminals} (noWords : terminals.NoWords)
    (call : Nonterminal → Scope → Place → Account) (scope : Scope) (place : Place) :
    ∃ notes, awaitWord.account terminals call scope place = .matched place notes := by
  have missing := (Guard.nextIs .awaitKw).not_admits_of_needsWord noWords rfl scope place place.marks
  simp only [awaitWord, eat, account, missing, Bool.false_eq_true, if_false]
  split
  · exact ⟨_, rfl⟩
  · exact ⟨_, rfl⟩

theorem Production.alike_awaitWord {terminals : Terminals}
    {call other : Nonterminal → Scope → Place → Account} {left right : Scope}
    (same : terminals.SameScopes left right) (place : Place) :
    (awaitWord.account terminals call left place).Alike (left = right)
      (awaitWord.account terminals other right place) := by
  by_cases equal : left = right
  · subst equal
    exact .refl _
  · have noWords := same.resolve_left equal
    obtain ⟨notes, leftMatched⟩ := exists_awaitWord noWords call left place
    obtain ⟨more, rightMatched⟩ := exists_awaitWord noWords other right place
    rw [leftMatched, rightMatched]
    exact .matched place fun known => absurd known equal

/-- Accounts of one parse in scopes that make no difference are alike, whatever fuel the calls have. -/
theorem Production.account_alike {terminals : Terminals}
    {call other : Nonterminal → Scope → Place → Account} (calls : CallsAlike terminals call other)
    (production : Production) :
    ∀ (left right : Scope) (place : Place), production.isBlind = true →
      terminals.SameScopes left right →
      (production.account terminals call left place).Alike (left = right)
        (production.account terminals other right place) := by
  induction production with
  | empty | refuse | take | expected kind | expectedConstruct name | hole | markTarget =>
      intro left right place _ _
      exact .refl _
  | call nonterminal =>
      intro left right place _ same
      simp only [account]
      split
      · exact calls nonterminal left right place same
      · exact (calls nonterminal left right _ same).andThen fun _ => .refl _
  | seq first second firstIh secondIh =>
      intro left right place blind same
      obtain ⟨firstBlind, secondBlind⟩ := Bool.and_eq_true_iff.mp blind
      exact (firstIh left right place firstBlind same).andThen fun middle =>
        secondIh left right middle secondBlind same
  | branch guard yes no yesIh noIh =>
      intro left right place blind same
      rcases Bool.or_eq_true_iff.mp blind with isWord | parts
      · rw [beq_iff_eq.mp isWord]
        exact alike_awaitWord same place
      · simp only [Bool.and_eq_true] at parts
        obtain ⟨⟨guardBlind, yesBlind⟩, noBlind⟩ := parts
        simp only [account, guard.admits_eq same guardBlind]
        split
        · exact yesIh left right place yesBlind same
        · exact noIh left right place noBlind same
  | node kind body ih =>
      intro left right place blind same
      exact (ih left right place.inside blind same).andThen fun _ => .refl _
  | fork head guard kindYes yes kindNo no headIh yesIh noIh =>
      intro left right place blind same
      simp only [isBlind, Bool.and_eq_true] at blind
      obtain ⟨⟨⟨headBlind, guardBlind⟩, yesBlind⟩, noBlind⟩ := blind
      refine (headIh left right place.inside headBlind same).andThen fun middle => ?_
      simp only [guard.admits_eq same guardBlind]
      split
      · exact (yesIh left right middle yesBlind same).andThen fun _ => .refl _
      · exact (noIh left right middle noBlind same).andThen fun _ => .refl _
  | wrap kind body ih =>
      intro left right place blind same
      simp only [account]
      cases place.completed with
      | none => exact .refl _
      | some wrapped =>
          exact (ih left right place.inside blind same).andThen fun _ => .refl _
  | orElse first second firstIh secondIh | onceOrElse first second firstIh secondIh =>
      intro left right place blind same
      obtain ⟨firstBlind, secondBlind⟩ := Bool.and_eq_true_iff.mp blind
      exact (firstIh left right place firstBlind same).orElse
        (secondIh left right place secondBlind same)
  | inScope change body ih =>
      intro left right place blind same
      exact (ih _ _ place blind (same.apply change)).weaken fun equal => by rw [equal]
  | list body ih =>
      intro left right place blind same
      exact (ih left right place.inside blind same).andThen fun _ => .refl _

theorem Nonterminal.accountWith_alike {grammar : Nonterminal → Production} {terminals : Terminals}
    (blind : ∀ nonterminal, (grammar nonterminal).isBlind = true) (fuel more : Nat) :
    CallsAlike terminals (accountWith grammar terminals fuel) (accountWith grammar terminals more) := by
  induction fuel generalizing more with
  | zero =>
      intro nonterminal left right place same
      exact .leftUnfinished _
  | succ fuel ih =>
      intro nonterminal left right place same
      cases more with
      | zero => exact .rightUnfinished _
      | succ more =>
          exact (grammar nonterminal).account_alike (ih more) left right place (blind nonterminal) same

/-! ## Accounts that matched -/

namespace Account

theorem andThen_matched {account : Account} {next : Place → Account} {place : Place}
    {notes : List Note} (matched : account.andThen next = .matched place notes) :
    ∃ middle earlier later, account = .matched middle earlier ∧ next middle = .matched place later ∧
      notes = earlier ++ later := by
  cases account with
  | matched middle earlier =>
      rw [andThen] at matched
      cases further : next middle with
      | matched after later =>
          rw [further] at matched
          cases matched
          exact ⟨middle, earlier, later, rfl, further, rfl⟩
      | refused later =>
          rw [further] at matched
          cases matched
      | outOfFuel =>
          rw [further] at matched
          cases matched
  | refused notes => cases matched
  | outOfFuel => cases matched

theorem close_matched {account : Account} {built : Place → Place} {place : Place} {notes : List Note}
    (matched : (account.andThen fun inner => .matched (built inner) []) = .matched place notes) :
    ∃ inner, account = .matched inner notes ∧ place = built inner := by
  obtain ⟨inner, earlier, later, same, closed, rfl⟩ := andThen_matched matched
  cases closed
  exact ⟨inner, by rw [same, List.append_nil], rfl⟩

theorem close_refused {account : Account} {built : Place → Place} {notes : List Note}
    (refused : (account.andThen fun inner => .matched (built inner) []) = .refused notes) :
    account = .refused notes := by
  cases account with
  | matched place earlier => cases refused
  | refused earlier => exact refused
  | outOfFuel => cases refused

theorem orElse_matched {account otherwise : Account} {place : Place} {notes : List Note}
    (matched : account.orElse otherwise = .matched place notes) :
    account = .matched place notes ∨ ∃ more, otherwise = .matched place more := by
  cases account with
  | matched middle earlier => exact .inl matched
  | refused earlier =>
      rw [orElse] at matched
      cases otherwise with
      | matched after later =>
          cases matched
          exact .inr ⟨later, rfl⟩
      | refused later => cases matched
      | outOfFuel => cases matched
  | outOfFuel => cases matched

end Account

def AccountsSatisfy (call : Nonterminal → Scope → Place → Account)
    (property : Nonterminal → Scope → Place → Place → Prop) : Prop :=
  ∀ (nonterminal : Nonterminal) (scope : Scope) (before after : Place) (notes : List Note),
    call nonterminal scope before = .matched after notes → property nonterminal scope before after

/-- A property of what was taken from a position on, whatever was taken up to there. -/
def IsLocal (property : Nonterminal → Scope → Place → Place → Prop) : Prop :=
  ∀ (nonterminal : Nonterminal) (scope : Scope) (place after : Place), nonterminal.role ≠ .tail →
    property nonterminal scope (.fresh place.position) after →
      property nonterminal scope place (place.join after)

theorem Production.derives_of_account {terminals : Terminals}
    {call : Nonterminal → Scope → Place → Account}
    {property : Nonterminal → Scope → Place → Place → Prop} (isLocal : IsLocal property)
    (satisfied : AccountsSatisfy call property) (production : Production) :
    ∀ (scope : Scope) (before after : Place) (notes : List Note),
      production.account terminals call scope before = .matched after notes →
        production.Derives terminals property scope before after := by
  induction production with
  | empty | expected kind | expectedConstruct name | take | hole | markTarget =>
      intro scope before after notes matched
      cases matched
      rfl
  | refuse =>
      intro scope before after notes matched
      cases matched
  | call nonterminal =>
      intro scope before after notes matched
      simp only [account] at matched
      split at matched
      · exact satisfied nonterminal scope before after notes matched
      · rename_i noTail
        obtain ⟨inner, called, rfl⟩ := Account.close_matched matched
        exact isLocal nonterminal scope before inner noTail (satisfied _ _ _ _ _ called)
  | seq first second firstIh secondIh =>
      intro scope before after notes matched
      obtain ⟨middle, _, _, firstMatched, secondMatched, _⟩ := Account.andThen_matched matched
      exact ⟨middle, firstIh _ _ _ _ firstMatched, secondIh _ _ _ _ secondMatched⟩
  | branch guard yes no yesIh noIh =>
      intro scope before after notes matched
      simp only [account] at matched
      split at matched
      · rename_i admitted
        exact ⟨before.marks, .inl ⟨admitted, yesIh _ _ _ _ matched⟩⟩
      · rename_i rejected
        exact ⟨before.marks, .inr ⟨by simpa using rejected, noIh _ _ _ _ matched⟩⟩
  | node kind body ih =>
      intro scope before after notes matched
      obtain ⟨inner, bodyMatched, rfl⟩ := Account.close_matched matched
      exact ⟨inner, ih _ _ _ _ bodyMatched, rfl⟩
  | fork head guard kindYes yes kindNo no headIh yesIh noIh =>
      intro scope before after notes matched
      obtain ⟨middle, _, _, headMatched, rest, _⟩ := Account.andThen_matched matched
      split at rest
      · rename_i admitted
        obtain ⟨inner, yesMatched, rfl⟩ := Account.close_matched rest
        exact ⟨middle, inner, middle.marks, headIh _ _ _ _ headMatched,
          .inl ⟨admitted, yesIh _ _ _ _ yesMatched, rfl⟩⟩
      · rename_i rejected
        obtain ⟨inner, noMatched, rfl⟩ := Account.close_matched rest
        exact ⟨middle, inner, middle.marks, headIh _ _ _ _ headMatched,
          .inr ⟨by simpa using rejected, noIh _ _ _ _ noMatched, rfl⟩⟩
  | wrap kind body ih =>
      intro scope before after notes matched
      simp only [account] at matched
      cases completed : before.completed with
      | none =>
          rw [completed] at matched
          cases matched
      | some wrapped =>
          rw [completed] at matched
          obtain ⟨inner, bodyMatched, rfl⟩ := Account.close_matched matched
          exact ⟨wrapped.1, wrapped.2, inner, completed, ih _ _ _ _ bodyMatched, rfl⟩
  | orElse first second firstIh secondIh | onceOrElse first second firstIh secondIh =>
      intro scope before after notes matched
      rcases Account.orElse_matched matched with firstMatched | ⟨_, secondMatched⟩
      · exact .inl (firstIh _ _ _ _ firstMatched)
      · exact .inr (secondIh _ _ _ _ secondMatched)
  | inScope change body ih =>
      intro scope before after notes matched
      exact ih _ _ _ _ matched
  | list body ih =>
      intro scope before after notes matched
      obtain ⟨inner, bodyMatched, rfl⟩ := Account.close_matched matched
      exact ⟨inner, ih _ _ _ _ bodyMatched, rfl⟩

/-- What every production of a grammar hands on holds of every account that matches. -/
theorem Nonterminal.accountWith_satisfies {grammar : Nonterminal → Production} {terminals : Terminals}
    {property : Nonterminal → Scope → Place → Place → Prop} (isLocal : IsLocal property)
    (handsOn : ∀ (nonterminal : Nonterminal) (scope : Scope) (before after : Place),
      (grammar nonterminal).Derives terminals property scope before after →
        property nonterminal scope before after) (fuel : Nat) :
    AccountsSatisfy (accountWith grammar terminals fuel) property := by
  induction fuel with
  | zero =>
      intro nonterminal scope before after notes matched
      cases matched
  | succ fuel ih =>
      intro nonterminal scope before after notes matched
      exact handsOn nonterminal scope before after
        ((grammar nonterminal).derives_of_account isLocal ih scope before after notes matched)

/-! ### What accounts add -/

theorem Place.AddsNode.join {scope : Scope} {place after : Place} {kind : Kind} {inside : Forest}
    (added : (fresh place.position).AddsNode scope after kind inside) :
    place.AddsNode scope (place.join after) kind inside where
  forest := by rw [Place.join, added.forest]; rfl
  completed := added.completed
  fits := added.fits

theorem Nonterminal.isLocal_scopes (terminals : Terminals) : IsLocal (Scopes terminals) := by
  intro nonterminal scope place after noTail scopes proper clear yields
  have called := scopes proper clear yields
  cases role : nonterminal.role with
  | node =>
      rw [role] at called
      obtain ⟨kind, inside, added, known⟩ := called
      exact ⟨kind, inside, added.join, known⟩
  | tail => exact absurd role noTail
  | content | items =>
      rw [role] at called
      obtain ⟨rest, forest, plain⟩ := called
      refine ⟨rest, ?_, plain⟩
      rw [Place.join, forest, Place.fresh, Forest.empty_append]

theorem Nonterminal.accountWith_scopes (terminals : Terminals) (fuel : Nat) :
    AccountsSatisfy (accountWith production terminals fuel) (Scopes terminals) :=
  accountWith_satisfies (isLocal_scopes terminals) scopes_of_derives fuel

end ScriptTree
