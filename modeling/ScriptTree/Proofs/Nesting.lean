import ScriptTree.Grammar.Rules
import ScriptTree.Parse.State
import ScriptTree.Proofs.Forest

/-! # Nested parsing

The productions once more, run on nested values instead of a log: a node is built when what it holds is
complete, and a node around another one takes it over as its first child. A refusal leaves nothing
behind but the history of the parse, since whoever goes on starts from the place it kept. -/
set_option autoImplicit false
namespace ScriptTree

/-! ## Places and histories -/

/-- How far a parse came in the innermost open node or list: the position, what was taken since it was
opened, and the kind and the first token of the node completed last. -/
structure Place where
  position : Nat
  forest : Forest
  completed : Option (Kind × Nat)
  deriving DecidableEq

structure History where
  furthest : Furthest
  failedArrows : List (Nat × Scope)
  targets : List Nat
  deriving DecidableEq

namespace Place

def start : Place := ⟨0, .empty, none⟩

def inside (place : Place) : Place := { place with forest := .empty }

def take (place : Place) (terminals : Terminals) : Place :=
  { place with
    position := place.position + 1
    forest := place.forest.token place.position (terminals.kindAt place.position) }

def addHole (place : Place) : Place := { place with forest := place.forest.hole }

/-- A node that starts here and ends where `inner` is. -/
def addNode (place : Place) (kind : Kind) (inner : Place) : Place :=
  ⟨inner.position, place.forest.node kind inner.forest, some (kind, place.position)⟩

def addList (place inner : Place) : Place :=
  ⟨inner.position, place.forest.list inner.forest, inner.completed⟩

/-- A node around the last one, whose first token is given. -/
def wrapNode (place : Place) (kind : Kind) (first : Nat) (inner : Place) : Place :=
  ⟨inner.position, place.forest.wrapLast kind inner.forest, some (kind, first)⟩

end Place

namespace History

def start : History := ⟨.start, [], []⟩

def expect (history : History) (position : Nat) (kind : Kind) : History :=
  { history with furthest := history.furthest.expect position kind }

def expectConstruct (history : History) (position : Nat) (name : String) : History :=
  { history with furthest := history.furthest.expectConstruct position name }

def rememberArrow (history : History) (position : Nat) (scope : Scope) : History :=
  { history with failedArrows := (position, scope) :: history.failedArrows }

def markTarget (history : History) : Option (Kind × Nat) → History
  | some (_, first) => { history with targets := first :: history.targets }
  | none => history

end History

/-! ## Parses -/

inductive Parse where
  | matched (place : Place) (history : History)
  | refused (history : History)
  | outOfFuel
  deriving DecidableEq

namespace Parse

def andThen (parse : Parse) (next : Place → History → Parse) : Parse :=
  match parse with
  | matched place history => next place history
  | refused history => refused history
  | outOfFuel => outOfFuel

def orElse (parse : Parse) (otherwise : History → Parse) : Parse :=
  match parse with
  | matched place history => matched place history
  | refused history => otherwise history
  | outOfFuel => outOfFuel

end Parse

def Guard.admits (terminals : Terminals) (scope : Scope) (place : Place) (targets : List Nat) :
    Guard → Bool
  | .next offset kinds => kinds.contains (terminals.kindAt (place.position + offset))
  | .lineBreak offset => terminals.lineBreakAt (place.position + offset)
  | .identifier offset => ParseState.isIdentifierAt terminals scope (place.position + offset)
  | .yieldOperator => scope.yieldOperator
  | .awaitOperator => scope.awaitOperator
  | .completed kinds => (place.completed.map fun node => kinds.contains node.1).getD false
  | .completedTarget =>
      (place.completed.map fun node =>
        node.1 == .parenthesizedExpression && targets.contains (node.2 + 1)).getD false
  | .not guard => !guard.admits terminals scope place targets
  | .and first second =>
      first.admits terminals scope place targets && second.admits terminals scope place targets
  | .or first second =>
      first.admits terminals scope place targets || second.admits terminals scope place targets

/-- Runs a production on nested values; `call` runs the productions it calls. -/
def Production.nest (terminals : Terminals)
    (call : Nonterminal → Scope → Place → History → Parse) :
    Production → Scope → Place → History → Parse
  | .empty, _, place, history => .matched place history
  | .refuse, _, _, history => .refused history
  | .take, _, place, history => .matched (place.take terminals) history
  | .expected kind, _, place, history => .matched place (history.expect place.position kind)
  | .expectedConstruct name, _, place, history =>
      .matched place (history.expectConstruct place.position name)
  | .call nonterminal, scope, place, history => call nonterminal scope place history
  | .seq first second, scope, place, history =>
      (first.nest terminals call scope place history).andThen (second.nest terminals call scope)
  | .branch guard yes no, scope, place, history =>
      if guard.admits terminals scope place history.targets then
        yes.nest terminals call scope place history
      else no.nest terminals call scope place history
  | .node kind body, scope, place, history =>
      (body.nest terminals call scope place.inside history).andThen fun inner later =>
        .matched (place.addNode kind inner) later
  | .fork head guard kindYes yes kindNo no, scope, place, history =>
      (head.nest terminals call scope place.inside history).andThen fun middle meanwhile =>
        if guard.admits terminals scope middle meanwhile.targets then
          (yes.nest terminals call scope middle meanwhile).andThen fun inner later =>
            .matched (place.addNode kindYes inner) later
        else
          (no.nest terminals call scope middle meanwhile).andThen fun inner later =>
            .matched (place.addNode kindNo inner) later
  | .wrap kind body, scope, place, history =>
      match place.completed with
      | none => .refused history
      | some (_, first) =>
          (body.nest terminals call scope place.inside history).andThen fun inner later =>
            .matched (place.wrapNode kind first inner) later
  | .orElse first second, scope, place, history =>
      (first.nest terminals call scope place history).orElse
        (second.nest terminals call scope place)
  | .onceOrElse first second, scope, place, history =>
      if history.failedArrows.contains (place.position, scope) then
        second.nest terminals call scope place history
      else
        (first.nest terminals call scope place history).orElse fun later =>
          second.nest terminals call scope place (later.rememberArrow place.position scope)
  | .inScope change body, scope, place, history =>
      body.nest terminals call (change.apply scope) place history
  | .list body, scope, place, history =>
      (body.nest terminals call scope place.inside history).andThen fun inner later =>
        .matched (place.addList inner) later
  | .hole, _, place, history => .matched place.addHole history
  | .markTarget, _, place, history => .matched place (history.markTarget place.completed)

/-- Runs a nonterminal of a grammar on nested values, with calls nested at most `fuel` deep. -/
def Nonterminal.nestWith (grammar : Nonterminal → Production) (terminals : Terminals) :
    Nat → Nonterminal → Scope → Place → History → Parse
  | 0, _, _, _, _ => .outOfFuel
  | fuel + 1, nonterminal, scope, place, history =>
      (grammar nonterminal).nest terminals (nestWith grammar terminals fuel) scope place history

end ScriptTree
