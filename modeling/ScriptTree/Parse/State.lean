import ScriptTree.Grammar.Production
import ScriptTree.KindSet
import ScriptTree.Token.Stream

/-! # The state of a parse

A parse has all tokens of its stream before it and starts at one of them. What it found stands in a log of
events: nodes are opened and closed in the order of the text, except that a node around one that was
already closed is opened later and linked to it. A failed attempt is rewound: the position, the log and
the links are again what they were, while the furthest failure, the failed arrows and the marked targets
stay. -/
set_option autoImplicit false
namespace ScriptTree

/-! ## Looking at tokens -/

/-- The tokens of a stream, from its first to its last. -/
abbrev Terminals := Array Token

namespace Terminals

/-- The kind of the token at a position; beyond the last there is only the end. -/
def kindAt (terminals : Terminals) (position : Nat) : Kind :=
  match terminals[position]? with
  | some token => token.kind
  | none => .eof

def lineBreakAt (terminals : Terminals) (position : Nat) : Bool :=
  match terminals[position]? with
  | some token => token.hasLineBreakBefore
  | none => false

end Terminals

/-! ## The log -/

inductive Event where
  /-- A node starts; its kind is `tombstone` until it is complete. The link is the distance to the
  event at which the node around it starts, if that one was opened later. -/
  | start (kind : Kind) (link : Option Nat)
  | token (position : Nat)
  | finish
  | startList
  | hole
  | finishList
  deriving DecidableEq, Repr, Inhabited

def Event.pending : Event := .start .tombstone none

structure Completed where
  event : Nat
  kind : Kind
  first : Nat
  deriving DecidableEq, Repr, Inhabited

/-- The furthest position at which something was expected, with what was expected there. -/
structure Furthest where
  position : Nat
  expected : KindSet
  constructs : List String
  deriving DecidableEq, Inhabited

namespace Furthest

def startAt (position : Nat) : Furthest := ⟨position, .empty, []⟩

def start : Furthest := startAt 0

def advance (furthest : Furthest) (position : Nat) : Furthest :=
  if furthest.position < position then ⟨position, .empty, []⟩ else furthest

def expect (furthest : Furthest) (position : Nat) (kind : Kind) : Furthest :=
  if position < furthest.position then furthest
  else
    let reached := furthest.advance position
    { reached with expected := reached.expected.insert kind }

def expectConstruct (furthest : Furthest) (position : Nat) (name : String) : Furthest :=
  if position < furthest.position then furthest
  else
    let reached := furthest.advance position
    if reached.constructs.contains name then reached
    else { reached with constructs := reached.constructs ++ [name] }

end Furthest

/-! ## The state -/

/-- Positions are those of the stream. A link pairs the event of a node with the event of the node around
it, the latest first. `targets` has the position after the parenthesis of every parenthesized expression
that was found assignable. -/
structure ParseState where
  position : Nat
  log : Array Event
  links : List (Nat × Nat)
  completed : Option Completed
  scope : Scope
  furthest : Furthest
  failedArrows : List (Nat × Scope)
  targets : List Nat
  deriving DecidableEq

structure Checkpoint where
  position : Nat
  events : Nat
  completed : Option Completed
  deriving DecidableEq, Repr

namespace ParseState

def startAt (position : Nat) : ParseState :=
  ⟨position, #[], [], none, .outermost, .startAt position, [], []⟩

def start : ParseState := startAt 0

/-! ### Lookahead -/

def isIdentifierAt (terminals : Terminals) (scope : Scope) (position : Nat) : Bool :=
  match terminals.kindAt position with
  | .ident => true
  | .yieldKw => !scope.yieldOperator
  | .awaitKw => !scope.awaitOperator
  | kind => kind.isContextualKeyword

/-- Whether the node completed last is a parenthesized expression that was marked as a target. -/
def isCompletedTarget (state : ParseState) : Bool :=
  match state.completed with
  | some completed =>
      completed.kind == .parenthesizedExpression && state.targets.contains (completed.first + 1)
  | none => false

end ParseState

def Guard.holds (terminals : Terminals) (state : ParseState) : Guard → Bool
  | .next offset kinds => kinds.contains (terminals.kindAt (state.position + offset))
  | .lineBreak offset => terminals.lineBreakAt (state.position + offset)
  | .identifier offset => ParseState.isIdentifierAt terminals state.scope (state.position + offset)
  | .yieldOperator => state.scope.yieldOperator
  | .awaitOperator => state.scope.awaitOperator
  | .completed kinds =>
      match state.completed with
      | some node => kinds.contains node.kind
      | none => false
  | .completedTarget => state.isCompletedTarget
  | .not guard => !guard.holds terminals state
  | .and first second => first.holds terminals state && second.holds terminals state
  | .or first second => first.holds terminals state || second.holds terminals state

namespace ParseState

/-! ### Steps -/

def record (state : ParseState) (event : Event) : ParseState :=
  { state with log := state.log.push event }

def take (state : ParseState) : ParseState :=
  { state.record (.token state.position) with position := state.position + 1 }

def expect (state : ParseState) (kind : Kind) : ParseState :=
  { state with furthest := state.furthest.expect state.position kind }

def expectConstruct (state : ParseState) (name : String) : ParseState :=
  { state with furthest := state.furthest.expectConstruct state.position name }

def checkpoint (state : ParseState) : Checkpoint :=
  ⟨state.position, state.log.size, state.completed⟩

def unlink (log : Array Event) (index : Nat) : Array Event :=
  log.modify index fun
    | .start kind _ => .start kind none
    | other => other

/-- Drops the links to events that are no longer in the log. -/
def unlinkBeyond (events : Nat) : List (Nat × Nat) → Array Event → List (Nat × Nat) × Array Event
  | [], log => ([], log)
  | (inner, outer) :: rest, log =>
      if outer < events then ((inner, outer) :: rest, log)
      else unlinkBeyond events rest (unlink log inner)

def rewind (state : ParseState) (checkpoint : Checkpoint) : ParseState :=
  let (links, log) := unlinkBeyond checkpoint.events state.links (state.log.take checkpoint.events)
  { state with
    position := checkpoint.position
    log := log
    links := links
    completed := checkpoint.completed }

def complete (state : ParseState) (checkpoint : Checkpoint) (kind : Kind) (first : Nat) :
    ParseState :=
  let log := state.log.modify checkpoint.events fun
    | .start _ link => .start kind link
    | other => other
  { state with
    log := log.push .finish
    completed := some ⟨checkpoint.events, kind, first⟩ }

def precede (state : ParseState) (inner : Completed) : ParseState :=
  let outer := state.log.size
  let log := state.log.modify inner.event fun
    | .start kind _ => .start kind (some (outer - inner.event))
    | other => other
  { state with
    log := log.push .pending
    links := (inner.event, outer) :: state.links }

def arrowFailed (state : ParseState) : Bool :=
  state.failedArrows.contains (state.position, state.scope)

def rememberArrow (state : ParseState) : ParseState :=
  { state with failedArrows := (state.position, state.scope) :: state.failedArrows }

def markTarget (state : ParseState) : ParseState :=
  match state.completed with
  | some completed => { state with targets := completed.first :: state.targets }
  | none => state

end ParseState
end ScriptTree
