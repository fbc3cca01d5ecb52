import ScriptTree.Grammar.Rules
import ScriptTree.Parse.State

/-! # Running productions

What a production does to the state of a parse, by recursion on its form. A call is answered by the
production of the nonterminal; fuel bounds the depth of calls, and since no production calls itself
without taking a token, a depth that grows with the tokens ahead is enough. -/
set_option autoImplicit false
namespace ScriptTree

inductive Outcome where
  | matched (state : ParseState)
  | refused (state : ParseState)
  | outOfFuel
  deriving DecidableEq

namespace Production

/-- Runs a production; `call` runs the productions it calls. -/
def run (terminals : Terminals) (call : Nonterminal → ParseState → Outcome) :
    Production → ParseState → Outcome
  | .empty, state => .matched state
  | .refuse, state => .refused state
  | .take, state => .matched state.take
  | .expected kind, state => .matched (state.expect kind)
  | .expectedConstruct name, state => .matched (state.expectConstruct name)
  | .call nonterminal, state => call nonterminal state
  | .seq first second, state =>
      match first.run terminals call state with
      | .matched next => second.run terminals call next
      | .refused next => .refused next
      | .outOfFuel => .outOfFuel
  | .branch guard yes no, state =>
      if guard.holds terminals state then yes.run terminals call state
      else no.run terminals call state
  | .node kind body, state =>
      let checkpoint := state.checkpoint
      match body.run terminals call (state.record .pending) with
      | .matched next => .matched (next.complete checkpoint kind checkpoint.position)
      | .refused next => .refused (next.rewind checkpoint)
      | .outOfFuel => .outOfFuel
  | .fork head guard kindYes yes kindNo no, state =>
      let checkpoint := state.checkpoint
      match head.run terminals call (state.record .pending) with
      | .matched middle =>
          if guard.holds terminals middle then
            match yes.run terminals call middle with
            | .matched next => .matched (next.complete checkpoint kindYes checkpoint.position)
            | .refused next => .refused (next.rewind checkpoint)
            | .outOfFuel => .outOfFuel
          else
            match no.run terminals call middle with
            | .matched next => .matched (next.complete checkpoint kindNo checkpoint.position)
            | .refused next => .refused (next.rewind checkpoint)
            | .outOfFuel => .outOfFuel
      | .refused next => .refused (next.rewind checkpoint)
      | .outOfFuel => .outOfFuel
  | .wrap kind body, state =>
      match state.completed with
      | none => .refused state
      | some inner =>
          let checkpoint := state.checkpoint
          match body.run terminals call (state.precede inner) with
          | .matched next => .matched (next.complete checkpoint kind inner.first)
          | .refused next => .refused (next.rewind checkpoint)
          | .outOfFuel => .outOfFuel
  | .orElse first second, state =>
      let checkpoint := state.checkpoint
      match first.run terminals call state with
      | .matched next => .matched next
      | .refused next => second.run terminals call (next.rewind checkpoint)
      | .outOfFuel => .outOfFuel
  | .onceOrElse first second, state =>
      if state.arrowFailed then second.run terminals call state
      else
        let checkpoint := state.checkpoint
        match first.run terminals call state with
        | .matched next => .matched next
        | .refused next =>
            second.run terminals call (next.rewind checkpoint).rememberArrow
        | .outOfFuel => .outOfFuel
  | .inScope change body, state =>
      let outer := state.scope
      match body.run terminals call { state with scope := change.apply outer } with
      | .matched next => .matched { next with scope := outer }
      | .refused next => .refused { next with scope := outer }
      | .outOfFuel => .outOfFuel
  | .list body, state =>
      let checkpoint := state.checkpoint
      match body.run terminals call (state.record .startList) with
      | .matched next => .matched (next.record .finishList)
      | .refused next => .refused (next.rewind checkpoint)
      | .outOfFuel => .outOfFuel
  | .hole, state => .matched (state.record .hole)
  | .markTarget, state => .matched state.markTarget

end Production

namespace Nonterminal

/-- Runs the production of a nonterminal in a grammar, with calls nested at most `fuel` deep. -/
def runWith (grammar : Nonterminal → Production) (terminals : Terminals) :
    Nat → Nonterminal → ParseState → Outcome
  | 0, _, _ => .outOfFuel
  | fuel + 1, nonterminal, state =>
      (grammar nonterminal).run terminals (runWith grammar terminals fuel) state

/-- More than the number of calls that can be nested while no token is taken. -/
def callDepth : Nat := 128

/-- Fuel that is enough for the tokens from a position on. -/
def fuelFrom (terminals : Terminals) (start : Nat) : Nat := callDepth * (terminals.size - start + 1)

def enoughFuel (terminals : Terminals) : Nat := fuelFrom terminals 0

def runFrom (terminals : Terminals) (start : Nat) (nonterminal : Nonterminal) : Outcome :=
  runWith production terminals (fuelFrom terminals start) nonterminal (.startAt start)

def run (terminals : Terminals) (nonterminal : Nonterminal) : Outcome :=
  nonterminal.runFrom terminals 0

end Nonterminal
end ScriptTree
