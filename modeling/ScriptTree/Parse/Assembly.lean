import ScriptTree.Parse.State
import ScriptTree.Tree.Builder

/-! # From the log to the tree

The log is read from its start. Where a node starts, the nodes around it that were opened later start
first, the outermost before the others; their own start events are then passed over. -/
set_option autoImplicit false
namespace ScriptTree

/-- Why a log gives no tree: a link that leads to no start of a node, or steps that build none. -/
inductive AssemblyFault where
  | brokenLink
  | refused (fault : BuildFault)
  deriving DecidableEq, Repr

namespace Event

/-- The kinds of the nodes that start at an event, the innermost first, and the log without their
starts; `budget` bounds their number. -/
def chain : Nat → Array Event → Nat → Option (List Kind × Array Event)
  | 0, _, _ => none
  | budget + 1, log, index =>
      match log[index]? with
      | some (.start kind link) =>
          let log := log.modify index fun _ => .pending
          let outer := match link with
            | some distance => chain budget log (index + distance)
            | none => some ([], log)
          match outer with
          | some (kinds, log) => some (if kind = .tombstone then kinds else kind :: kinds, log)
          | none => none
      | _ => none

/-- The steps of the events from an index on; `budget` bounds the number of events. -/
def stepsFrom : Nat → Array Event → Nat → Option (List BuildStep)
  | 0, _, _ => some []
  | budget + 1, log, index =>
      match log[index]? with
      | none => some []
      | some (.start kind _) =>
          if kind = .tombstone then stepsFrom budget log (index + 1)
          else
            match chain log.size log index with
            | none => none
            | some (kinds, log) =>
                (stepsFrom budget log (index + 1)).map
                  (kinds.reverse.map BuildStep.startNode ++ ·)
      | some (.token position) =>
          (stepsFrom budget log (index + 1)).map (.token position :: ·)
      | some .finish => (stepsFrom budget log (index + 1)).map (.finishNode :: ·)
      | some .startList => (stepsFrom budget log (index + 1)).map (.startList :: ·)
      | some .hole => (stepsFrom budget log (index + 1)).map (.elision :: ·)
      | some .finishList => (stepsFrom budget log (index + 1)).map (.finishList :: ·)

def steps (log : Array Event) : Option (List BuildStep) := stepsFrom log.size log 0

end Event

/-- The tree that a log describes, if its tokens are those of a stream from `start` on. -/
def SyntaxTree.ofLog (stream : TokenStream) (start : TokenId) (log : Array Event) :
    Except AssemblyFault SyntaxTree :=
  match Event.steps log with
  | none => .error .brokenLink
  | some steps =>
      match SyntaxTree.ofSteps stream start steps with
      | .ok tree => .ok tree
      | .error fault => .error (.refused fault)

end ScriptTree
