import Perpetual.WorkGraph.PlanSteps

/-!
# The retries of a plan run

A plan run in retry mode requeues a failed node as long as the runs of the node
that are attached to the plan leave a retry.  Around the plan run stand the rows
of the agent runs, the loop in which a driver counts them and requeues, and the
starts by others, such as the scheduler's queued continuations.

A driver records a run after the start has succeeded and attaches it to the plan
in the next statement.  The count of a failed node and its requeueing are steps of
their own, and each may fail.
-/

namespace Perpetual
namespace WorkGraph

open Foundation

/-- A row of the agent runs; `attached` when it names this plan run. -/
structure WorkRun where
  nodeId : String
  attached : Bool
deriving DecidableEq, Repr

/-- The loop of a driver over the failed nodes: what it found for the ones behind
it, and the count of the one it is about to requeue. -/
structure RetryLoop where
  answered : List (Option (Int × Bool))
  counted : Option (String × Int)
  ended : Bool
deriving DecidableEq, Repr

def RetryLoop.idle : RetryLoop :=
  { answered := []
    counted := none
    ended := false }

/-- An error of the count ends the loop; a node without a retry left is passed
over. -/
def RetryLoop.afterCount (loop : RetryLoop) (maxNodeRetries : Int) (nodeId : String) :
    Option Int -> RetryLoop
  | none => { answered := loop.answered ++ [none], counted := none, ended := true }
  | some attempts =>
      if maxNodeRetries < attempts then
        { loop with answered := loop.answered ++ [some (attempts, false)] }
      else { loop with counted := some (nodeId, attempts) }

def RetryLoop.afterRequeue (loop : RetryLoop) (attempts : Int) (ok : Bool) : RetryLoop :=
  { answered := loop.answered ++ [some (attempts, ok)]
    counted := none
    ended := !ok }

/-- What the loop found, for the step that goes on after it. -/
def RetryLoop.answers (loop : RetryLoop) (failed : List String) : RetryAnswers :=
  fun id => ((failed.zip loop.answered).lookup id).join

/-- `pending` has, for each driver, the row of the run it has still to attach.
`starts` records every agent run started from the creation of the plan run to its
end, and `requeued` the nodes requeued since their last start. -/
structure RetryWorld where
  plan : PlanWorld
  runs : List WorkRun
  pending : Nat -> Option Nat
  loops : Nat -> RetryLoop
  starts : List String
  requeued : List String

def countRunsForNodeInPlan (runs : List WorkRun) (nodeId : String) : Nat :=
  runs.countP (fun r => r.attached && r.nodeId == nodeId)

/-- An error of the insertion is ignored. -/
def recordRun (runs : List WorkRun) (nodeId : String) (recorded : Bool) : List WorkRun :=
  if recorded then runs ++ [{ nodeId := nodeId, attached := false }] else runs

/-- The update finds no row when the run was not recorded. -/
def attachRunToPlan (runs : List WorkRun) (row : Option Nat) (attached : Bool) :
    List WorkRun :=
  match row, attached with
  | some k, true => runs.modify k (fun r => { r with attached := true })
  | _, _ => runs

namespace RetryWorld

def start (w : RetryWorld) (nodeId : String) (recorded : Bool) : RetryWorld :=
  { w with
    runs := recordRun w.runs nodeId recorded
    starts := w.starts ++ [nodeId]
    requeued := w.requeued.filter (fun id => id != nodeId) }

def setLoop (w : RetryWorld) (i : Nat) (loop : RetryLoop) : RetryWorld :=
  { w with loops := Function.update w.loops i loop }

def startingNode (w : RetryWorld) (i : Nat) : Option String :=
  match w.plan.drivers[i]? with
  | some (.starting _ _ node _ _) => some node.id
  | _ => none

/-- The failed node the loop of a driver has come to, with the retries allowed. -/
def failedNode (w : RetryWorld) (i : Nat) : Option (Int × String) :=
  match w.plan.drivers[i]? with
  | some (.retrying plan graph) =>
      if (w.loops i).ended then none
      else
        ((failedIds graph)[(w.loops i).answered.length]?).map
          (fun id => (plan.maxNodeRetries, id))
  | _ => none

def isAttaching (w : RetryWorld) (i : Nat) : Bool :=
  match w.plan.drivers[i]? with
  | some (.attaching _ _ _ _) => true
  | _ => false

/-- The loop of a driver is over, with what it found. -/
def retried (w : RetryWorld) (i : Nat) : Option RetryAnswers :=
  match w.plan.drivers[i]? with
  | some (.retrying _ graph) =>
      if (w.loops i).counted = none ∧
          ((w.loops i).ended = true ∨
            (failedIds graph).length ≤ (w.loops i).answered.length) then
        some ((w.loops i).answers (failedIds graph))
      else none
  | _ => none

end RetryWorld

inductive RetryAction where
  | plan (action : PlanAction)
  | start (i : Nat) (recorded : Bool)
  | attach (i : Nat) (attached : Bool)
  | count (i : Nat) (counts : Bool)
  | requeue (i : Nat) (updates records : Bool)
  | conclude (i : Nat)
  | outside (nodeId : String) (recorded : Bool)

/-- The steps of a driver that touch the rows of the runs have their own actions. -/
def touchesRuns (w : RetryWorld) : PlanAction -> Bool
  | .driver _ (.start (.ok _)) => true
  | .driver _ (.retries _) => true
  | .driver i .tick => w.isAttaching i
  | _ => false

def RetryWorld.underWay (w : RetryWorld) : Bool :=
  w.plan.row.any (fun plan => !decide (IsTerminal plan.state))

def retryStep (w : RetryWorld) : RetryAction -> Option RetryWorld
  | .plan action =>
      if touchesRuns w action then none
      else (planStep w.plan action).map (fun p => { w with plan := p })
  | .start i recorded =>
      match w.startingNode i,
          planStep w.plan (.driver i (.start (.ok ()))) with
      | some nodeId, some p =>
          some
            { w.start nodeId recorded with
              plan := p
              pending :=
                Function.update w.pending i
                  (if recorded then some w.runs.length else none) }
      | _, _ => none
  | .attach i attached =>
      if w.isAttaching i then
        (planStep w.plan (.driver i .tick)).map
          (fun p =>
            { w with
              plan := p
              runs := attachRunToPlan w.runs (w.pending i) attached
              pending := Function.update w.pending i none })
      else none
  | .count i counts =>
      match w.failedNode i, (w.loops i).counted with
      | some (maxNodeRetries, nodeId), none =>
          some
            (w.setLoop i
              ((w.loops i).afterCount maxNodeRetries nodeId
                (if counts then some (countRunsForNodeInPlan w.runs nodeId : Int)
                  else none)))
      | _, _ => none
  | .requeue i updates records =>
      match (w.loops i).counted with
      | none => none
      | some (nodeId, attempts) =>
          some
            { w.setLoop i ((w.loops i).afterRequeue attempts (updates && records)) with
              requeued := if updates then w.requeued ++ [nodeId] else w.requeued }
  | .conclude i =>
      match w.retried i with
      | none => none
      | some answers =>
          (planStep w.plan (.driver i (.retries answers))).map
            (fun p => { w.setLoop i RetryLoop.idle with plan := p })
  | .outside nodeId recorded =>
      if w.underWay then some (w.start nodeId recorded) else none

def noRetries : RetryWorld :=
  { plan := noPlan
    runs := []
    pending := fun _ => none
    loops := fun _ => RetryLoop.idle
    starts := []
    requeued := [] }

def retryMachine : Machine RetryWorld RetryAction where
  start := fun w => w = noRetries
  step := retryStep

end WorkGraph
end Perpetual
