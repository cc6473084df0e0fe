import Perpetual.WorkGraph.Plan
import Perpetual.Scheduler.Capacity
import Perpetual.Foundation.Machine

/-!
# Plan runs

One plan run: its stored row and everything that reads and writes it.  A driver
is a loop that checks the stored state at the top of each turn, works through
the graph, starts nodes and writes its progress at the end.  Calls to stop and
to resume the run go on next to it, and a resumed run gets a new driver.

Every read and every write of the row is a step of its own.  The work graph
belongs to others: each reading of it is an input of the step, as are the
answers of the services called and the outcomes of the node starts.  Time
stamps are left out.
-/

namespace Perpetual
namespace WorkGraph

open Foundation
open Scheduler

structure PlanRow where
  gateMode : GateMode
  state : WorkPlanRunState
  maxActiveRuns : Int
  failureMode : PlanFailureMode
  maxNodeRetries : Int
  resumeAfterNodeId : Option String
  totalCount : Int
  completedCount : Int
  activeCount : Int
  blockedCount : Int
  error : Option String
deriving DecidableEq, Repr

def IsTerminal (state : WorkPlanRunState) : Prop :=
  state = .completed ∨ state = .failed ∨
    state = .cancelled

instance (state : WorkPlanRunState) : Decidable (IsTerminal state) := by
  unfold IsTerminal
  infer_instance

/-!
## Statements on the row
-/

structure PlanProgress where
  state : WorkPlanRunState
  counts : PlanCounts
  error : Option String
deriving DecidableEq, Repr

/-- The update has no condition on the stored state. -/
def updatePlanRunProgress (progress : PlanProgress) (row : PlanRow) : PlanRow :=
  { row with
    state := progress.state
    completedCount := progress.counts.completed
    activeCount := progress.counts.active
    blockedCount := progress.counts.blocked
    error := progress.error }

/-- The update has no condition on the stored state. -/
def cancelPlanRun (row : PlanRow) : PlanRow :=
  { row with state := .cancelled }

def setPlanRunResumeAfterNode (nodeId : Option String) (row : PlanRow) : PlanRow :=
  { row with resumeAfterNodeId := nodeId }

/-- The update applies to paused runs only; the caller does not learn whether
it did. -/
def resumePlanRun (row : PlanRow) : PlanRow :=
  if row.state = .paused then
    { row with
      state := .running
      error := none
      resumeAfterNodeId := none }
  else row

structure PlanOptions where
  gateMode : GateMode
  maxActiveRuns : Option Int
  failureMode : PlanFailureMode
  maxNodeRetries : Int
deriving DecidableEq, Repr

/-- The row of a new run, from the graph it is started on and the session
capacity at that time. -/
def runWorkPlan (graph : Graph) (effectiveCapacity : Int) (options : PlanOptions) :
    Except CoreError PlanRow :=
  match validateGatingEdgesAcyclic graph.nodes graph.edges with
  | .error error => .error error
  | .ok _ =>
      if (planNodes graph).length = 0 then
        .error
          (.other "create runnable work or milestones before running a plan")
      else
        .ok
          { gateMode := options.gateMode
            state := .running
            maxActiveRuns :=
              min (max (options.maxActiveRuns.getD effectiveCapacity) 1)
                effectiveCapacity
            failureMode := options.failureMode
            maxNodeRetries := max options.maxNodeRetries 0
            resumeAfterNodeId := none
            totalCount := (planNodes graph).length
            completedCount := 0
            activeCount := 0
            blockedCount := 0
            error := none }

inductive Driver where
  | fresh
  | checking
  | loading (plan : PlanRow)
  | gating (plan : PlanRow) (graph : Graph)
  | reloading (plan : PlanRow) (graph : Graph)
  | retrying (plan : PlanRow) (graph : Graph)
  | starting (plan : PlanRow) (graph : Graph) (node : WorkNode)
      (rest : List WorkNode) (started : Int)
  | attaching (plan : PlanRow) (graph : Graph) (rest : List WorkNode)
      (started : Int)
  | writing (progress : PlanProgress)
  | sleeping
  | leaving
  | returned
deriving DecidableEq

/-- The attempts of a failed node counted in the store, and whether requeueing
it succeeds; none when the count fails. -/
abbrev RetryAnswers := String -> Option (Int × Bool)

inductive DriverInput where
  | tick
  | fault
  | graph (graph : Except CoreError Graph)
  | gates (answers : GateAnswers)
  | retries (answers : RetryAnswers)
  | start (outcome : Except CoreError Unit)

def noCounts : PlanCounts := { completed := 0, active := 0, blocked := 0 }

def planFailed (counts : PlanCounts) (error : String) : Driver :=
  .writing
    { state := .failed
      counts := counts
      error := some error }

def startBudget (plan : PlanRow) (graph : Graph) : Int :=
  max (plan.maxActiveRuns - (planCounts graph).active) 0

/-- In continue mode the failed subtree is not counted on. -/
def excludedWork (plan : PlanRow) (graph : Graph) : Int :=
  if plan.failureMode = .continue then
    gatingSubtreeSize (failedIds graph) graph
  else 0

def attainableWork (plan : PlanRow) (graph : Graph) : Int :=
  max ((planNodes graph).length - excludedWork plan graph) 0

/-- The end of a turn: in continue mode a run that cannot go on is ended, any
other run is written as running. -/
def afterStarts (plan : PlanRow) (graph : Graph) (started : Int) : Driver :=
  if plan.failureMode = .continue ∧ failedIds graph ≠ [] ∧
      (planCounts graph).active = 0 ∧ started = 0 ∧
      (readyRunnableNodes graph).length = 0 ∧
      (planCounts graph).completed < attainableWork plan graph then
    planFailed { planCounts graph with active := 0 }
      ("no runnable work remains; " ++ toString (failedIds graph).length ++
        " failed node(s) block the rest")
  else
    .writing
      { state := .running
        counts :=
          { planCounts graph with active := (planCounts graph).active + started }
        error := none }

def startNodes (plan : PlanRow) (graph : Graph) (ready : List WorkNode)
    (started : Int) : Driver :=
  match ready with
  | [] => afterStarts plan graph started
  | node :: rest =>
      if started < startBudget plan graph then
        .starting plan graph node rest started
      else afterStarts plan graph started

def afterFailures (plan : PlanRow) (graph : Graph) : Driver :=
  if 0 < (planNodes graph).length ∧ 0 < attainableWork plan graph ∧
      attainableWork plan graph ≤ (planCounts graph).completed then
    if failedIds graph = [] then
      .writing
        { state := .completed
          counts := { planCounts graph with active := 0, blocked := 0 }
          error := none }
    else
      planFailed
        { planCounts graph with active := 0, blocked := excludedWork plan graph }
        ("completed all independent work; " ++ toString (failedIds graph).length ++
          " failed node(s) and their dependents were skipped")
  else startNodes plan graph (readyRunnableNodes graph) 0

def afterGates (plan : PlanRow) (graph : Graph) : Driver :=
  if failedIds graph = [] then afterFailures plan graph
  else
    match plan.failureMode with
    | .halt =>
        planFailed (planCounts graph) "one or more work nodes failed"
    | .retry => .retrying plan graph
    | .continue => afterFailures plan graph

/-- Whether anything was requeued.  An error counts as nothing, also after some
nodes were requeued. -/
def retryFailedPlanNodes (maxNodeRetries : Int) (answers : RetryAnswers) :
    List String -> Bool -> Bool
  | [], retried => retried
  | id :: rest, retried =>
      match answers id with
      | none => false
      | some (attempts, requeued) =>
          if maxNodeRetries < attempts then
            retryFailedPlanNodes maxNodeRetries answers rest retried
          else if requeued then retryFailedPlanNodes maxNodeRetries answers rest true
          else false

def retriesExhausted (plan : PlanRow) (graph : Graph) : Driver :=
  planFailed (planCounts graph)
    (toString (failedIds graph).length ++ " node(s) failed after exhausting " ++
      toString plan.maxNodeRetries ++ " retr" ++
      (if plan.maxNodeRetries = 1 then "y" else "ies"))

def pausePlan (graph : Graph) : Driver :=
  .writing
    { state := .paused
      counts := planCounts graph
      error := some "manual gate is waiting for review" }

/-- What a step of the driver leaves: where it is, the row, and the nodes it
started. -/
structure DriverStep where
  driver : Driver
  row : Option PlanRow
  started : List String

def driverTo (row : Option PlanRow) (driver : Driver) : Option DriverStep :=
  some { driver := driver, row := row, started := [] }

def checkState (row : Option PlanRow) : Driver :=
  match row with
  | none => .returned
  | some plan =>
      if plan.state = .running then .loading plan
      else .returned

def checkGraph (plan : PlanRow) (graph : Graph) : Driver :=
  match validateGatingEdgesAcyclic graph.nodes graph.edges with
  | .error error => planFailed noCounts error.display
  | .ok _ => .gating plan graph

/-- An error of the gates counts as no pause; a gate that changed nodes makes
the driver load the graph again. -/
def gateOutcome (plan : PlanRow) (graph : Graph) (outcome : Option PlanGateOutcome) :
    Driver :=
  match outcome.getD .continue with
  | .continue => afterGates plan graph
  | .continueUpdated => .reloading plan graph
  | .paused => pausePlan graph

def gateRow (writes : GateWrites) (row : Option PlanRow) : Option PlanRow :=
  match writes.resumeAfter with
  | none => row
  | some nodeId => row.map (setPlanRunResumeAfterNode (some nodeId))

/-- After a pause or an end the driver leaves the loop. -/
def afterWrite (progress : PlanProgress) : Driver :=
  if progress.state = .running then .sleeping
  else .leaving

def startOutcome (plan : PlanRow) (graph : Graph) (rest : List WorkNode)
    (started : Int) (error : CoreError) : Driver :=
  if planStartErrorIsRetryable error.display then startNodes plan graph rest started
  else planFailed (planCounts graph) error.display

def Driver.step (row : Option PlanRow) (driver : Driver) (input : DriverInput) :
    Option DriverStep :=
  match driver, input with
  | .fresh, .tick => driverTo row (checkState row)
  | .fresh, .fault => driverTo row .returned
  | .checking, .tick => driverTo row (checkState row)
  | .checking, .fault => driverTo row .returned
  | .loading plan, .graph (.ok graph) =>
      driverTo row (checkGraph plan graph)
  | .loading _, .graph (.error error) =>
      driverTo row (planFailed noCounts error.display)
  | .gating plan graph, .gates answers =>
      driverTo (gateRow (applyGateMode plan.gateMode graph answers).1 row)
        (gateOutcome plan graph (applyGateMode plan.gateMode graph answers).2)
  | .reloading plan _, .graph (.ok graph) =>
      driverTo row (afterGates plan graph)
  | .reloading plan graph, .graph (.error _) =>
      driverTo row (afterGates plan graph)
  | .retrying plan graph, .retries answers =>
      driverTo row
        (if retryFailedPlanNodes plan.maxNodeRetries answers (failedIds graph) false
          then afterFailures plan graph else retriesExhausted plan graph)
  | .starting plan graph node rest started, .start (.ok _) =>
      some
        { driver := .attaching plan graph rest started
          row := row
          started := [node.id] }
  | .starting plan graph _ rest started, .start (.error error) =>
      driverTo row (startOutcome plan graph rest started error)
  | .attaching plan graph rest started, .tick =>
      driverTo row (startNodes plan graph rest (started + 1))
  | .writing progress, .tick =>
      driverTo (row.map (updatePlanRunProgress progress)) (afterWrite progress)
  | .writing progress, .fault => driverTo row (afterWrite progress)
  | .sleeping, .tick => driverTo row .checking
  | .leaving, .tick => driverTo row .returned
  | _, _ => none

/-!
## Resuming and stopping
-/

inductive Resume where
  | reading
  | checking (plan : PlanRow)
  | updating
  | spawning
  | returned (result : Except CoreError Unit)

inductive ResumeInput where
  | tick
  | fault (error : CoreError)
  | graph (graph : Except CoreError Graph)

structure ResumeStep where
  resume : Resume
  row : Option PlanRow
  spawned : Bool

def resumeTo (row : Option PlanRow) (resume : Resume) : Option ResumeStep :=
  some { resume := resume, row := row, spawned := false }

def manualGateError : CoreError :=
  .other "manual gate is still waiting for review"

def Resume.step (row : Option PlanRow) (resume : Resume) (input : ResumeInput) :
    Option ResumeStep :=
  match resume, input with
  | .reading, .tick =>
      match row with
      | none => resumeTo row (.returned (.error .notFound))
      | some plan =>
          if plan.state = .paused then
            resumeTo row (.checking plan)
          else resumeTo row (.returned (.ok ()))
  | .checking plan, .graph (.ok graph) =>
      if plan.gateMode = .manual ∧ manualGatePending graph = true then
        resumeTo row (.returned (.error manualGateError))
      else resumeTo row .updating
  | .checking _, .graph (.error error) =>
      resumeTo row (.returned (.error error))
  | .updating, .tick =>
      resumeTo (row.map resumePlanRun) .spawning
  | .spawning, .tick =>
      some
        { resume := .returned (.ok ())
          row := row
          spawned := true }
  | .reading, .fault error =>
      resumeTo row (.returned (.error error))
  | .updating, .fault error =>
      resumeTo row (.returned (.error error))
  | .spawning, .fault error =>
      resumeTo row (.returned (.error error))
  | _, _ => none

inductive Stop where
  | cancelling
  | stoppingNodes
  | returned
  | failed (error : CoreError)
deriving DecidableEq

structure StopStep where
  stop : Stop
  row : Option PlanRow

def Stop.step (row : Option PlanRow) (stop : Stop) (fault : Option CoreError) :
    Option StopStep :=
  match stop, fault with
  | .cancelling, none =>
      match row with
      | none => some { stop := .failed (.db "not found"), row := row }
      | some plan =>
          some { stop := .stoppingNodes, row := some (cancelPlanRun plan) }
  | .stoppingNodes, none => some { stop := .returned, row := row }
  | .cancelling, some error => some { stop := .failed error, row := row }
  | .stoppingNodes, some error => some { stop := .failed error, row := row }
  | _, _ => none

structure PlanWorld where
  row : Option PlanRow
  launching : Bool
  drivers : List Driver
  resumes : List Resume
  stops : List Stop
  started : List String

/-- Who resumes the run: the user, a node that was completed, or the scheduler,
which also looks whether the node the run waits for is done. -/
inductive ResumeCaller where
  | user
  | unblocked (nodeId : String)
  | scheduler (nodeDone : Bool)
deriving DecidableEq, Repr

def callsResume (row : Option PlanRow) : ResumeCaller -> Bool
  | .user => true
  | .unblocked nodeId =>
      row.any (fun plan => plan.state == .paused &&
        plan.resumeAfterNodeId == some nodeId)
  | .scheduler nodeDone =>
      row.any (fun plan => plan.state == .paused &&
        plan.resumeAfterNodeId.isSome) && nodeDone

inductive PlanAction where
  | run (graph : Graph) (effectiveCapacity : Int) (options : PlanOptions)
  | launch (recorded : Bool)
  | callResume (caller : ResumeCaller)
  | callStop
  | driver (i : Nat) (input : DriverInput)
  | resume (i : Nat) (input : ResumeInput)
  | stop (i : Nat) (fault : Option CoreError)

def planStep (w : PlanWorld) : PlanAction -> Option PlanWorld
  | .run graph effectiveCapacity options =>
      match w.row, runWorkPlan graph effectiveCapacity options with
      | none, .ok row => some { w with row := some row, launching := true }
      | _, _ => none
  | .launch recorded =>
      if w.launching then
        some
          { w with
            launching := false
            drivers := if recorded then w.drivers ++ [.fresh] else w.drivers }
      else none
  | .callResume caller =>
      if callsResume w.row caller then
        some { w with resumes := w.resumes ++ [.reading] }
      else none
  | .callStop => some { w with stops := w.stops ++ [.cancelling] }
  | .driver i input =>
      match w.drivers[i]? with
      | none => none
      | some driver =>
          match driver.step w.row input with
          | none => none
          | some next =>
              some
                { w with
                  row := next.row
                  drivers := w.drivers.set i next.driver
                  started := w.started ++ next.started }
  | .resume i input =>
      match w.resumes[i]? with
      | none => none
      | some resume =>
          match resume.step w.row input with
          | none => none
          | some next =>
              some
                { w with
                  row := next.row
                  resumes := w.resumes.set i next.resume
                  drivers :=
                    if next.spawned then w.drivers ++ [.fresh] else w.drivers }
  | .stop i fault =>
      match w.stops[i]? with
      | none => none
      | some stop =>
          match stop.step w.row fault with
          | none => none
          | some next =>
              some
                { w with
                  row := next.row
                  stops := w.stops.set i next.stop }

def noPlan : PlanWorld :=
  { row := none
    launching := false
    drivers := []
    resumes := []
    stops := []
    started := [] }

def planMachine : Machine PlanWorld PlanAction where
  start := fun w => w = noPlan
  step := planStep

/-- A project whose only task has the given status. -/
def taskGraph (status : TaskStatus) : Graph :=
  { nodes :=
      [{ id := "a"
         projectId := "p"
         kind := .task
         status := status
         priority := .medium
         sortOrder := 0
         createdAt := 0 }]
    edges := [] }

end WorkGraph
end Perpetual
