import Perpetual.Context.ProgressLog
import Perpetual.Foundation.Machine
import Perpetual.Foundation.Table
import Perpetual.Placement.Runs
import Perpetual.Proto.Enums

/-!
# Cloud runs and the threads they belong to

The hand-off of a thread to the cloud under its gate, the reclaim of a run by the
monitor or by the user, and local starts, over the rows of the runs, the rows of the
threads and the queue of their messages.

A reclaim works on the row of a run it has read before it fetched from the branch
and the provider.  It closes the row by its id, reads the thread, and saves it with
the cloud leg in its progress and a new status.
-/

namespace Perpetual
namespace Placement
namespace Handoff

open Foundation
open Context.ProgressLog (appendThreadProgress isSome_appendThreadProgress)

/-!
## Rows
-/

inductive Reason where
  | completed
  | failed
  | expired
  | stalled
  | manual
deriving DecidableEq, Repr

def Reason.text : Reason -> String
  | completed => "completed"
  | failed => "failed"
  | expired => "expired"
  | stalled => "stalled"
  | manual => "manual"

/-- What reclaims have done to a run: how often its row was closed, its leg appended
and the status of its thread overwritten, whether a local run has taken the thread
over since the row was closed, and whether a status was overwritten after that. -/
structure History where
  closes : Nat
  legs : Nat
  overwrites : Nat
  takenOver : Bool
  overwrote : Bool
deriving DecidableEq, Repr

structure CloudRun where
  threadId : String
  agentKind : AgentKind
  url : Option String
  status : RunStatus
  failureReason : Option String
  history : History
deriving DecidableEq, Repr

structure ThreadRow where
  id : String
  status : TaskStatus
  activeAgent : Option AgentKind
  progress : String
  handoffState : String
deriving DecidableEq, Repr

/-!
## What a reclaim writes
-/

/-- What the fetch of the branch came to; there is none without a worktree or a
branch. -/
inductive Fetched where
  | nothing
  | commits (list : List String)
  | failed (error : String)
deriving DecidableEq, Repr

/-- What the provider has to add to a completed run. -/
inductive Results where
  | nothing
  | summary (text : String)
  | failed (error : String)
deriving DecidableEq, Repr

def mergeConflict : Fetched -> Bool
  | .failed _ => true
  | _ => false

def fetchParts : Fetched -> List String
  | .nothing => []
  | .commits [] => ["no new commits from the cloud run"]
  | .commits list => ["cloud commits merged:\n" ++ "\n".intercalate list]
  | .failed e =>
      ["cloud branch could not be fast-forwarded (" ++ e ++
        "); the remote branch holds the cloud work — resolve manually"]

def resultParts (reason : Reason) (fetched : Fetched) : Results -> List String
  | .nothing => []
  | .summary text =>
      if reason = .completed ∧ mergeConflict fetched = false ∧ Text.trim text ≠ "" then
        [text]
      else []
  | .failed e =>
      if reason = .completed ∧ mergeConflict fetched = false then
        ["provider result fetch: " ++ e]
      else []

def closeStatus (conflict : Bool) (reason : Reason) (detail : Option String) : RunStatus :=
  if conflict || (detail.isSome && decide (reason = .failed)) then .failed
  else if reason = .expired then .expired
  else .reclaimed

def failureNote (conflict : Bool) (detail : Option String) : Option String :=
  detail.or (if conflict then some "merge conflict while reclaiming" else none)

def legEntry (run : CloudRun) (reason : Reason) (parts : List String) : String :=
  "Cloud leg on " ++ run.agentKind.label ++ " (" ++ reason.text ++ "): " ++
    "; ".intercalate parts ++ (run.url.map (fun url => "\nSession: " ++ url)).getD ""

/-- With messages that arrived meanwhile the thread goes back to the scheduler. -/
def reclaimedStatus (conflict : Bool) (reason : Reason) (noneQueued : Bool) : TaskStatus :=
  if conflict || (decide (reason = .completed) && noneQueued) then .review
  else .queued

inductive HandoffStage where
  | waitingGate
  | readingPolicy
  | checkingThread
  | counting
  | preparing
  | launching
  | recording
  | saving
  | finished
deriving DecidableEq, Repr

/-- A hand-off, with the policy and the thread it has read. -/
structure HandoffCall where
  threadId : String
  agent : AgentKind
  policy : Option CloudPolicy
  thread : Option ThreadRow
  stage : HandoffStage
deriving DecidableEq, Repr

inductive ReclaimStage where
  | polling
  | fetching (reason : Reason) (detail : Option String)
  | closing (reason : Reason) (detail : Option String) (parts : List String) (conflict : Bool)
  | reading (reason : Reason) (parts : List String) (conflict : Bool)
  | queueing (reason : Reason) (parts : List String) (conflict : Bool) (thread : ThreadRow)
  | saving (reason : Reason) (parts : List String) (conflict : Bool) (thread : ThreadRow)
      (noneQueued : Bool)
  | finished
deriving DecidableEq, Repr

/-- A pass of the monitor over a run, or a reclaim by the user, with the row it read. -/
structure Reclaim where
  run : Nat
  copy : CloudRun
  stage : ReclaimStage
deriving DecidableEq, Repr

inductive StartStage where
  | checking
  | reading
  | launching (thread : ThreadRow)
  | finished
deriving DecidableEq, Repr

structure LocalStart where
  threadId : String
  agent : AgentKind
  stage : StartStage
deriving DecidableEq, Repr

structure World where
  policy : CloudPolicy
  runs : List CloudRun
  threads : List ThreadRow
  queue : List (String × String)
  gateHeld : Bool
  handoffs : List HandoffCall
  reclaims : List Reclaim
  starts : List LocalStart
deriving DecidableEq, Repr

inductive Input where
  | tick
  | refuse
deriving DecidableEq, Repr

/-- What a poll of the provider, with the look at the branch and the clock, comes to. -/
inductive Answer where
  | over (reason : Reason) (detail : Option String)
  | running
  | stalled (detail : String)
  | quiet
deriving DecidableEq, Repr

inductive Action where
  | setPolicy (policy : CloudPolicy)
  | handoff (threadId : String) (agent : AgentKind)
  | advance (handoff : Nat) (input : Input)
  | observe (run : Nat)
  | poll (reclaim : Nat) (answer : Answer)
  | reclaimCloudRun (threadId : String)
  | fetch (reclaim : Nat) (fetched : Fetched) (results : Results)
  | reclaimStep (reclaim : Nat) (input : Input)
  | start (threadId : String) (agent : AgentKind)
  | startStep (start : Nat) (input : Input)
  | enqueue (threadId : String) (message : String)
  | drain (threadId : String)
deriving DecidableEq, Repr

namespace World

def activeForThread (w : World) (threadId : String) : Option Nat :=
  Placement.activeForThread CloudRun.threadId CloudRun.status w.runs threadId

def activeRuns (w : World) : Nat :=
  Placement.activeRuns CloudRun.status w.runs

def thread? (w : World) (id : String) : Option ThreadRow :=
  w.threads.find? (fun t => t.id == id)

/-- `save`: an update of the whole row. -/
def saveThread (w : World) (row : ThreadRow) : World :=
  { w with
    threads := Table.updateWhere (fun t : ThreadRow => t.id == row.id) (fun _ => row) w.threads }

def noneQueued (w : World) (threadId : String) : Bool :=
  w.queue.all (fun q => q.1 != threadId)

def updateRun (w : World) (r : Nat) (f : CloudRun -> CloudRun) : World :=
  match w.runs[r]? with
  | some run => { w with runs := w.runs.set r (f run) }
  | none => w

def setHandoff (w : World) (k : Nat) (h : HandoffCall) : World :=
  { w with handoffs := w.handoffs.set k h }

def leaveGate (w : World) (k : Nat) (h : HandoffCall) : World :=
  { w.setHandoff k { h with stage := .finished } with gateHeld := false }

def newRun (h : HandoffCall) : CloudRun :=
  { threadId := h.threadId
    agentKind := h.agent
    url := none
    status := .provisioning
    failureReason := none
    history :=
      { closes := 0
        legs := 0
        overwrites := 0
        takenOver := false
        overwrote := false } }

def cloudActive (agent : AgentKind) (thread : ThreadRow) : ThreadRow :=
  { thread with
    status := .runningInCloud
    activeAgent := some agent
    handoffState := "cloud_active" }

/-- Everything between the look at the runs and the launch may end in an error. -/
def advanceHandoff (w : World) (k : Nat) (h : HandoffCall) : Input -> Option World
  | .refuse =>
      match h.stage with
      | .waitingGate => none
      | .finished => none
      | _ => some (w.leaveGate k h)
  | .tick =>
      match h.stage with
      | .waitingGate =>
          if w.gateHeld then none
          else
            some
              { w.setHandoff k { h with stage := .readingPolicy } with
                gateHeld := true }
      | .readingPolicy =>
          if w.policy.enabled then
            some (w.setHandoff k
              { h with
                policy := some w.policy
                stage := .checkingThread })
          else some (w.leaveGate k h)
      | .checkingThread =>
          if (w.activeForThread h.threadId).isSome then some (w.leaveGate k h)
          else some (w.setHandoff k { h with stage := .counting })
      | .counting =>
          if (h.policy.map CloudPolicy.maxConcurrentCloudRuns).getD 0 ≤ w.activeRuns then
            some (w.leaveGate k h)
          else some (w.setHandoff k { h with stage := .preparing })
      | .preparing =>
          some (w.setHandoff k
            { h with
              thread := w.thread? h.threadId
              stage := .launching })
      | .launching =>
          some (w.setHandoff k { h with stage := .recording })
      | .recording =>
          some
            { w.setHandoff k { h with stage := .saving } with
              runs := w.runs ++ [newRun h] }
      | .saving =>
          match h.thread with
          | some thread => some ((w.saveThread (cloudActive h.agent thread)).leaveGate k h)
          | none => some (w.leaveGate k h)
      | .finished => none

def setReclaim (w : World) (m : Nat) (c : Reclaim) (stage : ReclaimStage) : World :=
  { w with reclaims := w.reclaims.set m { c with stage := stage } }

def addReclaim (w : World) (r : Nat) (stage : ReclaimStage) : Option World :=
  match w.runs[r]? with
  | some run =>
      some
        { w with
          reclaims :=
            w.reclaims ++
              [{ run := r
                 copy := run
                 stage := stage }] }
  | none => none

/-- `set_status` names the row by its id alone. -/
def setStatus (w : World) (r : Nat) (status : RunStatus) : World :=
  w.updateRun r (fun run => { run with status := status })

def pollReclaim (w : World) (m : Nat) (c : Reclaim) (answer : Answer) : Option World :=
  match c.stage, answer with
  | .polling, .over reason detail =>
      some (w.setReclaim m c (.fetching reason detail))
  | .polling, .running =>
      if c.copy.status = .running then
        some (w.setReclaim m c .finished)
      else
        some ((w.setStatus c.run .running).setReclaim m c .finished)
  | .polling, .stalled detail =>
      some ((w.setStatus c.run .stalled).setReclaim m c
        (.fetching .stalled (some detail)))
  | .polling, .quiet => some (w.setReclaim m c .finished)
  | _, _ => none

def fetchReclaim (w : World) (m : Nat) (c : Reclaim) (fetched : Fetched)
    (results : Results) : Option World :=
  match c.stage with
  | .fetching reason detail =>
      some (w.setReclaim m c
        (.closing reason detail
          (fetchParts fetched ++ resultParts reason fetched results) (mergeConflict fetched)))
  | _ => none

/-- `close` names the row by its id alone. -/
def closeRun (w : World) (r : Nat) (status : RunStatus) (note : Option String) : World :=
  w.updateRun r (fun run =>
    { run with
      status := status
      failureReason := note
      history := { run.history with closes := run.history.closes + 1 } })

/-- The leg is appended and the status overwritten by one update of the thread. -/
def recordLeg (w : World) (r : Nat) : World :=
  w.updateRun r (fun run =>
    { run with
      history :=
        { run.history with
          legs := run.history.legs + 1
          overwrites := run.history.overwrites + 1
          overwrote := run.history.overwrote || run.history.takenOver } })

/-- An entry can always be appended to the progress. -/
def resolved (c : Reclaim) (reason : Reason) (parts : List String) (conflict noneQueued : Bool)
    (thread : ThreadRow) : ThreadRow :=
  { thread with
    progress :=
      (appendThreadProgress thread.progress (legEntry c.copy reason parts)).get
        (isSome_appendThreadProgress _ _)
    status := reclaimedStatus conflict reason noneQueued
    handoffState := "resolved" }

/-- An error in a statement ends the reclaim. -/
def stepReclaim (w : World) (m : Nat) (c : Reclaim) : Input -> Option World
  | .refuse =>
      match c.stage with
      | .finished => none
      | _ => some (w.setReclaim m c .finished)
  | .tick =>
      match c.stage with
      | .closing reason detail parts conflict =>
          some ((w.closeRun c.run (closeStatus conflict reason detail)
            (failureNote conflict detail)).setReclaim m c
              (.reading reason parts conflict))
      | .reading reason parts conflict =>
          match w.thread? c.copy.threadId with
          | some thread =>
              some (w.setReclaim m c (.queueing reason parts conflict thread))
          | none => some (w.setReclaim m c .finished)
      | .queueing reason parts conflict thread =>
          some (w.setReclaim m c
            (.saving reason parts conflict thread
              (w.noneQueued c.copy.threadId)))
      | .saving reason parts conflict thread noneQueued =>
          some (((w.saveThread (resolved c reason parts conflict noneQueued thread)).recordLeg
            c.run).setReclaim m c .finished)
      | _ => none

def setStart (w : World) (i : Nat) (s : LocalStart) (stage : StartStage) : World :=
  { w with starts := w.starts.set i { s with stage := stage } }

def running (agent : AgentKind) (thread : ThreadRow) : ThreadRow :=
  { thread with
    status := .running
    activeAgent := some agent }

/-- A local run has the thread: the closed runs of the thread are over for good. -/
def takeOver (w : World) (threadId : String) : World :=
  { w with
    runs :=
      w.runs.map (fun run =>
        if run.threadId = threadId ∧ 0 < run.history.closes then
          { run with history := { run.history with takenOver := true } }
        else run) }

def stepStart (w : World) (i : Nat) (s : LocalStart) : Input -> Option World
  | .refuse =>
      match s.stage with
      | .finished => none
      | _ => some (w.setStart i s .finished)
  | .tick =>
      match s.stage with
      | .checking =>
          if (w.activeForThread s.threadId).isSome then
            some (w.setStart i s .finished)
          else some (w.setStart i s .reading)
      | .reading =>
          match w.thread? s.threadId with
          | some thread => some (w.setStart i s (.launching thread))
          | none => some (w.setStart i s .finished)
      | .launching thread =>
          some (((w.saveThread (running s.agent thread)).takeOver s.threadId).setStart i s
            .finished)
      | .finished => none

def fresh (policy : CloudPolicy) (threads : List ThreadRow) : World :=
  { policy := policy
    runs := []
    threads := threads
    queue := []
    gateHeld := false
    handoffs := []
    reclaims := []
    starts := [] }

def drainQueue (threadId : String) : List (String × String) -> List (String × String)
  | [] => []
  | q :: rest => if q.1 = threadId then rest else q :: drainQueue threadId rest

def step (w : World) : Action -> Option World
  | .setPolicy policy => some { w with policy := policy }
  | .handoff threadId agent =>
      some
        { w with
          handoffs :=
            w.handoffs ++
              [{ threadId := threadId
                 agent := agent
                 policy := none
                 thread := none
                 stage := .waitingGate }] }
  | .advance k input =>
      match w.handoffs[k]? with
      | some h => w.advanceHandoff k h input
      | none => none
  | .observe r =>
      if w.runs[r]?.any (fun run => run.status.isActive) then
        w.addReclaim r .polling
      else none
  | .poll m answer =>
      match w.reclaims[m]? with
      | some c => w.pollReclaim m c answer
      | none => none
  | .reclaimCloudRun threadId =>
      match w.activeForThread threadId with
      | some r => w.addReclaim r (.fetching .manual none)
      | none => none
  | .fetch m fetched results =>
      match w.reclaims[m]? with
      | some c => w.fetchReclaim m c fetched results
      | none => none
  | .reclaimStep m input =>
      match w.reclaims[m]? with
      | some c => w.stepReclaim m c input
      | none => none
  | .start threadId agent =>
      some
        { w with
          starts :=
            w.starts ++
              [{ threadId := threadId
                 agent := agent
                 stage := .checking }] }
  | .startStep i input =>
      match w.starts[i]? with
      | some s => w.stepStart i s input
      | none => none
  | .enqueue threadId message =>
      some { w with queue := w.queue ++ [(threadId, message)] }
  | .drain threadId => some { w with queue := drainQueue threadId w.queue }

end World

open World in
def machine : Machine World Action where
  start := fun w => exists policy threads, w = World.fresh policy threads
  step := World.step

end Handoff
end Placement
end Perpetual
