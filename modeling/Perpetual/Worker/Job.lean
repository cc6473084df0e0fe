import Perpetual.Foundation.Machine
import Perpetual.Proto.Enums

/-!
# An assignment in the worker

What the worker of a device has under way for one assignment: its `claimAndRun`,
the run object, its `finishRun` with the timers that call it again, and every
`syncInstructions` of the run.  Beside them stand the local thread of the run and
the follow-ups that the coordinator has queued.  An assignment is claimed once, so
its id names its claim, its run and its local thread.

The code between two awaits is one step.  A call takes effect in one step and is
answered in a later one, and it can fail before either; a call that changes
nothing here is one step.  A turn of the local thread publishes a status when it
starts and one when it ends, a stop ends the turn, and the statuses arrive in order.
Reports of events and approvals and the renewals of the lease change nothing here.
-/

namespace Perpetual
namespace Worker

/-!
## The local thread
-/

/-- The turn of the assignment itself, or the turn of a follow-up. -/
inductive Turn where
  | assignment
  | instruction (id : String)
deriving DecidableEq, Repr

/-- `undelivered` are the published statuses that the worker has yet to handle. -/
structure LocalThread where
  waiting : List Turn
  current : Option Turn
  ended : List Turn
  undelivered : List TaskStatus
  deleted : Bool
deriving DecidableEq, Repr

def isSettled : TaskStatus -> Bool
  | .review => true
  | .done => true
  | .failed => true
  | .paused => true
  | .cancelled => true
  | _ => false

namespace LocalThread

def new : LocalThread :=
  { waiting := []
    current := none
    ended := []
    undelivered := []
    deleted := false }

def live (t : LocalThread) : Bool :=
  !t.waiting.isEmpty || t.current.isSome || !t.undelivered.isEmpty

def accept (t : LocalThread) (turn : Turn) : LocalThread :=
  { t with waiting := t.waiting ++ [turn] }

def startTurn (t : LocalThread) : Option LocalThread :=
  match t.current, t.waiting with
  | none, turn :: rest =>
      some
        { t with
          waiting := rest
          current := some turn
          undelivered := t.undelivered ++ [.running] }
  | _, _ => none

def endTurn (t : LocalThread) (status : TaskStatus) : Option LocalThread :=
  match t.current with
  | some turn =>
      if isSettled status then
        some
          { t with
            current := none
            ended := t.ended ++ [turn]
            undelivered := t.undelivered ++ [status] }
      else none
  | none => none

/-- A running thread is stopped before it is deleted. -/
def delete (t : LocalThread) : Option LocalThread :=
  match t.current with
  | some _ => none
  | none => some { t with waiting := [], deleted := true }

end LocalThread

/-!
## Calls under way
-/

inductive ClaimStage where
  | idle
  | claiming
  | claimed
  | preparing
  | starting
  | started
  | deleting
  | reporting
deriving DecidableEq, Repr

/-- A sync that has failed at a send which was carried out is `unanswered`. -/
inductive SyncStage where
  | listing
  | listed (rest : List String)
  | reporting (instruction : String) (rest : List String)
  | sending (instruction : String) (rest : List String)
  | sent (instruction : String) (rest : List String)
  | deleting (instruction : String) (rest : List String)
  | finished
  | failed
  | unanswered (instruction : String)
deriving DecidableEq, Repr

def SyncStage.hasFailed : SyncStage -> Bool
  | .failed => true
  | .unanswered _ => true
  | _ => false

inductive FinishStage where
  | idle
  | syncing (sync : Nat) (status : TaskStatus)
  | flushing (status : TaskStatus)
  | publishing
  | reporting
  | reportingFailure
  | deletingThread
deriving DecidableEq, Repr

structure ActiveRemoteRun where
  renewTimer : Bool
  finishing : Bool
  flushTimer : Bool
  continuationExpected : Bool
  deliveredInstructions : List String
deriving DecidableEq, Repr

/-- `taken` says that the coordinator has given the assignment away, `sends` and
`acknowledged` are the follow-ups in the order in which the local thread got them
and in which they were deleted. -/
structure Job where
  claim : ClaimStage
  taken : Bool
  preparationRenewTimer : Bool
  run : ActiveRemoteRun
  finish : FinishStage
  retries : List TaskStatus
  syncs : List SyncStage
  thread : LocalThread
  queue : List String
  sends : List String
  acknowledged : List String
deriving DecidableEq, Repr

/-- What the worker knows of the assignment outside its run. -/
structure Context where
  disposed : Bool
  inActive : Bool
  inThreads : Bool
deriving DecidableEq, Repr

def Context.new : Context :=
  { disposed := false
    inActive := false
    inThreads := false }

def Context.registered (c : Context) : Bool := c.inActive && c.inThreads

namespace Job

def new : Job :=
  { claim := .idle
    taken := false
    preparationRenewTimer := false
    run :=
      { renewTimer := false
        finishing := false
        flushTimer := false
        continuationExpected := false
        deliveredInstructions := [] }
    finish := .idle
    retries := []
    syncs := []
    thread := LocalThread.new
    queue := []
    sends := []
    acknowledged := [] }

/-!
## The claim
-/

inductive ClaimEvent where
  | serves
  | answers
  | fails
deriving DecidableEq, Repr

/-- `claimAndRun` but for the end of the preparation. -/
def claimServes (j : Job) : ClaimStage -> Option Job
  | .claiming =>
      if j.taken then none
      else some { j with claim := .claimed, taken := true }
  | .starting =>
      some
        { j with
          claim := .started
          thread := j.thread.accept .assignment }
  | .deleting =>
      j.thread.delete.map (fun thread =>
        { j with claim := .reporting, thread := thread })
  | _ => none

def claimAnswers (j : Job) : ClaimStage -> Option Job
  | .claimed =>
      some { j with claim := .preparing, preparationRenewTimer := true }
  | .started => some { j with claim := .idle }
  | .reporting => some { j with claim := .idle }
  | _ => none

def claimFails (j : Job) : ClaimStage -> Option Job
  | .claiming => some { j with claim := .idle }
  | .claimed => some { j with claim := .idle }
  | .preparing =>
      some { j with claim := .reporting, preparationRenewTimer := false }
  | .starting => some { j with claim := .deleting }
  | .started => some { j with claim := .deleting }
  | .deleting => some { j with claim := .reporting }
  | .reporting => some { j with claim := .idle }
  | .idle => none

def claimStep (j : Job) : ClaimEvent -> Option Job
  | .serves => j.claimServes j.claim
  | .answers => j.claimAnswers j.claim
  | .fails => j.claimFails j.claim

/-- The mirror is prepared: the run is made and its start is requested. -/
def prepared (j : Job) : Job :=
  { j with
    claim := .starting
    preparationRenewTimer := false
    run :=
      { renewTimer := true
        finishing := false
        flushTimer := false
        continuationExpected := false
        deliveredInstructions := [] } }

/-!
## The follow-ups
-/

def syncInstructions (disposed : Bool) (j : Job) : Job :=
  { j with
    syncs :=
      j.syncs ++ [if disposed then .finished else .listing] }

inductive SyncEvent where
  | serves
  | answers
  | fails
deriving DecidableEq, Repr

def setSync (j : Job) (k : Nat) (stage : SyncStage) : Job :=
  { j with syncs := j.syncs.set k stage }

def syncAnswers (j : Job) (k : Nat) : SyncStage -> Option Job
  | .listed [] => some (j.setSync k .finished)
  | .listed (instruction :: rest) =>
      if instruction ∈ j.run.deliveredInstructions then
        some (j.setSync k (.deleting instruction rest))
      else some (j.setSync k (.reporting instruction rest))
  | .reporting instruction rest =>
      some (j.setSync k (.sending instruction rest))
  | .sent instruction rest =>
      some
        { j.setSync k (.deleting instruction rest) with
          run :=
            { j.run with
              deliveredInstructions := j.run.deliveredInstructions ++ [instruction]
              continuationExpected := true } }
  | _ => none

def syncServes (j : Job) (k : Nat) : SyncStage -> Option Job
  | .listing => some (j.setSync k (.listed j.queue))
  | .sending instruction rest =>
      if j.thread.deleted then none
      else
        some
          { j.setSync k (.sent instruction rest) with
            thread := j.thread.accept (.instruction instruction)
            sends := j.sends ++ [instruction] }
  | .deleting instruction rest =>
      some
        { j.setSync k (.listed rest) with
          queue := j.queue.filter (fun i => i != instruction)
          acknowledged := j.acknowledged ++ [instruction] }
  | _ => none

def syncFails (j : Job) (k : Nat) : SyncStage -> Option Job
  | .sent instruction _ => some (j.setSync k (.unanswered instruction))
  | .finished => none
  | .failed => none
  | .unanswered _ => none
  | _ => some (j.setSync k .failed)

def syncStep (j : Job) (k : Nat) (event : SyncEvent) : Option Job :=
  match j.syncs[k]? with
  | none => none
  | some stage =>
      match event with
      | .serves => j.syncServes k stage
      | .answers => j.syncAnswers k stage
      | .fails => j.syncFails k stage

/-!
## The end of a run
-/

/-- `finishRun` up to its first await, which is inside the sync it calls. -/
def finishRun (disposed : Bool) (status : TaskStatus) (j : Job) : Job :=
  { j.syncInstructions disposed with
    run := { j.run with finishing := true }
    finish := .syncing j.syncs.length status }

/-- The sync of `finishRun` has ended. -/
def finishResumes (j : Job) : Option Job :=
  match j.finish with
  | .syncing k status =>
      match j.syncs[k]? with
      | none => none
      | some stage =>
          if stage.hasFailed then
            some
              { j with
                finish := .idle
                run := { j.run with finishing := false }
                retries := j.retries ++ [status] }
          else if stage = .finished then
            if j.run.continuationExpected then
              some
                { j with
                  finish := .idle
                  run := { j.run with finishing := false } }
            else
              some
                { j with
                  finish := .flushing status
                  run := { j.run with renewTimer := false, flushTimer := false } }
          else none
  | _ => none

/-- The steps of `finishRun` between the flush of the events and its `finally`. -/
def finishProceeds (succeeds : Bool) (j : Job) : Option Job :=
  match j.finish with
  | .flushing status =>
      if status = .review ∨ status = .done then
        some { j with finish := .publishing }
      else some { j with finish := .reporting }
  | .publishing =>
      if succeeds then some { j with finish := .reporting }
      else some { j with finish := .reportingFailure }
  | .reporting =>
      if succeeds then none
      else some { j with finish := .reportingFailure }
  | _ => none

/-- The outcome of the report is known and the `finally` block is entered. -/
def closes (succeeds : Bool) (j : Job) : Option Job :=
  match j.finish with
  | .reporting =>
      if succeeds then some { j with finish := .deletingThread } else none
  | .reportingFailure => some { j with finish := .deletingThread }
  | _ => none

/-- The local thread of a finished run is deleted, or the call fails. -/
def threadDeleted (succeeds : Bool) (j : Job) : Option Job :=
  match j.finish with
  | .deletingThread =>
      if succeeds then
        j.thread.delete.map (fun thread =>
          { j with finish := .idle, thread := thread })
      else some { j with finish := .idle }
  | _ => none

def retryFires (c : Context) (j : Job) (n : Nat) : Option Job :=
  match j.retries[n]? with
  | none => none
  | some status =>
      if c.disposed || !c.inActive || j.run.finishing then
        some { j with retries := j.retries.eraseIdx n }
      else
        some ({ j with retries := j.retries.eraseIdx n }.finishRun c.disposed status)

/-!
## Local events
-/

/-- `onLocalEvent` for an update of the local thread. -/
def onThreadUpdated (c : Context) (status : TaskStatus) (j : Job) : Job :=
  if !c.registered || j.run.finishing then j
  else if isSettled status then j.finishRun c.disposed status
  else if status = .running ∧ j.run.continuationExpected then
    { j with run := { j.run with continuationExpected := false } }
  else j

/-- The next status arrives; a disposed worker does not listen. -/
def statusArrives (c : Context) (j : Job) : Option Job :=
  match j.thread.undelivered with
  | [] => none
  | status :: rest =>
      if c.disposed then none
      else
        some
          ({ j with thread := { j.thread with undelivered := rest } }.onThreadUpdated
            c status)

/-- A streamed text of the local thread sets the flush timer. -/
def streams (c : Context) (j : Job) : Option Job :=
  if c.disposed || !j.thread.live then none
  else if c.registered then
    some { j with run := { j.run with flushTimer := true } }
  else some j

def flushFires (j : Job) : Option Job :=
  if j.run.flushTimer then some { j with run := { j.run with flushTimer := false } }
  else none

inductive Action where
  | claim (event : ClaimEvent)
  | sync (k : Nat) (event : SyncEvent)
  | finishResumes
  | finishProceeds (succeeds : Bool)
  | threadDeleted (succeeds : Bool)
  | retryFires (n : Nat)
  | statusArrives
  | streams
  | flushFires
  | turnStarts
  | turnEnds (status : TaskStatus)
  | enqueues (instruction : String)
deriving DecidableEq, Repr

def step (c : Context) (j : Job) : Action -> Option Job
  | .claim event => j.claimStep event
  | .sync k event => j.syncStep k event
  | .finishResumes => j.finishResumes
  | .finishProceeds succeeds => j.finishProceeds succeeds
  | .threadDeleted succeeds => j.threadDeleted succeeds
  | .retryFires n => j.retryFires c n
  | .statusArrives => j.statusArrives c
  | .streams => j.streams c
  | .flushFires => j.flushFires
  | .turnStarts => j.thread.startTurn.map (fun thread => { j with thread := thread })
  | .turnEnds status =>
      (j.thread.endTurn status).map (fun thread => { j with thread := thread })
  | .enqueues instruction =>
      if instruction ∈ j.queue then none
      else some { j with queue := j.queue ++ [instruction] }

end Job
end Worker
end Perpetual
