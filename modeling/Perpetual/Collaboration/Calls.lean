import Perpetual.Collaboration.Coordinator
import Perpetual.Foundation.Text

/-!
# The calls of the coordinator

The coordinator's operations as calls that go on next to each other.  A call
stands before one of its SQL statements, transactions or git operations, and
executing that one is a step.  Assignments, returned change sets and leases are
in the store; with them go the turns and the threads that the calls settle, and
the checkout the change sets are written to.

A statement binds a clock reading, which is an input of its step, like the
answers of git.  Any step may fail, which ends its call with an error.  A row
that a statement answers with is read together with it.  The turn of an
assignment goes under the assignment's id, which is fresh when the turn is
created, and a lease token goes under its hash.
-/

namespace Perpetual
namespace Collaboration
namespace Calls

open Foundation

structure Turn where
  assignmentId : String
  status : SessionState
deriving DecidableEq, Repr

structure Thread where
  id : String
  status : TaskStatus
deriving DecidableEq, Repr

def isOpen (status : ChangeStatus) : Bool :=
  status == .pending || status == .conflict

/-- A git operation that fails may have changed the checkout before. -/
inductive GitOutcome where
  | done
  | failed (changed : Bool)
deriving DecidableEq, Repr

inductive Call where
  | createChecks (input : NewAssignment)
  | createLocks (input : NewAssignment)
  | createTurn (input : NewAssignment)
  | createInsert (input : NewAssignment)
  | createThread (threadId : String)
  | claim (id deviceId hash : String) (expires : Nat)
  | claimThread (threadId : String)
  | renew (id hash : String) (expires : Nat)
  | report (hash : String) (change : ChangeSet)
  | reportInsert (change : ChangeSet)
  | finish (id hash : String) (state : SessionState) (error : Option String)
  | finishReview (id threadId : String)
  | settleTurn (id threadId : String) (state : SessionState) (status : TaskStatus)
  | settleThread (threadId : String) (status : TaskStatus)
  | apply (id : String) (overwrite : Bool)
  | applyDirty (change : ChangeSet) (overwrite : Bool)
  | applyConflict (change : ChangeSet)
  | applyCheck (change : ChangeSet)
  | applyWrite (change : ChangeSet) (overwrite : Bool)
  | applyActivity (change : ChangeSet)
  | applyUpdate (change : ChangeSet) (status : ChangeStatus)
  | reject (id : String)
  | rejectUpdate (change : ChangeSet)
  | completeReview (assignmentId : String)
  | cancel (id : String)
  | revoke (deviceId : String)
  | registerDevice (id name : String) (capabilities : List AgentCapability)
      (reactivate : Bool)
  | sweep
  | sweepExpire (ids : List String) (ended : List (String × String))
  | sweepOffline (ended : List (String × String))
  | sweepFail (ids : List String) (ended : List (String × String))
  | sweepTurn (ended : List (String × String))
  | sweepThread (threadId : String) (rest : List (String × String))
  | returned
deriving DecidableEq, Repr

/-- `writes` records the change sets written to the checkout, and `resolutions`
those whose status left pending and conflict. -/
structure World where
  store : Store
  turns : List Turn
  threads : List Thread
  calls : List Call
  writes : List String
  resolutions : List String

inductive Input where
  | tick (now : Nat)
  | checks (localRun : Bool) (now : Nat)
  | dirty (dirty : Bool)
  | applies (applies : Bool)
  | git (outcome : GitOutcome)
  | fault
deriving DecidableEq, Repr

namespace World

def withStore (w : World) (st : Store) : World :=
  { w with store := st }

def finishTurn (w : World) (assignmentId : String) (state : SessionState) : World :=
  { w with
    turns :=
      Table.updateWhere (fun t => t.assignmentId == assignmentId)
        (fun t => { t with status := state }) w.turns }

def saveThread (w : World) (threadId : String) (status : TaskStatus) : World :=
  { w with
    threads :=
      Table.updateWhere (fun t => t.id == threadId)
        (fun t => { t with status := status }) w.threads }

def getChangeSet (w : World) (id : String) : Option ChangeSet :=
  w.store.changeSets.find? (fun c => c.id == id)

def getAssignment (w : World) (id : String) : Option Assignment :=
  w.store.assignments.find? (fun a => a.id == id)

/-- The update has no condition on the stored status. -/
def updateChangeStatus (w : World) (id : String) (status : ChangeStatus) : World :=
  { w with
    store :=
      { w.store with
        changeSets :=
          Table.updateWhere (fun c => c.id == id)
            (fun c => { c with status := status }) w.store.changeSets }
    resolutions :=
      w.resolutions ++
        (if isOpen status then []
          else (w.store.changeSets.filter (fun c => c.id == id && isOpen c.status)).map
            ChangeSet.id) }

def insertChangeSet (w : World) (change : ChangeSet) : World :=
  w.withStore { w.store with changeSets := w.store.changeSets ++ [change] }

def write (w : World) (id : String) : World :=
  { w with writes := w.writes ++ [id] }

/-- The threads of the assignments with these ids. -/
def endedRow (w : World) (id : String) : List (String × String) :=
  ((w.getAssignment id).map (fun a => (id, a.threadId))).toList

end World

/-!
## Applying a change set
-/

/-- An overwrite copies the listed files, and only those. -/
def writesNothing (change : ChangeSet) (overwrite : Bool) : Bool :=
  overwrite && change.files.isEmpty && !(Text.trim change.patch).isEmpty

/-- The git operation that writes a change set.  A blank patch leaves nothing to
write, and counts as written when the operation succeeds. -/
def writePatch (w : World) (change : ChangeSet) (overwrite : Bool) :
    GitOutcome -> World
  | .done => if writesNothing change overwrite then w else w.write change.id
  | .failed true => w.write change.id
  | .failed false => w

def afterDirty (change : ChangeSet) (overwrite dirty : Bool) : Call :=
  if dirty && !overwrite then .applyConflict change
  else if overwrite then
    match change.baseRef with
    | none => .returned
    | some _ => .applyWrite change true
  else .applyCheck change

def afterWrite (change : ChangeSet) (overwrite : Bool) : GitOutcome -> Call
  | .done =>
      if overwrite then .applyActivity change
      else .applyUpdate change .applied
  | .failed _ => .returned

/-!
## Finishing an assignment
-/

def finishedThreadStatus (state : SessionState) (completed : Bool) : TaskStatus :=
  match state with
  | .completed => if completed then .done else .review
  | .interrupted => .paused
  | .failed => .failed
  | .running => .running

/-- After the lease was given up: a completed assignment may need no review. -/
def afterFinish (id threadId : String) (state : SessionState) : Call :=
  if state = .completed then .finishReview id threadId
  else .settleTurn id threadId state (finishedThreadStatus state false)

section Execution

variable (sha256 : String -> String)

/-- The step of a call: the world, and what the call stands before next. -/
def Call.step (w : World) (call : Call) (input : Input) : Option (World × Call) :=
  match call, input with
  | .returned, _ => none
  | _, .fault => some (w, .returned)
  | .createChecks input, .checks localRun now =>
      match checkDevice w.store input localRun now with
      | some _ => some (w, .returned)
      | none => some (w, .createLocks input)
  | .createLocks input, .tick _ =>
      match checkLocks w.store input with
      | some _ => some (w, .returned)
      | none => some (w, .createTurn input)
  | .createTurn input, .tick _ =>
      if w.turns.any (fun t => t.assignmentId == input.id) then none
      else
        some
          ({ w with
              turns :=
                w.turns ++
                  [{ assignmentId := input.id, status := .running }] },
            .createInsert input)
  | .createInsert input, .tick now =>
      match w.store.insertAssignment (newRow input now) now with
      | .error _ => some (w, .returned)
      | .ok st => some (w.withStore st, .createThread input.threadId)
  | .createThread threadId, .tick _ =>
      some (w.saveThread threadId .queued, .returned)
  | .claim id deviceId hash expires, .tick now =>
      match w.store.claimAssignment id deviceId hash expires now, w.getAssignment id with
      | some st, some a => some (w.withStore st, .claimThread a.threadId)
      | _, _ => some (w, .returned)
  | .claimThread threadId, .tick _ =>
      some (w.saveThread threadId .running, .returned)
  | .renew id hash expires, .tick now =>
      some (w.withStore ((w.store.renewLease id hash expires now).getD w.store),
        .returned)
  | .report hash change, .tick now =>
      match w.store.validateLease change.assignmentId hash now with
      | none => some (w, .returned)
      | some _ => some (w, .reportInsert change)
  | .reportInsert change, .tick _ =>
      match w.getChangeSet change.id with
      | some _ => some (w, .returned)
      | none =>
          some
            (w.insertChangeSet
              { change with
                files := change.files.take 2000
                patchSha256 := sha256 change.patch
                status := .pending },
              .returned)
  | .finish id hash state error, .tick now =>
      match finishStatus state with
      | .error _ => some (w, .returned)
      | .ok status =>
          match w.store.finishAssignment id hash status error now,
              w.getAssignment id with
          | some st, some a => some (w.withStore st, afterFinish id a.threadId state)
          | _, _ => some (w, .returned)
  | .finishReview id threadId, .tick _ =>
      match w.store.completeAssignmentReview id with
      | some st =>
          some
            (w.withStore st,
              .settleTurn id threadId .completed
                (finishedThreadStatus .completed true))
      | none =>
          some
            (w,
              .settleTurn id threadId .completed
                (finishedThreadStatus .completed false))
  | .settleTurn id threadId state status, .tick _ =>
      some (w.finishTurn id state, .settleThread threadId status)
  | .settleThread threadId status, .tick _ =>
      some (w.saveThread threadId status, .returned)
  | .apply id overwrite, .tick _ =>
      match w.getChangeSet id with
      | none => some (w, .returned)
      | some change =>
          if isOpen change.status && sha256 change.patch == change.patchSha256 then
            some (w, .applyDirty change overwrite)
          else some (w, .returned)
  | .applyDirty change overwrite, .dirty dirty =>
      some (w, afterDirty change overwrite dirty)
  | .applyConflict change, .tick _ =>
      some (w.updateChangeStatus change.id .conflict, .returned)
  | .applyCheck change, .applies applies =>
      if applies then some (w, .applyWrite change false)
      else some (w, .applyConflict change)
  | .applyWrite change overwrite, .git outcome =>
      some (writePatch w change overwrite outcome, afterWrite change overwrite outcome)
  | .applyActivity change, .tick _ =>
      some (w, .applyUpdate change .appliedWithOverwrite)
  | .applyUpdate change status, .tick _ =>
      some (w.updateChangeStatus change.id status, .completeReview change.assignmentId)
  | .reject id, .tick _ =>
      match w.getChangeSet id with
      | none => some (w, .returned)
      | some change =>
          if isOpen change.status then some (w, .rejectUpdate change)
          else some (w, .returned)
  | .rejectUpdate change, .tick _ =>
      some
        (w.updateChangeStatus change.id .rejected,
          .completeReview change.assignmentId)
  | .completeReview assignmentId, .tick _ =>
      match w.store.completeAssignmentReview assignmentId,
          w.getAssignment assignmentId with
      | some st, some a =>
          some (w.withStore st, .settleThread a.threadId .done)
      | _, _ => some (w, .returned)
  | .cancel id, .tick now =>
      match w.store.cancelAssignment id now, w.getAssignment id with
      | some st, some a =>
          some
            (w.withStore st,
              .settleTurn id a.threadId .interrupted .paused)
      | _, _ => some (w, .returned)
  | .revoke deviceId, .tick now =>
      match w.store.getDevice deviceId with
      | none => some (w, .returned)
      | some _ => some (w.withStore (w.store.revokeDevice deviceId now), .returned)
  | .registerDevice id name capabilities reactivate, .tick now =>
      some
        (w.withStore (w.store.upsertDevice id name capabilities reactivate now),
          .returned)
  | .sweep, .tick now =>
      match w.store.selectExpired now with
      | [] => some (w, .returned)
      | ids => some (w, .sweepExpire ids [])
  | .sweepExpire [] ended, .tick _ => some (w, .sweepOffline ended)
  | .sweepExpire (id :: ids) ended, .tick now =>
      some
        (w.withStore (w.store.expireOne id now),
          .sweepExpire ids (ended ++ w.endedRow id))
  | .sweepOffline ended, .tick now =>
      some (w, .sweepFail (w.store.selectOffline now) ended)
  | .sweepFail [] ended, .tick _ => some (w, .sweepTurn ended)
  | .sweepFail (id :: ids) ended, .tick now =>
      some
        (w.withStore (w.store.failOne id now),
          .sweepFail ids (ended ++ w.endedRow id))
  | .sweepTurn [], .tick _ => some (w, .returned)
  | .sweepTurn ((id, threadId) :: rest), .tick _ =>
      some (w.finishTurn id .interrupted, .sweepThread threadId rest)
  | .sweepThread threadId rest, .tick _ =>
      some (w.saveThread threadId .waitingForNetwork, .sweepTurn rest)
  | _, _ => none

inductive Request where
  | create (input : NewAssignment)
  | claim (id deviceId hash : String) (expires : Nat)
  | renew (id hash : String) (expires : Nat)
  | report (hash : String) (change : ChangeSet)
  | finish (id hash : String) (state : SessionState) (error : Option String)
  | apply (id : String) (overwrite : Bool)
  | reject (id : String)
  | cancel (id : String)
  | revoke (deviceId : String)
  | registerDevice (id name : String) (capabilities : List AgentCapability)
      (reactivate : Bool)
  | sweep
deriving DecidableEq, Repr

def Request.call : Request -> Call
  | .create input => .createChecks input
  | .claim id deviceId hash expires => .claim id deviceId hash expires
  | .renew id hash expires => .renew id hash expires
  | .report hash change => .report hash change
  | .finish id hash state error => .finish id hash state error
  | .apply id overwrite => .apply id overwrite
  | .reject id => .reject id
  | .cancel id => .cancel id
  | .revoke deviceId => .revoke deviceId
  | .registerDevice id name capabilities reactivate =>
      .registerDevice id name capabilities reactivate
  | .sweep => .sweep

inductive Action where
  | call (request : Request)
  | step (i : Nat) (input : Input)
deriving DecidableEq, Repr

def step (w : World) : Action -> Option World
  | .call request => some { w with calls := w.calls ++ [request.call] }
  | .step i input =>
      match w.calls[i]? with
      | none => none
      | some call =>
          match call.step sha256 w input with
          | none => none
          | some (w', next) => some { w' with calls := w.calls.set i next }

/-- No device is paired and nothing is assigned; the threads are any. -/
def machine : Machine World Action where
  start := fun w =>
    w.store = Store.empty ∧ w.turns = [] ∧ w.calls = [] ∧ w.writes = [] ∧
      w.resolutions = []
  step := step sha256

end Execution

end Calls
end Collaboration
end Perpetual
