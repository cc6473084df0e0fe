import Perpetual.Collaboration.Store
import Perpetual.Foundation.Machine

/-!
# The collaboration coordinator

The coordinator's requests over the store.  Every statement, or transaction, is
one action.  A creation looks at the device and at the locked repositories before
it inserts, and a sweep keeps the ids it has selected while it handles them one
by one; both are in flight between their statements.

A statement binds a clock reading that was taken when it was built.  The reading
is never ahead of the clock.  The token hash is a parameter.
-/

namespace Perpetual
namespace Collaboration

open Foundation

/-!
## Requests in flight
-/

/-- The input of a creation.  `threadRepoIds` are the repositories bound to the
thread when the request reads them. -/
structure NewAssignment where
  id : String
  threadId : String
  deviceId : String
  agent : AgentKind
  permission : String
  executionBackend : ExecutionBackend
  threadRepoIds : List String
deriving DecidableEq, Repr

inductive CreateStage where
  | checkDevice
  | checkLocks
  | insert
  | finished (error : Option CoreError)
deriving DecidableEq, Repr

structure Create where
  input : NewAssignment
  stage : CreateStage
deriving DecidableEq, Repr

def validatePermission (permission : String) : Option CoreError :=
  if permission = "read_only" ∨ permission = "workspace_write" ∨
      permission = "ask" ∨ permission = "autonomous" then none
  else some (.other "Unsupported permission mode.")

/-- The checks of a creation up to and including the device row.  A local run of
the thread is a fact of the session registry. -/
def checkDevice (st : Store) (input : NewAssignment) (localRun : Bool)
    (now : Nat) : Option CoreError :=
  if localRun then
    some (.other
      "Stop the local run before assigning this session to another device.")
  else
    match validatePermission input.permission with
    | some error => some error
    | none =>
        if input.executionBackend = .cloud then
          some (.other
            "Provider cloud runs are coordinated separately from device runs.")
        else
          match st.getDevice input.deviceId with
          | none =>
              some (.other "The selected device is no longer paired.")
          | some device =>
              if device.revokedAt.isSome then
                some (.other
                  "The selected device has been revoked. Pair it again before assigning work.")
              else if device.lastSeenAt + Store.offlineAfter < now then
                some (.other
                  (device.name ++
                    " is offline. Open Perpetual on that device and try again."))
              else if device.capabilities.any (fun c =>
                  c.agent == input.agent && c.installed && c.authenticated) then
                none
              else
                some (.other
                  (input.agent.label ++ " is not ready on " ++ device.name ++ "."))

def repoIdsOf (input : NewAssignment) : List String :=
  if input.permission = "read_only" then [] else input.threadRepoIds

/-- Repositories are named by their id here. -/
def checkLocks (st : Store) (input : NewAssignment) : Option CoreError :=
  match st.lockedRepos (repoIdsOf input) with
  | [] => none
  | locked =>
      some (.other
        ("Another shared agent is already editing " ++ ", ".intercalate locked ++
          ". Finish or review that work first."))

def newRow (input : NewAssignment) (now : Nat) : Assignment :=
  { id := input.id
    threadId := input.threadId
    deviceId := input.deviceId
    permission := input.permission
    status := .queued
    leaseTokenHash := none
    leaseExpiresAt := none
    createdAt := now
    startedAt := none
    finishedAt := none
    error := none
    repoIds := repoIdsOf input }

def insertionError (error : Store.InsertError) : CoreError :=
  if Text.contains error.display "collaboration_repo_leases.repo_id" then
    .other
      "Another shared agent claimed one of these repositories. Try again after its work is reviewed."
  else .db error.display

/-- A sweep that has ids left to expire, or ids of offline devices left to
fail.  Between the two it has yet to select the latter. -/
inductive Sweep where
  | expiring (ids : List String)
  | failing (ids : List String)
  | finished
deriving DecidableEq, Repr

def finishStatus : SessionState -> Except CoreError AssignmentStatus
  | .completed => .ok .review
  | .interrupted => .ok .failed
  | .failed => .ok .failed
  | .running =>
      .error
        (.other "A running assignment cannot be reported as finished.")

/-- `claims` records every claim that succeeded, with its token. -/
structure World where
  clock : Nat
  store : Store
  creates : List Create
  sweeps : List Sweep
  claims : List (String × String)
deriving DecidableEq, Repr

def World.new : World :=
  { clock := 0
    store := Store.empty
    creates := []
    sweeps := []
    claims := [] }

inductive Action where
  | tick (elapsed : Nat)
  | upsertDevice (id name : String) (capabilities : List AgentCapability)
      (reactivate : Bool) (now : Nat)
  | revokeDevice (id : String) (now : Nat)
  | create (input : NewAssignment)
  | advanceCreate (index : Nat) (localRun : Bool) (now : Nat)
  | claim (id deviceId token : String) (expires now : Nat)
  | renew (id token : String) (expires now : Nat)
  | finish (id token : String) (state : SessionState) (error : Option String)
      (now : Nat)
  | completeReview (id : String)
  | cancel (id : String) (now : Nat)
  | insertChangeSet (change : ChangeSet)
  | updateChangeStatus (id : String) (status : ChangeStatus)
  | beginSweep (now : Nat)
  | advanceSweep (index : Nat) (now : Nat)
deriving DecidableEq, Repr

/-- The clock reading a statement binds. -/
def Action.reading : Action -> Option Nat
  | .upsertDevice _ _ _ _ now => some now
  | .revokeDevice _ now => some now
  | .advanceCreate _ _ now => some now
  | .claim _ _ _ _ now => some now
  | .renew _ _ _ now => some now
  | .finish _ _ _ _ now => some now
  | .cancel _ now => some now
  | .beginSweep now => some now
  | .advanceSweep _ now => some now
  | _ => none

def World.withStore (w : World) (st : Store) : World :=
  { w with store := st }

def World.setCreate (w : World) (i : Nat) (c : Create) (stage : CreateStage) :
    World :=
  { w with creates := w.creates.set i { c with stage := stage } }

def World.advanceCreate (w : World) (i : Nat) (localRun : Bool) (now : Nat) :
    Option World :=
  match w.creates[i]? with
  | none => none
  | some c =>
      match c.stage with
      | .checkDevice =>
          match checkDevice w.store c.input localRun now with
          | some error =>
              some (w.setCreate i c (.finished (some error)))
          | none => some (w.setCreate i c .checkLocks)
      | .checkLocks =>
          match checkLocks w.store c.input with
          | some error =>
              some (w.setCreate i c (.finished (some error)))
          | none => some (w.setCreate i c .insert)
      | .insert =>
          match w.store.insertAssignment (newRow c.input now) now with
          | .error error =>
              some (w.setCreate i c
                (.finished (some (insertionError error))))
          | .ok st =>
              some ((w.withStore st).setCreate i c (.finished none))
      | .finished _ => none

def World.setSweep (w : World) (i : Nat) (s : Sweep) : World :=
  { w with sweeps := w.sweeps.set i s }

def World.advanceSweep (w : World) (i : Nat) (now : Nat) : Option World :=
  match w.sweeps[i]? with
  | some (.expiring (id :: rest)) =>
      some ((w.withStore (w.store.expireOne id now)).setSweep i
        (.expiring rest))
  | some (.expiring []) =>
      some (w.setSweep i (.failing (w.store.selectOffline now)))
  | some (.failing (id :: rest)) =>
      some ((w.withStore (w.store.failOne id now)).setSweep i
        (.failing rest))
  | some (.failing []) => some (w.setSweep i .finished)
  | _ => none

/-- A sweep that selects nothing expired returns at once. -/
def World.beginSweep (w : World) (now : Nat) : World :=
  match w.store.selectExpired now with
  | [] => w
  | ids => { w with sweeps := w.sweeps ++ [.expiring ids] }

section Machine

variable (hash : String -> String)

def World.claim (w : World) (id deviceId token : String) (expires now : Nat) :
    World :=
  match w.store.claimAssignment id deviceId (hash token) expires now with
  | none => w
  | some st => { w with store := st, claims := w.claims ++ [(id, token)] }

def World.finish (w : World) (id token : String) (state : SessionState)
    (error : Option String) (now : Nat) : World :=
  match finishStatus state with
  | .error _ => w
  | .ok status =>
      w.withStore
        ((w.store.finishAssignment id (hash token) status error now).getD w.store)

/-- The effect of an action whose clock reading is not ahead of the clock. -/
def perform (w : World) : Action -> Option World
  | .tick elapsed => some { w with clock := w.clock + elapsed }
  | .upsertDevice id name capabilities reactivate now =>
      some (w.withStore (w.store.upsertDevice id name capabilities reactivate now))
  | .revokeDevice id now => some (w.withStore (w.store.revokeDevice id now))
  | .create input =>
      some
        { w with
          creates :=
            w.creates ++ [{ input := input, stage := .checkDevice }] }
  | .advanceCreate i localRun now => w.advanceCreate i localRun now
  | .claim id deviceId token expires now =>
      some (w.claim hash id deviceId token expires now)
  | .renew id token expires now =>
      some (w.withStore
        ((w.store.renewLease id (hash token) expires now).getD w.store))
  | .finish id token state error now =>
      some (w.finish hash id token state error now)
  | .completeReview id =>
      some (w.withStore ((w.store.completeAssignmentReview id).getD w.store))
  | .cancel id now =>
      some (w.withStore ((w.store.cancelAssignment id now).getD w.store))
  | .insertChangeSet change =>
      some (w.withStore
        { w.store with changeSets := w.store.changeSets ++ [change] })
  | .updateChangeStatus id status =>
      some (w.withStore
        { w.store with
          changeSets :=
            Table.updateWhere (fun c => c.id == id)
              (fun c => { c with status := status }) w.store.changeSets })
  | .beginSweep now => some (w.beginSweep now)
  | .advanceSweep i now => w.advanceSweep i now

def step (w : World) (a : Action) : Option World :=
  if a.reading.any (fun now => decide (w.clock < now)) then none
  else perform hash w a

def machine : Machine World Action where
  start := fun w => w = World.new
  step := step hash

end Machine

end Collaboration
end Perpetual
