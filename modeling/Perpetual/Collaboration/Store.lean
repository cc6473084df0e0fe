import Perpetual.Foundation.Table
import Perpetual.Foundation.Text
import Perpetual.Proto.Enums

/-!
# The collaboration store

The tables of the multi-device coordination and the statements on them.  A
statement that reads the clock takes its reading as an argument; timestamps are
natural numbers of milliseconds (the stored texts sort the same way).  A
statement that changes no row answers `none` and leaves the store as it was.
-/

namespace Perpetual
namespace Collaboration

open Foundation
open Table

inductive AssignmentStatus where
  | queued
  | running
  | review
  | completed
  | failed
  | cancelled
  | leaseExpired
deriving DecidableEq, Repr

/-- The statuses of the partial unique index on the thread. -/
def AssignmentStatus.isActive : AssignmentStatus -> Bool
  | .queued => true
  | .running => true
  | .review => true
  | _ => false

inductive ChangeStatus where
  | pending
  | applied
  | appliedWithOverwrite
  | conflict
  | rejected
deriving DecidableEq, Repr

structure AgentCapability where
  agent : AgentKind
  installed : Bool
  authenticated : Bool
deriving DecidableEq, Repr

structure Device where
  id : String
  name : String
  capabilities : List AgentCapability
  lastSeenAt : Nat
  revokedAt : Option Nat
deriving DecidableEq, Repr

/-- A row of the assignments.  `repoIds` is not a column: it records the
repositories the assignment was created with. -/
structure Assignment where
  id : String
  threadId : String
  deviceId : String
  permission : String
  status : AssignmentStatus
  leaseTokenHash : Option String
  leaseExpiresAt : Option Nat
  createdAt : Nat
  startedAt : Option Nat
  finishedAt : Option Nat
  error : Option String
  repoIds : List String
deriving DecidableEq, Repr

structure RepoLease where
  repoId : String
  assignmentId : String
  acquiredAt : Nat
deriving DecidableEq, Repr

structure ChangeSet where
  id : String
  assignmentId : String
  baseRef : Option String
  files : List String
  patch : String
  patchSha256 : String
  status : ChangeStatus
deriving DecidableEq, Repr

structure Store where
  devices : List Device
  assignments : List Assignment
  repoLeases : List RepoLease
  changeSets : List ChangeSet
deriving DecidableEq, Repr

namespace Store

def empty : Store :=
  { devices := []
    assignments := []
    repoLeases := []
    changeSets := [] }

def getDevice (st : Store) (id : String) : Option Device :=
  st.devices.find? (fun d => d.id == id)

def deviceAllowed (st : Store) (id : String) : Bool :=
  st.devices.any (fun d => d.id == id && d.revokedAt.isNone)

def upsertDevice (st : Store) (id name : String)
    (capabilities : List AgentCapability) (reactivate : Bool) (now : Nat) :
    Store :=
  if st.devices.any (fun d => d.id == id) then
    { st with
      devices :=
        updateWhere (fun d => d.id == id)
          (fun d =>
            { d with
              name := name
              capabilities := capabilities
              lastSeenAt := now
              revokedAt := if reactivate then none else d.revokedAt })
          st.devices }
  else
    { st with
      devices :=
        st.devices ++
          [{ id := id
             name := name
             capabilities := capabilities
             lastSeenAt := now
             revokedAt := none }] }

def releaseRepoLeases (st : Store) (assignmentId : String) : Store :=
  { st with
    repoLeases :=
      deleteWhere (fun l => l.assignmentId == assignmentId) st.repoLeases }

def revokedRow (now : Nat) (a : Assignment) : Assignment :=
  { a with
    status := .cancelled
    finishedAt := some now
    leaseTokenHash := none
    leaseExpiresAt := none
    error := some "device access revoked" }

/-- One transaction: the device is marked, its queued and running assignments
are cancelled, and the leases of its cancelled assignments are deleted. -/
def revokeDevice (st : Store) (deviceId : String) (now : Nat) : Store :=
  let assignments :=
    updateWhere
      (fun a => a.deviceId == deviceId &&
        (a.status == .queued ||
          a.status == .running))
      (revokedRow now) st.assignments
  { st with
    devices :=
      updateWhere (fun d => d.id == deviceId)
        (fun d => { d with revokedAt := some now }) st.devices
    assignments := assignments
    repoLeases :=
      deleteWhere
        (fun l => assignments.any (fun a => a.id == l.assignmentId &&
          a.deviceId == deviceId && a.status == .cancelled))
        st.repoLeases }

/-!
## Creation
-/

/-- The constraint that refuses an insertion, as the database names it. -/
inductive InsertError where
  | assignmentId
  | activeThread
  | device
  | repoLease
deriving DecidableEq, Repr

def InsertError.display : InsertError -> String
  | .assignmentId =>
      "UNIQUE constraint failed: collaboration_assignments.id"
  | .activeThread =>
      "UNIQUE constraint failed: collaboration_assignments.thread_id"
  | .device => "FOREIGN KEY constraint failed"
  | .repoLease =>
      "UNIQUE constraint failed: collaboration_repo_leases.repo_id"

def insertLeases (assignmentId : String) (now : Nat) :
    List RepoLease -> List String -> Option (List RepoLease)
  | leases, [] => some leases
  | leases, repoId :: rest =>
      if leases.any (fun l => l.repoId == repoId) then none
      else
        insertLeases assignmentId now
          (leases ++
            [{ repoId := repoId
               assignmentId := assignmentId
               acquiredAt := now }])
          rest

/-- One transaction: a failing lease rolls the assignment back. -/
def insertAssignment (st : Store) (a : Assignment) (now : Nat) :
    Except InsertError Store :=
  if st.assignments.any (fun b => b.id == a.id) then
    .error .assignmentId
  else if st.assignments.any
      (fun b => b.threadId == a.threadId && b.status.isActive) then
    .error .activeThread
  else if !st.devices.any (fun d => d.id == a.deviceId) then
    .error .device
  else
    match insertLeases a.id now st.repoLeases a.repoIds with
    | none => .error .repoLease
    | some leases =>
        .ok
          { st with
            assignments := st.assignments ++ [a]
            repoLeases := leases }

/-- The locks a creation looks at before it inserts. -/
def lockedRepos (st : Store) (repoIds : List String) : List String :=
  (selectWhere (fun l => repoIds.contains l.repoId) st.repoLeases).map
    RepoLease.repoId

/-!
## The lease of a running assignment
-/

def claimable (st : Store) (id deviceId : String) (a : Assignment) : Bool :=
  a.id == id && a.deviceId == deviceId && a.status == .queued &&
    st.deviceAllowed deviceId

def claimedRow (hash : String) (expires now : Nat) (a : Assignment) : Assignment :=
  { a with
    status := .running
    leaseTokenHash := some hash
    leaseExpiresAt := some expires
    startedAt := some (a.startedAt.getD now) }

def claimAssignment (st : Store) (id deviceId hash : String)
    (expires now : Nat) : Option Store :=
  if affected (st.claimable id deviceId) st.assignments then
    some
      { st with
        assignments :=
          updateWhere (st.claimable id deviceId)
            (claimedRow hash expires now) st.assignments }
  else none

/-- The condition the three fenced statements share. -/
def leaseHeld (id hash : String) (now : Nat) (a : Assignment) : Bool :=
  a.id == id && a.leaseTokenHash == some hash &&
    a.status == .running &&
    a.leaseExpiresAt.any (fun expires => decide (now < expires))

def validateLease (st : Store) (id hash : String) (now : Nat) :
    Option Assignment :=
  st.assignments.find?
    (fun a => leaseHeld id hash now a && st.deviceAllowed a.deviceId)

def renewLease (st : Store) (id hash : String) (expires now : Nat) :
    Option Store :=
  if affected (leaseHeld id hash now) st.assignments then
    some
      { st with
        assignments :=
          updateWhere (leaseHeld id hash now)
            (fun a => { a with leaseExpiresAt := some expires })
            st.assignments }
  else none

def finishedRow (status : AssignmentStatus) (error : Option String) (now : Nat)
    (a : Assignment) : Assignment :=
  { a with
    status := status
    finishedAt := some now
    error := error
    leaseTokenHash := none
    leaseExpiresAt := none }

def finishAssignment (st : Store) (id hash : String) (status : AssignmentStatus)
    (error : Option String) (now : Nat) : Option Store :=
  if affected (leaseHeld id hash now) st.assignments then
    let finished :=
      { st with
        assignments :=
          updateWhere (leaseHeld id hash now)
            (finishedRow status error now) st.assignments }
    some
      (if status = .review then finished
        else finished.releaseRepoLeases id)
  else none

/-!
## Leaving the active statuses
-/

def cancellable (id : String) (a : Assignment) : Bool :=
  a.id == id &&
    (a.status == .queued ||
      a.status == .running ||
      a.status == .review ||
      a.status == .failed ||
      a.status == .leaseExpired)

def cancelledRow (now : Nat) (a : Assignment) : Assignment :=
  { a with
    status := .cancelled
    finishedAt := some now
    leaseTokenHash := none
    leaseExpiresAt := none
    error := some "cancelled by user" }

def cancelAssignment (st : Store) (id : String) (now : Nat) : Option Store :=
  if affected (cancellable id) st.assignments then
    some
      (releaseRepoLeases
        { st with
          assignments :=
            updateWhere (cancellable id) (cancelledRow now)
              st.assignments }
        id)
  else none

def unsettled (st : Store) (id : String) : Bool :=
  st.changeSets.any (fun c => c.assignmentId == id &&
    (c.status == .pending || c.status == .conflict))

def reviewable (st : Store) (id : String) (a : Assignment) : Bool :=
  a.id == id && a.status == .review && !st.unsettled id

def completeAssignmentReview (st : Store) (id : String) : Option Store :=
  if affected (st.reviewable id) st.assignments then
    some
      (releaseRepoLeases
        { st with
          assignments :=
            updateWhere (st.reviewable id)
              (fun a => { a with status := .completed })
              st.assignments }
        id)
  else none

/-!
## The sweep

`expire_stale_assignments` selects, and then handles each selected id in a
transaction of its own.
-/

def offlineAfter : Nat := 45000

def selectExpired (st : Store) (now : Nat) : List String :=
  (selectWhere
    (fun a => a.status == .running &&
      a.leaseExpiresAt.any (fun expires => decide (expires ≤ now)))
    st.assignments).map Assignment.id

def expiredRow (now : Nat) (a : Assignment) : Assignment :=
  { a with
    status := .leaseExpired
    finishedAt := some now
    leaseTokenHash := none
    leaseExpiresAt := none
    error := some "device lease expired" }

def expireOne (st : Store) (id : String) (now : Nat) : Store :=
  releaseRepoLeases
    { st with
      assignments :=
        updateWhere
          (fun a => a.id == id && a.status == .running)
          (expiredRow now) st.assignments }
    id

def selectOffline (st : Store) (now : Nat) : List String :=
  (selectWhere
    (fun a => a.status == .queued &&
      st.devices.any (fun d => d.id == a.deviceId &&
        decide (d.lastSeenAt + offlineAfter ≤ now)))
    st.assignments).map Assignment.id

def offlineRow (now : Nat) (a : Assignment) : Assignment :=
  { a with
    status := .failed
    finishedAt := some now
    error := some "device went offline before starting" }

def failOne (st : Store) (id : String) (now : Nat) : Store :=
  releaseRepoLeases
    { st with
      assignments :=
        updateWhere
          (fun a => a.id == id && a.status == .queued)
          (offlineRow now) st.assignments }
    id

end Store

/-!
## What an insertion and an upsert leave
-/

theorem insertAssignment_spec {st st' : Store} {a : Assignment} {now : Nat}
    (h : st.insertAssignment a now = .ok st') :
    (forall b, b ∈ st.assignments -> b.id ≠ a.id) ∧
      st'.assignments = st.assignments ++ [a] ∧
      Store.insertLeases a.id now st.repoLeases a.repoIds = some st'.repoLeases ∧
      st'.changeSets = st.changeSets ∧
      st'.devices = st.devices ∧ exists d, d ∈ st.devices ∧ d.id = a.deviceId := by
  unfold Store.insertAssignment at h
  split at h
  · cases h
  · rename_i hnew
    split at h
    · cases h
    · split at h
      · cases h
      · rename_i hdevice
        split at h
        · cases h
        · rename_i leases hleases
          cases h
          refine ⟨?_, rfl, hleases, rfl, rfl, by simpa using hdevice⟩
          intro b hb hbid
          apply hnew
          exact List.any_eq_true.mpr ⟨b, hb, by simp [hbid]⟩

theorem upsertDevice_tables (st : Store) (id name : String)
    (capabilities : List AgentCapability) (reactivate : Bool) (now : Nat) :
    (st.upsertDevice id name capabilities reactivate now).assignments = st.assignments ∧
      (st.upsertDevice id name capabilities reactivate now).changeSets = st.changeSets ∧
      (st.upsertDevice id name capabilities reactivate now).repoLeases = st.repoLeases := by
  unfold Store.upsertDevice
  split
  · exact ⟨rfl, rfl, rfl⟩
  · exact ⟨rfl, rfl, rfl⟩

end Collaboration
end Perpetual
