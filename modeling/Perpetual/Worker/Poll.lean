import Perpetual.Worker.Job

/-!
# The worker of a device

The poll loop over all assignments of the device, and the machine of the worker.
`active` and `localThreadToAssignment` are the keys of the two maps of the worker;
the values are found in the jobs.  A poll waits for the claims it has started, then
for the syncs it has started.  The second wait ends as soon as one of them fails,
and the others go on without it.
-/

namespace Perpetual
namespace Worker

open Foundation

def maxParallelAssignments : Nat := 4

/-- An assignment as the coordinator lists it for the device. -/
structure Listed where
  id : String
  queued : Bool
deriving DecidableEq, Repr

inductive Outcome where
  | underWay
  | done
  | failed
deriving DecidableEq, Repr

/-- The two syncs that a poll runs for an active assignment. -/
structure Child where
  id : String
  sync : Nat
  approvals : Outcome
deriving DecidableEq, Repr

/-- `polling` is set in every stage but `idle`. -/
inductive PollStage where
  | idle
  | listing
  | stopping (assignments : List Listed) (left : List String)
  | claiming (children : List String)
  | syncing (children : List Child)
deriving DecidableEq, Repr

structure World where
  disposed : Bool
  poll : PollStage
  active : List String
  localThreadToAssignment : List String
  jobs : String -> Job

namespace World

def new : World :=
  { disposed := false
    poll := .idle
    active := []
    localThreadToAssignment := []
    jobs := fun _ => Job.new }

def context (w : World) (id : String) : Context :=
  { disposed := w.disposed
    inActive := decide (id ∈ w.active)
    inThreads := decide (id ∈ w.localThreadToAssignment) }

def setJob (w : World) (id : String) (j : Job) : World :=
  { w with jobs := Function.update w.jobs id j }

def available (w : World) : Nat := maxParallelAssignments - w.active.length

/-!
## The poll loop
-/

def pollStarts (w : World) : Option World :=
  if w.disposed then none
  else
    match w.poll with
    | .idle => some { w with poll := .listing }
    | _ => none

/-- The coordinator lists an assignment once, and as queued only before it gives it
away. -/
def pollListed (w : World) (assignments : List Listed) : Option World :=
  match w.poll with
  | .listing =>
      if (assignments.map Listed.id).Nodup ∧
          forall a, a ∈ assignments -> a.queued = true ->
            (w.jobs a.id).taken = false then
        some
          { w with
            poll :=
              .stopping assignments
                (w.active.filter (fun id => !(assignments.map Listed.id).contains id)) }
      else none
  | _ => none

def pollListFails (w : World) : Option World :=
  match w.poll with
  | .listing => some { w with poll := .idle }
  | _ => none

/-- The stop of a run that is no longer visible is answered or fails. -/
def pollStopped (w : World) : Option World :=
  match w.poll with
  | .stopping assignments (_ :: left) =>
      some { w with poll := .stopping assignments left }
  | _ => none

def toClaim (w : World) (assignments : List Listed) : List String :=
  ((assignments.filter Listed.queued).take w.available).map Listed.id

/-- `claimAndRun` is called for the queued assignments that there is room for. -/
def pollClaims (w : World) : Option World :=
  match w.poll with
  | .stopping assignments [] =>
      some
        { w with
          poll := .claiming (w.toClaim assignments)
          jobs := fun id =>
            if id ∈ w.toClaim assignments ∧ ¬ id ∈ w.active ∧ w.disposed = false then
              { w.jobs id with claim := .claiming }
            else w.jobs id }
  | _ => none

/-- Both syncs are called for every active run; the approvals of a run that is
finishing are not looked at. -/
def pollSyncs (w : World) : Option World :=
  match w.poll with
  | .claiming children =>
      if forall id, id ∈ children -> (w.jobs id).claim = .idle then
        some
          { w with
            poll :=
              .syncing
                (w.active.map (fun id =>
                  { id := id
                    sync := (w.jobs id).syncs.length
                    approvals :=
                      if w.disposed || (w.jobs id).run.finishing then .done
                      else .underWay }))
            jobs := fun id =>
              if id ∈ w.active then (w.jobs id).syncInstructions w.disposed
              else w.jobs id }
      else none
  | _ => none

/-- `syncApprovalDecisions` of a run ends. -/
def approvalsEnd (w : World) (n : Nat) (succeeds : Bool) : Option World :=
  match w.poll with
  | .syncing children =>
      match children[n]? with
      | none => none
      | some child =>
          match child.approvals with
          | .underWay =>
              some
                { w with
                  poll :=
                    .syncing
                      (children.set n
                        { child with
                          approvals :=
                            if succeeds then .done else .failed }) }
          | _ => none
  | _ => none

def childFailed (w : World) (child : Child) : Bool :=
  child.approvals == .failed ||
    ((w.jobs child.id).syncs[child.sync]?).any SyncStage.hasFailed

def childDone (w : World) (child : Child) : Bool :=
  child.approvals == .done &&
    (w.jobs child.id).syncs[child.sync]? == some .finished

def pollEnds (w : World) : Option World :=
  match w.poll with
  | .syncing children =>
      if children.any w.childFailed || children.all w.childDone then
        some { w with poll := .idle }
      else none
  | _ => none

/-!
## The maps of the worker
-/

/-- The mirror is prepared, and the run is entered in both maps. -/
def prepared (w : World) (id : String) : Option World :=
  match (w.jobs id).claim with
  | .preparing =>
      some
        { w.setJob id (w.jobs id).prepared with
          active := w.active.insert id
          localThreadToAssignment := w.localThreadToAssignment.insert id }
  | _ => none

/-- The `finally` block of `finishRun`. -/
def closes (w : World) (id : String) (succeeds : Bool) : Option World :=
  match (w.jobs id).closes succeeds with
  | none => none
  | some j =>
      some
        { w.setJob id j with
          active := w.active.filter (fun i => i != id)
          localThreadToAssignment := w.localThreadToAssignment.filter (fun i => i != id) }

def dispose (w : World) : Option World :=
  if w.disposed then none
  else
    some
      { w with
        disposed := true
        jobs := fun id =>
          if id ∈ w.active then
            { w.jobs id with
              run :=
                { (w.jobs id).run with renewTimer := false, flushTimer := false } }
          else w.jobs id
        active := []
        localThreadToAssignment := [] }

end World

inductive Action where
  | pollStarts
  | pollListed (assignments : List Listed)
  | pollListFails
  | pollStopped
  | pollClaims
  | pollSyncs
  | approvalsEnd (n : Nat) (succeeds : Bool)
  | pollEnds
  | prepared (id : String)
  | closes (id : String) (succeeds : Bool)
  | dispose
  | job (id : String) (a : Job.Action)
deriving DecidableEq, Repr

def World.step (w : World) : Action -> Option World
  | .pollStarts => w.pollStarts
  | .pollListed assignments => w.pollListed assignments
  | .pollListFails => w.pollListFails
  | .pollStopped => w.pollStopped
  | .pollClaims => w.pollClaims
  | .pollSyncs => w.pollSyncs
  | .approvalsEnd n succeeds => w.approvalsEnd n succeeds
  | .pollEnds => w.pollEnds
  | .prepared id => w.prepared id
  | .closes id succeeds => w.closes id succeeds
  | .dispose => w.dispose
  | .job id a =>
      ((w.jobs id).step (w.context id) a).map (fun j => w.setJob id j)

def machine : Machine World Action where
  start := fun w => w = World.new
  step := World.step

end Worker
end Perpetual
