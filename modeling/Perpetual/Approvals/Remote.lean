import Perpetual.Approvals.Registry
import Perpetual.Foundation.Table

/-!
# Approvals of another device

A device that works on an assignment reports its approvals to the coordinator, where
the user decides them.  The worker of the device lists the decisions that were not
delivered, in the order they were made, and for one after the other resolves the
approval on the device and acknowledges the decision.  Both are calls: a call can fail
before it is carried out, and its answer can be lost behind it.  Either ends the
listing, and so does an approval that the device no longer waits for.

A poll that fails does not wait for the listings it has begun, so that several can be
under way.  An approval has one id here; the coordinator stores it under a digest.  A
call that is refused for its lease is one that is not carried out.
-/

namespace Perpetual
namespace Approvals

open Foundation

/-- A row of the coordinator.  `resolvedAt` is read only where there is a decision. -/
structure RemoteApproval where
  id : String
  decision : Option ApprovalDecision
  resolvedAt : Nat
  delivered : Bool
deriving DecidableEq, Repr

/-- A decision as it is listed; the worker does not see the time. -/
structure RemoteDecision where
  id : String
  decision : ApprovalDecision
  resolvedAt : Nat
deriving DecidableEq, Repr

/-- An approval on the device: it is waited for, was decided by the worker, or was
settled by somebody else, by the timer or with its session.  Settled means removed
from the registry: what its waiter is sent and what is published come behind that. -/
inductive LocalState where
  | pending
  | resolved (decision : ApprovalDecision)
  | elsewhere
deriving DecidableEq, Repr

inductive Sync where
  | ended
  | resolving (decisions : List RemoteDecision)
  | acknowledging (decision : RemoteDecision) (rest : List RemoteDecision)
deriving DecidableEq, Repr

/-- The decisions of the listing that were not acknowledged yet. -/
def Sync.open : Sync -> List RemoteDecision
  | .ended => []
  | .resolving decisions => decisions
  | .acknowledging decision rest => decision :: rest

structure RemoteWorld where
  rows : List RemoteApproval
  device : String -> Option LocalState
  syncs : List Sync
  now : Nat

def insertApproval (rows : List RemoteApproval) (id : String) : List RemoteApproval :=
  if rows.any (fun r => r.id == id) then rows
  else rows ++ [{ id := id, decision := none, resolvedAt := 0, delivered := false }]

/-- The first decision stays. -/
def resolveRemote (rows : List RemoteApproval) (id : String) (decision : ApprovalDecision)
    (now : Nat) : List RemoteApproval :=
  Table.updateWhere (fun r => r.id == id && r.decision.isNone)
    (fun r => { r with decision := some decision, resolvedAt := now }) rows

def RemoteApproval.listed (r : RemoteApproval) : Option RemoteDecision :=
  if r.delivered then none
  else r.decision.map (fun d => { id := r.id, decision := d, resolvedAt := r.resolvedAt })

/-- Decisions made at one time may be listed in any order. -/
def IsListing (rows : List RemoteApproval) (decisions : List RemoteDecision) : Prop :=
  decisions.Perm (rows.filterMap RemoteApproval.listed) ∧
    decisions.Pairwise (fun a b => a.resolvedAt ≤ b.resolvedAt)

instance (rows : List RemoteApproval) (decisions : List RemoteDecision) :
    Decidable (IsListing rows decisions) := by
  unfold IsListing
  infer_instance

def acknowledgeDecision (rows : List RemoteApproval) (id : String) : List RemoteApproval :=
  Table.updateWhere (fun r => r.id == id && r.decision.isSome)
    (fun r => { r with delivered := true }) rows

/-- `settle` is everything that ends the wait on the device but the worker.  `stop`
ends a listing: it is done, a call was not carried out, or the worker is stopped. -/
inductive RemoteAction where
  | request (id : String)
  | settle (id : String)
  | report (id : String)
  | decide (id : String) (decision : ApprovalDecision) (time : Nat)
  | list (decisions : List RemoteDecision)
  | resolve (i : Nat) (answered : Bool)
  | acknowledge (i : Nat) (answered : Bool)
  | stop (i : Nat)
deriving DecidableEq, Repr

namespace RemoteWorld

def setDevice (w : RemoteWorld) (id : String) (state : LocalState) : RemoteWorld :=
  { w with device := Function.update w.device id (some state) }

def setRows (w : RemoteWorld) (rows : List RemoteApproval) (now : Nat) : RemoteWorld :=
  { w with rows := rows, now := now }

def setSync (w : RemoteWorld) (i : Nat) (sync : Sync) : RemoteWorld :=
  { w with syncs := w.syncs.set i sync }

/-- An approval that nobody waits for is not found. -/
def resolve (w : RemoteWorld) (i : Nat) (d : RemoteDecision) (rest : List RemoteDecision)
    (answered : Bool) : RemoteWorld :=
  if w.device d.id = some .pending then
    (w.setDevice d.id (.resolved d.decision)).setSync i
      (if answered then .acknowledging d rest else .ended)
  else w.setSync i .ended

/-- An approval leaves the registry and takes the state of its settlement in one step:
the removal decides who settles it, and the one that removes it is the only one that
answers its waiter. -/
def step (w : RemoteWorld) : RemoteAction -> Option RemoteWorld
  | .request id =>
      if w.device id = none then some (w.setDevice id .pending) else none
  | .settle id =>
      if w.device id = some .pending then some (w.setDevice id .elsewhere)
      else none
  | .report id =>
      if w.device id = none then none
      else some (w.setRows (insertApproval w.rows id) w.now)
  | .decide id decision time =>
      if w.now ≤ time then some (w.setRows (resolveRemote w.rows id decision time) time)
      else none
  | .list decisions =>
      if IsListing w.rows decisions then
        some { w with syncs := w.syncs ++ [.resolving decisions] }
      else none
  | .resolve i answered =>
      match w.syncs[i]? with
      | some (.resolving (d :: rest)) => some (w.resolve i d rest answered)
      | _ => none
  | .acknowledge i answered =>
      match w.syncs[i]? with
      | some (.acknowledging d rest) =>
          some ((w.setRows (acknowledgeDecision w.rows d.id) w.now).setSync i
            (if answered then .resolving rest else .ended))
      | _ => none
  | .stop i => some (w.setSync i .ended)

end RemoteWorld

def noReports : RemoteWorld :=
  { rows := []
    device := fun _ => none
    syncs := []
    now := 0 }

def remoteMachine : Machine RemoteWorld RemoteAction where
  start := fun w => w = noReports
  step := RemoteWorld.step

end Approvals
end Perpetual
