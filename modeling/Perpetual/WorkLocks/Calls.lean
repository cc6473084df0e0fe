import Perpetual.Foundation.Cells
import Perpetual.Foundation.Machine
import Perpetual.Foundation.Table

/-!
# Repository locks of work nodes

The lock table of the work graph, the calls that start sessions, and the
sessions.  `run_work_node` takes the locks of its node and then starts the task
or thread of the node; every other start (a task run by hand, a scheduler
continuation, a fallback, a follow-up message, the drain of a queue) goes to the
same start without them.  Every session that ends deletes the locks of its node,
whoever took them.

The tasks and threads are the works.  A start is the common part of
`run_task_inner` and `run_agent_thread_inner`: the registry check, the
preparation, the adapter's start and the registration.
-/

namespace Perpetual
namespace WorkLocks

open Foundation

inductive PermissionPolicy where
  | readOnly
  | workspaceWrite
  | ask
  | autonomous
deriving DecidableEq, Repr

def PermissionPolicy.writes (permission : PermissionPolicy) : Bool :=
  permission != .readOnly

/-- The task or thread of every node and the node of every task or thread; a work
has one node at most. -/
structure Nodes where
  workOf : String -> Option String
  nodeOf : String -> Option String
  paired : forall node work, nodeOf work = some node ↔ workOf node = some work

structure Binding where
  nodeId : String
  repoId : String
deriving DecidableEq, Repr

/-- A row of the locks; its key is the repository, since the glob and the mode are
always the same. -/
structure WorkLock where
  nodeId : String
  repoId : String
deriving DecidableEq, Repr

/-!
## Calls and sessions
-/

/-- How far a call is: the gate of `run_work_node`, its look at the locks, the
repositories it has yet to lock, its context packet; then the start; then the
deletion of the locks after a start that failed. -/
inductive CallPc where
  | gating
  | checkingLocks
  | listing
  | acquiring (rest : List String)
  | packing
  | entering
  | preparing
  | registering (session : Nat)
  | releasing
  | returned
deriving DecidableEq, Repr

/-- `node` is the node of a call of `run_work_node`. -/
structure Call where
  node : Option String
  work : Option String
  permission : PermissionPolicy
  pc : CallPc
deriving DecidableEq, Repr

inductive Consumer where
  | unregistered
  | consuming
  | settling
  | finished
deriving DecidableEq, Repr

structure Session where
  work : String
  permission : PermissionPolicy
  live : Bool
  consumer : Consumer
deriving DecidableEq, Repr

/-- `stops` are the calls of `stop_work_node` that have cancelled and have yet to
delete the locks. -/
structure World where
  bindings : List Binding
  locks : List WorkLock
  calls : List Call
  active : String -> Bool
  sessions : List Session
  stops : List (Option String)

def World.new : World :=
  { bindings := []
    locks := []
    calls := []
    active := fun _ => false
    sessions := []
    stops := [] }

/-!
## The tables
-/

def World.reposOf (w : World) (node : String) : List String :=
  (Table.selectWhere (fun b => b.nodeId == node) w.bindings).map Binding.repoId

def World.conflictingLocks (w : World) (node : String) : List String :=
  (Table.selectWhere
    (fun l => l.nodeId != node && (w.reposOf node).contains l.repoId)
    w.locks).map WorkLock.nodeId

def World.releaseLocks (w : World) (node : String) : World :=
  { w with locks := Table.deleteWhere (fun l => l.nodeId == node) w.locks }

/-- One insertion of `acquire_locks`; the key refuses a repository that any node
has locked. -/
def World.insertLock (w : World) (node repo : String) : Option World :=
  if w.locks.any (fun l => l.repoId == repo) then none
  else some { w with locks := w.locks ++ [{ nodeId := node, repoId := repo }] }

inductive Input where
  | tick
  | refuse
  | queue
deriving DecidableEq, Repr

def World.moveCall (w : World) (k : Nat) (call : Call) (pc : CallPc) : World :=
  { w with calls := w.calls.set k { call with pc := pc } }

/-- Where a call goes when its start fails: `run_work_node` deletes the locks it
needed. -/
def Call.failed (call : Call) : CallPc :=
  if call.node.isSome && call.permission.writes then .releasing
  else .returned

def World.launch (w : World) (k : Nat) (call : Call) (work : String) : World :=
  { w.moveCall k call (.registering w.sessions.length) with
    sessions :=
      w.sessions ++
        [{ work := work
           permission := call.permission
           live := true
           consumer := .unregistered }] }

def World.register (w : World) (k c : Nat) (call : Call) (s : Session) : World :=
  { w.moveCall k call .returned with
    active := Function.update w.active s.work true
    sessions := w.sessions.set c { s with consumer := .consuming } }

/-- The steps of `run_work_node` before the start.  The checks and the packet can
fail, and then the locks that were taken stay. -/
def World.stepRun (w : World) (k : Nat) (call : Call) (node : String)
    (input : Input) : Option World :=
  match call.pc, input with
  | .gating, .tick =>
      some (w.moveCall k call
        (if call.permission.writes then .checkingLocks else .packing))
  | .gating, .refuse => some (w.moveCall k call .returned)
  | .checkingLocks, .tick =>
      some (w.moveCall k call
        (if w.conflictingLocks node = [] then .listing else .returned))
  | .listing, .tick =>
      some (w.moveCall k call (.acquiring (w.reposOf node)))
  | .acquiring (repo :: rest), .tick =>
      match w.insertLock node repo with
      | some w' => some (w'.moveCall k call (.acquiring rest))
      | none => some (w.moveCall k call .returned)
  | .acquiring [], .tick => some (w.moveCall k call .packing)
  | .packing, .tick =>
      some (w.moveCall k call
        (if call.work.isSome then .entering else call.failed))
  | .packing, .refuse => some (w.moveCall k call .returned)
  | .releasing, .tick =>
      some ((w.releaseLocks node).moveCall k call .returned)
  | _, _ => none

/-- The steps of the start.  A thread that is active, or whose provider is limited,
can keep the message in its queue and return without an error. -/
def World.stepStart (w : World) (k : Nat) (call : Call) (work : String)
    (input : Input) : Option World :=
  match call.pc, input with
  | .entering, .tick =>
      some (w.moveCall k call
        (if w.active work then call.failed else .preparing))
  | .entering, .queue =>
      if w.active work then some (w.moveCall k call .returned) else none
  | .preparing, .tick => some (w.launch k call work)
  | .preparing, .refuse => some (w.moveCall k call call.failed)
  | .preparing, .queue => some (w.moveCall k call .returned)
  | .registering c, .tick =>
      match w.sessions[c]? with
      | some s => some (w.register k c call s)
      | none => none
  | _, _ => none

def World.stepCall (w : World) (k : Nat) (call : Call) (input : Input) :
    Option World :=
  match call.node with
  | some node =>
      match w.stepRun k call node input with
      | some w' => some w'
      | none => call.work.bind (fun work => w.stepStart k call work input)
  | none => call.work.bind (fun work => w.stepStart k call work input)

inductive Action where
  | bind (node repo : String)
  | unbind (node : String)
  | runNode (node : String) (permission : PermissionPolicy)
  | start (work : String) (permission : PermissionPolicy)
  | step (call : Nat) (input : Input)
  | terminal (session : Nat)
  | remove (session : Nat)
  | release (session : Nat)
  | stopNode (node : String)
  | releaseStop (stop : Nat)
  | deleteNode (node : String)
deriving DecidableEq, Repr

def World.setSession (w : World) (c : Nat) (s : Session) : World :=
  { w with sessions := w.sessions.set c s }

def World.terminal (w : World) (c : Nat) : Option World :=
  match w.sessions[c]? with
  | some s => if s.live then some (w.setSession c { s with live := false }) else none
  | none => none

def World.remove (w : World) (c : Nat) : Option World :=
  match w.sessions[c]? with
  | some s =>
      if s.consumer = .consuming ∧ s.live = false then
        some
          { w.setSession c { s with consumer := .settling } with
            active := Function.update w.active s.work false }
      else none
  | none => none

section Machine

variable (g : Nodes)

/-- `release_locks_for_task` and `release_locks_for_thread`. -/
def World.releaseLocksFor (w : World) (work : String) : World :=
  match g.nodeOf work with
  | some node => w.releaseLocks node
  | none => w

def World.release (w : World) (c : Nat) : Option World :=
  match w.sessions[c]? with
  | some s =>
      if s.consumer = .settling then
        some ((w.releaseLocksFor g s.work).setSession c
          { s with consumer := .finished })
      else none
  | none => none

/-- The cancel of a stop finds a session, and the locks are deleted after it. -/
def World.stopNode (w : World) (node : String) : Option World :=
  if (g.workOf node).any w.active then
    some { w with stops := w.stops ++ [some node] }
  else none

def World.releaseStop (w : World) (j : Nat) : Option World :=
  match w.stops[j]? with
  | some (some node) =>
      some { w.releaseLocks node with stops := w.stops.set j none }
  | _ => none

def step (w : World) : Action -> Option World
  | .bind node repo =>
      if w.bindings.contains { nodeId := node, repoId := repo } then none
      else
        some
          { w with bindings := w.bindings ++ [{ nodeId := node, repoId := repo }] }
  | .unbind node =>
      some
        { w with bindings := Table.deleteWhere (fun b => b.nodeId == node) w.bindings }
  | .runNode node permission =>
      some
        { w with
          calls :=
            w.calls ++
              [{ node := some node
                 work := g.workOf node
                 permission := permission
                 pc := .gating }] }
  | .start work permission =>
      some
        { w with
          calls :=
            w.calls ++
              [{ node := none
                 work := some work
                 permission := permission
                 pc := .entering }] }
  | .step k input =>
      match w.calls[k]? with
      | some call => w.stepCall k call input
      | none => none
  | .terminal c => w.terminal c
  | .remove c => w.remove c
  | .release c => w.release g c
  | .stopNode node => w.stopNode g node
  | .releaseStop j => w.releaseStop j
  | .deleteNode node =>
      some
        { w.releaseLocks node with
          bindings := Table.deleteWhere (fun b => b.nodeId == node) w.bindings }

def machine : Machine World Action where
  start := fun w => w = World.new
  step := step g

end Machine

end WorkLocks
end Perpetual
