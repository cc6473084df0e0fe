import Perpetual.Sessions.TaskStart

/-!
# Starting thread sessions

The machine of thread starts: every call of `run_agent_thread_inner` (by the user,
an edit, the scheduler, the plan driver, a fallback or the drain of the queue), the
start locks, the registry and the sessions.  An action runs one call up to its
next await, or one consumer.

The start lock of a thread is a mutex object that the lock table refers to
weakly.  An entry is dead when no call keeps its object alive; every call of
`lock_start` drops the dead entries of all threads.  A call keeps the object alive
from `lock_start` until its guard has been dropped, which first unlocks the mutex
and then lets the object go.
-/

namespace Perpetual
namespace Launch

open Foundation
open Sessions (Session Consumer Ending freshSession)

inductive LaunchPc where
  | entering
  | waiting
  | editing
  | checkingAssignment
  | checkingRegistry
  | storing (message : String)
  | checkingCloud
  | preparing
  | limited
  | launching
  | registering (session : Nat)
  | returned
deriving DecidableEq, Repr

def LaunchPc.holds : LaunchPc -> Bool
  | entering => false
  | waiting => false
  | limited => false
  | returned => false
  | _ => true

structure Call where
  thread : String
  message : Option String
  edits : Bool
  arc : Option Nat
  pc : LaunchPc
deriving DecidableEq, Repr

/-- `mutexes` says of every lock object ever made whether it is locked. -/
structure World where
  launches : String -> Option Nat
  mutexes : List Bool
  calls : List Call
  active : String -> Option Nat
  sessions : List Session
  queued : String -> List String

def World.new : World :=
  { launches := fun _ => none
    mutexes := []
    calls := []
    active := fun _ => none
    sessions := []
    queued := fun _ => [] }

/-!
## The start lock
-/

/-- The object is alive: its strong count is not zero. -/
def World.alive (w : World) (lock : Nat) : Bool :=
  w.calls.any (fun call => call.arc == some lock)

def World.purged (w : World) (thread : String) : Option Nat :=
  (w.launches thread).filter w.alive

def World.setCall (w : World) (i : Nat) (call : Call) : World :=
  { w with calls := w.calls.set i call }

/-- The look-up of `lock_start`, under the lock of the table. -/
def World.lockStart (w : World) (i : Nat) (call : Call) : World :=
  match w.purged call.thread with
  | some lock =>
      { w.setCall i { call with arc := some lock, pc := .waiting } with
        launches := w.purged }
  | none =>
      { w.setCall i
          { call with arc := some w.mutexes.length, pc := .waiting } with
        launches := Function.update w.purged call.thread (some w.mutexes.length)
        mutexes := w.mutexes ++ [false] }

/-- The mutex is granted to one of the calls that wait for it. -/
def World.acquire (w : World) (i : Nat) (call : Call) : Option World :=
  match call.arc with
  | none => none
  | some lock =>
      if w.mutexes[lock]? = some false then
        some
          { w.setCall i
              { call with
                pc :=
                  if call.edits then .editing
                  else .checkingAssignment } with
            mutexes := w.mutexes.set lock true }
      else none

/-- The guard is dropped: the mutex is unlocked, and the object is still alive. -/
def World.unlock (w : World) (i : Nat) (call : Call) (pc : LaunchPc) : World :=
  { w.setCall i { call with pc := pc } with
    mutexes :=
      match call.arc with
      | none => w.mutexes
      | some lock => w.mutexes.set lock false }

def World.isActive (w : World) (thread : String) : Bool :=
  (w.active thread).isSome

inductive Input where
  | tick
  | refuse
  | limit
deriving DecidableEq, Repr

/-- A start that finds the registry free goes on; otherwise it queues its message
or, without one, fails. -/
def World.checkRegistry (w : World) (i : Nat) (call : Call) : World :=
  if w.isActive call.thread then
    match call.message with
    | some message => w.setCall i { call with pc := .storing message }
    | none => w.unlock i call .returned
  else w.setCall i { call with pc := .checkingCloud }

/-- The message is the last of the thread's queue, and the start returns. -/
def World.store (w : World) (i : Nat) (call : Call) (message : String) : World :=
  { w.unlock i call .returned with
    queued :=
      Function.update w.queued call.thread (w.queued call.thread ++ [message]) }

def World.launch (w : World) (i : Nat) (call : Call) : World :=
  { w.setCall i { call with pc := .registering w.sessions.length } with
    sessions := w.sessions ++ [freshSession call.thread] }

/-- The session is registered, its consumer spawned, and the start returns. -/
def World.register (w : World) (i c : Nat) (call : Call) (s : Session) : World :=
  { w.unlock i call .returned with
    active := Function.update w.active call.thread (some c)
    sessions := w.sessions.set c { s with consumer := .consuming } }

/-- A refused step is an error, or the end of a start that stores its message
because every account is limited.  A start that finds its provider limited drops
the guard before it goes on to another one. -/
def World.stepCall (w : World) (i : Nat) (call : Call) (input : Input) : Option World :=
  match call.pc, input with
  | .entering, .tick => some (w.lockStart i call)
  | .waiting, .tick => w.acquire i call
  | .editing, .tick =>
      if w.isActive call.thread then some (w.unlock i call .returned)
      else some (w.setCall i { call with pc := .checkingAssignment })
  | .editing, .refuse => some (w.unlock i call .returned)
  | .checkingAssignment, .tick =>
      some (w.setCall i { call with pc := .checkingRegistry })
  | .checkingAssignment, .refuse =>
      some (w.unlock i call .returned)
  | .checkingRegistry, .tick => some (w.checkRegistry i call)
  | .storing message, .tick => some (w.store i call message)
  | .storing _, .refuse => some (w.unlock i call .returned)
  | .checkingCloud, .tick =>
      some (w.setCall i { call with pc := .preparing })
  | .checkingCloud, .refuse => some (w.unlock i call .returned)
  | .preparing, .tick =>
      some (w.setCall i { call with pc := .launching })
  | .preparing, .refuse => some (w.unlock i call .returned)
  | .preparing, .limit => some (w.unlock i call .limited)
  -- the guard is gone before the start is made again, or given up
  | .limited, .tick =>
      if call.arc = none then
        some (w.setCall i { call with pc := .entering })
      else none
  | .limited, .refuse =>
      if call.arc = none then
        some (w.setCall i { call with pc := .returned })
      else none
  | .launching, .tick => some (w.launch i call)
  | .launching, .refuse => some (w.unlock i call .returned)
  | .registering c, .tick =>
      match w.sessions[c]? with
      | some s => some (w.register i c call s)
      | none => none
  | _, _ => none

/-- The lock object of a guard that has been dropped is let go. -/
def World.dropArc (w : World) (i : Nat) (call : Call) : Option World :=
  if call.arc ≠ none ∧
      (call.pc = .returned ∨ call.pc = .limited) then
    some (w.setCall i { call with arc := none })
  else none

/-- `requeue` is any change to a queue that no start makes: its drain, a message
sent while the thread is busy, the user's edits of it. -/
inductive Action where
  | call (thread : String) (message : Option String)
  | edit (thread : String) (message : String)
  | requeue (thread : String) (messages : List String)
  | step (i : Nat) (input : Input)
  | dropArc (i : Nat)
  | terminal (session : Nat)
  | remove (session : Nat)
deriving DecidableEq, Repr

def World.setSession (w : World) (c : Nat) (s : Session) : World :=
  { w with sessions := w.sessions.set c s }

/-- The session sends its terminal event, or its stream closes. -/
def World.terminal (w : World) (c : Nat) : Option World :=
  match w.sessions[c]? with
  | some s => if s.live then some (w.setSession c { s with live := false }) else none
  | none => none

/-- The consumer has seen the end of its session and removes the entry of the
thread. -/
def World.remove (w : World) (c : Nat) : Option World :=
  match w.sessions[c]? with
  | some s =>
      if s.consumer = .consuming ∧ s.live = false then
        some
          { w.setSession c { s with consumer := .settling } with
            active := Function.update w.active s.task none }
      else none
  | none => none

def World.addCall (w : World) (thread : String) (message : Option String)
    (edits : Bool) : World :=
  { w with
    calls :=
      w.calls ++
        [{ thread := thread
           message := message
           edits := edits
           arc := none
           pc := .entering }] }

def step (w : World) : Action -> Option World
  | .call thread message => some (w.addCall thread message false)
  | .edit thread message => some (w.addCall thread (some message) true)
  | .requeue thread messages =>
      some { w with queued := Function.update w.queued thread messages }
  | .step i input =>
      match w.calls[i]? with
      | some call => w.stepCall i call input
      | none => none
  | .dropArc i =>
      match w.calls[i]? with
      | some call => w.dropArc i call
      | none => none
  | .terminal c => w.terminal c
  | .remove c => w.remove c

def machine : Machine World Action where
  start := fun w => w = World.new
  step := step

end Launch
end Perpetual
