import Perpetual.Foundation.Machine
import Perpetual.Foundation.Text

/-!
# Starting task sessions

The machine of task starts: the calls of `run_task_inner` made by the user, the
scheduler, the plan driver, `send_message` and the consumers of ended sessions,
the registry of active sessions, and one consumer per registered session.  An
action runs one call up to its next await.

The registry is a mutex around a map.  It is never held across an await, so an
operation on it is one action; `registryHeld` says that another thread is inside
the lock, which is what parks a start between the return of the adapter and its
registration.
-/

namespace Perpetual
namespace Sessions

open Foundation

/-- What a start awaits between its check and the provider session, in order. -/
inductive Stage where
  | loadTask
  | acquirePermit
  | resolveRepo
  | executionBackend
  | policyPreflight
  | selectAccount
  | agentStatus
  | ensureWorktree
  | ensureContext
  | renderContext
  | resumableSession
  | sessionRuntime
  | workNode
  | createSession
  | markRunning
  | recordActivity
  | adapterStart
deriving DecidableEq, Repr

def Stage.next : Stage -> Option Stage
  | loadTask => some acquirePermit
  | acquirePermit => some resolveRepo
  | resolveRepo => some executionBackend
  | executionBackend => some policyPreflight
  | policyPreflight => some selectAccount
  | selectAccount => some agentStatus
  | agentStatus => some ensureWorktree
  | ensureWorktree => some ensureContext
  | ensureContext => some renderContext
  | renderContext => some resumableSession
  | resumableSession => some sessionRuntime
  | sessionRuntime => some workNode
  | workNode => some createSession
  | createSession => some markRunning
  | markRunning => some recordActivity
  | recordActivity => some adapterStart
  | adapterStart => none

/-- Where a call is.  The first three are the callers that look at the registry
themselves before they call `run_task_inner`, whose own check is `entry`. -/
inductive Pc where
  | schedulerCheck
  | messageCheck
  | queueing
  | entry
  | preparing (stage : Stage)
  | parked (session : Nat)
  | returned
deriving DecidableEq, Repr

structure Start where
  task : String
  message : Option String
  pc : Pc
deriving DecidableEq, Repr

/-- How far the consumer of a session is: not spawned because the session is not
registered yet, draining the events, done with the registry, or finished. -/
inductive Consumer where
  | unregistered
  | consuming
  | settling
  | finished
deriving DecidableEq, Repr

/-- The interruptions seen in a session's event stream. -/
structure Ending where
  sawNetworkLoss : Bool
  sawUsageLimit : Bool
deriving DecidableEq, Repr

structure Session where
  task : String
  live : Bool
  ending : Ending
  consumer : Consumer
deriving DecidableEq, Repr

structure World where
  active : String -> Option Nat
  registryHeld : Bool
  sessions : List Session
  starts : List Start
  messages : String -> List String

def World.new : World :=
  { active := fun _ => none
    registryHeld := false
    sessions := []
    starts := []
    messages := fun _ => [] }

inductive Action where
  | runTask (task : String) (message : Option String)
  | schedulerStart (task : String)
  | sendMessage (task message : String)
  | holdRegistry
  | freeRegistry
  | check (start : Nat)
  | enqueueMessage (start : Nat)
  | advance (start : Nat)
  | fail (start : Nat)
  | launch (start : Nat)
  | register (start : Nat)
  | terminal (session : Nat) (ending : Ending)
  | remove (session : Nat)
  | settle (session : Nat) (resumes : Bool)
deriving DecidableEq, Repr

def World.spawn (w : World) (st : Start) : World :=
  { w with starts := w.starts ++ [st] }

def World.moveStart (w : World) (i : Nat) (st : Start) (pc : Pc) : World :=
  { w with starts := w.starts.set i { st with pc := pc } }

def World.isActive (w : World) (task : String) : Bool :=
  (w.active task).isSome

/-- The registry is looked at by `try_scheduler_start`, which returns when the
task is active, by `send_message`, which then queues, and by `run_task_inner`,
which then fails. -/
def World.check (w : World) (i : Nat) : Option World :=
  if w.registryHeld then none
  else
    match w.starts[i]? with
    | some st =>
        match st.pc with
        | .schedulerCheck =>
            some (w.moveStart i st
              (if w.isActive st.task then .returned else .entry))
        | .messageCheck =>
            some (w.moveStart i st
              (if w.isActive st.task then .queueing else .entry))
        | .entry =>
            some (w.moveStart i st
              (if w.isActive st.task then .returned
                else .preparing .loadTask))
        | _ => none
    | none => none

def World.enqueueMessage (w : World) (i : Nat) : Option World :=
  match w.starts[i]? with
  | some st =>
      match st.pc with
      | .queueing =>
          some
            { w.moveStart i st .returned with
              messages :=
                Function.update w.messages st.task
                  (w.messages st.task ++ st.message.toList) }
      | _ => none
  | none => none

def World.advance (w : World) (i : Nat) : Option World :=
  match w.starts[i]? with
  | some st =>
      match st.pc with
      | .preparing stage =>
          match stage.next with
          | some next => some (w.moveStart i st (.preparing next))
          | none => none
      | _ => none
  | none => none

/-- Any await of the preparation, the adapter's own start included, can return
an error. -/
def World.fail (w : World) (i : Nat) : Option World :=
  match w.starts[i]? with
  | some st =>
      match st.pc with
      | .preparing _ => some (w.moveStart i st .returned)
      | _ => none
  | none => none

/-- The registration replaces whatever entry the task has and spawns the
consumer. -/
def World.registered (w : World) (i c : Nat) (st : Start) (s : Session) : World :=
  { w with
    active := Function.update w.active st.task (some c)
    sessions := w.sessions.set c { s with consumer := .consuming }
    starts := w.starts.set i { st with pc := .returned } }

def World.register (w : World) (i : Nat) : Option World :=
  if w.registryHeld then none
  else
    match w.starts[i]? with
    | some st =>
        match st.pc with
        | .parked c =>
            match w.sessions[c]? with
            | some s => some (w.registered i c st s)
            | none => none
        | _ => none
    | none => none

def freshSession (task : String) : Session :=
  { task := task
    live := true
    ending := { sawNetworkLoss := false, sawUsageLimit := false }
    consumer := .unregistered }

/-- The adapter has started a provider session and its future resolves.  The
start then asks for the registry lock, and it only gives up its turn when the
lock is held. -/
def World.parkStart (w : World) (i : Nat) (st : Start) : World :=
  { w with
    sessions := w.sessions ++ [freshSession st.task]
    starts := w.starts.set i { st with pc := .parked w.sessions.length } }

def World.launch (w : World) (i : Nat) : Option World :=
  match w.starts[i]? with
  | some st =>
      match st.pc with
      | .preparing .adapterStart =>
          if w.registryHeld then some (w.parkStart i st)
          else (w.parkStart i st).register i
      | _ => none
  | none => none

def World.setSession (w : World) (c : Nat) (s : Session) : World :=
  { w with sessions := w.sessions.set c s }

/-- The driver of the provider process sends its terminal event and closes the
stream. -/
def World.terminal (w : World) (c : Nat) (ending : Ending) : Option World :=
  match w.sessions[c]? with
  | some s =>
      if s.live then
        some (w.setSession c { s with live := false, ending := ending })
      else none
  | none => none

/-- The consumer leaves its loop when the stream is closed and removes the
task's entry, whichever session it belongs to. -/
def World.remove (w : World) (c : Nat) : Option World :=
  if w.registryHeld then none
  else
    match w.sessions[c]? with
    | some s =>
        if s.consumer = .consuming ∧ s.live = false then
          some
            { w.setSession c { s with consumer := .settling } with
              active := Function.update w.active s.task none }
        else none
    | none => none

/-- The end of `consume_session`: after a network loss or a usage limit the task
is restarted when connectivity, a redeemed credit, another account or the
fallback decision allows it; otherwise the next queued message is run. -/
def World.settle (w : World) (c : Nat) (resumes : Bool) : Option World :=
  match w.sessions[c]? with
  | some s =>
      if s.consumer = .settling then
        let w' := w.setSession c { s with consumer := .finished }
        if s.ending.sawNetworkLoss || s.ending.sawUsageLimit then
          if resumes then
            some (w'.spawn { task := s.task, message := none, pc := .entry })
          else some w'
        else
          match w.messages s.task with
          | [] => some w'
          | next :: rest =>
              some
                ({ w' with
                    messages := Function.update w.messages s.task rest }.spawn
                  { task := s.task, message := some next, pc := .entry })
      else none
  | none => none

def step (w : World) : Action -> Option World
  | .runTask task message =>
      some (w.spawn { task := task, message := message, pc := .entry })
  | .schedulerStart task =>
      some (w.spawn { task := task, message := none, pc := .schedulerCheck })
  | .sendMessage task message =>
      if Text.trim message = "" then some w
      else
        some (w.spawn
          { task := task
            message := some (Text.trim message)
            pc := .messageCheck })
  | .holdRegistry =>
      if w.registryHeld then none else some { w with registryHeld := true }
  | .freeRegistry =>
      if w.registryHeld then some { w with registryHeld := false } else none
  | .check i => w.check i
  | .enqueueMessage i => w.enqueueMessage i
  | .advance i => w.advance i
  | .fail i => w.fail i
  | .launch i => w.launch i
  | .register i => w.register i
  | .terminal c ending => w.terminal c ending
  | .remove c => w.remove c
  | .settle c resumes => w.settle c resumes

def machine : Machine World Action where
  start := fun w => w = World.new
  step := step

end Sessions
end Perpetual
