import Perpetual.Collaboration.ActiveThreads
import Perpetual.Collaboration.Staleness
import Perpetual.Fallback.Thread
import Perpetual.Scheduler.Capacity

/-!
# The thread phases of a scheduler tick

A tick goes on with queued threads, then with threads that wait for the network,
then with threads that wait for a limit.  Each phase lists its threads once and
takes them up one after another.

A start asks first whether its thread is assigned to a device, which sweeps the
stale assignments.  What a start that is admitted does to the row of its thread is
an input, as are the answers of the services and the outcomes of the statements.
The runs that the network phase spawns are not part of the tick.
-/

namespace Perpetual
namespace Scheduler

open Foundation
open Collaboration (Store)

/-- The columns of a thread that the phases read and write. -/
structure ThreadRow where
  id : String
  updatedAt : Nat
  preferredAgent : Option AgentKind
  providerAccountId : Option String
  thread : Fallback.AgentThread
deriving DecidableEq, Repr

structure TickWorld where
  store : Store
  threads : List ThreadRow
deriving DecidableEq, Repr

def ThreadRow.status (row : ThreadRow) : TaskStatus :=
  row.thread.status

def TickWorld.statusOf (w : TickWorld) (id : String) : Option TaskStatus :=
  (w.threads.find? (fun row => row.id == id)).map ThreadRow.status

def ThreadRow.saved (now : Nat) (f : Fallback.AgentThread -> Fallback.AgentThread)
    (row : ThreadRow) : ThreadRow :=
  { row with updatedAt := now, thread := f row.thread }

def TickWorld.save (w : TickWorld) (id : String) (now : Nat)
    (f : Fallback.AgentThread -> Fallback.AgentThread) : TickWorld :=
  { w with
    threads :=
      Table.updateWhere (fun row => row.id == id) (ThreadRow.saved now f) w.threads }

def TickWorld.saveStatus (w : TickWorld) (id : String) (now : Nat)
    (status : TaskStatus) : TickWorld :=
  w.save id now (fun thread => { thread with status := status })

def schedulerBatchLimit : Nat := 32

def TickWorld.listForStatus (w : TickWorld) (status : TaskStatus) : List ThreadRow :=
  ((w.threads.filter (fun row => row.status == status)).insertionSort
    (fun a b => a.updatedAt ≤ b.updatedAt)).take schedulerBatchLimit

/-!
## The sweep
-/

inductive SweepStatement where
  | expire (id : String)
  | fail (id : String)
  | saveThread (threadId : String)
deriving DecidableEq, Repr

def sweepStatements (st : Store) (now : Nat) : List SweepStatement :=
  if (st.selectExpired now).isEmpty then []
  else
    let expired := st.expireAll (st.selectExpired now) now
    (st.selectExpired now).map .expire ++
      (expired.selectOffline now).map .fail ++
      (st.expireStaleAssignments now).2.map
        (fun a => .saveThread a.threadId)

/-- A fault ends the sweep after some of its statements. -/
structure SweepFault where
  executed : Nat
  error : CoreError
deriving DecidableEq, Repr

def executedStatements (st : Store) (now : Nat) : Option SweepFault -> List SweepStatement
  | none => sweepStatements st now
  | some fault => (sweepStatements st now).take fault.executed

def TickWorld.execute (now : Nat) (w : TickWorld) : SweepStatement -> TickWorld
  | .expire id => { w with store := w.store.expireOne id now }
  | .fail id => { w with store := w.store.failOne id now }
  | .saveThread threadId =>
      w.saveStatus threadId now .waitingForNetwork

def sweepResult : Option SweepFault -> Except CoreError Unit
  | none => .ok ()
  | some fault => .error fault.error

def expireCollaborationLeases (w : TickWorld) (now : Nat) (fault : Option SweepFault) :
    TickWorld × Except CoreError Unit :=
  ((executedStatements w.store now fault).foldl (TickWorld.execute now) w,
    sweepResult fault)

/-!
## Starting a thread
-/

def assignedError : CoreError :=
  .other
    "This session is assigned to another device. Cancel or finish that assignment before starting a local run."

/-- `left` is the thread as a start that is admitted leaves it. -/
structure StartAnswers where
  services : Fallback.Answers
  now : Nat
  fault : Option SweepFault
  left : Fallback.AgentThread
  result : Except CoreError Unit
  savesPaused : Bool

def runAgentThread (w : TickWorld) (id : String) (a : StartAnswers) :
    TickWorld × Except CoreError Unit :=
  match expireCollaborationLeases w a.now a.fault with
  | (w', .error error) => (w', .error error)
  | (w', .ok _) =>
      if w'.store.hasActiveAssignment id then (w', .error assignedError)
      else (w'.save id a.now (fun _ => a.left), a.result)

def handleThreadSchedulerStartError (w : TickWorld) (id : String) (error : CoreError)
    (a : StartAnswers) : TickWorld :=
  if schedulerStartErrorIsRetryable error.display then w
  else if a.savesPaused then w.saveStatus id a.now .paused
  else w

/-- The switch to another agent writes the row, and is skipped when it fails. -/
def recordSwitch (w : TickWorld) (listed : ThreadRow) (agent : AgentKind)
    (a : StartAnswers) : TickWorld :=
  if listed.thread.activeAgent ≠ some agent ∧ a.services.saves = true then
    w.save listed.id a.now (fun thread => thread.scheduledFallback agent)
  else w

def tryThreadSchedulerStart (w : TickWorld) (listed : ThreadRow) (agent : AgentKind)
    (a : StartAnswers) : TickWorld :=
  if a.services.sessionActive then w
  else
    match runAgentThread (recordSwitch w listed agent a) listed.id a with
    | (w', .ok _) => w'
    | (w', .error error) => handleThreadSchedulerStartError w' listed.id error a

/-!
## The threads a phase takes up
-/

inductive Attempt where
  | start (listed : ThreadRow) (agent : AgentKind) (a : StartAnswers)
  | resumeCloud (id : String) (agent : AgentKind) (now : Nat)
      (b : Fallback.AgentThread.BackAnswers)
  | localFallback (id : String) (agent : AgentKind) (now : Nat)
      (target : Fallback.LocalModelTarget) (a : Fallback.Answers)

def Attempt.id : Attempt -> String
  | .start listed _ _ => listed.id
  | .resumeCloud id _ _ _ => id
  | .localFallback id _ _ _ _ => id

def Attempt.run (w : TickWorld) : Attempt -> TickWorld
  | .start listed agent a => tryThreadSchedulerStart w listed agent a
  | .resumeCloud id agent now b =>
      if b.saves then
        w.save id now
          (fun thread => (thread.resumeThreadCloudAfterNetwork agent b).thread)
      else w
  | .localFallback id agent now target a =>
      if a.saves then
        w.save id now
          (fun thread => (thread.startThreadLocalFallback agent target a).thread)
      else w

def runAttempts (w : TickWorld) (attempts : List Attempt) : TickWorld :=
  attempts.foldl Attempt.run w

structure QueuedAnswers where
  hasCapacity : Bool
  lists : Bool
  start : String -> StartAnswers

def activeOrPreferred (row : ThreadRow) : Option AgentKind :=
  row.thread.activeAgent.or row.preferredAgent

def runThreadQueuedContinuations (w : TickWorld) (a : QueuedAnswers) : List Attempt :=
  if a.hasCapacity && a.lists then
    (w.listForStatus .queued).filterMap (fun row =>
      (activeOrPreferred row).map (fun agent => .start row agent (a.start row.id)))
  else []

/-- `stable` is the connectivity probe; the phase ends when it fails. -/
structure NetworkAnswers where
  lists : Bool
  autoResumeCloud : Bool
  switchBackToCloud : Bool
  useLocalFallback : Bool
  stable : Option Bool
  now : Nat
  sessionActive : String -> Bool
  back : String -> Fallback.AgentThread.BackAnswers
  target : String -> Option Fallback.LocalModelTarget
  services : String -> Fallback.Answers

def NetworkAnswers.networkStable (a : NetworkAnswers) : Option Bool :=
  if a.autoResumeCloud || a.switchBackToCloud then a.stable else some false

def networkAttempt (a : NetworkAnswers) (stable : Bool) (row : ThreadRow) :
    Option Attempt :=
  if a.sessionActive row.id then none
  else if stable then
    (row.thread.originalAgent.or (activeOrPreferred row)).map
      (fun agent => .resumeCloud row.id agent a.now (a.back row.id))
  else if a.useLocalFallback && row.thread.localProvider.isNone then
    match activeOrPreferred row, a.target row.id with
    | some agent, some target =>
        some
          (.localFallback row.id agent a.now target
            { a.services row.id with switchBackToCloud := a.switchBackToCloud })
    | _, _ => none
  else none

def runThreadNetworkContinuations (w : TickWorld) (a : NetworkAnswers) : List Attempt :=
  match a.lists, a.networkStable with
  | true, some stable =>
      (w.listForStatus .waitingForNetwork).filterMap (networkAttempt a stable)
  | _, _ => []

structure ProviderAccountStatus where
  id : String
  agent : AgentKind
  installed : Bool
  enabled : Bool
  authenticated : Bool
  limited : Bool
deriving DecidableEq, Repr

structure LimitPolicy where
  hasAccounts : Bool
  autoSwitch : Bool
  resumeWithEarliest : Bool
  agentPriority : List AgentKind
deriving DecidableEq, Repr

def threadResumeAccount (row : ThreadRow) (policy : LimitPolicy)
    (statuses : List ProviderAccountStatus) : Option ProviderAccountStatus :=
  statuses.find? (fun s =>
    s.installed && s.enabled && s.authenticated && !s.limited &&
      (policy.autoSwitch && policy.resumeWithEarliest ||
        match row.providerAccountId with
        | some id => s.id == id
        | none => some s.agent == activeOrPreferred row))

def resumeOrder (row : ThreadRow) (policy : LimitPolicy) : List AgentKind :=
  if policy.resumeWithEarliest then
    policy.agentPriority.foldl
      (fun order agent => if order.contains agent then order else order ++ [agent])
      (activeOrPreferred row).toList
  else (activeOrPreferred row).toList

def threadResumeAgent (row : ThreadRow) (policy : LimitPolicy)
    (statuses : List Fallback.AgentStatus) : Option AgentKind :=
  (resumeOrder row policy).find? (fun agent =>
    statuses.any (fun s => s.kind == agent && Fallback.agentReady s))

/-- `detected` is none when the detection fails, which ends the phase. -/
structure ResetAnswers where
  hasCapacity : Bool
  lists : Bool
  detected : Option (List Fallback.AgentStatus)
  policy : LimitPolicy
  accounts : List ProviderAccountStatus
  start : String -> StartAnswers

def resetAgent (a : ResetAnswers) (statuses : List Fallback.AgentStatus)
    (row : ThreadRow) : Option AgentKind :=
  if a.policy.hasAccounts then
    (threadResumeAccount row a.policy a.accounts).map ProviderAccountStatus.agent
  else threadResumeAgent row a.policy statuses

def runThreadResetContinuations (w : TickWorld) (a : ResetAnswers) : List Attempt :=
  match a.hasCapacity && a.lists, a.detected with
  | true, some statuses =>
      (w.listForStatus .waitingForLimit).filterMap (fun row =>
        (resetAgent a statuses row).map
          (fun agent => .start row agent (a.start row.id)))
  | _, _ => []

structure TickAnswers where
  queued : QueuedAnswers
  network : NetworkAnswers
  reset : ResetAnswers

def afterQueued (w : TickWorld) (a : TickAnswers) : TickWorld :=
  runAttempts w (runThreadQueuedContinuations w a.queued)

def afterNetwork (w : TickWorld) (a : TickAnswers) : TickWorld :=
  runAttempts (afterQueued w a)
    (runThreadNetworkContinuations (afterQueued w a) a.network)

def threadPhases (w : TickWorld) (a : TickAnswers) : TickWorld :=
  runAttempts (afterNetwork w a)
    (runThreadResetContinuations (afterNetwork w a) a.reset)

end Scheduler
end Perpetual
