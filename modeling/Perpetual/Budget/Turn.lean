import Perpetual.Budget.Enforcement
import Perpetual.Scheduler.ThreadPhases
import Perpetual.Thread.Delivery

/-!
# The consumer of a turn

The events of a provider session, from the first to its end, with what each does to
the flags of the turn and to the row of the thread; and what the consumer starts when
the session is over.  A channel that closes counts as the end of a failed session.

The row is read and saved by statements that may fail, and the services answer through
arguments.  What is only shown in the transcript is one kind of event.
-/

namespace Perpetual
namespace Budget

open Foundation
open Scheduler (TickWorld ThreadRow)
open Thread (QueuedTurn Message)

inductive Event (percent : Type) where
  | shown
  | awaitingApproval
  | tokenUsage (input output : Nat)
  | quotaWindow (window : QuotaWindowKind) (usedPercent : percent) (resetAt : Option Nat)
      (finalSample : Bool)
  | usageLimitReached (resetAt : Option Nat)
  | networkUnavailable
  | sessionEnded (status : SessionStatus)
deriving DecidableEq, Repr

/-- What the store and the services answer while an event is handled.  No usage is
recorded when the ledger fails. -/
structure Reply where
  recorded : Option Nat
  stateSaved : Bool
  threadSaved : Bool
  creditRedeemed : Bool
  handoffSaved : Bool
  now : Nat
deriving DecidableEq, Repr

inductive Control where
  | cancel
  | closeout
  | progress
deriving DecidableEq, Repr

inductive Started where
  | network (agent : AgentKind)
  | creditReset (agent : AgentKind)
  | fallback (agent : AgentKind)
  | switchback (agent : AgentKind)
  | queued (turn : QueuedTurn)
deriving DecidableEq, Repr

/-- The rows of the threads, and the queue of the thread of the turn. -/
structure TurnWorld where
  tick : TickWorld
  queue : List QueuedTurn
  started : List Started
deriving DecidableEq, Repr

def TurnWorld.save (w : TurnWorld) (id : String) (now : Nat)
    (f : Fallback.AgentThread -> Fallback.AgentThread) : TurnWorld :=
  { w with tick := w.tick.save id now f }

/-- What the consumer finds when it begins.  A thread that cannot be read has no
budget, and a state that cannot be read is an empty one. -/
structure Opening (percent : Type) where
  threadId : String
  agent : AgentKind
  providerAccountId : Option String
  pendingMessage : Option Message
  taskBudget : TaskBudget
  threadRead : Bool
  usageTotal : Option Nat
  state : Option (EnforcementState percent)
deriving DecidableEq, Repr

section Turn

variable {percent : Type}

def Opening.usageBudget (o : Opening percent) : TaskBudget :=
  if o.threadRead then o.taskBudget else .unlimited

def Opening.quotaAccount (o : Opening percent) : String :=
  o.providerAccountId.getD o.agent.asStr

structure TurnState (percent : Type) where
  world : TurnWorld
  sawUsageLimit : Bool
  creditRedeemed : Bool
  sawNetworkLoss : Bool
  sawApprovalNeeded : Bool
  completedOk : Bool
  limitResetAt : Option Nat
  budgetExhausted : Bool
  sawTokenTelemetry : Bool
  sawFinalWeeklyTelemetry : Bool
  usageTotal : Nat
  budgetAccountingFailed : Bool
  enforcement : EnforcementState percent
  controls : List Control
deriving DecidableEq, Repr

namespace TurnState

def saveThread (s : TurnState percent) (o : Opening percent) (r : Reply)
    (f : Fallback.AgentThread -> Fallback.AgentThread) : TurnState percent :=
  if r.threadSaved then { s with world := s.world.save o.threadId r.now f } else s

def telemetryComplete (s : TurnState percent) (o : Opening percent) : Bool :=
  match o.usageBudget with
  | .unlimited => true
  | .tokens _ => s.sawTokenTelemetry
  | .weeklyPercent _ => s.sawFinalWeeklyTelemetry

/-- The budget is used up, or it is not known what was used of it. -/
def budgetStops (s : TurnState percent) (o : Opening percent) : Bool :=
  s.budgetExhausted ||
    !o.usageBudget.isUnlimited &&
      (!s.telemetryComplete o || o.state.isNone || s.budgetAccountingFailed)

/-!
## Usage
-/

/-- At the target the session is cancelled; close to it and halfway it is told so,
each once. -/
def enforce (s : TurnState percent) (reached closing halfway : Bool) : TurnState percent :=
  let first :=
    if reached then
      { s with
        budgetExhausted := true
        controls := s.controls ++ [.cancel] }
    else if closing && !s.enforcement.closeoutSent then
      { s with
        enforcement := s.enforcement.marked s.enforcement.reminderSent true
        controls := s.controls ++ [.closeout] }
    else s
  if halfway && !first.enforcement.reminderSent then
    { first with
      enforcement := first.enforcement.marked true first.enforcement.closeoutSent
      controls := first.controls ++ [.progress] }
  else first

def recordTokens (s : TurnState percent) (r : Reply) : TurnState percent :=
  match r.recorded with
  | some recorded => { s with usageTotal := saturating (s.usageTotal + recorded) }
  | none => { s with budgetAccountingFailed := true }

def enforceTokens (s : TurnState percent) (o : Opening percent) : TurnState percent :=
  match o.usageBudget with
  | .tokens limit =>
      s.enforce (decide (limit ≤ s.usageTotal))
        (decide (limit - s.usageTotal ≤ tokenReserve limit))
        (decide (limit ≤ saturating (s.usageTotal * 2)))
  | _ => s

section Percentages

variable [Percentage percent]

def enforceQuota (s : TurnState percent) (o : Opening percent) (window : QuotaWindowKind)
    (consumed : percent) : TurnState percent :=
  match (quotaLimit o.usageBudget window : Option percent) with
  | some limit =>
      s.enforce (decide (limit ≤ consumed))
        (decide (max (limit - consumed) 0 ≤ limit * 0.15))
        (decide (limit * 0.5 ≤ consumed))
  | none => s

def sample (s : TurnState percent) (o : Opening percent) (window : QuotaWindowKind)
    (usedPercent : percent) (resetAt : Option Nat) (finalSample : Bool) (r : Reply) :
    TurnState percent :=
  let observed := s.enforcement.observe window usedPercent o.quotaAccount resetAt
  enforceQuota
    { s with
      sawFinalWeeklyTelemetry :=
        s.sawFinalWeeklyTelemetry ||
          (decide (window = .weekly) && finalSample)
      enforcement := observed.1
      budgetAccountingFailed := s.budgetAccountingFailed || !r.stateSaved }
    o window observed.2

/-!
## Limits, losses and the end
-/

/-- With a percentage budget the thread is paused, and otherwise it waits. -/
def limitedRow (o : Opening percent) (resetAt : Option Nat) (thread : Fallback.AgentThread) :
    Fallback.AgentThread :=
  { thread with
    status :=
      if isPercentageBudget o.usageBudget then .paused
      else .waitingForLimit
    limitResetAt := resetAt
    handoffState :=
      if isPercentageBudget o.usageBudget then "budget_paused_provider_limit"
      else "waiting_for_fallback" }

def limited (s : TurnState percent) (o : Opening percent) (resetAt : Option Nat)
    (r : Reply) : TurnState percent :=
  { s.saveThread o r (limitedRow o resetAt) with
    sawUsageLimit := true
    limitResetAt := resetAt
    creditRedeemed :=
      if o.providerAccountId.isSome then r.creditRedeemed else s.creditRedeemed }

def lost (s : TurnState percent) (o : Opening percent) (r : Reply) : TurnState percent :=
  { s.saveThread o r (fun thread =>
      { thread with
        status := .waitingForNetwork
        handoffState := "waiting_for_network" }) with
    sawNetworkLoss := true }

def effectiveStatus (s : TurnState percent) (status : SessionStatus) : SessionStatus :=
  if s.sawNetworkLoss then .interrupted else status

/-- The status at the end is computed anew from the flags. -/
def endedStatus (s : TurnState percent) (o : Opening percent) (status : SessionStatus) :
    TaskStatus :=
  if s.budgetStops o then .paused
  else if s.sawNetworkLoss then .waitingForNetwork
  else if s.sawUsageLimit then .waitingForLimit
  else
    match s.effectiveStatus status with
    | .completed =>
        if s.sawApprovalNeeded then .paused else .review
    | .interrupted => .paused
    | .failed => .failed

def endedRow (s : TurnState percent) (o : Opening percent) (status : SessionStatus)
    (thread : Fallback.AgentThread) : Fallback.AgentThread :=
  { thread with
    status := s.endedStatus o status
    limitResetAt := if s.sawUsageLimit then s.limitResetAt else thread.limitResetAt }

/-- The hand-over is written behind the status, in a statement of its own that keeps
it. -/
def handoff (s : TurnState percent) (o : Opening percent) (r : Reply) : TurnState percent :=
  if r.handoffSaved then
    { s with world := s.world.save o.threadId r.now (fun thread => thread) }
  else s

def ended (s : TurnState percent) (o : Opening percent) (status : SessionStatus)
    (r : Reply) : TurnState percent :=
  { (s.saveThread o r (s.endedRow o status)).handoff o r with
    completedOk := decide (s.effectiveStatus status = .completed) }

def handle (o : Opening percent) (s : TurnState percent) (r : Reply) :
    Event percent -> TurnState percent
  | .shown => s
  | .awaitingApproval => { s with sawApprovalNeeded := true }
  | .tokenUsage input output =>
      let seen := { s with sawTokenTelemetry := true }
      if input = 0 ∧ output = 0 then seen else (seen.recordTokens r).enforceTokens o
  | .quotaWindow window usedPercent resetAt finalSample =>
      s.sample o window usedPercent resetAt finalSample r
  | .usageLimitReached resetAt => s.limited o resetAt r
  | .networkUnavailable => s.lost o r
  | .sessionEnded status => s.ended o status r

/-- The loop ends with the session.  `closing` answers the end that is put in for a
channel that closes. -/
def consume (o : Opening percent) (s : TurnState percent) :
    List (Event percent × Reply) -> Reply -> TurnState percent
  | [], closing => s.handle o closing (.sessionEnded .failed)
  | (.sessionEnded status, r) :: _, _ => s.handle o r (.sessionEnded status)
  | (event, r) :: rest, closing => consume o (s.handle o r event) rest closing

def opened (w : TurnWorld) (o : Opening percent) : TurnState percent :=
  { world := w
    sawUsageLimit := false
    creditRedeemed := false
    sawNetworkLoss := false
    sawApprovalNeeded := false
    completedOk := false
    limitResetAt := none
    budgetExhausted := false
    sawTokenTelemetry := false
    sawFinalWeeklyTelemetry := false
    usageTotal := o.usageTotal.getD 0
    budgetAccountingFailed := o.usageTotal.isNone
    enforcement := o.state.getD EnforcementState.default
    controls := [] }

end Percentages

end TurnState

end Turn

/-!
## After the session
-/

/-- The answers to the statements and the services behind the loop. -/
structure TailReplies where
  listed : Bool
  requeued : Option String
  reordered : Bool
  now : Nat
  autoResumeCloud : Bool
  useLocalFallback : Bool
  services : Fallback.Answers
  back : Fallback.AgentThread.BackAnswers
  popped : Bool

def fallbackStarts (current : AgentKind) (resetAt : Option Nat) (a : Fallback.Answers) :
    Option AgentKind :=
  if a.accountsConfigured then
    if a.policy.autoSwitch && a.saves then a.nextReadyAccount else none
  else
    match a.fallbackDecision current resetAt with
    | some (.switch agent _) => some agent
    | some (.wait _) =>
        if a.bestReadyLocalTarget.isSome && !a.sessionActive then some .codex
        else none
    | _ => none

def resumeStarts (thread : Fallback.AgentThread) (current : AgentKind)
    (a : Fallback.AgentThread.BackAnswers) : Option AgentKind :=
  if a.sessionActive then none else some (thread.originalAgent.getD current)

def switchbackStarts (thread : Fallback.AgentThread)
    (a : Fallback.AgentThread.BackAnswers) : Option AgentKind :=
  match thread.originalAgent with
  | some original =>
      if thread.switchBack && !(a.accountsConfigured && !a.originalReady) &&
          thread.fallbackLocalProvider.isSome && a.switchBackToCloud &&
          decide (a.cloudStable = some true) then
        resumeStarts thread original a
      else none
  | none => none

namespace TurnWorld

def start (w : TurnWorld) (started : Option Started) : TurnWorld :=
  { w with started := w.started ++ started.toList }

/-- The thread is read, and there is nothing to do for one that is not there. -/
def onThread (w : TurnWorld) (id : String) (f : Fallback.AgentThread -> TurnWorld) :
    TurnWorld :=
  match w.tick.threads.find? (fun row => row.id == id) with
  | some row => f row.thread
  | none => w

def switch (w : TurnWorld) (id : String) (now : Nat) (saves : Bool)
    (f : Fallback.AgentThread -> Fallback.Outcome) : TurnWorld :=
  if saves then w.save id now (fun thread => (f thread).thread) else w

def handleThreadNetworkLoss (w : TurnWorld) (id : String) (current : AgentKind)
    (a : TailReplies) : TurnWorld :=
  w.onThread id (fun thread =>
    if a.autoResumeCloud && decide (a.back.cloudStable = some true) then
      (w.switch id a.now a.back.saves
          (fun t => t.resumeThreadCloudAfterNetwork current a.back)).start
        ((resumeStarts thread current a.back).map .network)
    else
      match a.useLocalFallback, a.services.bestReadyLocalTarget with
      | true, some target =>
          (w.switch id a.now a.services.saves
              (fun t => t.startThreadLocalFallback current target a.services)).start
            (if a.services.sessionActive then none else some (.network .codex))
      | _, _ => w)

def redeemCredit (w : TurnWorld) (id : String) (current : AgentKind) (a : TailReplies) :
    TurnWorld :=
  w.onThread id (fun _ =>
    (if a.services.saves then
      w.save id a.now (fun t =>
        { t with
          status := .queued
          handoffState := "credit_reset_redeemed" })
    else w).start (some (.creditReset current)))

def startThreadFallback (w : TurnWorld) (id : String) (current : AgentKind)
    (resetAt : Option Nat) (a : TailReplies) : TurnWorld :=
  w.onThread id (fun _ =>
    (w.switch id a.now a.services.saves
        (fun t => t.startThreadFallback current resetAt a.services)).start
      ((fallbackStarts current resetAt a.services).map .fallback))

def switchBackWhenReady (w : TurnWorld) (id : String) (a : TailReplies) : TurnWorld :=
  w.onThread id (fun thread =>
    (w.switch id a.now a.back.saves
        (fun t => t.maybeMarkThreadSwitchbackReady a.back)).start
      ((switchbackStarts thread a.back).map .switchback))

/-- The next message of the queue is taken for a turn of its own. -/
def drain (w : TurnWorld) (popped : Bool) : TurnWorld :=
  match popped, Thread.popNext w.queue with
  | true, some (next, rest) =>
      { w with queue := rest }.start (some (.queued next))
  | _, _ => w

end TurnWorld

section Settling

variable {percent : Type}

namespace TurnState

/-- The message of an interrupted turn goes back to the head of the queue. -/
def requeue (s : TurnState percent) (o : Opening percent) (a : TailReplies) : TurnWorld :=
  match o.pendingMessage, a.requeued with
  | some m, some id =>
      if !s.budgetExhausted && (s.sawUsageLimit || s.sawNetworkLoss) then
        let existing := if a.listed then Thread.queuedIds s.world.queue else []
        let queue :=
          s.world.queue ++
            [{ id := id
               message := m.text
               echoUserMessage := false
               clientMessageId :=
                (m.clientMessageId.map Text.trim).filter (fun clientId => clientId != "")
               createdAt := a.now
               number := m.number.getD 0 }]
        { s.world with
          queue := if a.reordered then Thread.reorder a.now (id :: existing) queue else queue }
      else s.world
  | _, _ => s.world

def settle (s : TurnState percent) (o : Opening percent) (a : TailReplies) : TurnWorld :=
  let w := s.requeue o a
  if s.budgetStops o then w
  else if s.sawNetworkLoss && !o.usageBudget.isUnlimited then w
  else if s.sawNetworkLoss then w.handleThreadNetworkLoss o.threadId o.agent a
  else if s.sawUsageLimit then
    if isPercentageBudget o.usageBudget then w
    else if s.creditRedeemed then w.redeemCredit o.threadId o.agent a
    else w.startThreadFallback o.threadId o.agent s.limitResetAt a
  else if s.completedOk then (w.switchBackWhenReady o.threadId a).drain a.popped
  else w.drain a.popped

end TurnState

def consumeAgentThreadTurn [Percentage percent] (w : TurnWorld) (o : Opening percent)
    (events : List (Event percent × Reply)) (closing : Reply) (a : TailReplies) :
    TurnWorld :=
  (TurnState.consume o (TurnState.opened w o) events closing).settle o a

end Settling

end Budget
end Perpetual
