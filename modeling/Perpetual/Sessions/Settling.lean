import Perpetual.Fallback.Thread
import Perpetual.WorkLocks.Calls

/-!
# The end of a task session

The consumer of a session takes its events in turn and then settles what the session
held.  The rows of the session and of its runs, and the status of the task, are closed
by the event that ends the session, and by nothing else: where the stream closes without
it they stay open.  Every write succeeds here.
-/

namespace Perpetual
namespace Sessions

open Foundation
open Fallback (FallbackDecision)
open WorkLocks (PermissionPolicy WorkLock)

/-- What the consumer is given with the events.  `nodeId` is the work node of the task. -/
structure SessionRun where
  sessionId : String
  taskId : String
  agent : AgentKind
  permission : PermissionPolicy
  providerAccountId : Option String
  nodeId : Option String

inductive SessionEvent where
  | sessionStarted (provider : String)
  | tokenUsage (input output : Nat)
  | awaitingApproval (detail : String)
  | usageLimitReached (resetAt : Option Nat)
  | networkUnavailable (message : String)
  | sessionEnded (status : SessionStatus)
  | other
deriving DecidableEq, Repr

structure SessionRecord where
  agentSessionId : Option String
  state : SessionState
  ended : Bool
deriving DecidableEq, Repr

structure RunRecord where
  runRef : String
  state : SessionState
  ended : Bool
deriving DecidableEq, Repr

structure PendingApproval where
  id : String
  sessionId : Option String
deriving DecidableEq, Repr

structure QueuedMessage where
  agent : AgentKind
  permission : PermissionPolicy
  message : String
deriving DecidableEq, Repr

/-- A start of the task that is left to run by itself. -/
structure Restart where
  agent : AgentKind
  permission : PermissionPolicy
  message : Option String
deriving DecidableEq, Repr

/-- The row of the session, the work runs, the task, and what the session holds. -/
structure ConsumerWorld where
  session : SessionRecord
  runs : List RunRecord
  taskStatus : TaskStatus
  primaryAgent : AgentKind
  active : String -> Bool
  approvals : List PendingApproval
  permitHeld : Bool
  locks : List WorkLock
  messages : List QueuedMessage
  restarts : List Restart

structure Consumption where
  sawUsageLimit : Bool
  creditRedeemed : Bool
  sawNetworkLoss : Bool
  sawApprovalNeeded : Bool
  completedOk : Bool
  limitResetAt : Option Nat
  world : ConsumerWorld

def Consumption.start (w : ConsumerWorld) : Consumption :=
  { sawUsageLimit := false
    creditRedeemed := false
    sawNetworkLoss := false
    sawApprovalNeeded := false
    completedOk := false
    limitResetAt := none
    world := w }

def sessionState : SessionStatus -> SessionState
  | .completed => .completed
  | .interrupted => .interrupted
  | .failed => .failed

def finishRunsForRef (runs : List RunRecord) (runRef : String) (state : SessionState) :
    List RunRecord :=
  Table.updateWhere (fun r => r.runRef == runRef && !r.ended)
    (fun r =>
      { r with
        state := state
        ended := true }) runs

def ConsumerWorld.setStatus (w : ConsumerWorld) (status : TaskStatus) : ConsumerWorld :=
  { w with taskStatus := status }

def ConsumerWorld.queueFor (w : ConsumerWorld) (agent : AgentKind) : ConsumerWorld :=
  { w with
    taskStatus := .queued
    primaryAgent := agent }

def ConsumerWorld.restart (w : ConsumerWorld) (agent : AgentKind)
    (permission : PermissionPolicy) (message : Option String) : ConsumerWorld :=
  { w with
    restarts :=
      w.restarts ++
        [{ agent := agent
           permission := permission
           message := message }] }

/-- An interruption overrides the status the session ended with. -/
def Consumption.effectiveStatus (c : Consumption) (status : SessionStatus) : SessionStatus :=
  if c.sawNetworkLoss then .interrupted else status

def Consumption.endedStatus (c : Consumption) (status : SessionStatus) : TaskStatus :=
  if c.sawNetworkLoss then .waitingForNetwork
  else if c.sawUsageLimit then .waitingForLimit
  else
    match c.effectiveStatus status with
    | .completed =>
        if c.sawApprovalNeeded then .awaitingApproval else .review
    | .interrupted => .paused
    | .failed => .failed

def Consumption.finish (s : SessionRun) (c : Consumption) (status : SessionStatus) :
    Consumption :=
  let state := sessionState (c.effectiveStatus status)
  { c with
    completedOk := decide (c.effectiveStatus status = .completed)
    world :=
      { c.world with
        session :=
          { c.world.session with
            state := state
            ended := true }
        runs := finishRunsForRef c.world.runs s.sessionId state
        taskStatus := c.endedStatus status } }

/-- An event, and whether a credit is redeemed should it be a limit. -/
def Consumption.handle (s : SessionRun) (c : Consumption) : SessionEvent × Bool -> Consumption
  | (.awaitingApproval _, _) => { c with sawApprovalNeeded := true }
  | (.tokenUsage _ _, _) => c
  | (.sessionStarted provider, _) =>
      { c with
        world :=
          { c.world with
            session := { c.world.session with agentSessionId := some provider } } }
  | (.usageLimitReached resetAt, credit) =>
      { c with
        sawUsageLimit := true
        limitResetAt := resetAt
        creditRedeemed := if s.providerAccountId.isSome then credit else c.creditRedeemed
        world := c.world.setStatus .waitingForLimit }
  | (.networkUnavailable _, _) =>
      { c with
        sawNetworkLoss := true
        world := c.world.setStatus .waitingForNetwork }
  | (.sessionEnded status, _) => c.finish s status
  | (.other, _) => c

/-!
## Behind the stream
-/

/-- The registry entry, the approvals, the permit and the locks. -/
def ConsumerWorld.letGo (w : ConsumerWorld) (s : SessionRun) : ConsumerWorld :=
  { w with
    active := Function.update w.active s.taskId false
    approvals := w.approvals.filter (fun a => a.sessionId != some s.sessionId)
    permitHeld := false
    locks :=
      match s.nodeId with
      | some node => Table.deleteWhere (fun l => l.nodeId == node) w.locks
      | none => w.locks }

/-- `connectivityStable` is without an answer where the probe fails, and so are
`nextReadyAccount` and `fallback` where nothing is found. -/
structure TailAnswers where
  autoResumeCloud : Bool
  connectivityStable : Option Bool
  accountsConfigured : Bool
  autoSwitch : Bool
  nextReadyAccount : Option AgentKind
  fallback : Option FallbackDecision
  switchRecorded : Bool

def handleTaskNetworkLoss (s : SessionRun) (a : TailAnswers) (w : ConsumerWorld) :
    ConsumerWorld :=
  if !a.autoResumeCloud then w
  else
    match a.connectivityStable with
    | some true => (w.queueFor s.agent).restart s.agent s.permission none
    | _ => w

/-- The switch is queued before it is recorded, and the caller starts the agent only if
both succeed. -/
def fallBack (s : SessionRun) (a : TailAnswers) (w : ConsumerWorld) : ConsumerWorld :=
  match a.fallback with
  | some (.switch agent _) =>
      if a.switchRecorded then (w.queueFor agent).restart agent s.permission none
      else w.queueFor agent
  | _ => w

def afterLimit (s : SessionRun) (a : TailAnswers) (creditRedeemed : Bool)
    (w : ConsumerWorld) : ConsumerWorld :=
  if creditRedeemed then (w.setStatus .queued).restart s.agent s.permission none
  else if a.accountsConfigured then
    match (if a.autoSwitch then a.nextReadyAccount else none) with
    | some next => (w.queueFor next).restart next s.permission none
    | none => w
  else fallBack s a w

def takeNextMessage (w : ConsumerWorld) : ConsumerWorld :=
  match w.messages with
  | [] => w
  | next :: rest =>
      { w with messages := rest }.restart next.agent next.permission (some next.message)

def Consumption.settle (s : SessionRun) (a : TailAnswers) (c : Consumption) :
    ConsumerWorld :=
  let w := c.world.letGo s
  if c.sawNetworkLoss then handleTaskNetworkLoss s a w
  else if c.sawUsageLimit then afterLimit s a c.creditRedeemed w
  else takeNextMessage w

def consumeSession (s : SessionRun) (w : ConsumerWorld) (events : List (SessionEvent × Bool))
    (a : TailAnswers) : ConsumerWorld :=
  (events.foldl (Consumption.handle s) (Consumption.start w)).settle s a

section Settled

variable {s : SessionRun} {w : ConsumerWorld} {c : Consumption}

/-- The rows of the session and of its runs are finished, and the task is not running. -/
structure RowsClosed (s : SessionRun) (w : ConsumerWorld) : Prop where
  session : w.session.ended = true
  runs : forall r, r ∈ w.runs -> r.runRef = s.sessionId -> r.ended = true
  task : w.taskStatus ≠ .running

/-- The session is off the registry, and holds no approval, permit or lock. -/
structure LetGo (s : SessionRun) (w : ConsumerWorld) : Prop where
  registry : w.active s.taskId = false
  approvals : forall a, a ∈ w.approvals -> a.sessionId ≠ some s.sessionId
  permit : w.permitHeld = false
  locks : forall node, s.nodeId = some node -> forall l, l ∈ w.locks -> l.nodeId ≠ node

def Settled (s : SessionRun) (w : ConsumerWorld) : Prop :=
  RowsClosed s w ∧ LetGo s w

def SessionEvent.ends : SessionEvent -> Bool
  | .sessionEnded _ => true
  | _ => false

theorem finishRunsForRef_ended (runs : List RunRecord) (runRef : String) (state : SessionState) :
    forall r, r ∈ finishRunsForRef runs runRef state -> r.runRef = runRef ->
      r.ended = true := by
  intro r hr href
  rcases Table.mem_updateWhere hr with ⟨r0, _, ⟨_, heq⟩ | ⟨hnot, heq⟩⟩
  · rw [heq]
  · rw [heq] at href ⊢
    rw [Bool.and_eq_false_iff] at hnot
    rcases hnot with hnot | hended
    · exact absurd (beq_iff_eq.mpr href) (Bool.eq_false_iff.mp hnot)
    · rw [Bool.not_eq_false'] at hended
      exact hended

theorem endedStatus_ne_running (status : SessionStatus) : c.endedStatus status ≠ .running := by
  unfold Consumption.endedStatus
  split
  · nofun
  · split
    · nofun
    · split
      · split <;> nofun
      · nofun
      · nofun

theorem handle_ended (x : SessionEvent × Bool) (hends : x.1.ends = true) :
    RowsClosed s (c.handle s x).world := by
  rcases x with ⟨event, credit⟩
  cases event with
  | sessionEnded status =>
      exact
        { session := rfl
          runs := finishRunsForRef_ended _ _ _
          task := endedStatus_ne_running status }
  | _ => cases hends

theorem handle_other (x : SessionEvent × Bool) (hends : x.1.ends = false) :
    (c.handle s x).world.session.ended = c.world.session.ended ∧
      (c.handle s x).world.runs = c.world.runs ∧
      ((c.handle s x).world.taskStatus = c.world.taskStatus ∨
        (c.handle s x).world.taskStatus ≠ .running) := by
  rcases x with ⟨event, credit⟩
  cases event with
  | sessionEnded status => cases hends
  | usageLimitReached resetAt => exact ⟨rfl, rfl, .inr nofun⟩
  | networkUnavailable message => exact ⟨rfl, rfl, .inr nofun⟩
  | _ => exact ⟨rfl, rfl, .inl rfl⟩

theorem RowsClosed.handle (h : RowsClosed s c.world) (x : SessionEvent × Bool) :
    RowsClosed s (c.handle s x).world := by
  cases hends : x.1.ends with
  | true => exact handle_ended x hends
  | false =>
      rcases @handle_other s c x hends with ⟨hsession, hruns, htask⟩
      constructor
      · rw [hsession]
        exact h.session
      · rw [hruns]
        exact h.runs
      · rcases htask with htask | htask
        · rw [htask]
          exact h.task
        · exact htask

theorem RowsClosed.foldl (h : RowsClosed s c.world) (events : List (SessionEvent × Bool)) :
    RowsClosed s (events.foldl (Consumption.handle s) c).world := by
  induction events generalizing c with
  | nil => exact h
  | cons x rest ih => exact ih (h.handle x)

theorem foldl_rows (events : List (SessionEvent × Bool)) :
    (events.any (fun x => x.1.ends) = true ->
      RowsClosed s (events.foldl (Consumption.handle s) c).world) ∧
    (events.any (fun x => x.1.ends) = false ->
      (events.foldl (Consumption.handle s) c).world.session.ended =
        c.world.session.ended) := by
  induction events generalizing c with
  | nil => exact ⟨fun h => absurd h Bool.false_ne_true, fun _ => rfl⟩
  | cons x rest ih =>
      rw [List.any_cons, List.foldl_cons]
      cases hends : x.1.ends with
      | true =>
          rw [Bool.true_or]
          exact ⟨fun _ => (handle_ended x hends).foldl rest, fun h => absurd h nofun⟩
      | false =>
          rw [Bool.false_or]
          refine ⟨ih.left, fun h => ?_⟩
          rw [ih.right h, (@handle_other s c x hends).left]

/-- The steps behind the release queue the task, and start and hold nothing themselves. -/
structure Tail (w w' : ConsumerWorld) : Prop where
  session : w'.session = w.session
  runs : w'.runs = w.runs
  task : w'.taskStatus = w.taskStatus ∨ w'.taskStatus = .queued
  active : w'.active = w.active
  approvals : w'.approvals = w.approvals
  permit : w'.permitHeld = w.permitHeld
  locks : w'.locks = w.locks

theorem Tail.refl (w : ConsumerWorld) : Tail w w :=
  { session := rfl
    runs := rfl
    task := .inl rfl
    active := rfl
    approvals := rfl
    permit := rfl
    locks := rfl }

theorem Tail.queued (w : ConsumerWorld) (agent : AgentKind) : Tail w (w.queueFor agent) :=
  { Tail.refl w with task := .inr rfl }

theorem Tail.queued_restart (w : ConsumerWorld) (agent next : AgentKind)
    (permission : PermissionPolicy) (message : Option String) :
    Tail w ((w.queueFor agent).restart next permission message) :=
  { Tail.refl w with task := .inr rfl }

theorem fallBack_tail (a : TailAnswers) (w : ConsumerWorld) : Tail w (fallBack s a w) := by
  unfold fallBack
  split
  · split
    · exact Tail.queued_restart w _ _ _ _
    · exact Tail.queued w _
  · exact Tail.refl w

theorem afterLimit_tail (a : TailAnswers) (creditRedeemed : Bool) (w : ConsumerWorld) :
    Tail w (afterLimit s a creditRedeemed w) := by
  unfold afterLimit
  split
  · exact { Tail.refl w with task := .inr rfl }
  · split
    · split
      · exact Tail.queued_restart w _ _ _ _
      · exact Tail.refl w
    · exact fallBack_tail a w

theorem handleTaskNetworkLoss_tail (a : TailAnswers) (w : ConsumerWorld) :
    Tail w (handleTaskNetworkLoss s a w) := by
  unfold handleTaskNetworkLoss
  split
  · exact Tail.refl w
  · split
    · exact Tail.queued_restart w _ _ _ _
    · exact Tail.refl w

theorem takeNextMessage_tail (w : ConsumerWorld) : Tail w (takeNextMessage w) := by
  unfold takeNextMessage
  split
  · exact Tail.refl w
  · exact { Tail.refl w with }

theorem settle_tail (a : TailAnswers) : Tail (c.world.letGo s) (c.settle s a) := by
  unfold Consumption.settle
  dsimp only
  split
  · exact handleTaskNetworkLoss_tail a _
  · split
    · exact afterLimit_tail a _ _
    · exact takeNextMessage_tail _

theorem letGo_spec (s : SessionRun) (w : ConsumerWorld) : LetGo s (w.letGo s) where
  registry := Function.update_self ..
  approvals := by
    intro a ha
    have hne := (List.mem_filter.mp ha).right
    exact bne_iff_ne.mp hne
  permit := rfl
  locks := by
    intro node hnode l hl
    have hl' : l ∈ Table.deleteWhere (fun l => l.nodeId == node) w.locks := by
      have heq : (w.letGo s).locks = Table.deleteWhere (fun l => l.nodeId == node) w.locks := by
        unfold ConsumerWorld.letGo
        rw [hnode]
      rw [← heq]
      exact hl
    exact beq_eq_false_iff_ne.mp (Table.mem_deleteWhere.mp hl').right

theorem LetGo.tail {w' : ConsumerWorld} (h : LetGo s w) (htail : Tail w w') : LetGo s w' where
  registry := by rw [htail.active, h.registry]
  approvals := by rw [htail.approvals]; exact h.approvals
  permit := by rw [htail.permit, h.permit]
  locks := by rw [htail.locks]; exact h.locks

theorem RowsClosed.tail {w' : ConsumerWorld} (h : RowsClosed s w) (htail : Tail w w') :
    RowsClosed s w' where
  session := by rw [htail.session, h.session]
  runs := by rw [htail.runs]; exact h.runs
  task := by
    rcases htail.task with heq | heq
    · rw [heq]
      exact h.task
    · rw [heq]
      nofun

/-- A session is settled exactly if its stream has the event that ends it. -/
theorem consumeSession_settled_iff (events : List (SessionEvent × Bool)) (a : TailAnswers)
    (hrow : w.session.ended = false) :
    Settled s (consumeSession s w events a) <->
      events.any (fun x => x.1.ends) = true := by
  rcases @foldl_rows s (Consumption.start w) events with ⟨hclosed, hopen⟩
  have htail := @settle_tail s (events.foldl (Consumption.handle s) (Consumption.start w)) a
  constructor
  · intro h
    by_contra hnot
    have hsame := hopen (Bool.eq_false_iff.mpr hnot)
    have hended := h.left.session
    unfold consumeSession at hended
    rw [htail.session] at hended
    change (events.foldl (Consumption.handle s) (Consumption.start w)).world.session.ended =
      true at hended
    rw [hsame] at hended
    change w.session.ended = true at hended
    rw [hrow] at hended
    cases hended
  · intro h
    have hrows := hclosed h
    have hkept : RowsClosed s
        ((events.foldl (Consumption.handle s) (Consumption.start w)).world.letGo s) :=
      { session := hrows.session
        runs := hrows.runs
        task := hrows.task }
    exact ⟨hkept.tail htail, (letGo_spec s _).tail htail⟩

end Settled

/-!
## Two streams
-/

def sampleRun : SessionRun :=
  { sessionId := "s1"
    taskId := "t1"
    agent := .codex
    permission := .ask
    providerAccountId := none
    nodeId := some "n1" }

def startedSession : ConsumerWorld :=
  { session :=
      { agentSessionId := none
        state := .running
        ended := false }
    runs :=
      [{ runRef := "s1"
         state := .running
         ended := false }]
    taskStatus := .running
    primaryAgent := .codex
    active := fun task => task == "t1"
    approvals := [{ id := "a1", sessionId := some "s1" }]
    permitHeld := true
    locks := [{ nodeId := "n1", repoId := "r1" }]
    messages := []
    restarts := [] }

def quietTail : TailAnswers :=
  { autoResumeCloud := false
    connectivityStable := none
    accountsConfigured := false
    autoSwitch := false
    nextReadyAccount := none
    fallback := none
    switchRecorded := false }

theorem consumeSession_settled_iff_limitThenEnd :
    Settled sampleRun
      (consumeSession sampleRun startedSession
        [(SessionEvent.usageLimitReached none, false),
          (SessionEvent.sessionEnded SessionStatus.failed, false)] quietTail) :=
  (consumeSession_settled_iff (s := sampleRun) _ quietTail rfl).mpr rfl

/-- The adapter is gone after its first event: the session, its run and the task are
left running. -/
theorem closed_stream_leaves_session_running :
    (consumeSession sampleRun startedSession
        [(SessionEvent.sessionStarted "p1", false)] quietTail).taskStatus =
          TaskStatus.running ∧
      (consumeSession sampleRun startedSession
        [(SessionEvent.sessionStarted "p1", false)] quietTail).session.ended = false ∧
      ¬ Settled sampleRun
        (consumeSession sampleRun startedSession
          [(SessionEvent.sessionStarted "p1", false)] quietTail) := by
  refine ⟨rfl, rfl, fun h => ?_⟩
  exact absurd h.left.session (by decide)

end Sessions
end Perpetual
