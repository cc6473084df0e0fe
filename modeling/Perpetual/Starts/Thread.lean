import Perpetual.Starts.Task

/-!
# A thread start and the rows it writes

`run_agent_thread_inner_locked` as one sequence of fallible steps, with the
fallback to another provider it may go on to.  Before the turn row exists it
writes no status but paused, queued and waiting for the limit; after it the
status running is stored, and a later failure leaves both.
-/

namespace Perpetual
namespace Starts

open Foundation
open Foundation.Attempt

inductive TaskBudget where
  | unlimited
  | tokens (limitTokens : Nat)
  | weeklyPercent (limitPercent : Nat)
deriving DecidableEq, Repr

def TaskBudget.validate : TaskBudget -> Except String Unit
  | .unlimited => .ok ()
  | .tokens limitTokens =>
      if 10000 ≤ limitTokens ∧ limitTokens ≤ 10000000 then .ok ()
      else .error "Token budgets must be between 10000 and 10000000 tokens."
  | .weeklyPercent limitPercent =>
      if 1 ≤ limitPercent ∧ limitPercent ≤ 100 then .ok ()
      else
        .error "Weekly budgets must be a whole percentage from 1% through 100%."

def TaskBudget.isPercentageBudget : TaskBudget -> Bool
  | .weeklyPercent _ => true
  | _ => false

def validateRuntimeBudget (budget : TaskBudget) (agent : AgentKind)
    (backend : ExecutionBackend) (usesLocalModel : Bool) : Except CoreError Unit := do
  if budget = .unlimited then return
  if backend ≠ .host || usesLocalModel then
    throw (.other
      "Task budgets require host execution with a hosted agent; local models are not supported.")
  if budget.isPercentageBudget && agent ≠ .codex then
    throw (.other
      "Weekly % budgets currently require Codex with ChatGPT account usage telemetry.")

def percentageLimitedError : CoreError :=
  .other
    "Percentage budgets pause when the selected provider is limited; they do not switch providers because quota percentages are not comparable."

def budgetExhaustedError : CoreError :=
  .other
    "This task budget is exhausted. Increase the cap or turn budgeting off before resuming."

def weeklyExhaustedError : CoreError :=
  .other
    "This weekly usage budget is exhausted. Increase the cap or turn budgeting off before resuming."

/-!
## The answers
-/

/-- What the policy preflight settles, with the local model if there is one:
whether its endpoint is on the localhost of a container. -/
structure Target where
  agent : AgentKind
  backend : ExecutionBackend
  localModel : Option Bool
deriving DecidableEq, Repr

structure ThreadAnswers where
  assigned : Except CoreError Bool
  active : Bool
  hasMessage : Bool
  enqueueFollowUp : Except CoreError Unit
  recordFollowUp : Except CoreError Unit
  cloudActive : Except CoreError Bool
  threadExists : Except CoreError Bool
  executionBackend : Except CoreError Unit
  policy : Except CoreError (AgentKind × ExecutionBackend)
  budget : TaskBudget
  hasAdapter : Bool
  rentedCompute : Bool
  localModel : Except CoreError (Option Bool)
  limitPolicy : Except CoreError Unit
  account : Except CoreError AccountSelection
  knownLimited : Except CoreError Bool
  savePaused : Except CoreError Unit
  queueLimited : Except CoreError Unit
  fallbackStatus : Option TaskStatus
  spentTokens : Except CoreError Nat
  weeklyExhausted : Except CoreError Bool
  agentStatus : Except CoreError AgentStatus
  workspace : Except CoreError Unit
  contextFiles : Except CoreError Unit
  priorSession : Except CoreError Unit
  popMessage : Except CoreError Unit
  slotFree : Bool
  requeue : Except CoreError Unit
  saveQueued : Except CoreError Unit
  recordQueued : Except CoreError Unit
  popAgain : Except CoreError Unit
  sessionRuntime : Except CoreError Unit
  createTurn : Except CoreError Unit
  insertUserMessage : Except CoreError Unit
  saveRunning : Except CoreError Unit
  recordStarted : Except CoreError Unit
  safeDirectories : Except CoreError Unit
  attachments : Except CoreError Unit
  adapterStart : Except CoreError Unit
  queueId : String
  turnId : String

/-- A start is refused, becomes a follow-up of the running session, or goes on. -/
inductive Admission where
  | followUp
  | start
deriving DecidableEq, Repr

def ThreadAnswers.admission (a : ThreadAnswers) : Except CoreError Admission := do
  let assigned ← a.assigned
  if assigned then
    throw (.other
      "This session is assigned to another device. Cancel or finish that assignment before starting a local run.")
  if a.active then
    if a.hasMessage then return .followUp
    throw (.other "agent thread is already running")
  let cloudActive ← a.cloudActive
  if cloudActive then
    throw (.other
      "this thread is running in the cloud; reclaim the cloud run before starting a local turn")
  return .start

/-- The checks of the thread's agent, model, budget and backend. -/
def ThreadAnswers.target (a : ThreadAnswers) : Except CoreError Target := do
  let found ← a.threadExists
  if !found then throw .notFound
  a.executionBackend
  let (agent, backend) ← a.policy
  match a.budget.validate with
  | .ok _ => pure ()
  | .error text => throw (.other text)
  if !a.hasAdapter then throw (noAdapterError agent)
  if a.rentedCompute then throw rentedComputeError
  let localModel ← a.localModel
  if localModel.isSome && agent ≠ .codex then
    throw (.other "open-model runs use Codex OSS in this version")
  if backend = .dockerSandbox && localModel = some true then
    throw (.other
      "local model endpoints on localhost are not reachable from Docker Sandbox. Use Host execution, or set the local endpoint to a host-reachable address such as http://host.docker.internal:<port>.")
  validateRuntimeBudget a.budget agent backend localModel.isSome
  return { agent := agent, backend := backend, localModel := localModel }

/-- Every account is limited, the provider is known to be limited, or the start
goes on, with a managed account or without. -/
inductive AccountGate where
  | limited
  | knownLimited
  | clear (managed : Bool)
deriving DecidableEq, Repr

def ThreadAnswers.accountGate (a : ThreadAnswers) (target : Target) :
    Except CoreError AccountGate := do
  if target.localModel.isSome then return .clear false
  a.limitPolicy
  match ← a.account with
  | .ready => return .clear true
  | .signedOut => throw (signedOutError target.agent)
  | .limited _ => return .limited
  | .unmanaged =>
      let limited ← a.knownLimited
      return if limited then .knownLimited else .clear false

def ThreadAnswers.budgetGate (a : ThreadAnswers) : Except CoreError (Option CoreError) :=
  match a.budget with
  | .unlimited => return none
  | .tokens limitTokens => do
      let spent ← a.spentTokens
      return if limitTokens ≤ spent then some budgetExhaustedError else none
  | .weeklyPercent _ => do
      let exhausted ← a.weeklyExhausted
      return if exhausted then some weeklyExhaustedError else none

/-- From the agent's status to the message taken off the queue. -/
def ThreadAnswers.preparation (a : ThreadAnswers) (target : Target) (managed : Bool) :
    Except CoreError Unit := do
  if target.backend = .host && !managed then
    checkAgentStatus target.agent (target.localModel.isNone && !managed) a.agentStatus
  a.workspace
  a.contextFiles
  a.priorSession
  if !a.hasMessage then a.popMessage

def ThreadAnswers.runtime (a : ThreadAnswers) : Except CoreError Unit := do
  a.popAgain
  a.sessionRuntime

/-!
## The program
-/

/-- The status paused is stored and the start fails. -/
def ThreadAnswers.pause (a : ThreadAnswers) (error : CoreError) : StartM String := do
  answer a.savePaused
  setStatus .paused
  throw error

def ThreadAnswers.launch (a : ThreadAnswers) : StartM String := do
  answer a.insertUserMessage
  answer a.saveRunning
  setStatus .running
  answer a.recordStarted
  answer a.safeDirectories
  answer a.attachments
  answer a.adapterStart
  pure a.turnId

def ThreadAnswers.createTurnAndLaunch (a : ThreadAnswers) : StartM String := do
  answer a.runtime
  answer a.createTurn
  insertRow
  a.launch

/-- Without a free slot the start is queued, and waits for one. -/
def ThreadAnswers.waitAndLaunch (a : ThreadAnswers) : StartM String := do
  answer a.requeue
  answer a.saveQueued
  setStatus .queued
  answer a.recordQueued
  a.createTurnAndLaunch

def ThreadAnswers.afterBudget (a : ThreadAnswers) (target : Target) (managed : Bool) :
    StartM String := do
  answer (a.preparation target managed)
  if a.slotFree then a.createTurnAndLaunch else a.waitAndLaunch

/-- The account and the budget decide how the start goes on; `fallback` is the
start on another provider. -/
def ThreadAnswers.afterTarget (a : ThreadAnswers) (target : Target)
    (fallback : StartM String) : StartM String := do
  match ← answer (a.accountGate target) with
  | .limited =>
      if a.budget.isPercentageBudget then a.pause percentageLimitedError
      else do
        answer a.queueLimited
        modify (fun rows => { rows with status := a.fallbackStatus.getD rows.status })
        pure a.queueId
  | .knownLimited =>
      if a.budget.isPercentageBudget then a.pause percentageLimitedError
      else fallback
  | .clear managed =>
      match ← answer a.budgetGate with
      | some error => a.pause error
      | none => a.afterBudget target managed

def runAgentThreadInnerLocked (a : ThreadAnswers) (fallback : StartM String) :
    StartM String := do
  match ← answer a.admission with
  | .followUp => do
      answer a.enqueueFollowUp
      answer a.recordFollowUp
      pure a.queueId
  | .start => do
      let target ← answer a.target
      a.afterTarget target fallback

/-- What the start on a known limited provider is told. -/
structure FallbackAnswers where
  recordLimited : Except CoreError Unit
  decision : Except CoreError Unit
  saveSwitch : Except CoreError Unit
  recordSwitch : Except CoreError Unit
  queueLimited : Except CoreError Unit
  saveWaiting : Except CoreError Unit
  recordWaiting : Except CoreError Unit
  queueId : String

/-- There is no other provider: a local model takes over, or the thread waits for
the limit, or fallbacks are disabled. -/
inductive Remaining where
  | localModel (status : Option TaskStatus)
  | waits
deriving DecidableEq, Repr

def FallbackAnswers.remain (f : FallbackAnswers) (remaining : Remaining) :
    StartM String := do
  answer f.recordLimited
  answer f.decision
  answer f.queueLimited
  match remaining with
  | .localModel status => do
      modify (fun rows => { rows with status := status.getD rows.status })
      pure f.queueId
  | .waits => do
      answer f.saveWaiting
      setStatus .waitingForLimit
      answer f.recordWaiting
      pure f.queueId

def FallbackAnswers.switch (f : FallbackAnswers) (next : StartM String) :
    StartM String := do
  answer f.recordLimited
  answer f.decision
  answer f.saveSwitch
  setStatus .queued
  answer f.recordSwitch
  next

inductive ThreadStart where
  | stays (a : ThreadAnswers) (f : FallbackAnswers) (remaining : Remaining)
  | switches (a : ThreadAnswers) (f : FallbackAnswers) (next : ThreadStart)

def ThreadStart.run : ThreadStart -> StartM String
  | .stays a f remaining => runAgentThreadInnerLocked a (f.remain remaining)
  | .switches a f next => runAgentThreadInnerLocked a (f.switch next.run)

/-!
## Where a start gets to
-/

/-- Every step up to the insertion of the turn row succeeds. -/
def ThreadAnswers.CreatesTurn (a : ThreadAnswers) : Prop :=
  a.admission = .ok .start ∧
    exists target managed, a.target = .ok target ∧
      a.accountGate target = .ok (.clear managed) ∧
      a.budgetGate = .ok none ∧ a.preparation target managed = .ok () ∧
      (a.slotFree = true ∨
        (a.requeue = .ok () ∧ a.saveQueued = .ok () ∧
          a.recordQueued = .ok ())) ∧
      a.runtime = .ok () ∧ a.createTurn = .ok ()

/-- The start stores that the thread is paused or queued. -/
def ThreadAnswers.Saves (a : ThreadAnswers) : Prop :=
  a.admission = .ok .start ∧
    exists target, a.target = .ok target ∧
      ((a.savePaused = .ok () ∧ a.budget.isPercentageBudget = true ∧
          (a.accountGate target = .ok .limited ∨
            a.accountGate target = .ok .knownLimited)) ∨
        (exists managed,
          a.accountGate target = .ok (.clear managed) ∧
            ((a.savePaused = .ok () ∧
                exists error, a.budgetGate = .ok (some error)) ∨
              (a.budgetGate = .ok none ∧
                a.preparation target managed = .ok () ∧ a.slotFree = false ∧
                a.requeue = .ok () ∧ a.saveQueued = .ok ()))))

/-- The start goes on to another provider or waits for the limit. -/
def ThreadAnswers.FallsBack (a : ThreadAnswers) : Prop :=
  a.admission = .ok .start ∧ a.budget.isPercentageBudget = false ∧
    exists target, a.target = .ok target ∧
      a.accountGate target = .ok .knownLimited

variable {target : Target} {managed : Bool} {rows : Rows}

section Locked

variable {a : ThreadAnswers} {status : TaskStatus} {clean : Prop}

theorem createsTurn_iff (hadmission : a.admission = .ok .start) (htarget : a.target = .ok target)
    (hgate : a.accountGate target = .ok (.clear managed)) :
    a.CreatesTurn ↔
      a.budgetGate = .ok none ∧ a.preparation target managed = .ok () ∧
        (a.slotFree = true ∨
          (a.requeue = .ok () ∧ a.saveQueued = .ok () ∧
            a.recordQueued = .ok ())) ∧
        a.runtime = .ok () ∧ a.createTurn = .ok () := by
  constructor
  · rintro ⟨_, target', managed', htarget', hgate', hrest⟩
    rw [htarget] at htarget'
    cases htarget'
    rw [hgate] at hgate'
    cases hgate'
    exact hrest
  · intro hrest
    exact ⟨hadmission, target, managed, htarget, hgate, hrest⟩

theorem saves_iff (hadmission : a.admission = .ok .start) (htarget : a.target = .ok target)
    (hgate : a.accountGate target = .ok (.clear managed)) :
    a.Saves ↔
      (a.savePaused = .ok () ∧ exists error, a.budgetGate = .ok (some error)) ∨
        (a.budgetGate = .ok none ∧ a.preparation target managed = .ok () ∧
          a.slotFree = false ∧ a.requeue = .ok () ∧ a.saveQueued = .ok ()) := by
  constructor
  · rintro ⟨_, target', htarget', hcases⟩
    rw [htarget] at htarget'
    cases htarget'
    rcases hcases with ⟨_, _, hlimited | hlimited⟩ | ⟨managed', hgate', hrest⟩
    · rw [hgate] at hlimited
      cases hlimited
    · rw [hgate] at hlimited
      cases hlimited
    · rw [hgate] at hgate'
      cases hgate'
      exact hrest
  · intro hrest
    exact ⟨hadmission, target, htarget, .inr ⟨managed, hgate, hrest⟩⟩

theorem unwritten_iff
    (hclean : ¬ a.FallsBack -> (clean ↔ ¬ a.CreatesTurn ∧ (status ≠ .running ∨ a.Saves)))
    (hstays : ¬ a.FallsBack) (hturn : ¬ a.CreatesTurn) (hsaves : ¬ a.Saves) :
    NothingRunning (Rows.before status) ↔ clean := by
  rw [hclean hstays]
  constructor
  · intro h
    exact ⟨hturn, .inl h.right⟩
  · rintro ⟨_, hne | hsaved⟩
    · exact ⟨List.not_mem_nil, hne⟩
    · exact absurd hsaved hsaves

theorem written_iff {saved : TaskStatus}
    (hclean : ¬ a.FallsBack -> (clean ↔ ¬ a.CreatesTurn ∧ (status ≠ .running ∨ a.Saves)))
    (hstays : ¬ a.FallsBack) (hturn : ¬ a.CreatesTurn) (hsaves : a.Saves)
    (hsaved : saved ≠ .running) :
    NothingRunning (Rows.before saved) ↔ clean := by
  rw [hclean hstays]
  constructor
  · intro _
    exact ⟨hturn, .inr hsaves⟩
  · intro _
    exact ⟨List.not_mem_nil, hsaved⟩

theorem created_iff (hclean : ¬ a.FallsBack ->
      (clean ↔ ¬ a.CreatesTurn ∧ (status ≠ .running ∨ a.Saves)))
    (hstays : ¬ a.FallsBack) (hturn : a.CreatesTurn)
    (hrow : .running ∈ rows.created) : NothingRunning rows ↔ clean := by
  rw [hclean hstays]
  constructor
  · intro h
    exact absurd hrow h.left
  · intro h
    exact absurd hturn h.left

theorem ThreadAnswers.launch_failed (a : ThreadAnswers) (h : .running ∈ rows.created) :
    FailsWith a.launch rows (fun rows' => .running ∈ rows'.created) := by
  refine failsWith_answer (fun _ _ => h) (fun _ _ => ?_)
  refine failsWith_answer (fun _ _ => h) (fun _ _ => ?_)
  refine failsWith_modify ?_
  refine failsWith_answer (fun _ _ => h) (fun _ _ => ?_)
  refine failsWith_answer (fun _ _ => h) (fun _ _ => ?_)
  refine failsWith_answer (fun _ _ => h) (fun _ _ => ?_)
  refine failsWith_answer (fun _ _ => h) (fun _ _ => ?_)
  exact failsWith_pure _ _ _

theorem ThreadAnswers.pause_failed (a : ThreadAnswers) (error : CoreError) {P : Rows -> Prop}
    (hunsaved : forall e, a.savePaused = .error e -> P rows)
    (hsaved : a.savePaused = .ok () -> P { rows with status := .paused }) :
    FailsWith (a.pause error) rows P := by
  refine failsWith_answer hunsaved (fun _ hok => ?_)
  refine failsWith_modify ?_
  exact failsWith_throw error (hsaved hok)

theorem ThreadAnswers.createTurnAndLaunch_failed (a : ThreadAnswers) {P : Rows -> Prop}
    (hearly : (exists e, a.runtime = .error e ∨ a.createTurn = .error e) ->
      P rows)
    (hlate : a.runtime = .ok () -> a.createTurn = .ok () ->
      forall rows', .running ∈ rows'.created -> P rows') :
    FailsWith a.createTurnAndLaunch rows P := by
  refine failsWith_answer (fun e he => hearly ⟨e, .inl he⟩) (fun _ hruntime => ?_)
  refine failsWith_answer (fun e he => hearly ⟨e, .inr he⟩) (fun _ hcreate => ?_)
  refine failsWith_modify ?_
  intro e rows' hrun
  apply hlate hruntime hcreate
  exact a.launch_failed List.mem_concat_self e rows' hrun

theorem ThreadAnswers.afterBudget_failed (hclean : ¬ a.FallsBack ->
      (clean ↔ ¬ a.CreatesTurn ∧ (status ≠ .running ∨ a.Saves)))
    (hadmission : a.admission = .ok .start)
    (htarget : a.target = .ok target)
    (hgate : a.accountGate target = .ok (.clear managed))
    (hbudget : a.budgetGate = .ok none) :
    FailsWith (a.afterBudget target managed) (Rows.before status)
      (fun rows => NothingRunning rows ↔ clean) := by
  have hstays : ¬ a.FallsBack := by
    simp [ThreadAnswers.FallsBack, hadmission, htarget, hgate]
  have hturn := createsTurn_iff hadmission htarget hgate
  have hsaves := saves_iff hadmission htarget hgate
  refine failsWith_answer ?_ ?_
  · intro e he
    apply unwritten_iff hclean hstays
    · simp [hturn, he]
    · simp [hsaves, hbudget, he]
  · intro _ hprepared
    cases hslot : a.slotFree with
    | true =>
        refine a.createTurnAndLaunch_failed ?_ ?_
        · rintro ⟨e, he⟩
          apply unwritten_iff hclean hstays
          · rcases he with he | he
            · simp [hturn, he]
            · simp [hturn, he]
          · simp [hsaves, hbudget, hslot]
        · intro hruntime hcreate rows hrow
          refine created_iff hclean hstays ?_ hrow
          simp [hturn, hbudget, hprepared, hslot, hruntime, hcreate]
    | false =>
        refine failsWith_answer ?_ ?_
        · intro e he
          apply unwritten_iff hclean hstays
          · simp [hturn, hslot, he]
          · simp [hsaves, hbudget, he]
        · intro _ hrequeue
          refine failsWith_answer ?_ ?_
          · intro e he
            apply unwritten_iff hclean hstays
            · simp [hturn, hslot, he]
            · simp [hsaves, hbudget, he]
          · intro _ hsave
            refine failsWith_modify ?_
            have hsaved : a.Saves := by
              simp [hsaves, hbudget, hprepared, hslot, hrequeue, hsave]
            refine failsWith_answer ?_ ?_
            · intro e he
              refine written_iff hclean hstays ?_ hsaved (by decide)
              simp [hturn, hslot, he]
            · intro _ hrecord
              refine a.createTurnAndLaunch_failed ?_ ?_
              · rintro ⟨e, he⟩
                refine written_iff hclean hstays ?_ hsaved (by decide)
                rcases he with he | he
                · simp [hturn, he]
                · simp [hturn, he]
              · intro hruntime hcreate rows hrow
                refine created_iff hclean hstays ?_ hrow
                simp [hturn, hbudget, hprepared, hrequeue, hsave, hrecord, hruntime, hcreate]

theorem ThreadAnswers.afterTarget_failed {fallback : StartM String} (hclean : ¬ a.FallsBack ->
      (clean ↔ ¬ a.CreatesTurn ∧ (status ≠ .running ∨ a.Saves)))
    (hfallback : a.FallsBack ->
      FailsWith fallback (Rows.before status) (fun rows => NothingRunning rows ↔ clean))
    (hadmission : a.admission = .ok .start)
    (htarget : a.target = .ok target) :
    FailsWith (a.afterTarget target fallback) (Rows.before status)
      (fun rows => NothingRunning rows ↔ clean) := by
  refine failsWith_answer ?_ ?_
  · intro e he
    apply unwritten_iff hclean
    · simp [ThreadAnswers.FallsBack, hadmission, htarget, he]
    · simp [ThreadAnswers.CreatesTurn, hadmission, htarget, he]
    · simp [ThreadAnswers.Saves, hadmission, htarget, he]
  · intro gate hgate
    cases gate with
    | limited =>
        have hstays : ¬ a.FallsBack := by
          simp [ThreadAnswers.FallsBack, hadmission, htarget, hgate]
        have hturn : ¬ a.CreatesTurn := by
          simp [ThreadAnswers.CreatesTurn, hadmission, htarget, hgate]
        cases hpercent : a.budget.isPercentageBudget with
        | true =>
            refine a.pause_failed _ ?_ ?_
            · intro e he
              apply unwritten_iff hclean hstays hturn
              simp [ThreadAnswers.Saves, hadmission, htarget, hgate, he]
            · intro hok
              refine written_iff hclean hstays hturn ?_ (by decide)
              simp [ThreadAnswers.Saves, hadmission, htarget, hgate, hpercent, hok]
        | false =>
            refine failsWith_answer ?_ ?_
            · intro e he
              apply unwritten_iff hclean hstays hturn
              simp [ThreadAnswers.Saves, hadmission, htarget, hgate, hpercent]
            · intro _ _
              refine failsWith_modify ?_
              exact failsWith_pure _ _ _
    | knownLimited =>
        have hturn : ¬ a.CreatesTurn := by
          simp [ThreadAnswers.CreatesTurn, hadmission, htarget, hgate]
        cases hpercent : a.budget.isPercentageBudget with
        | true =>
            have hstays : ¬ a.FallsBack := by
              simp [ThreadAnswers.FallsBack, hpercent]
            refine a.pause_failed _ ?_ ?_
            · intro e he
              apply unwritten_iff hclean hstays hturn
              simp [ThreadAnswers.Saves, hadmission, htarget, hgate, he]
            · intro hok
              refine written_iff hclean hstays hturn ?_ (by decide)
              simp [ThreadAnswers.Saves, hadmission, htarget, hgate, hpercent, hok]
        | false =>
            apply hfallback
            simp [ThreadAnswers.FallsBack, hadmission, htarget, hgate, hpercent]
    | clear managed =>
        have hstays : ¬ a.FallsBack := by
          simp [ThreadAnswers.FallsBack, hadmission, htarget, hgate]
        refine failsWith_answer ?_ ?_
        · intro e he
          apply unwritten_iff hclean hstays
          · simp [createsTurn_iff hadmission htarget hgate, he]
          · simp [saves_iff hadmission htarget hgate, he]
        · intro exhausted hbudget
          cases exhausted with
          | none =>
              exact ThreadAnswers.afterBudget_failed hclean hadmission htarget hgate hbudget
          | some error =>
              have hturn : ¬ a.CreatesTurn := by
                simp [createsTurn_iff hadmission htarget hgate, hbudget]
              refine a.pause_failed _ ?_ ?_
              · intro e he
                apply unwritten_iff hclean hstays hturn
                simp [saves_iff hadmission htarget hgate, hbudget, he]
              · intro hok
                refine written_iff hclean hstays hturn ?_ (by decide)
                simp [saves_iff hadmission htarget hgate, hbudget, hok]

theorem runAgentThreadInnerLocked_failed {fallback : StartM String}
    (hclean : ¬ a.FallsBack ->
      (clean ↔ ¬ a.CreatesTurn ∧ (status ≠ .running ∨ a.Saves)))
    (hfallback : a.FallsBack ->
      FailsWith fallback (Rows.before status) (fun rows => NothingRunning rows ↔ clean)) :
    FailsWith (runAgentThreadInnerLocked a fallback) (Rows.before status)
      (fun rows => NothingRunning rows ↔ clean) := by
  refine failsWith_answer ?_ ?_
  · intro e he
    apply unwritten_iff hclean
    · simp [ThreadAnswers.FallsBack, he]
    · simp [ThreadAnswers.CreatesTurn, he]
    · simp [ThreadAnswers.Saves, he]
  · intro admission hadmission
    cases admission with
    | followUp =>
        have hunwritten : NothingRunning (Rows.before status) ↔ clean := by
          apply unwritten_iff hclean
          · simp [ThreadAnswers.FallsBack, hadmission]
          · simp [ThreadAnswers.CreatesTurn, hadmission]
          · simp [ThreadAnswers.Saves, hadmission]
        refine failsWith_answer (fun _ _ => hunwritten) (fun _ _ => ?_)
        refine failsWith_answer (fun _ _ => hunwritten) (fun _ _ => ?_)
        exact failsWith_pure _ _ _
    | start =>
        refine failsWith_answer ?_ ?_
        · intro e he
          apply unwritten_iff hclean
          · simp [ThreadAnswers.FallsBack, hadmission, he]
          · simp [ThreadAnswers.CreatesTurn, hadmission, he]
          · simp [ThreadAnswers.Saves, hadmission, he]
        · intro target htarget
          exact ThreadAnswers.afterTarget_failed hclean hfallback hadmission htarget

theorem not_createsTurn_of_fallsBack (h : a.FallsBack) : ¬ a.CreatesTurn := by
  rcases h with ⟨_, _, target, htarget, hgate⟩
  rintro ⟨_, target', managed, htarget', hgate', _⟩
  rw [htarget] at htarget'
  cases htarget'
  rw [hgate] at hgate'
  cases hgate'

theorem not_saves_of_fallsBack (h : a.FallsBack) : ¬ a.Saves := by
  rcases h with ⟨_, hpercent, target, htarget, hgate⟩
  rintro ⟨_, target', htarget', ⟨_, hpercent', _⟩ | ⟨managed, hgate', _⟩⟩
  · rw [hpercent] at hpercent'
    cases hpercent'
  · rw [htarget] at htarget'
    cases htarget'
    rw [hgate] at hgate'
    cases hgate'

end Locked

/-!
## Starts that go on to another provider
-/

/-- The thread is stored as waiting for the limit. -/
def FallbackAnswers.SavesWaiting (f : FallbackAnswers) (remaining : Remaining) : Prop :=
  f.recordLimited = .ok () ∧ f.decision = .ok () ∧
    f.queueLimited = .ok () ∧ remaining = .waits ∧
    f.saveWaiting = .ok ()

/-- The thread is stored as queued for another provider. -/
def FallbackAnswers.SavesSwitch (f : FallbackAnswers) : Prop :=
  f.recordLimited = .ok () ∧ f.decision = .ok () ∧
    f.saveSwitch = .ok ()

/-- The start fails before its turn row exists, and the stored status is not
running, either from the beginning or because the start has stored another. -/
def ThreadStart.FailsCleanly : ThreadStart -> TaskStatus -> Prop
  | .stays a f remaining, status =>
      ¬ a.CreatesTurn ∧
        (status ≠ .running ∨ a.Saves ∨
          (a.FallsBack ∧ f.SavesWaiting remaining))
  | .switches a f next, status =>
      (a.FallsBack ∧ f.SavesSwitch ∧ f.recordSwitch = .ok () ∧
          next.FailsCleanly .queued) ∨
        (¬ (a.FallsBack ∧ f.SavesSwitch ∧ f.recordSwitch = .ok ()) ∧
          ¬ a.CreatesTurn ∧
          (status ≠ .running ∨ a.Saves ∨ (a.FallsBack ∧ f.SavesSwitch)))

theorem nothingRunning_before (status : TaskStatus) :
    NothingRunning (Rows.before status) ↔ status ≠ .running := by
  constructor
  · intro h
    exact h.right
  · intro h
    exact ⟨List.not_mem_nil, h⟩

theorem FallbackAnswers.remain_failed (f : FallbackAnswers) (remaining : Remaining)
    (status : TaskStatus) :
    FailsWith (f.remain remaining) (Rows.before status)
      (fun rows => NothingRunning rows ↔
        status ≠ .running ∨ f.SavesWaiting remaining) := by
  have hunwritten (hnot : ¬ f.SavesWaiting remaining) :
      NothingRunning (Rows.before status) ↔
        status ≠ .running ∨ f.SavesWaiting remaining := by
    rw [nothingRunning_before, or_iff_left hnot]
  refine failsWith_answer ?_ ?_
  · intro e he
    apply hunwritten
    simp [FallbackAnswers.SavesWaiting, he]
  · intro _ hrecord
    refine failsWith_answer ?_ ?_
    · intro e he
      apply hunwritten
      simp [FallbackAnswers.SavesWaiting, he]
    · intro _ hdecision
      refine failsWith_answer ?_ ?_
      · intro e he
        apply hunwritten
        simp [FallbackAnswers.SavesWaiting, he]
      · intro _ hqueue
        cases remaining with
        | localModel target =>
            refine failsWith_modify ?_
            exact failsWith_pure _ _ _
        | waits =>
            refine failsWith_answer ?_ ?_
            · intro e he
              apply hunwritten
              simp [FallbackAnswers.SavesWaiting, he]
            · intro _ hsave
              refine failsWith_modify ?_
              refine failsWith_answer ?_ (fun _ _ => failsWith_pure _ _ _)
              intro e he
              constructor
              · intro _
                exact .inr ⟨hrecord, hdecision, hqueue, rfl, hsave⟩
              · intro _
                exact (nothingRunning_before _).mpr (by decide)

theorem FallbackAnswers.switch_failed (f : FallbackAnswers) {next : StartM String}
    (status : TaskStatus) {clean : Prop}
    (hnext : FailsWith next (Rows.before .queued) (fun rows => NothingRunning rows ↔ clean)) :
    FailsWith (f.switch next) (Rows.before status)
      (fun rows => NothingRunning rows ↔
        (f.SavesSwitch ∧ f.recordSwitch = .ok () ∧ clean) ∨
          (¬ (f.SavesSwitch ∧ f.recordSwitch = .ok ()) ∧
            (status ≠ .running ∨ f.SavesSwitch))) := by
  have hunwritten (hnot : ¬ f.SavesSwitch) :
      NothingRunning (Rows.before status) ↔
        (f.SavesSwitch ∧ f.recordSwitch = .ok () ∧ clean) ∨
          (¬ (f.SavesSwitch ∧ f.recordSwitch = .ok ()) ∧
            (status ≠ .running ∨ f.SavesSwitch)) := by
    rw [nothingRunning_before]
    simp [hnot]
  refine failsWith_answer ?_ ?_
  · intro e he
    apply hunwritten
    simp [FallbackAnswers.SavesSwitch, he]
  · intro _ hrecord
    refine failsWith_answer ?_ ?_
    · intro e he
      apply hunwritten
      simp [FallbackAnswers.SavesSwitch, he]
    · intro _ hdecision
      refine failsWith_answer ?_ ?_
      · intro e he
        apply hunwritten
        simp [FallbackAnswers.SavesSwitch, he]
      · intro _ hsave
        have hsaved : f.SavesSwitch := ⟨hrecord, hdecision, hsave⟩
        refine failsWith_modify ?_
        refine failsWith_answer ?_ ?_
        · intro e he
          have hclean : NothingRunning (Rows.before .queued) :=
            (nothingRunning_before _).mpr (by decide)
          simp [hsaved, he]
          exact hclean
        · intro _ hswitch e rows hrun
          have hiff := hnext e rows hrun
          simp [hsaved, hswitch, hiff]

theorem ThreadStart.run_failed (start : ThreadStart) (status : TaskStatus) :
    FailsWith start.run (Rows.before status)
      (fun rows => NothingRunning rows ↔ start.FailsCleanly status) := by
  induction start generalizing status with
  | stays a f remaining =>
      refine runAgentThreadInnerLocked_failed ?_ ?_
      · intro hstays
        simp [ThreadStart.FailsCleanly, hstays]
      · intro hfalls e rows hrun
        refine (f.remain_failed remaining status e rows hrun).trans ?_
        simp [ThreadStart.FailsCleanly, hfalls, not_createsTurn_of_fallsBack hfalls,
          not_saves_of_fallsBack hfalls]
  | switches a f next ih =>
      refine runAgentThreadInnerLocked_failed ?_ ?_
      · intro hstays
        simp [ThreadStart.FailsCleanly, hstays]
      · intro hfalls e rows hrun
        refine (f.switch_failed status (ih .queued) e rows hrun).trans ?_
        simp [ThreadStart.FailsCleanly, hfalls, not_createsTurn_of_fallsBack hfalls,
          not_saves_of_fallsBack hfalls]

/-!
## Failed starts
-/

/-- A failed start leaves no row of its own and no status running exactly when it
fails before it has inserted its row and the stored status was not running, or
was replaced by the start. -/
theorem failed_start_leaves_nothing_running (status : TaskStatus) (e : CoreError) (rows : Rows) :
    (forall a : TaskAnswers,
      (runTaskInner a).run (Rows.before status) = EStateM.Result.error e rows ->
      (NothingRunning rows ↔ a.FailsBeforeRow ∧ status ≠ TaskStatus.running)) ∧
    (forall start : ThreadStart,
      start.run.run (Rows.before status) = EStateM.Result.error e rows ->
      (NothingRunning rows ↔ start.FailsCleanly status)) := by
  constructor
  · intro a hrun
    exact runTaskInner_failed a status e rows hrun
  · intro start hrun
    exact start.run_failed status e rows hrun

def readyTask : TaskAnswers :=
  { active := false
    taskExists := .ok true
    slotFree := true
    capacityError := .other ""
    repoHasPath := .ok true
    executionBackend := .ok ()
    policy := .ok (.codex, .host)
    hasAdapter := true
    rentedCompute := false
    account := .ok .unmanaged
    agentStatus := .ok { installed := true, authenticated := true }
    worktree := .ok ()
    context := .ok ()
    contextFiles := .ok ()
    resumableSession := .ok ()
    sessionRuntime := .ok ()
    workNode := .ok ()
    createSession := .ok ()
    markRunning := .ok ()
    recordActivity := .ok ()
    adapterStart := .ok ()
    sessionId := "s1" }

def readyThread : ThreadAnswers :=
  { assigned := .ok false
    active := false
    hasMessage := true
    enqueueFollowUp := .ok ()
    recordFollowUp := .ok ()
    cloudActive := .ok false
    threadExists := .ok true
    executionBackend := .ok ()
    policy := .ok (.codex, .host)
    budget := .unlimited
    hasAdapter := true
    rentedCompute := false
    localModel := .ok none
    limitPolicy := .ok ()
    account := .ok .ready
    knownLimited := .ok false
    savePaused := .ok ()
    queueLimited := .ok ()
    fallbackStatus := none
    spentTokens := .ok 0
    weeklyExhausted := .ok false
    agentStatus := .ok { installed := true, authenticated := true }
    workspace := .ok ()
    contextFiles := .ok ()
    priorSession := .ok ()
    popMessage := .ok ()
    slotFree := true
    requeue := .ok ()
    saveQueued := .ok ()
    recordQueued := .ok ()
    popAgain := .ok ()
    sessionRuntime := .ok ()
    createTurn := .ok ()
    insertUserMessage := .ok ()
    saveRunning := .ok ()
    recordStarted := .ok ()
    safeDirectories := .ok ()
    attachments := .ok ()
    adapterStart := .ok ()
    queueId := "q1"
    turnId := "turn1" }

def readyFallback : FallbackAnswers :=
  { recordLimited := .ok ()
    decision := .ok ()
    saveSwitch := .ok ()
    recordSwitch := .ok ()
    queueLimited := .ok ()
    saveWaiting := .ok ()
    recordWaiting := .ok ()
    queueId := "q1" }

/-- A task that is not found, and a thread whose workspace cannot be set up. -/
theorem failed_start_leaves_nothing_running_early :
    (NothingRunning (Rows.before TaskStatus.queued) ↔
      ({ readyTask with taskExists := Except.ok false } : TaskAnswers).FailsBeforeRow ∧
        TaskStatus.queued ≠ TaskStatus.running) ∧
    (NothingRunning (Rows.before TaskStatus.review) ↔
      (ThreadStart.stays
        { readyThread with workspace := Except.error (CoreError.other "no worktree") }
        readyFallback Remaining.waits).FailsCleanly TaskStatus.review) :=
  ⟨(failed_start_leaves_nothing_running _ CoreError.notFound _).left _ rfl,
    (failed_start_leaves_nothing_running _ (CoreError.other "no worktree") _).right _ rfl⟩

/-- The adapter cannot start its process: the session row and the status of the
task stay running. -/
theorem failed_adapter_leaves_task_running :
    exists rows,
      (runTaskInner
          { readyTask with adapterStart := Except.error (CoreError.other "spawn failed") }).run
        (Rows.before TaskStatus.queued) =
          EStateM.Result.error (CoreError.other "spawn failed") rows ∧
      rows.status = TaskStatus.running ∧ rows.created = [SessionState.running] ∧
      ¬ NothingRunning rows :=
  ⟨{ status := TaskStatus.running, created := [SessionState.running] }, rfl, rfl, rfl,
    by decide⟩

end Starts
end Perpetual
