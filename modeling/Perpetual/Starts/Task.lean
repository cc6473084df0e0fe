import Perpetual.Foundation.Attempt
import Perpetual.Proto.Enums

/-!
# A task start and the rows it writes

`run_task_inner` as one sequence of fallible steps.  What the services and the
store answer at each step is an input; what the start writes is the stored status
of the task and the session row it creates.  Nothing is rolled back when a later
step fails.
-/

namespace Perpetual
namespace Starts

open Foundation
open Foundation.Attempt

/-- The stored status of the task or thread, and the states of the session rows
the call has created. -/
structure Rows where
  status : TaskStatus
  created : List SessionState
deriving DecidableEq, Repr

abbrev StartM := EStateM CoreError Rows

def setStatus (status : TaskStatus) : StartM Unit :=
  modify (fun rows => { rows with status := status })

/-- A new session row, or turn, is created in the state running. -/
def insertRow : StartM Unit :=
  modify (fun rows => { rows with created := rows.created ++ [.running] })

inductive AccountSelection where
  | unmanaged
  | ready
  | signedOut
  | limited (resetAt : Option String)
deriving DecidableEq, Repr

structure AgentStatus where
  installed : Bool
  authenticated : Bool
deriving DecidableEq, Repr

def noAdapterError (agent : AgentKind) : CoreError :=
  .other ("no adapter available for " ++ agent.label)

def rentedComputeError : CoreError :=
  .other "rented compute targets are not supported by the VS Code extension"

def signedOutError (agent : AgentKind) : CoreError :=
  .other
    ("No " ++ agent.label ++ " account is signed in. Sign in from Accounts to continue.")

def notInstalledError (agent : AgentKind) : CoreError :=
  .other (agent.label ++ " is not installed or could not be found")

def notSignedInError (agent : AgentKind) : CoreError :=
  .other
    (agent.label ++ " is installed but not signed in. Sign in from Accounts to continue.")

/-- On the host the agent has to be installed, and signed in unless an account or
a local model is used. -/
def checkAgentStatus (agent : AgentKind) (needsSignIn : Bool)
    (status : Except CoreError AgentStatus) : Except CoreError Unit := do
  let status ← status
  if !status.installed then throw (notInstalledError agent)
  if !status.authenticated && needsSignIn then throw (notSignedInError agent)

/-!
## Task starts
-/

/-- The answers a task start gets, in the order it asks. -/
structure TaskAnswers where
  active : Bool
  taskExists : Except CoreError Bool
  slotFree : Bool
  capacityError : CoreError
  repoHasPath : Except CoreError Bool
  executionBackend : Except CoreError Unit
  policy : Except CoreError (AgentKind × ExecutionBackend)
  hasAdapter : Bool
  rentedCompute : Bool
  account : Except CoreError AccountSelection
  agentStatus : Except CoreError AgentStatus
  worktree : Except CoreError Unit
  context : Except CoreError Unit
  contextFiles : Except CoreError Unit
  resumableSession : Except CoreError Unit
  sessionRuntime : Except CoreError Unit
  workNode : Except CoreError Unit
  createSession : Except CoreError Unit
  markRunning : Except CoreError Unit
  recordActivity : Except CoreError Unit
  adapterStart : Except CoreError Unit
  sessionId : String

def limitedError (agent : AgentKind) (resetAt : Option String) : CoreError :=
  match resetAt with
  | some time =>
      .other
        ("Every " ++ agent.label ++ " account is at its usage limit until " ++ time ++ ".")
  | none => .other ("Every " ++ agent.label ++ " account is at its usage limit.")

def requireAccount (agent : AgentKind) (selection : AccountSelection) :
    Except CoreError Bool :=
  match selection with
  | .unmanaged => .ok false
  | .ready => .ok true
  | .signedOut => .error (signedOutError agent)
  | .limited resetAt => .error (limitedError agent resetAt)

/-- Everything up to the session row; none of it writes. -/
def TaskAnswers.prepare (a : TaskAnswers) : Except CoreError Unit := do
  if a.active then throw (.other "task is already running")
  let found ← a.taskExists
  if !found then throw .notFound
  if !a.slotFree then throw a.capacityError
  let hasPath ← a.repoHasPath
  if !hasPath then throw (.other "repository has no local path")
  a.executionBackend
  let (agent, backend) ← a.policy
  if !a.hasAdapter then throw (noAdapterError agent)
  if a.rentedCompute then throw rentedComputeError
  let selection ← a.account
  let managed ← requireAccount agent selection
  if backend = .host then
    checkAgentStatus agent (!managed) a.agentStatus
  a.worktree
  a.context
  a.contextFiles
  a.resumableSession
  a.sessionRuntime
  a.workNode

def TaskAnswers.launch (a : TaskAnswers) : StartM String := do
  answer a.markRunning
  setStatus .running
  answer a.recordActivity
  answer a.adapterStart
  pure a.sessionId

def runTaskInner (a : TaskAnswers) : StartM String := do
  answer a.prepare
  answer a.createSession
  insertRow
  a.launch

/-!
## What a failed task start leaves
-/

/-- No row of the call is running, and neither is the task or thread. -/
def NothingRunning (rows : Rows) : Prop :=
  .running ∉ rows.created ∧ rows.status ≠ .running

instance (rows : Rows) : Decidable (NothingRunning rows) := by
  unfold NothingRunning
  infer_instance

def Rows.before (status : TaskStatus) : Rows :=
  { status := status, created := [] }

/-- A check or a step of the preparation fails, or the insertion of the row. -/
def TaskAnswers.FailsBeforeRow (a : TaskAnswers) : Prop :=
  (exists e, a.prepare = .error e) ∨ (exists e, a.createSession = .error e)

theorem TaskAnswers.launch_failed (a : TaskAnswers) {rows : Rows} (h : .running ∈ rows.created) :
    FailsWith a.launch rows (fun rows' => .running ∈ rows'.created) := by
  refine failsWith_answer (fun _ _ => h) (fun _ _ => ?_)
  refine failsWith_modify ?_
  refine failsWith_answer (fun _ _ => h) (fun _ _ => ?_)
  refine failsWith_answer (fun _ _ => h) (fun _ _ => ?_)
  exact failsWith_pure _ _ _

theorem runTaskInner_failed (a : TaskAnswers) (status : TaskStatus) :
    FailsWith (runTaskInner a) (Rows.before status)
      (fun rows => NothingRunning rows ↔
        a.FailsBeforeRow ∧ status ≠ .running) := by
  have hunwritten : a.FailsBeforeRow ->
      (NothingRunning (Rows.before status) ↔
        a.FailsBeforeRow ∧ status ≠ .running) := by
    intro hearly
    constructor
    · intro hclean
      exact ⟨hearly, hclean.right⟩
    · intro hcond
      exact ⟨List.not_mem_nil, hcond.right⟩
  refine failsWith_answer ?_ ?_
  · intro e he
    exact hunwritten (.inl ⟨e, he⟩)
  · intro _ hprepared
    refine failsWith_answer ?_ ?_
    · intro e he
      exact hunwritten (.inr ⟨e, he⟩)
    · intro _ hcreated
      refine failsWith_modify ?_
      intro e rows hrun
      have hrow : .running ∈ rows.created :=
        a.launch_failed List.mem_concat_self e rows hrun
      constructor
      · intro hclean
        exact absurd hrow hclean.left
      · rintro ⟨⟨e', he'⟩ | ⟨e', he'⟩, _⟩
        · rw [hprepared] at he'
          cases he'
        · rw [hcreated] at he'
          cases he'

end Starts
end Perpetual
