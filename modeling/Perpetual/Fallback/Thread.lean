import Perpetual.Foundation.Text
import Perpetual.Proto.Enums

/-!
# Automatic switches of a thread's agent

When the agent of a thread reaches a limit or the network is lost, the thread goes
on with another agent.  The functions that switch it read the thread, remember its
settings, put others in their place and save it; two functions switch it back.

The services they call answer through an argument: what was detected, the policies,
the accounts, the local targets, whether a session is active and whether the thread
is saved.  Times are natural numbers.
-/

namespace Perpetual
namespace Fallback

open Foundation

inductive LocalModelProviderKind where
  | ollama
  | lmStudio
deriving DecidableEq, Repr

def LocalModelProviderKind.defaultBaseUrl : LocalModelProviderKind -> String
  | .ollama => "http://127.0.0.1:11434"
  | .lmStudio => "http://127.0.0.1:1234"

inductive ModelTargetKind where
  | frontierDefault
  | localProvider
  | rentedCompute
deriving DecidableEq, Repr

structure LocalModelTarget where
  provider : LocalModelProviderKind
  model : String
  baseUrl : Option String
deriving DecidableEq, Repr

structure AgentThread where
  status : TaskStatus
  activeAgent : Option AgentKind
  executionBackend : ExecutionBackend
  model : Option String
  reasoning : Option String
  localProvider : Option LocalModelProviderKind
  localBaseUrl : Option String
  fallbackModelTarget : Option ModelTargetKind
  originalAgent : Option AgentKind
  fallbackAgent : Option AgentKind
  originalModel : Option String
  fallbackModel : Option String
  originalReasoning : Option String
  fallbackReasoning : Option String
  originalLocalProvider : Option LocalModelProviderKind
  fallbackLocalProvider : Option LocalModelProviderKind
  originalLocalBaseUrl : Option String
  fallbackLocalBaseUrl : Option String
  switchBackPending : Bool
  limitResetAt : Option Nat
  switchBack : Bool
  handoffState : String
  unlimitedBudget : Bool
deriving DecidableEq, Repr

/-!
## Compatible models and backends
-/

/-- Lower case, for comparisons with ASCII texts: two other characters have lower
case forms with an ASCII letter. -/
def toLowercase (text : String) : List Char :=
  text.toList.flatMap (fun c =>
    if c.toNat = 0x212A then ['k']
    else if c.toNat = 0x0130 then ['i', Char.ofNat 0x0307]
    else [c.toLower])

def isClaudeModel (model : List Char) : Bool :=
  model == "opus".toList || model == "sonnet".toList || model == "haiku".toList ||
    model == "fable".toList || "claude-".toList.isPrefixOf model

def isCodexModel (model : List Char) : Bool :=
  decide ("gpt-".toList <:+: model) ||
    match model with
    | 'o' :: digit :: _ => decide ('1' ≤ digit) && decide (digit ≤ '9')
    | _ => false

def modelCompatibleWithAgent (agent : AgentKind) (model : String) : Bool :=
  let lowered := toLowercase (Text.trim model)
  if lowered.isEmpty then true
  else
    match agent with
    | .codex => !isClaudeModel lowered
    | .claudeCode => !isCodexModel lowered
    | _ => true

def fallbackBackendForAgent (agent : AgentKind) (backend : ExecutionBackend) :
    ExecutionBackend :=
  if backend = .dockerSandbox ∧ agent ≠ .codex then
    .host
  else backend

def localModelUsesContainerLocalhost (target : LocalModelTarget) : Bool :=
  let base :=
    (Text.trim (target.baseUrl.getD target.provider.defaultBaseUrl)).toList.map
      Char.toLower
  decide ("://127.".toList <:+: base) || decide ("://localhost".toList <:+: base) ||
    decide ("://0.0.0.0".toList <:+: base) || "127.".toList.isPrefixOf base ||
    "localhost".toList.isPrefixOf base

/-!
## The decision
-/

structure AgentStatus where
  kind : AgentKind
  installed : Bool
  authenticated : Bool
  limited : Bool
deriving DecidableEq, Repr

def agentReady (status : AgentStatus) : Bool :=
  status.installed && status.authenticated && !status.limited

structure FallbackPolicy where
  autoSwitch : Bool
  switchBack : Bool
  preferredOrder : List AgentKind
deriving DecidableEq, Repr

inductive FallbackDecision where
  | switch (agent : AgentKind) (switchBack : Bool)
  | wait (resetAt : Option Nat)
  | disabled
deriving DecidableEq, Repr

def FallbackPolicy.decide (policy : FallbackPolicy) (current : AgentKind)
    (statuses : List AgentStatus) (resetAt : Option Nat) : FallbackDecision :=
  if !policy.autoSwitch then .disabled
  else
    match policy.preferredOrder.find? (fun preferred =>
        preferred != current &&
          statuses.any (fun s => s.kind == preferred && agentReady s)) with
    | some preferred => .switch preferred policy.switchBack
    | none =>
        match statuses.find? (fun s => s.kind != current && agentReady s) with
        | some status => .switch status.kind policy.switchBack
        | none => .wait resetAt

structure Answers where
  detected : Option (List AgentStatus)
  policy : FallbackPolicy
  agentProfiles : List (AgentKind × Option String × Option String)
  accountsConfigured : Bool
  nextReadyAccount : Option AgentKind
  earliestAccountReset : Option Nat
  ownAccountReset : Option Nat
  bestReadyLocalTarget : Option LocalModelTarget
  switchBackToCloud : Bool
  sessionActive : Bool
  saves : Bool

namespace Answers

def fallbackDecision (a : Answers) (current : AgentKind) (resetAt : Option Nat) :
    Option FallbackDecision :=
  a.detected.map (fun statuses => a.policy.decide current statuses resetAt)

def agentTargetProfile (a : Answers) (agent : AgentKind) :
    Option String × Option String :=
  ((a.agentProfiles.find? (fun profile => profile.1 == agent)).map Prod.snd).getD
    (none, none)

end Answers

/-- The thread after a call, and whether the call switched it. -/
structure Outcome where
  thread : AgentThread
  switched : Bool
deriving DecidableEq, Repr

namespace AgentThread

def stay (thread : AgentThread) : Outcome :=
  { thread := thread, switched := false }

/-- Saving `next`; a failing save leaves the thread as it was. -/
def save (thread next : AgentThread) (saves switched : Bool) : Outcome :=
  if saves then { thread := next, switched := switched } else thread.stay

/-!
## Switching
-/

/-- The settings are remembered once, by the first switch. -/
def rememberOriginal (thread : AgentThread) (current : AgentKind) : AgentThread :=
  if thread.originalAgent = none then
    { thread with
      originalAgent := some current
      originalModel := thread.model
      originalReasoning := thread.reasoning
      originalLocalProvider := thread.localProvider
      originalLocalBaseUrl := thread.localBaseUrl }
  else thread

/-- A model that the other agent cannot use is dropped. -/
def nextModel (thread : AgentThread) (agent : AgentKind) (profileModel : Option String) :
    Option String :=
  profileModel.or (thread.model.filter (modelCompatibleWithAgent agent))

/-- The switch to another agent that two of the functions make. -/
def switchTo (thread : AgentThread) (current agent : AgentKind)
    (profile : Option String × Option String) (switchBack : Bool)
    (resetAt : Option Nat) : AgentThread :=
  { thread.rememberOriginal current with
    fallbackAgent := some agent
    activeAgent := some agent
    model := thread.nextModel agent profile.1
    fallbackModel := thread.nextModel agent profile.1
    reasoning := profile.2
    fallbackReasoning := profile.2
    localProvider := none
    localBaseUrl := none
    executionBackend := fallbackBackendForAgent agent thread.executionBackend
    status := .queued
    switchBack := switchBack
    limitResetAt := resetAt
    handoffState := "fallback_active" }

def waitForReset (thread : AgentThread) (resetAt : Option Nat) (handoffState : String) :
    AgentThread :=
  { thread with
    status := .waitingForLimit
    limitResetAt := resetAt
    handoffState := handoffState }

def localFallback (thread : AgentThread) (current : AgentKind)
    (target : LocalModelTarget) (switchBackToCloud : Bool) : AgentThread :=
  { thread.rememberOriginal current with
    executionBackend :=
      if thread.executionBackend = .dockerSandbox ∧
          localModelUsesContainerLocalhost target = true then .host
      else thread.executionBackend
    fallbackAgent := some .codex
    fallbackModel := some target.model
    fallbackReasoning := none
    fallbackLocalProvider := some target.provider
    fallbackLocalBaseUrl := target.baseUrl
    activeAgent := some .codex
    model := some target.model
    reasoning := none
    localProvider := some target.provider
    localBaseUrl := target.baseUrl
    status := .queued
    switchBack := switchBackToCloud
    switchBackPending := false
    handoffState := "local_fallback_active" }

def startThreadLocalFallback (thread : AgentThread) (current : AgentKind)
    (target : LocalModelTarget) (a : Answers) : Outcome :=
  if a.sessionActive then thread.save { thread with switchBackPending := true } a.saves false
  else thread.save (thread.localFallback current target a.switchBackToCloud) a.saves true

/-- This switch does not remember the local provider and its address, and leaves
them in place. -/
def accountFallback (thread : AgentThread) (current next : AgentKind)
    (profile : Option String × Option String) : AgentThread :=
  let remembered :=
    if thread.originalAgent = none then
      { thread with
        originalAgent := some current
        originalModel := thread.model
        originalReasoning := thread.reasoning }
    else thread
  { remembered with
    activeAgent := some next
    fallbackAgent := some next
    model := profile.1
    fallbackModel := profile.1
    reasoning := profile.2
    fallbackReasoning := profile.2
    status := .queued
    handoffState := "account_fallback_active"
    limitResetAt := none }

def startThreadAccountFallback (thread : AgentThread) (current next : AgentKind)
    (a : Answers) : Outcome :=
  thread.save (thread.accountFallback current next (a.agentTargetProfile next)) a.saves true

/-- The limit is known before the turn is started. -/
def startKnownLimitedThreadFallback (thread : AgentThread) (current : AgentKind)
    (resetAt : Option Nat) (a : Answers) : Outcome :=
  match a.fallbackDecision current resetAt with
  | none => thread.stay
  | some (.switch agent switchBack) =>
      thread.save
        (thread.switchTo current agent (a.agentTargetProfile agent) switchBack resetAt)
        a.saves true
  | some (.wait reset) =>
      match thread.unlimitedBudget, a.bestReadyLocalTarget with
      | true, some target => thread.startThreadLocalFallback current target a
      | _, _ => thread.save (thread.waitForReset reset "waiting_for_reset") a.saves false
  | some .disabled =>
      thread.save (thread.waitForReset resetAt "waiting_for_reset") a.saves false

/-- The limit was hit during a turn.  With accounts configured, only they are
switched between. -/
def startThreadFallback (thread : AgentThread) (current : AgentKind)
    (resetAt : Option Nat) (a : Answers) : Outcome :=
  if a.accountsConfigured then
    match a.policy.autoSwitch, a.nextReadyAccount with
    | true, some next => thread.startThreadAccountFallback current next a
    | true, none =>
        thread.save
          (thread.waitForReset (a.earliestAccountReset.or resetAt) "waiting_for_account")
          a.saves false
    | false, _ =>
        thread.save
          (thread.waitForReset (a.ownAccountReset.or resetAt) "waiting_for_reset")
          a.saves false
  else
    match a.fallbackDecision current resetAt with
    | none => thread.stay
    | some (.switch agent switchBack) =>
        thread.save
          (thread.switchTo current agent (a.agentTargetProfile agent) switchBack resetAt)
          a.saves true
    | some (.wait reset) =>
        match a.bestReadyLocalTarget with
        | some target => thread.startThreadLocalFallback current target a
        | none => thread.save (thread.waitForReset reset "waiting_for_reset") a.saves false
    | some .disabled => thread.stay

/-- Only the agent is remembered, and only when there is one. -/
def scheduledFallback (thread : AgentThread) (agent : AgentKind) : AgentThread :=
  { thread with
    originalAgent := thread.originalAgent.or thread.activeAgent
    fallbackAgent := some agent
    activeAgent := some agent
    executionBackend :=
      if thread.executionBackend = .dockerSandbox ∧
          agent ≠ .codex then .host
      else thread.executionBackend
    handoffState := "fallback_active" }

/-- `listed` is the active agent of the copy that the scheduler listed. -/
def tryThreadSchedulerStart (thread : AgentThread) (listed : Option AgentKind)
    (agent : AgentKind) (a : Answers) : Outcome :=
  if a.sessionActive then thread.stay
  else if listed ≠ some agent then thread.save (thread.scheduledFallback agent) a.saves true
  else thread.stay

/-!
## Switching back
-/

def clearFallback (thread : AgentThread) : AgentThread :=
  { thread with
    originalAgent := none
    originalModel := none
    originalReasoning := none
    originalLocalProvider := none
    originalLocalBaseUrl := none
    fallbackAgent := none
    fallbackModel := none
    fallbackReasoning := none
    fallbackLocalProvider := none
    fallbackLocalBaseUrl := none
    switchBackPending := false }

/-- What the services answer to a switch back; no connectivity when the probe
fails. -/
structure BackAnswers where
  accountsConfigured : Bool
  originalReady : Bool
  switchBackToCloud : Bool
  cloudStable : Option Bool
  now : Nat
  sessionActive : Bool
  saves : Bool
deriving DecidableEq, Repr

def resumeThreadCloudAfterNetwork (thread : AgentThread) (current : AgentKind)
    (a : BackAnswers) : Outcome :=
  if a.sessionActive then thread.save { thread with switchBackPending := true } a.saves false
  else
    let settings :=
      if thread.originalAgent.isSome then
        { thread with
          model := thread.originalModel
          reasoning := thread.originalReasoning
          localProvider := thread.originalLocalProvider
          localBaseUrl := thread.originalLocalBaseUrl }
      else thread
    thread.save
      { settings.clearFallback with
        activeAgent := some (thread.originalAgent.getD current)
        status := .queued
        handoffState := "network_restored" }
      a.saves true

def maybeMarkThreadSwitchbackReady (thread : AgentThread) (a : BackAnswers) : Outcome :=
  match thread.originalAgent with
  | none => thread.stay
  | some original =>
      if !thread.switchBack then thread.stay
      else if a.accountsConfigured && !a.originalReady then
        thread.save { thread with switchBackPending := true } a.saves false
      else if thread.fallbackLocalProvider.isSome then
        if !a.switchBackToCloud then thread.stay
        else
          match a.cloudStable with
          | some true => thread.resumeThreadCloudAfterNetwork original a
          | some false =>
              thread.save
                { thread with
                  switchBackPending := true
                  status := .waitingForNetwork
                  handoffState := "local_fallback_waiting_for_cloud" }
                a.saves false
          | none => thread.stay
      else if thread.limitResetAt.any (fun resetAt => decide (a.now < resetAt)) then
        thread.stay
      else
        thread.save
          { thread.clearFallback with
            activeAgent := some original
            model := thread.originalModel
            reasoning := thread.originalReasoning
            localProvider := thread.originalLocalProvider
            localBaseUrl := thread.originalLocalBaseUrl
            limitResetAt := none
            handoffState := "resolved" }
          a.saves true

end AgentThread

end Fallback
end Perpetual
