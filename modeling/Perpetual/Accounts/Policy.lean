import Perpetual.Foundation.Text
import Perpetual.Proto.Enums

/-!
# The account pool

The limit policy with its ordered pool of accounts, as it is read and written: both
ways it is brought into order first.  The four operations on the pool change a policy
that was read; what they change is here, and when they read and write it elsewhere.
-/

namespace Perpetual
namespace Accounts

open Foundation

inductive ProviderAccountAuthMode where
  | isolatedCli
  | oauthToken
  | system
deriving DecidableEq, Repr

structure ProviderAccount where
  id : String
  label : String
  agent : AgentKind
  enabled : Bool
  useCredits : Bool
  authMode : ProviderAccountAuthMode
deriving DecidableEq, Repr

structure AgentTargetProfile where
  agent : AgentKind
  model : Option String
  reasoning : Option String
deriving DecidableEq, Repr

structure LimitPolicy where
  autoSwitch : Bool
  switchBack : Bool
  agentPriority : List AgentKind
  agentProfiles : List AgentTargetProfile
  accounts : List ProviderAccount
  dismissedSystemAccounts : List AgentKind
  resumeWithEarliest : Bool
  unknownResetRetrySecs : Nat
  keepAwake : Bool
deriving DecidableEq, Repr

def LimitPolicy.default : LimitPolicy :=
  { autoSwitch := true
    switchBack := true
    agentPriority := [.claudeCode, .codex]
    agentProfiles := []
    accounts := []
    dismissedSystemAccounts := []
    resumeWithEarliest := true
    unknownResetRetrySecs := 600
    keepAwake := true }

/-- The CLI's own sign-in of an agent. -/
def ProviderAccount.isSystem (account : ProviderAccount) (agent : AgentKind) : Bool :=
  decide (account.agent = agent) &&
    decide (account.authMode = .system)

/-!
## Bringing a policy into order
-/

def cleanOptional (value : Option String) : Option String :=
  (value.map Text.trim).filter (fun text => text != "")

def validId (id : String) : Bool :=
  decide (8 ≤ id.utf8ByteSize) && decide (id.utf8ByteSize ≤ 128) &&
    id.toList.all (fun ch => ch.isAlphanum || ch == '-' || ch == '_')

def hasAccounts (agent : AgentKind) : Bool :=
  decide (agent = .codex) || decide (agent = .claudeCode)

/-- An account without a label or with an id that is not valid is dropped. -/
def normalizeAccount (account : ProviderAccount) : Option ProviderAccount :=
  let id := Text.trim account.id
  let label := String.ofList ((Text.trim account.label).toList.take 80)
  if hasAccounts account.agent && label != "" && validId id then
    some
      { account with
        id := id
        label := label
        authMode :=
          if account.agent = .codex ∧
              account.authMode = .oauthToken then
            .isolatedCli
          else account.authMode
        useCredits := decide (account.agent = .codex) && account.useCredits }
  else none

/-- An account takes the place of the first with its id, and a system account that of
the system account of its agent. -/
def mergeAccount (accounts : List ProviderAccount) (account : ProviderAccount) :
    List ProviderAccount :=
  match accounts with
  | [] => [account]
  | item :: rest =>
      if item.id = account.id ∨
          (account.authMode = .system ∧
            item.isSystem account.agent = true) then account :: rest
      else item :: mergeAccount rest account

def normalizeAccounts (accounts : List ProviderAccount) : List ProviderAccount :=
  (accounts.filterMap normalizeAccount).foldl mergeAccount []

/-- Every agent once, where it stands first. -/
def normalizePriority (priority : List AgentKind) : List AgentKind :=
  let once :=
    priority.foldl
      (fun seen agent => if seen.contains agent then seen else seen ++ [agent]) []
  if once.isEmpty then [.claudeCode, .codex] else once

def mergeProfile (profiles : List AgentTargetProfile) (profile : AgentTargetProfile) :
    List AgentTargetProfile :=
  match profiles with
  | [] => [profile]
  | existing :: rest =>
      if existing.agent = profile.agent then profile :: rest
      else existing :: mergeProfile rest profile

def normalizeProfiles (profiles : List AgentTargetProfile) : List AgentTargetProfile :=
  (profiles.map (fun profile =>
    { profile with
      model := cleanOptional profile.model
      reasoning := cleanOptional profile.reasoning })).foldl mergeProfile []

def normalizeLimitPolicy (policy : LimitPolicy) : LimitPolicy :=
  let accounts := normalizeAccounts policy.accounts
  { policy with
    unknownResetRetrySecs := min policy.unknownResetRetrySecs (7 * 24 * 60 * 60)
    agentPriority := normalizePriority policy.agentPriority
    agentProfiles := normalizeProfiles policy.agentProfiles
    accounts := accounts
    dismissedSystemAccounts :=
      (policy.dismissedSystemAccounts.destutter (fun a b => a ≠ b)).filter (fun agent =>
        !accounts.any (fun account => account.isSystem agent)) }

/-- A document that is missing or cannot be read stands for the default. -/
def getLimitPolicy (stored : Option LimitPolicy) : LimitPolicy :=
  normalizeLimitPolicy (stored.getD LimitPolicy.default)

/-!
## The operations
-/

def systemAccountId (agent : AgentKind) : String :=
  "system-" ++ agent.asStr

def systemAccount (agent : AgentKind) : ProviderAccount :=
  { id := systemAccountId agent
    label := "Default"
    agent := agent
    enabled := true
    useCredits := false
    authMode := .system }

/-- The agents whose sign-in is neither in the pool nor dismissed from it. -/
def LimitPolicy.candidates (policy : LimitPolicy) (only : Option AgentKind) :
    List AgentKind :=
  [.codex, .claudeCode].filter (fun agent =>
    only.all (fun selected => selected == agent) &&
      !policy.dismissedSystemAccounts.contains agent &&
      !policy.accounts.any (fun account => account.isSystem agent))

/-- `sync` carries the agents that its probes found signed in. -/
inductive Op where
  | sync (found : List AgentKind)
  | add (agent : AgentKind)
  | activate (id : String)
  | delete (id : String)
deriving DecidableEq, Repr

/-- The agent's sign-in is added, and noted, unless it is there or dismissed. -/
def registerFound (policy : LimitPolicy) (pool : List ProviderAccount × Bool)
    (agent : AgentKind) : List ProviderAccount × Bool :=
  if policy.dismissedSystemAccounts.contains agent ||
      pool.1.any (fun account => account.isSystem agent) then pool
  else (pool.1 ++ [systemAccount agent], true)

/-- The policy that an operation writes; it writes none when there is nothing to
change. -/
def Op.change (policy : LimitPolicy) : Op -> Option LimitPolicy
  | .sync found =>
      let registered := found.foldl (registerFound policy) (policy.accounts, false)
      if registered.2 then some { policy with accounts := registered.1 } else none
  | .add agent =>
      some
        { policy with
          dismissedSystemAccounts :=
            policy.dismissedSystemAccounts.filter (fun a => decide (a ≠ agent))
          accounts :=
            if policy.accounts.any (fun account => account.id == systemAccountId agent) then
              policy.accounts
            else policy.accounts ++ [systemAccount agent] }
  | .activate id =>
      (policy.accounts.find? (fun account => account.id == id)).map (fun account =>
        { policy with
          accounts :=
            { account with enabled := true } ::
              policy.accounts.eraseP (fun account => account.id == id) })
  | .delete id =>
      let removed := policy.accounts.find? (fun account => account.id == id)
      some
        { policy with
          accounts := policy.accounts.filter (fun account => account.id != id)
          dismissedSystemAccounts :=
            policy.dismissedSystemAccounts ++
              ((removed.filter (fun account =>
                decide (account.authMode = .system) &&
                  !policy.dismissedSystemAccounts.contains account.agent)).map
                ProviderAccount.agent).toList }

/-- The document after an operation that nothing interrupts. -/
def Op.apply (op : Op) (stored : Option LimitPolicy) : Option LimitPolicy :=
  match op.change (getLimitPolicy stored) with
  | some next => some (normalizeLimitPolicy next)
  | none => stored

/-- The document after operations one after another. -/
def inSequence (stored : Option LimitPolicy) (ops : List Op) : Option LimitPolicy :=
  ops.foldl (fun stored op => op.apply stored) stored

theorem inSequence_concat (stored : Option LimitPolicy) (ops : List Op) (op : Op) :
    inSequence stored (ops ++ [op]) = op.apply (inSequence stored ops) := by
  unfold inSequence
  rw [List.foldl_append, List.foldl_cons, List.foldl_nil]

end Accounts
end Perpetual
