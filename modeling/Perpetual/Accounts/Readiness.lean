import Perpetual.Availability.Backoff

/-!
# Ready accounts

Several places ask whether an account of the pool is ready: the choice of the account a
run uses, the flags that are shown, the scheduler that wakes what waits for a limit, and
the switch back to the first agent.  The statuses they ask are built from the accounts,
from probes of the CLIs and from the stored states.

What is only shown of a status (the address, the plan and the detail) is left out, and so
is the environment of the chosen account.
-/

namespace Perpetual
namespace Accounts

open Availability

structure Probe where
  installed : Bool
  authenticated : Bool
deriving DecidableEq, Repr

def failedProbe : Probe :=
  { installed := true
    authenticated := false }

/-- What the machine answers to a probe: whether the CLI is found, whether a setup token is
stored, and whether the CLI says in time that it is signed in. -/
structure ProbeAnswers where
  homeReady : Bool
  binaryFound : Bool
  tokenStored : Bool
  signedIn : Bool
deriving DecidableEq, Repr

/-- With a setup token the CLI is not asked. -/
def probeProviderAccount (account : ProviderAccount) (a : ProbeAnswers) : Probe :=
  if account.authMode = .oauthToken then
    { installed := a.binaryFound
      authenticated := a.tokenStored }
  else if a.binaryFound then
    { installed := true
      authenticated := a.signedIn }
  else
    { installed := false
      authenticated := false }

def probeAccount (account : ProviderAccount) (a : ProbeAnswers) : Probe :=
  if a.homeReady then probeProviderAccount account a else failedProbe

structure AccountState where
  availability : AvailabilityState
  resetAt : Option Nat
deriving DecidableEq, Repr

structure ProviderAccountStatus where
  account : ProviderAccount
  installed : Bool
  authenticated : Bool
  availability : AvailabilityState
  resetAt : Option Nat
deriving DecidableEq, Repr

/-- A limit whose time has come is over, and an account that is signed in counts as
available until it is known to be limited. -/
def accountStatus (account : ProviderAccount) (probe : Probe) (state : Option AccountState)
    (now : Nat) : ProviderAccountStatus :=
  let availability := (state.map AccountState.availability).getD .unknown
  let resetAt := state.bind AccountState.resetAt
  let elapsed := decide (availability = .limited) &&
    resetAt.any (fun time => decide (time ≤ now))
  { account := account
    installed := probe.installed
    authenticated := probe.authenticated
    availability :=
      if elapsed then .available
      else if probe.authenticated && decide (availability = .unknown) then
        .available
      else availability
    resetAt := if elapsed then none else resetAt }

/-!
## The tests
-/

def firstReadyStatus (statuses : List ProviderAccountStatus) : Option ProviderAccountStatus :=
  statuses.find? (fun status =>
    status.installed && status.account.enabled && status.authenticated &&
      decide (status.availability ≠ .limited))

/-- The flags, each beside its status; `seen` are the agents that have one. -/
def markActive (seen : List AgentKind) :
    List ProviderAccountStatus -> List (ProviderAccountStatus × Bool)
  | [] => []
  | status :: rest =>
      if seen.contains status.account.agent then (status, false) :: markActive seen rest
      else if status.installed && status.account.enabled && status.authenticated &&
          decide (status.availability ≠ .limited) then
        (status, true) :: markActive (seen ++ [status.account.agent]) rest
      else (status, false) :: markActive seen rest

inductive AccountSelection where
  | unmanaged
  | ready (status : ProviderAccountStatus)
  | limited (resetAt : Option Nat)
  | signedOut
deriving DecidableEq, Repr

def AccountSelection.isReady : AccountSelection -> Bool
  | .ready _ => true
  | _ => false

def selectProviderAccountFor (agent : AgentKind) (requiredId : Option String)
    (statuses : List ProviderAccountStatus) : AccountSelection :=
  let statuses := (statuses.filter (fun s => decide (s.account.agent = agent))).filter
    (fun s => requiredId.all (fun id => s.account.id == id))
  if statuses.isEmpty then
    if requiredId.isSome then .signedOut else .unmanaged
  else
    match firstReadyStatus statuses with
    | some status => .ready status
    | none =>
        let limitedResets := (statuses.filter (fun s =>
          s.account.enabled && s.authenticated &&
            decide (s.availability = .limited))).map
              ProviderAccountStatus.resetAt
        if limitedResets.isEmpty then .signedOut
        else .limited (limitedResets.reduceOption.min?)

def selectProviderAccount (agent : AgentKind) (statuses : List ProviderAccountStatus) :
    AccountSelection :=
  selectProviderAccountFor agent none statuses

/-- The agent that the scheduler resumes every waiting task with. -/
def readyAccountAgent (statuses : List ProviderAccountStatus) : Option AgentKind :=
  (statuses.find? (fun status =>
    status.account.enabled && status.authenticated &&
      decide (status.availability ≠ .limited))).map
    (fun status => status.account.agent)

def agentRecordReadyForRetry (record : Option AgentRecord) (now : Nat) : Bool :=
  match record with
  | some record =>
      if record.availability = .limited then
        record.resetAt.any (fun resetAt => decide (resetAt ≤ now))
      else true
  | none => true

/-- `configured` is whether there are accounts. -/
def limitWaitReady (configured : Bool) (statuses : List ProviderAccountStatus)
    (primary : Option AgentKind) (record : AgentKind -> Option AgentRecord) (now : Nat) :
    Bool :=
  if configured then
    statuses.any (fun status =>
      status.account.enabled && status.authenticated &&
        decide (status.availability ≠ .limited))
  else primary.any (fun agent => agentRecordReadyForRetry (record agent) now)

/-- The test of the switch back, where there are accounts. -/
def originalReady (original : AgentKind) (statuses : List ProviderAccountStatus) : Bool :=
  statuses.any (fun status =>
    decide (status.account.agent = original) && status.account.enabled &&
      status.authenticated && decide (status.availability ≠ .limited))

/-- The account that the next run of its provider would use if it were alone. -/
def ProviderAccountStatus.usable (status : ProviderAccountStatus) : Bool :=
  status.installed && status.account.enabled && status.authenticated &&
    decide (status.availability ≠ .limited)

/-- The tests accept an account that the choice of an account accepts and no other, and
what they wake or switch back finds a usable account of its agent; `primary` is the agent
of the task that waits, without one it is not started. -/
structure ReadinessAgrees (statuses : List ProviderAccountStatus)
    (primary : Option AgentKind) : Prop where
  flagged : forall agent,
    ((markActive [] statuses).find? (fun x =>
        x.2 && decide (x.1.account.agent = agent))).map Prod.fst =
      firstReadyStatus (statuses.filter (fun s => decide (s.account.agent = agent)))
  scheduled : forall s, s ∈ statuses ->
    (readyAccountAgent [s]).isSome = (firstReadyStatus [s]).isSome
  awaited : forall s, s ∈ statuses -> forall primary record now,
    limitWaitReady true [s] primary record now = (firstReadyStatus [s]).isSome
  original : forall s, s ∈ statuses -> forall original,
    originalReady original [s] =
      (decide (s.account.agent = original) && (firstReadyStatus [s]).isSome)
  woken : forall agent, readyAccountAgent statuses = some agent ->
    (selectProviderAccount agent statuses).isReady = true
  found : forall record now, limitWaitReady true statuses primary record now = true ->
    forall agent, primary = some agent -> (selectProviderAccount agent statuses).isReady = true
  switchedBack : forall original, originalReady original statuses = true ->
    (selectProviderAccount original statuses).isReady = true

/-- Enabled, signed in and not limited: what every copy of the test asks. -/
def ProviderAccountStatus.eligible (status : ProviderAccountStatus) : Bool :=
  status.account.enabled && status.authenticated &&
    decide (status.availability ≠ .limited)

theorem usable_eq (s : ProviderAccountStatus) : s.usable = (s.installed && s.eligible) := by
  unfold ProviderAccountStatus.usable ProviderAccountStatus.eligible
  rw [Bool.and_assoc, Bool.and_assoc, Bool.and_assoc]

theorem firstReadyStatus_singleton (s : ProviderAccountStatus) :
    (firstReadyStatus [s]).isSome = s.usable := by
  show (List.find? ProviderAccountStatus.usable [s]).isSome = s.usable
  rw [List.find?_singleton]
  cases s.usable <;> rfl

theorem readyAccountAgent_singleton (s : ProviderAccountStatus) :
    (readyAccountAgent [s]).isSome = s.eligible := by
  show ((List.find? ProviderAccountStatus.eligible [s]).map _).isSome = s.eligible
  rw [List.find?_singleton]
  cases s.eligible <;> rfl

theorem limitWaitReady_singleton (s : ProviderAccountStatus) (primary : Option AgentKind)
    (record : AgentKind -> Option AgentRecord) (now : Nat) :
    limitWaitReady true [s] primary record now = s.eligible :=
  Bool.or_false _

theorem originalReady_singleton (original : AgentKind) (s : ProviderAccountStatus) :
    originalReady original [s] = (decide (s.account.agent = original) && s.eligible) := by
  unfold originalReady ProviderAccountStatus.eligible
  rw [List.any_cons, List.any_nil, Bool.or_false, Bool.and_assoc, Bool.and_assoc, Bool.and_assoc]

theorem find?_markActive (agent : AgentKind) (seen : List AgentKind)
    (statuses : List ProviderAccountStatus) (hagent : agent ∉ seen) :
    ((markActive seen statuses).find? (fun x =>
        x.2 && decide (x.1.account.agent = agent))).map Prod.fst =
      firstReadyStatus (statuses.filter (fun s => decide (s.account.agent = agent))) := by
  induction statuses generalizing seen with
  | nil => rfl
  | cons s rest ih =>
      have hunfold : markActive seen (s :: rest) =
          if seen.contains s.account.agent then (s, false) :: markActive seen rest
          else if s.usable then (s, true) :: markActive (seen ++ [s.account.agent]) rest
          else (s, false) :: markActive seen rest := rfl
      have hfirst : forall statuses, firstReadyStatus (s :: statuses) =
          if s.usable then some s else firstReadyStatus statuses := by
        intro statuses
        show List.find? ProviderAccountStatus.usable (s :: statuses) = _
        rw [List.find?_cons]
        cases s.usable <;> rfl
      rw [hunfold]
      by_cases hsame : s.account.agent = agent
      · have hunseen : seen.contains s.account.agent = false := by
          rw [hsame, Bool.eq_false_iff, Ne, List.contains_iff_mem]
          exact hagent
        have hkept : (s :: rest).filter (fun x => decide (x.account.agent = agent)) =
            s :: rest.filter (fun x => decide (x.account.agent = agent)) :=
          List.filter_cons_of_pos (by rw [decide_eq_true hsame])
        rw [hunseen, if_neg Bool.false_ne_true, hkept, hfirst]
        cases husable : s.usable with
        | true =>
            rw [if_pos rfl, if_pos rfl, List.find?_cons_of_pos]
            · rfl
            · rw [decide_eq_true hsame]
              rfl
        | false =>
            rw [if_neg Bool.false_ne_true, if_neg Bool.false_ne_true,
              List.find?_cons_of_neg Bool.false_ne_true]
            exact ih seen hagent
      · have hdropped : (s :: rest).filter (fun x => decide (x.account.agent = agent)) =
            rest.filter (fun x => decide (x.account.agent = agent)) :=
          List.filter_cons_of_neg (by rw [decide_eq_false hsame]; exact Bool.false_ne_true)
        rw [hdropped]
        split
        · rw [List.find?_cons_of_neg Bool.false_ne_true]
          exact ih seen hagent
        · split
          · rw [List.find?_cons_of_neg (by
              rw [decide_eq_false hsame]
              exact Bool.false_ne_true)]
            apply ih
            rw [List.mem_append, List.mem_singleton, not_or]
            exact ⟨hagent, fun heq => hsame heq.symm⟩
          · rw [List.find?_cons_of_neg Bool.false_ne_true]
            exact ih seen hagent

/-- The choice of an account finds one exactly if the agent has a usable account. -/
theorem selectProviderAccount_isReady_iff (agent : AgentKind)
    (statuses : List ProviderAccountStatus) :
    (selectProviderAccount agent statuses).isReady = true <->
      exists s, s ∈ statuses ∧ s.account.agent = agent ∧ s.usable = true := by
  have hmem : forall s, s ∈ (statuses.filter (fun x => decide (x.account.agent = agent))).filter
      (fun x => (none : Option String).all (fun id => x.account.id == id)) <->
        s ∈ statuses ∧ s.account.agent = agent := by
    intro s
    rw [List.mem_filter, List.mem_filter, decide_eq_true_eq]
    exact ⟨fun h => h.left, fun h => ⟨h, rfl⟩⟩
  unfold selectProviderAccount selectProviderAccountFor
  dsimp only
  constructor
  · intro h
    split at h
    · cases h
    · split at h
      · rename_i status hfirst
        have hstatus := (hmem status).mp (List.mem_of_find?_eq_some hfirst)
        exact ⟨status, hstatus.left, hstatus.right, List.find?_some hfirst⟩
      · split at h
        · cases h
        · cases h
  · intro h
    rcases h with ⟨s, hs, hagent, husable⟩
    have hin := (hmem s).mpr ⟨hs, hagent⟩
    rw [if_neg (by rw [List.isEmpty_iff]; exact List.ne_nil_of_mem hin)]
    cases hfirst : firstReadyStatus _ with
    | some status => rfl
    | none => exact absurd husable (List.find?_eq_none.mp hfirst s hin)

theorem mem_of_readyAccountAgent {statuses : List ProviderAccountStatus} {agent : AgentKind}
    (h : readyAccountAgent statuses = some agent) :
    exists s, s ∈ statuses ∧ s.eligible = true ∧ s.account.agent = agent := by
  rcases Option.map_eq_some_iff.mp h with ⟨s, hfind, hagent⟩
  exact ⟨s, List.mem_of_find?_eq_some hfind, List.find?_some hfind, hagent⟩

theorem eligible_iff (s : ProviderAccountStatus) :
    s.eligible = true <->
      s.account.enabled = true ∧ s.authenticated = true ∧
        s.availability ≠ .limited := by
  unfold ProviderAccountStatus.eligible
  rw [Bool.and_eq_true, Bool.and_eq_true, decide_eq_true_eq, and_assoc]

/-- Where any agent has such an account, this one has. -/
def Served (statuses : List ProviderAccountStatus) (agent : AgentKind) : Prop :=
  (exists s, s ∈ statuses ∧ s.eligible = true) ->
    exists s, s ∈ statuses ∧ s.account.agent = agent ∧ s.eligible = true

theorem agrees_of_installed {statuses : List ProviderAccountStatus} {primary : Option AgentKind}
    (h : forall s, s ∈ statuses -> s.eligible = true -> s.installed = true)
    (hprimary : forall agent, primary = some agent -> Served statuses agent) :
    ReadinessAgrees statuses primary := by
  have husable : forall s, s ∈ statuses -> s.eligible = s.usable := by
    intro s hs
    rw [usable_eq]
    cases ho : s.eligible with
    | false => rw [Bool.and_false]
    | true => rw [h s hs ho, Bool.and_true]
  have hready : forall s, s ∈ statuses -> s.eligible = true ->
      (selectProviderAccount s.account.agent statuses).isReady = true :=
    fun s hs ho => (selectProviderAccount_isReady_iff s.account.agent statuses).mpr
      ⟨s, hs, rfl, (husable s hs).symm.trans ho⟩
  exact
    { flagged := fun agent => find?_markActive agent [] statuses List.not_mem_nil
      scheduled := fun s hs => by
        rw [readyAccountAgent_singleton, firstReadyStatus_singleton, husable s hs]
      awaited := fun s hs primary record now => by
        rw [limitWaitReady_singleton, firstReadyStatus_singleton, husable s hs]
      original := fun s hs original => by
        rw [originalReady_singleton, firstReadyStatus_singleton, husable s hs]
      woken := by
        intro agent hagent
        rcases mem_of_readyAccountAgent hagent with ⟨s, hs, ho, heq⟩
        rw [← heq]
        exact hready s hs ho
      found := by
        intro record now hwait agent hagent
        rcases hprimary agent hagent (List.any_eq_true.mp hwait) with ⟨s, hs, heq, ho⟩
        rw [← heq]
        exact hready s hs ho
      switchedBack := by
        intro original horiginal
        rcases List.any_eq_true.mp horiginal with ⟨s, hs, ho⟩
        rw [Bool.and_assoc, Bool.and_assoc, Bool.and_eq_true, decide_eq_true_eq,
          ← Bool.and_assoc] at ho
        rw [← ho.left]
        exact hready s hs ho.right }

/-- The tests agree exactly if the CLI of every account that is enabled, signed in and not
limited is installed, and the agent of the task has such an account where any has. -/
theorem readiness_agrees_iff (statuses : List ProviderAccountStatus) (primary : Option AgentKind) :
    ReadinessAgrees statuses primary <->
      (forall s, s ∈ statuses -> s.account.enabled = true -> s.authenticated = true ->
        s.availability ≠ AvailabilityState.limited -> s.installed = true) ∧
      forall agent, primary = some agent -> Served statuses agent := by
  constructor
  · intro h
    constructor
    · intro s hs henabled hauthenticated hlimited
      have hsame := h.scheduled s hs
      rw [readyAccountAgent_singleton, firstReadyStatus_singleton, usable_eq,
        (eligible_iff s).mpr ⟨henabled, hauthenticated, hlimited⟩, Bool.and_true] at hsame
      exact hsame.symm
    · intro agent hagent hany
      have hwait : limitWaitReady true statuses primary (fun _ => none) 0 = true :=
        List.any_eq_true.mpr hany
      have hfound := h.found (fun _ => none) 0 hwait agent hagent
      rcases (selectProviderAccount_isReady_iff agent statuses).mp hfound with
        ⟨s, hs, heq, husable⟩
      rw [usable_eq, Bool.and_eq_true] at husable
      exact ⟨s, hs, heq, husable.right⟩
  · intro h
    rcases h with ⟨hinstalled, hprimary⟩
    refine agrees_of_installed (fun s hs heligible => ?_) hprimary
    rcases (eligible_iff s).mp heligible with ⟨henabled, hauthenticated, hlimited⟩
    exact hinstalled s hs henabled hauthenticated hlimited

theorem accountStatus_installed {account : ProviderAccount} {a : ProbeAnswers}
    {state : Option AccountState} {now : Nat}
    (hmode : account.authMode ≠ .oauthToken)
    (hauthenticated : (accountStatus account (probeAccount account a) state now).authenticated =
      true) :
    (accountStatus account (probeAccount account a) state now).installed = true := by
  have hsigned : (probeAccount account a).authenticated = true := hauthenticated
  unfold probeAccount probeProviderAccount at hsigned ⊢
  rw [if_neg hmode] at hsigned ⊢
  cases hhome : a.homeReady with
  | false => rfl
  | true =>
      rw [hhome, if_pos rfl] at hsigned
      rw [if_pos rfl]
      cases hfound : a.binaryFound with
      | false =>
          rw [hfound] at hsigned
          cases hsigned
      | true => rfl

/-- An account that is signed in without a setup token has its CLI. -/
theorem readiness_agrees_of_no_token (accounts : List (ProviderAccount × ProbeAnswers ×
      Option AccountState)) (now : Nat) (primary : Option AgentKind)
    (hmode : forall x, x ∈ accounts -> x.1.authMode ≠ .oauthToken)
    (hprimary : forall agent, primary = some agent -> Served (accounts.map (fun x =>
      accountStatus x.1 (probeAccount x.1 x.2.1) x.2.2 now)) agent) :
    ReadinessAgrees (accounts.map (fun x =>
      accountStatus x.1 (probeAccount x.1 x.2.1) x.2.2 now)) primary := by
  refine agrees_of_installed (fun s hs heligible => ?_) hprimary
  have hauthenticated := ((eligible_iff s).mp heligible).right.left
  rcases List.mem_map.mp hs with ⟨x, hx, heq⟩
  rw [← heq] at hauthenticated ⊢
  exact accountStatus_installed (hmode x hx) hauthenticated

/-- A setup token is stored, and the CLI was removed. -/
def tokenOnly : ProviderAccountStatus :=
  accountStatus
    { id := "claude-work"
      label := "Work"
      agent := .claudeCode
      enabled := true
      useCredits := false
      authMode := .oauthToken }
    { installed := false
      authenticated := true } none 0

/-- An account that is installed and signed in. -/
def signedInAccount (id : String) (agent : AgentKind) (state : Option AccountState) :
    ProviderAccountStatus :=
  accountStatus
    { id := id
      label := id
      agent := agent
      enabled := true
      useCredits := false
      authMode := .isolatedCli }
    { installed := true
      authenticated := true } state 0

/-- Codex is limited, Claude Code is ready. -/
def otherReady : List ProviderAccountStatus :=
  [signedInAccount "codex" .codex
      (some { availability := .limited, resetAt := none }),
    signedInAccount "claude" .claudeCode none]

/-- The scheduler wakes the waiting tasks for an account that no run can use, and one of an
agent whose accounts are limited for the account of another. -/
theorem token_without_cli_is_woken :
    ¬ ReadinessAgrees [tokenOnly] (some AgentKind.claudeCode) ∧
      ¬ ReadinessAgrees otherReady (some AgentKind.codex) := by
  constructor
  · intro h
    have hwoken := h.woken AgentKind.claudeCode (by decide +kernel)
    exact absurd hwoken (by decide +kernel)
  · intro h
    have hfound := h.found (fun _ => none) 0 (by decide +kernel) AgentKind.codex rfl
    exact absurd hfound (by decide +kernel)

end Accounts
end Perpetual
