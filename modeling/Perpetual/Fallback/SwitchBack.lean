import Perpetual.Fallback.Thread

/-!
# Switching a thread back

A thread without a fallback is switched by one of the calls, possibly switched
further by others, and switched back.  The result says when it has the agent, the
settings and the execution backend it started with, and nothing of the fallback is
left.
-/

namespace Perpetual
namespace Fallback

inductive Call where
  | knownLimited (current : AgentKind) (resetAt : Option Nat)
  | limitHit (current : AgentKind) (resetAt : Option Nat)
  | account (current next : AgentKind)
  | toLocal (current : AgentKind) (target : LocalModelTarget)
  | scheduled (listed : Option AgentKind) (agent : AgentKind)
deriving DecidableEq, Repr

structure Request where
  call : Call
  answers : Answers

def Request.run (r : Request) (thread : AgentThread) : Outcome :=
  match r.call with
  | .knownLimited current resetAt =>
      thread.startKnownLimitedThreadFallback current resetAt r.answers
  | .limitHit current resetAt => thread.startThreadFallback current resetAt r.answers
  | .account current next => thread.startThreadAccountFallback current next r.answers
  | .toLocal current target => thread.startThreadLocalFallback current target r.answers
  | .scheduled listed agent => thread.tryThreadSchedulerStart listed agent r.answers

def runAll (requests : List Request) (thread : AgentThread) : AgentThread :=
  requests.foldl (fun t r => (r.run t).thread) thread

inductive BackCall where
  | afterTurn
  | network (current : AgentKind)
deriving DecidableEq, Repr

def BackCall.run (call : BackCall) (a : AgentThread.BackAnswers) (thread : AgentThread) :
    Outcome :=
  match call with
  | .afterTurn => thread.maybeMarkThreadSwitchbackReady a
  | .network current => thread.resumeThreadCloudAfterNetwork current a

/-!
## The switch a call makes
-/

inductive Switch where
  | agent (current next : AgentKind) (profile : Option String × Option String)
      (switchBack : Bool) (resetAt : Option Nat)
  | account (current next : AgentKind) (profile : Option String × Option String)
  | toLocal (current : AgentKind) (target : LocalModelTarget) (switchBackToCloud : Bool)
  | scheduled (next : AgentKind)
deriving DecidableEq, Repr

def Switch.apply (thread : AgentThread) : Switch -> AgentThread
  | .agent current next profile switchBack resetAt =>
      thread.switchTo current next profile switchBack resetAt
  | .account current next profile => thread.accountFallback current next profile
  | .toLocal current target switchBackToCloud =>
      thread.localFallback current target switchBackToCloud
  | .scheduled next => thread.scheduledFallback next

def localSwitch (a : Answers) (current : AgentKind) (target : Option LocalModelTarget) :
    Option Switch :=
  if a.sessionActive then none
  else target.map (fun t => .toLocal current t a.switchBackToCloud)

def agentSwitch (a : Answers) (current agent : AgentKind) (switchBack : Bool)
    (resetAt : Option Nat) : Switch :=
  .agent current agent (a.agentTargetProfile agent) switchBack resetAt

def accountSwitch (a : Answers) (current next : AgentKind) : Switch :=
  .account current next (a.agentTargetProfile next)

/-- From what is asked and answered; the budget of the thread decides whether a known
limit may lead to a local model. -/
def Request.chosen (unlimitedBudget : Bool) (r : Request) : Option Switch :=
  match r.call with
  | .knownLimited current resetAt =>
      match r.answers.fallbackDecision current resetAt with
      | some (.switch agent switchBack) =>
          some (agentSwitch r.answers current agent switchBack resetAt)
      | some (.wait _) =>
          if unlimitedBudget then
            localSwitch r.answers current r.answers.bestReadyLocalTarget
          else none
      | _ => none
  | .limitHit current resetAt =>
      if r.answers.accountsConfigured then
        if r.answers.policy.autoSwitch then
          r.answers.nextReadyAccount.map (accountSwitch r.answers current)
        else none
      else
        match r.answers.fallbackDecision current resetAt with
        | some (.switch agent switchBack) =>
            some (agentSwitch r.answers current agent switchBack resetAt)
        | some (.wait _) =>
            localSwitch r.answers current r.answers.bestReadyLocalTarget
        | _ => none
  | .account current next => some (accountSwitch r.answers current next)
  | .toLocal current target => localSwitch r.answers current (some target)
  | .scheduled listed agent =>
      if r.answers.sessionActive ∨ listed = some agent then none
      else some (.scheduled agent)

/-- A switch counts when its row is saved. -/
def Request.switch (unlimitedBudget : Bool) (r : Request) : Option Switch :=
  if !r.answers.saves then none else r.chosen unlimitedBudget

/-- Apart from its status, its reset time and the notes on the hand-over the thread is
the same. -/
def Keeps (t t' : AgentThread) : Prop :=
  { t with
    status := t'.status
    limitResetAt := t'.limitResetAt
    switchBackPending := t'.switchBackPending
    handoffState := t'.handoffState } = t'

theorem Keeps.refl (t : AgentThread) : Keeps t t := rfl

/-- A call makes its switch, or leaves the settings alone. -/
inductive Ran (thread : AgentThread) (switch : Option Switch) : Outcome -> Prop where
  | switched (s : Switch) (h : switch = some s) :
      Ran thread switch { thread := s.apply thread, switched := true }
  | stayed (t' : AgentThread) (h : switch = none) (hkeeps : Keeps thread t') :
      Ran thread switch { thread := t', switched := false }

theorem ran_stay (thread : AgentThread) : Ran thread none thread.stay :=
  .stayed thread rfl (Keeps.refl thread)

theorem ran_kept (thread t' : AgentThread) (hkeeps : Keeps thread t')
    (saves : Bool) : Ran thread none (thread.save t' saves false) := by
  cases saves with
  | false => exact ran_stay thread
  | true => exact .stayed t' rfl hkeeps

theorem ran_saved (thread : AgentThread) (s : Switch) (saves : Bool) :
    Ran thread (if saves then some s else none) (thread.save (s.apply thread) saves true) := by
  cases saves with
  | false => exact ran_stay thread
  | true => exact .switched s rfl

theorem ran_local (thread : AgentThread) (current : AgentKind) (target : LocalModelTarget)
    (a : Answers) :
    Ran thread (if a.saves then localSwitch a current (some target) else none)
      (thread.startThreadLocalFallback current target a) := by
  unfold AgentThread.startThreadLocalFallback localSwitch
  cases a.sessionActive with
  | true =>
      simp only [if_true, ite_self]
      exact ran_kept thread { thread with switchBackPending := true } rfl a.saves
  | false => exact ran_saved thread (.toLocal current target a.switchBackToCloud) a.saves

theorem Request.ran (r : Request) (thread : AgentThread) :
    Ran thread (r.switch thread.unlimitedBudget) (r.run thread) := by
  rcases r with ⟨call, a⟩
  have hform : forall s : Option Switch, (if !a.saves then none else s) =
      (if a.saves then s else none) := by
    intro s
    cases a.saves with
    | false => rfl
    | true => rfl
  unfold Request.switch Request.chosen
  rw [hform]
  cases call with
  | knownLimited current resetAt =>
      simp only [Request.run, AgentThread.startKnownLimitedThreadFallback]
      cases hdecision : a.fallbackDecision current resetAt with
      | none =>
          simp only [ite_self]
          exact ran_stay thread
      | some decision =>
          cases decision with
          | switch agent switchBack =>
              exact ran_saved thread (agentSwitch a current agent switchBack resetAt) a.saves
          | wait reset =>
              cases hbudget : thread.unlimitedBudget with
              | false =>
                  simp only [Bool.false_eq_true, if_false, ite_self]
                  exact ran_kept thread (thread.waitForReset reset _) rfl a.saves
              | true =>
                  cases htarget : a.bestReadyLocalTarget with
                  | none =>
                      simp only [localSwitch, Option.map_none, ite_self]
                      exact ran_kept thread (thread.waitForReset reset _) rfl a.saves
                  | some target => exact ran_local thread current target a
          | disabled =>
              simp only [ite_self]
              exact ran_kept thread (thread.waitForReset resetAt _) rfl a.saves
  | limitHit current resetAt =>
      simp only [Request.run, AgentThread.startThreadFallback]
      cases haccounts : a.accountsConfigured with
      | true =>
          cases hauto : a.policy.autoSwitch with
          | false =>
              simp only [if_true, Bool.false_eq_true, if_false, ite_self]
              exact ran_kept thread (thread.waitForReset _ _) rfl a.saves
          | true =>
              cases hnext : a.nextReadyAccount with
              | none =>
                  simp only [if_true, Option.map_none, ite_self]
                  exact ran_kept thread (thread.waitForReset _ _) rfl a.saves
              | some next => exact ran_saved thread (accountSwitch a current next) a.saves
      | false =>
          cases hdecision : a.fallbackDecision current resetAt with
          | none =>
              simp only [Bool.false_eq_true, if_false, ite_self]
              exact ran_stay thread
          | some decision =>
              cases decision with
              | switch agent switchBack =>
                  exact ran_saved thread (agentSwitch a current agent switchBack resetAt) a.saves
              | wait reset =>
                  cases htarget : a.bestReadyLocalTarget with
                  | none =>
                      simp only [localSwitch, Bool.false_eq_true, if_false, Option.map_none,
                        ite_self]
                      exact ran_kept thread (thread.waitForReset reset _) rfl a.saves
                  | some target => exact ran_local thread current target a
              | disabled =>
                  simp only [Bool.false_eq_true, if_false, ite_self]
                  exact ran_stay thread
  | account current next => exact ran_saved thread (accountSwitch a current next) a.saves
  | toLocal current target => exact ran_local thread current target a
  | scheduled listed agent =>
      simp only [Request.run, AgentThread.tryThreadSchedulerStart]
      cases hactive : a.sessionActive with
      | true =>
          simp only [true_or, if_true, ite_self]
          exact ran_stay thread
      | false =>
          by_cases hsame : listed = some agent
          · simp only [Bool.false_eq_true, false_or, hsame, if_true, ite_self, if_false,
              ne_eq, not_true_eq_false]
            exact ran_stay thread
          · simp only [Bool.false_eq_true, false_or, hsame, if_false, ne_eq,
              not_false_eq_true, if_true]
            exact ran_saved thread (.scheduled agent) a.saves

/-!
## What is remembered and what is lost
-/

structure Settings where
  model : Option String
  reasoning : Option String
  localProvider : Option LocalModelProviderKind
  localBaseUrl : Option String
deriving DecidableEq, Repr

def noSettings : Settings :=
  { model := none
    reasoning := none
    localProvider := none
    localBaseUrl := none }

def AgentThread.settings (t : AgentThread) : Settings :=
  { model := t.model
    reasoning := t.reasoning
    localProvider := t.localProvider
    localBaseUrl := t.localBaseUrl }

def AgentThread.originalSettings (t : AgentThread) : Settings :=
  { model := t.originalModel
    reasoning := t.originalReasoning
    localProvider := t.originalLocalProvider
    localBaseUrl := t.originalLocalBaseUrl }

def NoFallback (t : AgentThread) : Prop :=
  t.originalAgent = none ∧ t.originalSettings = noSettings

instance (t : AgentThread) : Decidable (NoFallback t) := by
  unfold NoFallback
  infer_instance

/-- No field named after an original or a fallback is set. -/
structure Cleared (t : AgentThread) : Prop where
  originalAgent : t.originalAgent = none
  originalSettings : t.originalSettings = noSettings
  fallbackAgent : t.fallbackAgent = none
  fallbackModel : t.fallbackModel = none
  fallbackReasoning : t.fallbackReasoning = none
  fallbackLocalProvider : t.fallbackLocalProvider = none
  fallbackLocalBaseUrl : t.fallbackLocalBaseUrl = none
  fallbackModelTarget : t.fallbackModelTarget = none

structure Restored (before after : AgentThread) : Prop where
  agent : after.activeAgent = before.activeAgent
  settings : after.settings = before.settings
  backend : after.executionBackend = before.executionBackend
  cleared : Cleared after

/-- The switch is made from the active agent, and remembers all settings the thread
has: a switch between accounts does not remember the local model, the scheduler's
remembers no settings. -/
def Switch.Records (before : AgentThread) : Switch -> Prop
  | .agent current _ _ _ _ => before.activeAgent = some current
  | .toLocal current _ _ => before.activeAgent = some current
  | .account current _ _ =>
      before.activeAgent = some current ∧ before.localProvider = none ∧
        before.localBaseUrl = none
  | .scheduled _ =>
      before.activeAgent ≠ none ∧ before.settings = noSettings

instance (before : AgentThread) (s : Switch) : Decidable (s.Records before) := by
  unfold Switch.Records
  split
  · infer_instance
  · infer_instance
  · infer_instance
  · infer_instance

def Switch.leavesSandbox : Switch -> Bool
  | .agent _ next _ _ _ => next != .codex
  | .toLocal _ target _ => localModelUsesContainerLocalhost target
  | .account _ _ _ => false
  | .scheduled next => next != .codex

def StaysInSandbox (unlimitedBudget : Bool) (requests : List Request) : Prop :=
  forall r, r ∈ requests -> forall s, s ∈ r.switch unlimitedBudget ->
    s.leavesSandbox = false

instance (unlimitedBudget : Bool) (requests : List Request) :
    Decidable (StaysInSandbox unlimitedBudget requests) := by
  unfold StaysInSandbox
  infer_instance

/-!
## Chains of switches
-/

def Remembers (t : AgentThread) (agent : AgentKind) (settings : Settings) : Prop :=
  t.originalAgent = some agent ∧ t.originalSettings = settings

variable {t : AgentThread} {agent : AgentKind}

theorem rememberOriginal_of_some (h : t.originalAgent = some agent) (current : AgentKind) :
    t.rememberOriginal current = t := by
  unfold AgentThread.rememberOriginal
  rw [h]
  rfl

variable {settings : Settings}

theorem Remembers.apply (h : Remembers t agent settings) (s : Switch) :
    Remembers (s.apply t) agent settings := by
  rcases h with ⟨hagent, hsettings⟩
  cases s with
  | agent current next profile switchBack resetAt =>
      simp only [Switch.apply, AgentThread.switchTo, rememberOriginal_of_some hagent]
      exact ⟨hagent, hsettings⟩
  | account current next profile =>
      simp only [Switch.apply, AgentThread.accountFallback, hagent, reduceCtorEq, if_false]
      exact ⟨rfl, hsettings⟩
  | toLocal current target switchBackToCloud =>
      simp only [Switch.apply, AgentThread.localFallback, rememberOriginal_of_some hagent]
      exact ⟨hagent, hsettings⟩
  | scheduled next =>
      refine ⟨?_, hsettings⟩
      show t.originalAgent.or t.activeAgent = some agent
      rw [hagent]
      rfl

structure Fixed (t t' : AgentThread) : Prop where
  unlimitedBudget : t'.unlimitedBudget = t.unlimitedBudget
  fallbackModelTarget : t'.fallbackModelTarget = t.fallbackModelTarget

theorem rememberOriginal_fixed (t : AgentThread) (current : AgentKind) :
    Fixed t (t.rememberOriginal current) := by
  unfold AgentThread.rememberOriginal
  split
  · exact ⟨rfl, rfl⟩
  · exact ⟨rfl, rfl⟩

theorem Switch.apply_fixed (s : Switch) (t : AgentThread) : Fixed t (s.apply t) := by
  cases s with
  | agent current next profile switchBack resetAt =>
      have hfixed := rememberOriginal_fixed t current
      exact ⟨hfixed.unlimitedBudget, hfixed.fallbackModelTarget⟩
  | account current next profile =>
      simp only [Switch.apply, AgentThread.accountFallback]
      split
      · exact ⟨rfl, rfl⟩
      · exact ⟨rfl, rfl⟩
  | toLocal current target switchBackToCloud =>
      have hfixed := rememberOriginal_fixed t current
      exact ⟨hfixed.unlimitedBudget, hfixed.fallbackModelTarget⟩
  | scheduled next => exact ⟨rfl, rfl⟩

theorem Switch.apply_backend (s : Switch) (t : AgentThread) :
    (s.apply t).executionBackend =
      if t.executionBackend = .dockerSandbox ∧ s.leavesSandbox = true then
        .host
      else t.executionBackend := by
  cases s with
  | agent current next profile switchBack resetAt =>
      simp only [Switch.apply, AgentThread.switchTo, fallbackBackendForAgent,
        Switch.leavesSandbox, bne_iff_ne]
  | account current next profile =>
      simp only [Switch.apply, AgentThread.accountFallback, Switch.leavesSandbox,
        Bool.false_eq_true, and_false, if_false]
      split
      · rfl
      · rfl
  | toLocal current target switchBackToCloud => rfl
  | scheduled next =>
      simp only [Switch.apply, AgentThread.scheduledFallback, Switch.leavesSandbox, bne_iff_ne]

variable {t' : AgentThread}

theorem Keeps.remembers (h : Keeps t t') (hremembers : Remembers t agent settings) :
    Remembers t' agent settings := by
  rw [← h]
  exact hremembers

theorem Keeps.fixed (h : Keeps t t') : Fixed t t' := by
  rw [← h]
  exact ⟨rfl, rfl⟩

theorem Keeps.backend (h : Keeps t t') : t'.executionBackend = t.executionBackend := by
  rw [← h]

theorem Request.run_remembers (r : Request) (h : Remembers t agent settings) :
    Remembers (r.run t).thread agent settings := by
  have hran := r.ran t
  generalize r.run t = outcome at hran
  cases hran with
  | switched s _ => exact h.apply s
  | stayed t' _ hkeeps => exact hkeeps.remembers h

theorem Request.run_fixed (r : Request) (t : AgentThread) : Fixed t (r.run t).thread := by
  have hran := r.ran t
  generalize r.run t = outcome at hran
  cases hran with
  | switched s _ => exact s.apply_fixed t
  | stayed t' _ hkeeps => exact hkeeps.fixed

theorem Request.run_backend (r : Request) (t : AgentThread) :
    (r.run t).thread.executionBackend =
      if t.executionBackend = .dockerSandbox ∧
          (r.switch t.unlimitedBudget).any Switch.leavesSandbox = true then
        .host
      else t.executionBackend := by
  have hran := r.ran t
  generalize r.run t = outcome at hran
  cases hran with
  | switched s hs =>
      rw [hs]
      exact s.apply_backend t
  | stayed t' hnone hkeeps =>
      rw [hnone, if_neg (fun h => Bool.false_ne_true h.right)]
      exact hkeeps.backend

theorem runAll_remembers (requests : List Request) (h : Remembers t agent settings) :
    Remembers (runAll requests t) agent settings := by
  induction requests generalizing t with
  | nil => exact h
  | cons r rest ih => exact ih (r.run_remembers h)

theorem runAll_fixed (requests : List Request) (t : AgentThread) : Fixed t (runAll requests t) := by
  induction requests generalizing t with
  | nil => exact ⟨rfl, rfl⟩
  | cons r rest ih =>
      have hfirst := r.run_fixed t
      have hrest := ih (r.run t).thread
      constructor
      · exact hrest.unlimitedBudget.trans hfirst.unlimitedBudget
      · exact hrest.fallbackModelTarget.trans hfirst.fallbackModelTarget

theorem runAll_backend (requests : List Request) (t : AgentThread) :
    (runAll requests t).executionBackend = t.executionBackend ↔
      (t.executionBackend = .dockerSandbox ->
        StaysInSandbox t.unlimitedBudget requests) := by
  induction requests generalizing t with
  | nil =>
      constructor
      · intro _ _ r hr
        cases hr
      · intro _
        rfl
  | cons r rest ih =>
      have hbackend := r.run_backend t
      have hbudget := (r.run_fixed t).unlimitedBudget
      have hrest := ih (r.run t).thread
      rw [hbudget] at hrest
      by_cases hdocker : t.executionBackend = .dockerSandbox
      · cases hleaves : (r.switch t.unlimitedBudget).any Switch.leavesSandbox with
        | true =>
            rw [if_pos ⟨hdocker, hleaves⟩] at hbackend
            have hhost : (runAll rest (r.run t).thread).executionBackend = .host := by
              rw [hrest.mpr]
              · exact hbackend
              · intro h
                rw [hbackend] at h
                cases h
            constructor
            · intro h
              have hsame : (runAll rest (r.run t).thread).executionBackend = t.executionBackend := h
              rw [hhost, hdocker] at hsame
              cases hsame
            · intro h
              rcases (Option.any_eq_true _ _).mp hleaves with ⟨s, hs, hleaves⟩
              cases (h hdocker r (List.mem_cons_self) s hs).symm.trans hleaves
        | false =>
            have hstays : forall s, s ∈ r.switch t.unlimitedBudget -> s.leavesSandbox = false := by
              intro s hs
              exact (Option.any_eq_false _ _).mp hleaves s hs
            rw [if_neg (fun h => by rw [hleaves] at h; cases h.right)] at hbackend
            rw [hbackend] at hrest
            constructor
            · intro h _ r' hr'
              rcases List.mem_cons.mp hr' with heq | hmem
              · rw [heq]
                exact hstays
              · exact hrest.mp h hdocker r' hmem
            · intro h
              apply hrest.mpr
              intro _ r' hr'
              exact h hdocker r' (List.mem_cons_of_mem r hr')
      · rw [if_neg (fun h => hdocker h.left)] at hbackend
        rw [hbackend] at hrest
        constructor
        · intro _ h
          exact absurd h hdocker
        · intro _
          exact hrest.mpr (fun h => absurd h hdocker)

/-!
## The first switch and the switch back
-/

def Switch.remembered (before : AgentThread) : Switch -> Option AgentKind × Settings
  | .agent current _ _ _ _ => (some current, before.settings)
  | .toLocal current _ _ => (some current, before.settings)
  | .account current _ _ =>
      (some current,
        { before.settings with
          localProvider := none
          localBaseUrl := none })
  | .scheduled _ => (before.activeAgent, noSettings)

variable {before : AgentThread}

theorem Switch.apply_remembered (s : Switch) (h : NoFallback before) :
    (s.apply before).originalAgent = (s.remembered before).1 ∧
      (s.apply before).originalSettings = (s.remembered before).2 := by
  rcases h with ⟨hagent, hsettings⟩
  cases s with
  | agent current next profile switchBack resetAt =>
      simp only [Switch.apply, AgentThread.switchTo, AgentThread.rememberOriginal, hagent, if_true]
      exact ⟨rfl, rfl⟩
  | account current next profile =>
      simp only [Switch.apply, AgentThread.accountFallback, hagent, if_true]
      injection hsettings with _ _ hprovider hurl
      refine ⟨rfl, ?_⟩
      simp only [AgentThread.originalSettings, Switch.remembered, AgentThread.settings,
        hprovider, hurl]
  | toLocal current target switchBackToCloud =>
      simp only [Switch.apply, AgentThread.localFallback, AgentThread.rememberOriginal,
        hagent, if_true]
      exact ⟨rfl, rfl⟩
  | scheduled next =>
      refine ⟨?_, hsettings⟩
      show before.originalAgent.or before.activeAgent = before.activeAgent
      rw [hagent]
      rfl

theorem Switch.remembered_agent (s : Switch) {active : AgentKind}
    (h : before.activeAgent = some active) :
    exists agent, (s.remembered before).1 = some agent := by
  cases s with
  | agent current next profile switchBack resetAt => exact ⟨current, rfl⟩
  | account current next profile => exact ⟨current, rfl⟩
  | toLocal current target switchBackToCloud => exact ⟨current, rfl⟩
  | scheduled next => exact ⟨active, h⟩

theorem Request.run_of_switch {r : Request} {s : Switch}
    (h : r.switch t.unlimitedBudget = some s) : (r.run t).thread = s.apply t := by
  have hran := r.ran t
  rw [h] at hran
  generalize r.run t = outcome at hran
  cases hran with
  | switched s' hs => rw [Option.some.inj hs]
  | stayed _ hstay _ => cases hstay

theorem runAll_remembered (hnone : NoFallback before) {first : Request} {s : Switch}
    (hfirst : first.switch before.unlimitedBudget = some s) (rest : List Request)
    (hagent : (s.remembered before).1 = some agent) :
    Remembers (runAll (first :: rest) before) agent (s.remembered before).2 := by
  rcases s.apply_remembered hnone with ⟨horiginal, hsettings⟩
  have hstart : Remembers (first.run before).thread agent (s.remembered before).2 := by
    rw [Request.run_of_switch hfirst]
    exact ⟨horiginal.trans hagent, hsettings⟩
  exact runAll_remembers rest hstart

theorem Switch.records_iff (s : Switch) (before : AgentThread) :
    s.Records before ↔
      before.activeAgent ≠ none ∧
        s.remembered before = (before.activeAgent, before.settings) := by
  cases s with
  | agent current next profile switchBack resetAt =>
      simp only [Switch.Records, Switch.remembered, Prod.mk.injEq, and_true]
      constructor
      · intro h
        rw [h]
        exact ⟨Option.some_ne_none current, rfl⟩
      · intro h
        exact h.right.symm
  | account current next profile =>
      simp only [Switch.Records, Switch.remembered, Prod.mk.injEq]
      constructor
      · rintro ⟨h, hprovider, hurl⟩
        rw [h]
        refine ⟨Option.some_ne_none current, rfl, ?_⟩
        simp only [AgentThread.settings, hprovider, hurl]
      · rintro ⟨_, h, hsettings⟩
        injection hsettings with _ _ hprovider hurl
        exact ⟨h.symm, hprovider.symm, hurl.symm⟩
  | toLocal current target switchBackToCloud =>
      simp only [Switch.Records, Switch.remembered, Prod.mk.injEq, and_true]
      constructor
      · intro h
        rw [h]
        exact ⟨Option.some_ne_none current, rfl⟩
      · intro h
        exact h.right.symm
  | scheduled next =>
      simp only [Switch.Records, Switch.remembered, Prod.mk.injEq, true_and]
      constructor
      · intro h
        exact ⟨h.left, h.right.symm⟩
      · intro h
        exact ⟨h.left, h.right.symm⟩

structure BackFrom (t after : AgentThread) : Prop where
  agent : exists agent, after.activeAgent = some agent ∧
    forall original, t.originalAgent = some original -> agent = original
  settings : t.originalAgent ≠ none -> after.settings = t.originalSettings
  backend : after.executionBackend = t.executionBackend
  target : after.fallbackModelTarget = t.fallbackModelTarget
  cleared : t.fallbackModelTarget = none -> Cleared after

variable {after : AgentThread}

theorem save_switched {next : AgentThread} {saves switched : Bool}
    (h : t.save next saves switched = { thread := after, switched := true }) :
    next = after ∧ switched = true := by
  cases saves with
  | false => cases h
  | true =>
      injection h with hnext hswitched
      exact ⟨hnext, hswitched⟩

theorem resume_backFrom {current : AgentKind} {a : AgentThread.BackAnswers}
    (h : t.resumeThreadCloudAfterNetwork current a =
      { thread := after, switched := true }) : BackFrom t after := by
  unfold AgentThread.resumeThreadCloudAfterNetwork at h
  split at h
  · cases (save_switched h).right
  · rcases save_switched h with ⟨hnext, _⟩
    rw [← hnext]
    cases horiginal : t.originalAgent with
    | none =>
        constructor
        · exact ⟨current, rfl, fun original h => by rw [horiginal] at h; cases h⟩
        · intro hsome
          exact absurd horiginal hsome
        · rfl
        · rfl
        · intro htarget
          exact ⟨rfl, rfl, rfl, rfl, rfl, rfl, rfl, htarget⟩
    | some agent =>
        constructor
        · exact ⟨agent, rfl, fun original h => by rw [horiginal] at h; exact Option.some.inj h⟩
        · intro _
          rfl
        · rfl
        · rfl
        · intro htarget
          exact ⟨rfl, rfl, rfl, rfl, rfl, rfl, rfl, htarget⟩

theorem BackCall.backFrom {call : BackCall} {a : AgentThread.BackAnswers} (h : call.run a t = { thread := after, switched := true }) :
    BackFrom t after := by
  cases call with
  | network current => exact resume_backFrom h
  | afterTurn =>
      have hmark : t.maybeMarkThreadSwitchbackReady a =
        { thread := after, switched := true } := h
      unfold AgentThread.maybeMarkThreadSwitchbackReady at hmark
      split at hmark
      · cases hmark
      · rename_i original horiginal
        split at hmark
        · cases hmark
        · split at hmark
          · cases (save_switched hmark).right
          · split at hmark
            · split at hmark
              · cases hmark
              · split at hmark
                · exact resume_backFrom hmark
                · cases (save_switched hmark).right
                · cases hmark
            · split at hmark
              · cases hmark
              · rcases save_switched hmark with ⟨hnext, _⟩
                rw [← hnext]
                constructor
                · exact ⟨original, rfl, fun other h => by
                    rw [horiginal] at h
                    exact Option.some.inj h⟩
                · intro _
                  rfl
                · rfl
                · rfl
                · intro htarget
                  exact ⟨rfl, rfl, rfl, rfl, rfl, rfl, rfl, htarget⟩

/-- A chain of calls whose first one switches the thread, and a switch back after it,
restore the thread exactly when the first switch remembers everything the thread has,
no switch of the chain takes it out of a sandbox it is in, and no fallback target was
chosen for it. -/
theorem switch_back_restores {before after : AgentThread} (hnone : NoFallback before)
    {first : Request} {s : Switch} (hfirst : first.switch before.unlimitedBudget = some s)
    {rest : List Request} {call : BackCall} {a : AgentThread.BackAnswers}
    (hback : call.run a (runAll (first :: rest) before) = { thread := after, switched := true }) :
    Restored before after ↔
      s.Records before ∧ before.fallbackModelTarget = none ∧
        (before.executionBackend = ExecutionBackend.dockerSandbox ->
          StaysInSandbox before.unlimitedBudget (first :: rest)) := by
  have hfrom := BackCall.backFrom hback
  have hfixed := runAll_fixed (first :: rest) before
  rw [← runAll_backend, s.records_iff]
  rcases hfrom.agent with ⟨agent, hactive, horiginal⟩
  cases hbefore : before.activeAgent with
  | none =>
      constructor
      · intro hrestored
        have hsame := hrestored.agent
        rw [hactive, hbefore] at hsame
        cases hsame
      · intro h
        exact absurd rfl h.left.left
  | some active =>
      rcases s.remembered_agent hbefore with ⟨c, hc⟩
      have hchain := runAll_remembered hnone hfirst rest hc
      have hagent' : agent = c := horiginal c hchain.left
      have hsettings' : after.settings = (s.remembered before).2 := by
        rw [hfrom.settings, hchain.right]
        rw [hchain.left]
        exact Option.some_ne_none c
      constructor
      · intro hrestored
        refine ⟨⟨Option.some_ne_none active, ?_⟩, ?_, ?_⟩
        · apply Prod.ext
          · rw [hc, ← hagent', ← hactive, hrestored.agent, hbefore]
          · rw [← hsettings']
            exact hrestored.settings
        · rw [← hfixed.fallbackModelTarget, ← hfrom.target]
          exact hrestored.cleared.fallbackModelTarget
        · rw [← hfrom.backend]
          exact hrestored.backend
      · rintro ⟨⟨_, hrecords⟩, htarget, hbackend⟩
        constructor
        · have hsame : some c = some active := by
            rw [← hc, hrecords]
          rw [hactive, hagent', hsame, hbefore]
        · rw [hsettings', hrecords]
        · rw [hfrom.backend]
          exact hbackend
        · apply hfrom.cleared
          rw [hfixed.fallbackModelTarget]
          exact htarget

/-!
## Two threads
-/

/-- A thread on the Claude Code agent with a chosen model. -/
def opusThread : AgentThread :=
  { status := .waitingForLimit
    activeAgent := some .claudeCode
    executionBackend := .host
    model := some "opus"
    reasoning := some "high"
    localProvider := none
    localBaseUrl := none
    fallbackModelTarget := none
    originalAgent := none
    fallbackAgent := none
    originalModel := none
    fallbackModel := none
    originalReasoning := none
    fallbackReasoning := none
    originalLocalProvider := none
    fallbackLocalProvider := none
    originalLocalBaseUrl := none
    fallbackLocalBaseUrl := none
    switchBackPending := false
    limitResetAt := none
    switchBack := true
    handoffState := "none"
    unlimitedBudget := true }

/-- Codex is ready, no account is configured and a local model is at hand. -/
def codexReady : Answers :=
  { detected :=
      some [{ kind := .codex
              installed := true
              authenticated := true
              limited := false }]
    policy :=
      { autoSwitch := true
        switchBack := true
        preferredOrder := [.claudeCode, .codex] }
    agentProfiles := []
    accountsConfigured := false
    nextReadyAccount := none
    earliestAccountReset := none
    ownAccountReset := none
    bestReadyLocalTarget := none
    switchBackToCloud := true
    sessionActive := false
    saves := true }

def qwenTarget : LocalModelTarget :=
  { provider := .ollama
    model := "qwen"
    baseUrl := none }

def limitThenLocal : List Request :=
  [{ call := .limitHit .claudeCode none, answers := codexReady },
    { call := .toLocal .codex qwenTarget, answers := codexReady }]

def resumeWithCodex : Request :=
  { call := .scheduled (some .claudeCode) .codex
    answers := codexReady }

/-- The cloud is stable again and no session is active. -/
def cloudBack : AgentThread.BackAnswers :=
  { accountsConfigured := false
    originalReady := false
    switchBackToCloud := true
    cloudStable := some true
    now := 0
    sessionActive := false
    saves := true }

/-- A limit, then a local model, then the network: the thread is as it was. -/
theorem switch_back_restores_opus :
    Restored opusThread
      (BackCall.afterTurn.run cloudBack (runAll limitThenLocal opusThread)).thread := by
  have hback : BackCall.afterTurn.run cloudBack (runAll limitThenLocal opusThread) =
      { thread :=
          (BackCall.afterTurn.run cloudBack (runAll limitThenLocal opusThread)).thread
        switched := true } := by
    decide +kernel
  have hfirst : Request.switch opusThread.unlimitedBudget
      { call := Call.limitHit AgentKind.claudeCode none, answers := codexReady } =
      some (Switch.agent AgentKind.claudeCode AgentKind.codex (none, none) true none) := by
    decide +kernel
  apply (switch_back_restores (by decide) hfirst hback).mpr
  refine ⟨rfl, rfl, ?_⟩
  intro hdocker
  cases hdocker

/-- The scheduler resumes the thread with another agent, which remembers no model: the
switch back leaves the thread without the one that was chosen. -/
theorem scheduled_switch_loses_model :
    ¬ forall before first rest call a after,
      NoFallback before -> (first.switch before.unlimitedBudget).isSome = true ->
      BackCall.run call a (runAll (first :: rest) before) =
        { thread := after, switched := true } ->
      Restored before after := by
  intro hall
  have hback : BackCall.afterTurn.run cloudBack (runAll [resumeWithCodex] opusThread) =
      { thread :=
          (BackCall.afterTurn.run cloudBack (runAll [resumeWithCodex] opusThread)).thread
        switched := true } := by
    decide +kernel
  have hrestored := hall opusThread resumeWithCodex [] BackCall.afterTurn cloudBack _
    (by decide) (by decide +kernel) hback
  have hmodel : (BackCall.afterTurn.run cloudBack
      (runAll [resumeWithCodex] opusThread)).thread.settings ≠ opusThread.settings := by
    decide +kernel
  exact hmodel hrestored.settings

end Fallback
end Perpetual
