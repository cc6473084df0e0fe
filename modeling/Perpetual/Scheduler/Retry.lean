import Perpetual.Scheduler.Capacity

/-!
# Capacity errors are not retried

The capacity text consists of fixed segments and numbers.  None of the phrases
the classifiers look for occurs in a segment, and none of them has a digit, so
none occurs in the text whatever the numbers are.
-/

namespace Perpetual
namespace Scheduler

open Foundation

def capacitySegments (mode : String) : List String :=
  ["Active agent capacity reached (", "/",
    "). The " ++ mode ++ " cap is based on ", " CPU threads, ",
    " MB available memory, and a ",
    " MB/session budget; current recommendation is ", capacityAdvice]

/-- A phrase the text cannot contain: it has no digit, and no segment contains
it in either mode. -/
def Foreign (phrase : String) : Prop :=
  Text.DigitFree phrase.toList ∧
    forall mode, mode ∈ ["adaptive", "manual"] ->
      (capacitySegments mode).all
        (fun segment => !Text.contains segment phrase) = true

theorem capacityMode_mem (policy : RunCapacityPolicy) :
    capacityMode policy ∈ ["adaptive", "manual"] := by
  unfold capacityMode
  cases policy.adaptive <;> simp

theorem not_contains_of_foreign {phrase : String} (h : Foreign phrase)
    (active effective recommended : Nat) (system : LocalSystemCapacity)
    (policy : RunCapacityPolicy) :
    Text.contains
      (capacityLimitMessage active effective recommended system policy)
      phrase = false := by
  apply Text.not_contains_fill h.left
  exact h.right (capacityMode policy) (capacityMode_mem policy)

theorem foreign_alreadyRunning : Foreign "already running" := by
  constructor
  · simp [Text.DigitFree]
  · decide +kernel

theorem foreign_maximumConcurrent : Foreign "maximum concurrent" := by
  constructor
  · simp [Text.DigitFree]
  · decide +kernel

theorem foreign_repositoryLocked : Foreign "repository is already locked" := by
  constructor
  · simp [Text.DigitFree]
  · decide +kernel

theorem sessionCapacityError_unclassified (policy : RunCapacityPolicy)
    (system : LocalSystemCapacity) (active : Nat) :
    schedulerStartErrorIsRetryable
        (sessionCapacityError policy system active).display = false ∧
      planStartErrorIsRetryable
        (sessionCapacityError policy system active).display = false := by
  constructor
  · simp only [schedulerStartErrorIsRetryable, sessionCapacityError,
      CoreError.display, not_contains_of_foreign foreign_alreadyRunning,
      not_contains_of_foreign foreign_maximumConcurrent, Bool.or_self]
  · simp only [planStartErrorIsRetryable, sessionCapacityError,
      CoreError.display, not_contains_of_foreign foreign_alreadyRunning,
      not_contains_of_foreign foreign_maximumConcurrent,
      not_contains_of_foreign foreign_repositoryLocked, Bool.or_self]

theorem acquireSession_error {policy : RunCapacityPolicy}
    {system : LocalSystemCapacity} {active : Nat} {sessions : Admission.World}
    {scope : Option String} {err : CoreError}
    (h : acquireSession policy system active sessions scope =
      .error err) :
    err = sessionCapacityError policy system active := by
  unfold acquireSession at h
  split at h
  · cases h
  · injection h with h
    exact h.symm

/-- A start that fails for lack of a slot is never retried: the scheduler pauses
the task whatever it waited for, and the plan driver fails the plan. -/
theorem capacity_error_never_retried {policy : RunCapacityPolicy} {system : LocalSystemCapacity}
    {active : Nat} {sessions : Admission.World} {scope : Option String} {err : CoreError}
    (h : acquireSession policy system active sessions scope = Except.error err) :
    schedulerStartErrorIsRetryable err.display = false ∧
      planStartErrorIsRetryable err.display = false ∧
      (forall status, handleSchedulerStartError status err =
        TaskStatus.paused) ∧
      planStartErrorOutcome err = some WorkPlanRunState.failed := by
  rw [acquireSession_error h]
  rcases sessionCapacityError_unclassified policy system active with
    ⟨hscheduler, hplan⟩
  refine ⟨hscheduler, hplan, ?_, ?_⟩
  · intro status
    simp [handleSchedulerStartError, hscheduler]
  · simp [planStartErrorOutcome, hplan]

/-- Four sessions run under a cap of four and a queued task is started. -/
def fullSessions : Admission.World :=
  { Admission.World.new 4 with
    state := { Admission.State.new 4 with running := 4 }
    held := List.replicate 4 (Admission.permit none) }

/-- A machine whose resource-aware cap is four sessions. -/
def fourSessionSystem : LocalSystemCapacity :=
  { logicalCpus := 2, totalMemoryMb := 8192, availableMemoryMb := 4096 }

theorem acquireSession_full :
    acquireSession defaultPolicy fourSessionSystem 4 fullSessions none =
      .error (sessionCapacityError defaultPolicy fourSessionSystem 4) := by
  rfl

theorem capacity_error_never_retried_full :
    handleSchedulerStartError TaskStatus.queued
        (sessionCapacityError defaultPolicy fourSessionSystem 4) =
      TaskStatus.paused :=
  (capacity_error_never_retried acquireSession_full).right.right.left
    TaskStatus.queued

/-- The queued task of a full pool is paused and the plan is failed. -/
theorem capacity_error_pauses_queued_task :
    acquireSession defaultPolicy fourSessionSystem 4 fullSessions none =
        Except.error (sessionCapacityError defaultPolicy fourSessionSystem 4) ∧
      schedulerStartErrorIsRetryable
        (sessionCapacityError defaultPolicy fourSessionSystem 4).display =
        false ∧
      handleSchedulerStartError TaskStatus.queued
        (sessionCapacityError defaultPolicy fourSessionSystem 4) ≠
        TaskStatus.queued ∧
      planStartErrorOutcome
        (sessionCapacityError defaultPolicy fourSessionSystem 4) =
        some WorkPlanRunState.failed := by
  have hclass :=
    sessionCapacityError_unclassified defaultPolicy fourSessionSystem 4
  refine ⟨rfl, hclass.left, ?_, ?_⟩
  · simp [handleSchedulerStartError, hclass.left]
  · simp [planStartErrorOutcome, hclass.right]

end Scheduler
end Perpetual
