import Perpetual.Foundation.Text
import Perpetual.Proto.Enums
import Perpetual.Admission.Controller

/-!
# Session capacity and start errors

The resource-aware session cap, the error text of a start that found no free
slot, and the two classifiers that decide by substring whether a failed start is
retried: one in the scheduler, one in the plan driver.
-/

namespace Perpetual
namespace Scheduler

open Foundation

/-!
## The effective cap
-/

structure RunCapacityPolicy where
  adaptive : Bool
  reservedCpus : Nat
  memoryPerSessionMb : Nat
  manualMaxActiveSessions : Option Nat
  hardMaxActiveSessions : Nat
  allowOverRecommended : Bool
deriving DecidableEq, Repr

structure LocalSystemCapacity where
  logicalCpus : Nat
  totalMemoryMb : Nat
  availableMemoryMb : Nat
deriving DecidableEq, Repr

def defaultHardRuntimeCap : Nat := 512

def ioBoundSessionCpuMultiplier : Nat := 4

/-- The largest value of the source's word-sized counters. -/
def usizeMax : Nat := 2 ^ 64 - 1

def clamp (value low high : Nat) : Nat :=
  max low (min value high)

def defaultPolicy : RunCapacityPolicy :=
  { adaptive := true
    reservedCpus := 1
    memoryPerSessionMb := 512
    manualMaxActiveSessions := none
    hardMaxActiveSessions := 512
    allowOverRecommended := false }

def normalizeCapacityPolicy (policy : RunCapacityPolicy) : RunCapacityPolicy :=
  let hard := clamp policy.hardMaxActiveSessions 1 defaultHardRuntimeCap
  { policy with
    reservedCpus := min policy.reservedCpus 64
    memoryPerSessionMb := clamp policy.memoryPerSessionMb 256 131072
    hardMaxActiveSessions := hard
    manualMaxActiveSessions :=
      policy.manualMaxActiveSessions.map (fun m => clamp m 1 hard) }

def recommendedActiveSessions (policy : RunCapacityPolicy)
    (system : LocalSystemCapacity) : Nat :=
  let spareCpus := max (system.logicalCpus - policy.reservedCpus) 1
  let cpuBased := min (spareCpus * ioBoundSessionCpuMultiplier) usizeMax
  let perSession := max policy.memoryPerSessionMb 256
  let usableMemoryMb :=
    max (max system.availableMemoryMb (system.totalMemoryMb / 4)) perSession
  let memoryBased := max (usableMemoryMb / perSession) 1
  clamp (min cpuBased memoryBased) 1 (max policy.hardMaxActiveSessions 1)

def effectiveActiveSessions (policy : RunCapacityPolicy)
    (recommended : Nat) : Nat :=
  let requested :=
    if policy.adaptive then recommended
    else policy.manualMaxActiveSessions.getD recommended
  let allowed :=
    if policy.allowOverRecommended then requested
    else min requested recommended
  clamp allowed 1 (max policy.hardMaxActiveSessions 1)

def effectiveSessionCapacity (policy : RunCapacityPolicy)
    (system : LocalSystemCapacity) : Nat :=
  let policy := normalizeCapacityPolicy policy
  let recommended := recommendedActiveSessions policy system
  clamp (effectiveActiveSessions policy recommended) 1 defaultHardRuntimeCap

/-!
## The capacity error
-/

def capacityMode (policy : RunCapacityPolicy) : String :=
  if policy.adaptive then "adaptive" else "manual"

/-- The closing words of the capacity text. -/
def capacityAdvice : String :=
  ". Wait for an active agent to finish, stop one, or raise Run Capacity if this machine can handle it."

def capacityLimitMessage (active effective recommended : Nat)
    (system : LocalSystemCapacity) (policy : RunCapacityPolicy) : String :=
  Text.fill
    [("Active agent capacity reached (", active),
      ("/", effective),
      ("). The " ++ capacityMode policy ++ " cap is based on ",
        system.logicalCpus),
      (" CPU threads, ", system.availableMemoryMb),
      (" MB available memory, and a ", max policy.memoryPerSessionMb 256),
      (" MB/session budget; current recommendation is ", recommended)]
    capacityAdvice

def sessionCapacityError (policy : RunCapacityPolicy)
    (system : LocalSystemCapacity) (active : Nat) : CoreError :=
  let policy := normalizeCapacityPolicy policy
  let recommended := recommendedActiveSessions policy system
  let effective :=
    clamp (effectiveActiveSessions policy recommended) 1 defaultHardRuntimeCap
  .other
    (capacityLimitMessage active effective recommended system policy)

/-- Apply the effective cap to the admission controller; a grown cap starts a
drain for the queued starts. -/
def syncSessionCapacity (policy : RunCapacityPolicy)
    (system : LocalSystemCapacity) (sessions : Admission.World) :
    Admission.World :=
  { sessions with
    state := sessions.state.resize (effectiveSessionCapacity policy system)
    drains := sessions.drains ++ [.next] }

/-- Admission of a start: the cap is synchronised, then a slot is taken or the
start fails with the capacity error. -/
def acquireSession (policy : RunCapacityPolicy) (system : LocalSystemCapacity)
    (active : Nat) (sessions : Admission.World) (scope : Option String) :
    Except CoreError Admission.World :=
  if (syncSessionCapacity policy system sessions).state.canAdmit scope then
    .ok ((syncSessionCapacity policy system sessions).grant scope)
  else
    .error (sessionCapacityError policy system active)

/-!
## What the callers do with a failed start
-/

def schedulerStartErrorIsRetryable (error : String) : Bool :=
  Text.contains error "already running" ||
    Text.contains error "maximum concurrent"

def planStartErrorIsRetryable (error : String) : Bool :=
  Text.contains error "already running" ||
    Text.contains error "maximum concurrent" ||
    Text.contains error "repository is already locked"

def handleSchedulerStartError (status : TaskStatus) (err : CoreError) :
    TaskStatus :=
  if schedulerStartErrorIsRetryable err.display then status
  else .paused

/-- The plan state the driver writes because of a start error, if any. -/
def planStartErrorOutcome (err : CoreError) : Option WorkPlanRunState :=
  if planStartErrorIsRetryable err.display then none
  else some .failed

end Scheduler
end Perpetual
