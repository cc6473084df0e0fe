import Perpetual.WorkGraph.PlanSteps
import Perpetual.Foundation.Cells

/-!
# Drivers of a plan run

A driver is spawned when the run is created and each time it is resumed.  The
statement that resumes a run does not tell whether it found the run paused, and
a driver that has paused the run is still to return.  There is at most one driver
past its state check in every run in which a resume executes this statement only
while no driver is at work or about to be spawned; two resumes of one pause
leave two.
-/

namespace Perpetual
namespace WorkGraph

open Foundation

/-- Past its first state check and not yet returned. -/
def Driver.pastCheck : Driver -> Bool
  | .fresh => false
  | .returned => false
  | _ => true

def Driver.notReturned : Driver -> Bool
  | .returned => false
  | _ => true

/-- The drivers still to return and the ones about to be spawned. -/
def pendingDrivers (w : PlanWorld) : Nat :=
  (if w.launching then 1 else 0) + w.resumes.countP Resume.isSpawning +
    w.drivers.countP Driver.notReturned

/-- A resume executes its update while no driver is pending. -/
def ResumesAlone (w : PlanWorld) : PlanAction -> Prop
  | .resume i .tick =>
      match w.resumes[i]? with
      | some .updating => pendingDrivers w = 0
      | _ => True
  | _ => True

instance (w : PlanWorld) (a : PlanAction) : Decidable (ResumesAlone w a) := by
  cases a with
  | resume i input =>
      cases input with
      | tick =>
          dsimp only [ResumesAlone]
          split <;> infer_instance
      | _ =>
          dsimp only [ResumesAlone]
          infer_instance
  | _ =>
      dsimp only [ResumesAlone]
      infer_instance

/-- A resume that has found the run paused. -/
def Resume.pastRead : Resume -> Bool
  | .checking _ => true
  | .updating => true
  | .spawning => true
  | _ => false

/-- At most one driver is pending, and before the run is created there is
nothing of it. -/
structure OnePending (w : PlanWorld) : Prop where
  pending : pendingDrivers w ≤ 1
  created : w.row = none -> pendingDrivers w = 0 ∧
    forall r, r ∈ w.resumes -> r.pastRead = false

variable {r : Resume}

theorem isSpawning_of_pastRead (h : r.pastRead = false) : r.isSpawning = false := by
  cases r with
  | spawning => cases h
  | _ => rfl

variable {row : Option PlanRow} {d : Driver} {input : DriverInput}

theorem Driver.notReturned_of_step {next : DriverStep} (h : d.step row input = some next) :
    d.notReturned = true := by
  cases d with
  | returned =>
      cases input with
      | _ => cases h
  | _ => rfl

theorem Driver.step_row_none {next : DriverStep} (h : d.step row input = some next) :
    next.row = none ↔ row = none := by
  have hmap : forall rows rows' : Option PlanRow,
      rows'.map PlanRow.state = rows.map PlanRow.state ->
        (rows' = none ↔ rows = none) := by
    intro rows rows' heq
    rw [← Option.map_eq_none_iff (f := PlanRow.state), heq, Option.map_eq_none_iff]
  rcases Driver.step_cases h with ⟨_, hrow, _⟩ | ⟨_, hrow⟩ | ⟨progress, _, _, hrow, _⟩
  · rw [hrow]
  · exact hmap row next.row hrow
  · rw [hrow, Option.map_eq_none_iff]

variable {w w' : PlanWorld} {i : Nat}

theorem OnePending.driver (h : OnePending w)
    (hstep : planStep w (.driver i input) = some w') : OnePending w' := by
  rcases PlanWorld.step_driver hstep with ⟨d, next, hd, hnext, hw'⟩
  have hle : pendingDrivers w' ≤ pendingDrivers w := by
    have hcount := Cells.countP_set_add Driver.notReturned hd next.driver
    rw [if_pos (Driver.notReturned_of_step hnext)] at hcount
    have hone : (if next.driver.notReturned then 1 else 0) ≤ 1 := by
      split
      · exact Nat.le_refl 1
      · exact Nat.zero_le 1
    rw [hw']
    show (if w.launching then 1 else 0) + w.resumes.countP Resume.isSpawning +
        (w.drivers.set i next.driver).countP Driver.notReturned ≤
      (if w.launching then 1 else 0) + w.resumes.countP Resume.isSpawning +
        w.drivers.countP Driver.notReturned
    omega
  constructor
  · exact Nat.le_trans hle h.pending
  · intro hnone
    rw [hw'] at hnone
    rcases h.created ((Driver.step_row_none hnext).mp hnone) with ⟨hzero, hresumes⟩
    constructor
    · omega
    · rw [hw']
      exact hresumes

theorem countP_spawn (drivers : List Driver) (spawned : Bool) :
    (if spawned then drivers ++ [.fresh] else drivers).countP
        Driver.notReturned =
      drivers.countP Driver.notReturned + (if spawned then 1 else 0) := by
  cases spawned with
  | false => rfl
  | true =>
      show (drivers ++ [Driver.fresh]).countP Driver.notReturned =
        drivers.countP Driver.notReturned + 1
      rw [List.countP_append]
      rfl

theorem Resume.step_row_none {input : ResumeInput}
    {next : ResumeStep} (h : r.step row input = some next) :
    next.row = none ↔ row = none := by
  rcases Resume.step_cases h with ⟨_, _, hrow, _, _⟩ | ⟨hrow, _, _⟩
  · rw [hrow, Option.map_eq_none_iff]
  · rw [hrow]

theorem Resume.pastRead_of_none {input : ResumeInput} {next : ResumeStep}
    (hr : r.pastRead = false) (h : r.step none input = some next) :
    next.resume.pastRead = false := by
  cases r with
  | reading =>
      cases input with
      | tick =>
          cases h
          rfl
      | fault error =>
          cases h
          rfl
      | graph graph => cases h
  | returned result =>
      cases input with
      | _ => cases h
  | checking plan => cases hr
  | updating => cases hr
  | spawning => cases hr

theorem pendingDrivers_resume (hr : w.resumes[i]? = some r) (next : ResumeStep) :
    pendingDrivers { w with
        row := next.row
        resumes := w.resumes.set i next.resume
        drivers :=
          if next.spawned then w.drivers ++ [.fresh] else w.drivers } +
        (if r.isSpawning then 1 else 0) =
      pendingDrivers w + (if next.resume.isSpawning then 1 else 0) +
        (if next.spawned then 1 else 0) := by
  have hcount := Cells.countP_set_add Resume.isSpawning hr next.resume
  have hspawn := countP_spawn w.drivers next.spawned
  unfold pendingDrivers
  show (if w.launching then 1 else 0) +
        (w.resumes.set i next.resume).countP Resume.isSpawning +
        (if next.spawned then w.drivers ++ [.fresh] else w.drivers).countP
          Driver.notReturned + (if r.isSpawning then 1 else 0) =
      (if w.launching then 1 else 0) + w.resumes.countP Resume.isSpawning +
        w.drivers.countP Driver.notReturned +
        (if next.resume.isSpawning then 1 else 0) + (if next.spawned then 1 else 0)
  omega

theorem OnePending.resume (h : OnePending w)
    {input : ResumeInput} (hok : ResumesAlone w (.resume i input))
    (hstep : planStep w (.resume i input) = some w') : OnePending w' := by
  rcases PlanWorld.step_resume hstep with ⟨r, next, hr, hnext, hw'⟩
  have hcount := pendingDrivers_resume hr next
  rw [← hw'] at hcount
  constructor
  · rcases Resume.step_cases hnext with
      ⟨hupdating, hinput, _, hspawning, hspawned⟩ | ⟨_, hspawning, hspawned⟩
    · -- The update: nothing was pending, and one driver is about to be spawned.
      unfold ResumesAlone at hok
      rw [hinput] at hok
      simp only [hr, hupdating] at hok
      rw [hupdating, hspawning, hspawned] at hcount
      simp only [Resume.isSpawning, Bool.false_eq_true, if_false, if_true] at hcount
      omega
    · have hle := h.pending
      rw [hspawning] at hcount
      cases hspawn : next.spawned with
      | false =>
          rw [hspawn] at hcount
          simp only [Bool.false_eq_true, if_false] at hcount
          omega
      | true =>
          rw [hspawn, hspawned hspawn] at hcount
          simp only [Resume.isSpawning, Bool.false_eq_true, if_false, if_true] at hcount
          omega
  · intro hnone
    have hnone' : next.row = none := by
      rw [hw'] at hnone
      exact hnone
    have hrow : w.row = none := (Resume.step_row_none hnext).mp hnone'
    rcases h.created hrow with ⟨hzero, hresumes⟩
    have hread := hresumes r (List.mem_of_getElem? hr)
    rw [hrow] at hnext
    have hread' := Resume.pastRead_of_none hread hnext
    have hspawned : next.spawned = false := by
      cases hspawn : next.spawned with
      | false => rfl
      | true =>
          rcases Resume.step_cases hnext with ⟨hupdating, _⟩ | ⟨_, _, himp⟩
          · rw [hupdating] at hread
            cases hread
          · rw [himp hspawn] at hread
            cases hread
    constructor
    · rw [isSpawning_of_pastRead hread, isSpawning_of_pastRead hread', hspawned] at hcount
      simp only [Bool.false_eq_true, if_false] at hcount
      omega
    · rw [hw']
      intro r' hr'
      rcases List.mem_or_eq_of_mem_set hr' with hold | hnew
      · exact hresumes r' hold
      · rw [hnew]
        exact hread'

theorem Stop.step_row_none {s : Stop} {fault : Option CoreError}
    {next : StopStep} (h : s.step row fault = some next) (hnone : next.row = none) :
    row = none := by
  rcases Stop.step_cases h with ⟨_, _, _, hcancelled⟩ | ⟨hrow, _⟩ | ⟨hrow, _⟩
  · rw [hnone] at hcancelled
    cases hcancelled
  · rw [← hrow]
    exact hnone
  · rw [← hrow]
    exact hnone

theorem OnePending.step {a : PlanAction} (h : OnePending w)
    (hok : ResumesAlone w a) (hstep : planStep w a = some w') : OnePending w' := by
  cases a with
  | run graph effectiveCapacity options =>
      simp only [planStep] at hstep
      split at hstep
      · rename_i row hnone _
        rcases h.created hnone with ⟨hzero, _⟩
        rw [← Option.some.inj hstep]
        constructor
        · unfold pendingDrivers at hzero
          show 1 + w.resumes.countP Resume.isSpawning + w.drivers.countP Driver.notReturned ≤ 1
          omega
        · intro hrow
          cases hrow
      · cases hstep
  | launch recorded =>
      simp only [planStep] at hstep
      split at hstep
      · rename_i hlaunching
        rw [← Option.some.inj hstep]
        have hspawn := countP_spawn w.drivers recorded
        have hle := h.pending
        unfold pendingDrivers at hle
        rw [if_pos hlaunching] at hle
        have hone : (if recorded then 1 else 0) ≤ 1 := by
          split
          · exact Nat.le_refl 1
          · exact Nat.zero_le 1
        constructor
        · show 0 + w.resumes.countP Resume.isSpawning +
            (if recorded then w.drivers ++ [.fresh] else w.drivers).countP
              Driver.notReturned ≤ 1
          omega
        · intro hrow
          have hzero := (h.created hrow).left
          unfold pendingDrivers at hzero
          rw [if_pos hlaunching] at hzero
          omega
      · cases hstep
  | callResume caller =>
      simp only [planStep] at hstep
      split at hstep
      · rw [← Option.some.inj hstep]
        have hcount : (w.resumes ++ [Resume.reading]).countP Resume.isSpawning =
            w.resumes.countP Resume.isSpawning := by
          rw [List.countP_append]
          rfl
        have hsame : pendingDrivers
            { w with resumes := w.resumes ++ [.reading] } =
              pendingDrivers w := by
          unfold pendingDrivers
          show _ + (w.resumes ++ [Resume.reading]).countP Resume.isSpawning + _ = _
          rw [hcount]
        constructor
        · rw [hsame]
          exact h.pending
        · intro hrow
          rcases h.created hrow with ⟨hzero, hresumes⟩
          refine ⟨by rw [hsame]; exact hzero, fun r hr => ?_⟩
          rcases List.mem_append.mp hr with hold | hnew
          · exact hresumes r hold
          · rw [List.mem_singleton.mp hnew]
            rfl
      · cases hstep
  | callStop =>
      rw [← Option.some.inj hstep]
      exact ⟨h.pending, h.created⟩
  | driver i input => exact h.driver hstep
  | resume i input => exact h.resume hok hstep
  | stop i fault =>
      rcases PlanWorld.step_stop hstep with ⟨s, next, hs, hnext, hw'⟩
      rw [hw']
      exact ⟨h.pending, fun hrow => h.created (Stop.step_row_none hnext hrow)⟩

theorem pastCheck_notReturned (h : d.pastCheck = true) : d.notReturned = true := by
  cases d with
  | returned => cases h
  | _ => rfl

/-- In every run whose resumes execute their update alone, at most one driver is
past its state check. -/
theorem one_driver_per_plan {w : PlanWorld} (h : planMachine.ReachableUnder ResumesAlone w) :
    w.drivers.countP Driver.pastCheck ≤ 1 := by
  have hone : OnePending w := by
    refine h.invariant ?_ (fun _ _ _ hw hok hstep => hw.step hok hstep)
    intro w hw
    rw [show w = noPlan from hw]
    exact ⟨Nat.zero_le 1, fun _ => ⟨rfl, fun r hr => by cases hr⟩⟩
  have hpast : w.drivers.countP Driver.pastCheck ≤ w.drivers.countP Driver.notReturned :=
    List.countP_mono_left (fun d _ hd => pastCheck_notReturned hd)
  have hpending := hone.pending
  unfold pendingDrivers at hpending
  omega

/-- A manually gated run that its driver has paused for the review of the task;
the driver has returned. -/
def upToPause : List PlanAction :=
  [.run (taskGraph .review) 2
      { gateMode := .manual
        maxActiveRuns := none
        failureMode := .halt
        maxNodeRetries := 0 },
    .launch true, .driver 0 .tick,
    .driver 0 (.graph (.ok (taskGraph .review))),
    .driver 0
      (.gates
        { evaluate := fun _ => none
          updates := fun _ => true
          records := fun _ => true
          names := fun _ => true }),
    .driver 0 .tick, .driver 0 .tick]

def upToUpdate (i : Nat) (caller : ResumeCaller) : List PlanAction :=
  [.callResume caller, .resume i .tick,
    .resume i
      (.graph (.ok (taskGraph .done)))]

def updateAndSpawn (i driver : Nat) : List PlanAction :=
  [.resume i .tick, .resume i .tick,
    .driver driver .tick]

/-- The completed review resumes the run once. -/
theorem one_driver_per_plan_resumedOnce :
    exists w, planMachine.ReachableUnder ResumesAlone w ∧ w.drivers.length = 2 ∧
      w.drivers.countP Driver.pastCheck = 1 ∧
      w.drivers.countP Driver.pastCheck ≤ 1 := by
  have hrun : Option.any
      (fun w => decide (w.drivers.length = 2 ∧
        w.drivers.countP Driver.pastCheck = 1))
      (planMachine.runUnder ResumesAlone noPlan
        (upToPause ++ upToUpdate 0 (ResumeCaller.unblocked "a") ++
          updateAndSpawn 0 1)) = true := by decide +kernel
  rcases planMachine.exists_reachable_of_runUnder rfl hrun with ⟨w, hw, hp⟩
  rcases of_decide_eq_true hp with ⟨hlength, hcount⟩
  exact ⟨w, hw, hlength, hcount, one_driver_per_plan hw⟩

/-- The completed review and the scheduler both find the run paused, and each of
them spawns a driver. -/
theorem two_resumes_leave_two_drivers :
    ¬ forall w, planMachine.Reachable w ->
      w.drivers.countP Driver.pastCheck ≤ 1 := by
  intro hall
  have hrun : Option.any (fun w => decide (w.drivers.countP Driver.pastCheck = 2))
      (planMachine.runFrom noPlan
        (upToPause ++ upToUpdate 0 (ResumeCaller.unblocked "a") ++
          upToUpdate 1 (ResumeCaller.scheduler true) ++ updateAndSpawn 0 1 ++
          updateAndSpawn 1 2)) = true := by decide +kernel
  rcases planMachine.exists_reachable_of_runFrom rfl hrun with ⟨w, hw, hp⟩
  have htwo := of_decide_eq_true hp
  have hone := hall w hw
  omega

end WorkGraph
end Perpetual
