import Perpetual.WorkGraph.PlanRun

/-!
# Steps of a plan run

What a step of a driver, a resume or a stop can do: to the row, to the nodes
started and to where it stands.  The results about plan runs use these instead
of the definitions of the steps.
-/

namespace Perpetual
namespace WorkGraph

/-- Past the state check of a turn and before the write that ends it. -/
def Driver.midTurn : Driver -> Bool
  | .fresh => false
  | .checking => false
  | .sleeping => false
  | .leaving => false
  | .returned => false
  | _ => true

theorem updatePlanRunProgress_state (progress : PlanProgress) (row : Option PlanRow) :
    (row.map (updatePlanRunProgress progress)).map PlanRow.state =
      row.map (fun _ => progress.state) := by
  cases row with
  | none => rfl
  | some plan => rfl

theorem gateRow_state (writes : GateWrites) (row : Option PlanRow) :
    (gateRow writes row).map PlanRow.state = row.map PlanRow.state := by
  unfold gateRow
  cases writes.resumeAfter with
  | none => rfl
  | some nodeId =>
      cases row with
      | none => rfl
      | some plan => rfl

theorem afterWrite_midTurn (progress : PlanProgress) : (afterWrite progress).midTurn = false := by
  unfold afterWrite
  split
  · rfl
  · rfl

theorem checkState_cases (row : Option PlanRow) :
    (checkState row).midTurn = false ∨
      row.map PlanRow.state = some .running := by
  cases row with
  | none => exact .inl rfl
  | some plan =>
      by_cases hrunning : plan.state = .running
      · exact .inr (congrArg some hrunning)
      · left
        show (if plan.state = WorkPlanRunState.running then Driver.loading plan
          else Driver.returned).midTurn = false
        rw [if_neg hrunning]
        rfl

variable {row : Option PlanRow}

theorem Driver.step_cases {d : Driver} {input : DriverInput}
    {next : DriverStep} (h : d.step row input = some next) :
    (d.midTurn = false ∧ next.row = row ∧ next.started = [] ∧
      (next.driver.midTurn = false ∨
        row.map PlanRow.state = some .running)) ∨
    (d.midTurn = true ∧ next.row.map PlanRow.state = row.map PlanRow.state) ∨
    (exists progress, d = .writing progress ∧ input = .tick ∧
      next.row = row.map (updatePlanRunProgress progress) ∧ next.started = [] ∧
      next.driver.midTurn = false) := by
  cases d with
  | fresh =>
      cases input with
      | tick =>
          cases h
          exact .inl ⟨rfl, rfl, rfl, checkState_cases row⟩
      | fault =>
          cases h
          exact .inl ⟨rfl, rfl, rfl, .inl rfl⟩
      | _ => cases h
  | checking =>
      cases input with
      | tick =>
          cases h
          exact .inl ⟨rfl, rfl, rfl, checkState_cases row⟩
      | fault =>
          cases h
          exact .inl ⟨rfl, rfl, rfl, .inl rfl⟩
      | _ => cases h
  | loading plan =>
      cases input with
      | graph loaded =>
          cases loaded with
          | ok graph =>
              cases h
              exact .inr (.inl ⟨rfl, rfl⟩)
          | error error =>
              cases h
              exact .inr (.inl ⟨rfl, rfl⟩)
      | _ => cases h
  | gating plan graph =>
      cases input with
      | gates answers =>
          cases h
          exact .inr (.inl ⟨rfl, gateRow_state _ row⟩)
      | _ => cases h
  | reloading plan graph =>
      cases input with
      | graph loaded =>
          cases loaded with
          | ok fresh =>
              cases h
              exact .inr (.inl ⟨rfl, rfl⟩)
          | error error =>
              cases h
              exact .inr (.inl ⟨rfl, rfl⟩)
      | _ => cases h
  | retrying plan graph =>
      cases input with
      | retries answers =>
          cases h
          exact .inr (.inl ⟨rfl, rfl⟩)
      | _ => cases h
  | starting plan graph node rest started =>
      cases input with
      | start outcome =>
          cases outcome with
          | ok _ =>
              cases h
              exact .inr (.inl ⟨rfl, rfl⟩)
          | error error =>
              cases h
              exact .inr (.inl ⟨rfl, rfl⟩)
      | _ => cases h
  | attaching plan graph rest started =>
      cases input with
      | tick =>
          cases h
          exact .inr (.inl ⟨rfl, rfl⟩)
      | _ => cases h
  | writing progress =>
      cases input with
      | tick =>
          cases h
          exact .inr (.inr ⟨progress, rfl, rfl, rfl, rfl, afterWrite_midTurn progress⟩)
      | fault =>
          cases h
          exact .inr (.inl ⟨rfl, rfl⟩)
      | _ => cases h
  | sleeping =>
      cases input with
      | tick =>
          cases h
          exact .inl ⟨rfl, rfl, rfl, .inl rfl⟩
      | _ => cases h
  | leaving =>
      cases input with
      | tick =>
          cases h
          exact .inl ⟨rfl, rfl, rfl, .inl rfl⟩
      | _ => cases h
  | returned => cases input with
      | _ => cases h

def Resume.isSpawning : Resume -> Bool
  | .spawning => true
  | _ => false

variable {input : ResumeInput}

theorem Resume.step_cases {r : Resume} {next : ResumeStep} (h : r.step row input = some next) :
    (r = .updating ∧ input = .tick ∧
      next.row = row.map resumePlanRun ∧ next.resume = .spawning ∧
      next.spawned = false) ∨
    (next.row = row ∧ next.resume.isSpawning = false ∧
      (next.spawned = true -> r = .spawning)) := by
  cases r with
  | reading =>
      cases input with
      | tick =>
          cases row with
          | none =>
              cases h
              exact .inr ⟨rfl, rfl, fun hspawned => by cases hspawned⟩
          | some plan =>
              simp only [Resume.step] at h
              split at h
              · cases h
                exact .inr ⟨rfl, rfl, fun hspawned => by cases hspawned⟩
              · cases h
                exact .inr ⟨rfl, rfl, fun hspawned => by cases hspawned⟩
      | fault error =>
          cases h
          exact .inr ⟨rfl, rfl, fun hspawned => by cases hspawned⟩
      | graph graph => cases h
  | checking plan =>
      cases input with
      | graph loaded =>
          cases loaded with
          | ok graph =>
              simp only [Resume.step] at h
              split at h
              · cases h
                exact .inr ⟨rfl, rfl, fun hspawned => by cases hspawned⟩
              · cases h
                exact .inr ⟨rfl, rfl, fun hspawned => by cases hspawned⟩
          | error error =>
              cases h
              exact .inr ⟨rfl, rfl, fun hspawned => by cases hspawned⟩
      | _ => cases h
  | updating =>
      cases input with
      | tick =>
          cases h
          exact .inl ⟨rfl, rfl, rfl, rfl, rfl⟩
      | fault error =>
          cases h
          exact .inr ⟨rfl, rfl, fun hspawned => by cases hspawned⟩
      | graph graph => cases h
  | spawning =>
      cases input with
      | tick =>
          cases h
          exact .inr ⟨rfl, rfl, fun _ => rfl⟩
      | fault error =>
          cases h
          exact .inr ⟨rfl, rfl, fun hspawned => by cases hspawned⟩
      | graph graph => cases h
  | returned result => cases input with
      | _ => cases h

theorem resumePlanRun_of_not_paused {plan : PlanRow}
    (h : plan.state ≠ .paused) : resumePlanRun plan = plan := by
  unfold resumePlanRun
  exact if_neg h

theorem not_terminal_running : ¬ IsTerminal .running := by decide

theorem not_terminal_paused : ¬ IsTerminal .paused := by decide

theorem Resume.step_state {r : Resume} {next : ResumeStep} (h : r.step row input = some next) :
    next.row.map PlanRow.state = row.map PlanRow.state ∨
      (row.map PlanRow.state = some .paused ∧
        next.row.map PlanRow.state = some .running) := by
  rcases Resume.step_cases h with ⟨_, _, hrow, _, _⟩ | ⟨hrow, _, _⟩
  · rw [hrow]
    cases row with
    | none => exact .inl rfl
    | some plan =>
        by_cases hpaused : plan.state = .paused
        · right
          constructor
          · exact congrArg some hpaused
          · show some (resumePlanRun plan).state = some .running
            unfold resumePlanRun
            rw [if_pos hpaused]
        · left
          show some (resumePlanRun plan).state = some plan.state
          rw [resumePlanRun_of_not_paused hpaused]
  · exact .inl (by rw [hrow])

theorem Stop.step_cases {s : Stop} {fault : Option CoreError}
    {next : StopStep} (h : s.step row fault = some next) :
    (s = .cancelling ∧ fault = none ∧ next.stop = .stoppingNodes ∧
      next.row.map PlanRow.state = some .cancelled) ∨
    (next.row = row ∧ (exists error, next.stop = .failed error)) ∨
    (next.row = row ∧ s = .stoppingNodes ∧ next.stop = .returned) := by
  unfold Stop.step at h
  split at h
  · split at h
    · cases h
      exact .inr (.inl ⟨rfl, _, rfl⟩)
    · cases h
      exact .inl ⟨rfl, rfl, rfl, rfl⟩
  · cases h
    exact .inr (.inr ⟨rfl, rfl, rfl⟩)
  · cases h
    exact .inr (.inl ⟨rfl, _, rfl⟩)
  · cases h
    exact .inr (.inl ⟨rfl, _, rfl⟩)
  · cases h

variable {w w' : PlanWorld} {i : Nat}

theorem PlanWorld.step_driver {input : DriverInput} (h : planStep w (.driver i input) = some w') :
    exists d next, w.drivers[i]? = some d ∧ d.step w.row input = some next ∧
      w' = { w with
        row := next.row
        drivers := w.drivers.set i next.driver
        started := w.started ++ next.started } := by
  simp only [planStep] at h
  split at h
  · cases h
  · rename_i d hd
    split at h
    · cases h
    · rename_i next hnext
      exact ⟨d, next, hd, hnext, (Option.some.inj h).symm⟩

theorem PlanWorld.step_resume (h : planStep w (.resume i input) = some w') :
    exists r next, w.resumes[i]? = some r ∧ r.step w.row input = some next ∧
      w' = { w with
        row := next.row
        resumes := w.resumes.set i next.resume
        drivers :=
          if next.spawned then w.drivers ++ [.fresh] else w.drivers } := by
  simp only [planStep] at h
  split at h
  · cases h
  · rename_i r hr
    split at h
    · cases h
    · rename_i next hnext
      exact ⟨r, next, hr, hnext, (Option.some.inj h).symm⟩

theorem PlanWorld.step_stop {fault : Option CoreError} (h : planStep w (.stop i fault) = some w') :
    exists s next, w.stops[i]? = some s ∧ s.step w.row fault = some next ∧
      w' = { w with
        row := next.row
        stops := w.stops.set i next.stop } := by
  simp only [planStep] at h
  split at h
  · cases h
  · rename_i s hs
    split at h
    · cases h
    · rename_i next hnext
      exact ⟨s, next, hs, hnext, (Option.some.inj h).symm⟩

end WorkGraph
end Perpetual
