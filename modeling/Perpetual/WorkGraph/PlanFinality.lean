import Perpetual.WorkGraph.PlanSteps
import Perpetual.Foundation.Cells

/-!
# Ended plan runs stay ended

The statements that write the progress of a run and that cancel it have no
condition on the stored state.  A driver in the middle of a turn still starts
nodes and ends the turn with such a write.  The end of a run is final in every
run of the machine in which it is written while no other driver is in the middle
of a turn; a stop that lands in the middle of a turn is undone.
-/

namespace Perpetual
namespace WorkGraph

open Foundation

def PlanWorld.state (w : PlanWorld) : Option WorkPlanRunState :=
  w.row.map PlanRow.state

/-- A driver ends the run only while no other driver is in the middle of a turn;
a stop cancels it only while no driver is, and only when the run has not ended
otherwise. -/
def EndsBetweenTurns (w : PlanWorld) : PlanAction -> Prop
  | .driver i .tick =>
      match w.drivers[i]? with
      | some (.writing progress) =>
          IsTerminal progress.state ->
            forall d, d ∈ w.drivers.eraseIdx i -> d.midTurn = false
      | _ => True
  | .stop i none =>
      match w.stops[i]? with
      | some .cancelling =>
          (forall d, d ∈ w.drivers -> d.midTurn = false) ∧
            w.state ≠ some .completed ∧
            w.state ≠ some .failed
      | _ => True
  | _ => True

instance (w : PlanWorld) (a : PlanAction) : Decidable (EndsBetweenTurns w a) := by
  induction a using PlanAction.casesOn with
  | driver i input =>
      induction input using DriverInput.casesOn with
      | tick =>
          dsimp only [EndsBetweenTurns]
          split <;> infer_instance
      | _ =>
          dsimp only [EndsBetweenTurns]
          infer_instance
  | stop i fault =>
      induction fault using Option.casesOn with
      | none =>
          dsimp only [EndsBetweenTurns]
          split <;> infer_instance
      | some error =>
          dsimp only [EndsBetweenTurns]
          infer_instance
  | _ =>
      dsimp only [EndsBetweenTurns]
      infer_instance

def Stop.pastCancel : Stop -> Bool
  | .stoppingNodes => true
  | .returned => true
  | _ => false

/-- No driver is in the middle of a turn of a run that has ended, and a stop
past its write has ended the run. -/
structure TurnsOpen (w : PlanWorld) : Prop where
  midTurn : forall (i : Nat) (d : Driver), w.drivers[i]? = some d ->
    d.midTurn = true -> exists state, w.state = some state ∧ ¬ IsTerminal state
  stopped : forall (i : Nat) (s : Stop), w.stops[i]? = some s ->
    s.pastCancel = true -> w.state = some .cancelled

variable {w : PlanWorld} {state : WorkPlanRunState} {i : Nat} {d : Driver}

theorem TurnsOpen.between (h : TurnsOpen w) (hstate : w.state = some state)
    (hterminal : IsTerminal state)
    (hd : w.drivers[i]? = some d) : d.midTurn = false := by
  cases hmid : d.midTurn with
  | false => rfl
  | true =>
      rcases h.midTurn i d hd hmid with ⟨state', hstate', hopen⟩
      rw [hstate] at hstate'
      rw [Option.some.inj hstate'] at hterminal
      exact absurd hterminal hopen

theorem mem_eraseIdx_of_ne {l : List Driver} {j : Nat}
    (hd : l[j]? = some d) (hij : j ≠ i) : d ∈ l.eraseIdx i :=
  List.mem_eraseIdx_iff_getElem?.mpr ⟨j, hij, hd⟩

theorem midTurn_of_spawn {drivers : List Driver} {spawned : Bool}
    (hd : (if spawned then drivers ++ [.fresh] else drivers)[i]? = some d)
    (hmid : d.midTurn = true) : drivers[i]? = some d := by
  cases spawned with
  | false => exact hd
  | true =>
      rcases Cells.getElem?_concat_cases hd with hold | ⟨_, hfresh⟩
      · exact hold
      · rw [hfresh] at hmid
        cases hmid

variable {w' : PlanWorld}

theorem TurnsOpen.driver (h : TurnsOpen w)
    {input : DriverInput} (hok : EndsBetweenTurns w (.driver i input))
    (hstep : planStep w (.driver i input) = some w') : TurnsOpen w' := by
  rcases PlanWorld.step_driver hstep with ⟨d, next, hd, hnext, hw'⟩
  rw [hw']
  rcases Driver.step_cases hnext with
    ⟨_, hrow, _, hbegin⟩ | ⟨hmid, hrow⟩ | ⟨progress, hdw, hinput, hrow, _, hend⟩
  · -- Between turns: the row is untouched, and a turn begins on a running run.
    constructor
    · intro j e he hmid
      show exists state, next.row.map PlanRow.state = some state ∧ ¬ IsTerminal state
      rw [hrow]
      rcases Cells.getElem?_set_cases he with ⟨_, heq⟩ | ⟨_, hold⟩
      · rw [heq] at hmid
        rcases hbegin with hbegin | hrunning
        · rw [hbegin] at hmid
          cases hmid
        · exact ⟨_, hrunning, not_terminal_running⟩
      · exact h.midTurn j e hold hmid
    · intro j s hs hpast
      show next.row.map PlanRow.state = some .cancelled
      rw [hrow]
      exact h.stopped j s hs hpast
  · -- Inside the turn: the state is untouched, and it was open.
    constructor
    · intro j e he hmid'
      show exists state, next.row.map PlanRow.state = some state ∧ ¬ IsTerminal state
      rw [hrow]
      exact h.midTurn i d hd hmid
    · intro j s hs hpast
      show next.row.map PlanRow.state = some .cancelled
      rw [hrow]
      exact h.stopped j s hs hpast
  · -- The write that ends the turn.
    have hmid : d.midTurn = true := by
      rw [hdw]
      rfl
    rcases h.midTurn i d hd hmid with ⟨state, hstate, hopen⟩
    have hstate' : next.row.map PlanRow.state = some progress.state := by
      rw [hrow, updatePlanRunProgress_state]
      cases hplan : w.row with
      | none =>
          unfold PlanWorld.state at hstate
          rw [hplan] at hstate
          cases hstate
      | some plan => rfl
    constructor
    · intro j e he hmid'
      refine ⟨progress.state, hstate', ?_⟩
      rcases Cells.getElem?_set_cases he with ⟨_, heq⟩ | ⟨hji, hold⟩
      · rw [heq, hend] at hmid'
        cases hmid'
      · intro hterminal
        unfold EndsBetweenTurns at hok
        rw [hinput] at hok
        simp only [hd, hdw] at hok
        have hbetween := hok hterminal e (mem_eraseIdx_of_ne hold hji)
        rw [hbetween] at hmid'
        cases hmid'
    · intro j s hs hpast
      have hcancelled := h.stopped j s hs hpast
      rw [hstate] at hcancelled
      rw [Option.some.inj hcancelled] at hopen
      exact absurd (.inr (.inr rfl)) hopen

theorem TurnsOpen.resume (h : TurnsOpen w) {input : ResumeInput}
    (hstep : planStep w (.resume i input) = some w') : TurnsOpen w' := by
  rcases PlanWorld.step_resume hstep with ⟨r, next, hr, hnext, hw'⟩
  rw [hw']
  rcases Resume.step_state hnext with hrow | ⟨hpaused, hrunning⟩
  · constructor
    · intro j e he hmid
      show exists state, next.row.map PlanRow.state = some state ∧ ¬ IsTerminal state
      rw [hrow]
      exact h.midTurn j e (midTurn_of_spawn he hmid) hmid
    · intro j s hs hpast
      show next.row.map PlanRow.state = some .cancelled
      rw [hrow]
      exact h.stopped j s hs hpast
  · constructor
    · intro j e he hmid
      exact ⟨_, hrunning, not_terminal_running⟩
    · intro j s hs hpast
      have hcancelled := h.stopped j s hs hpast
      rw [show w.state = some WorkPlanRunState.paused from hpaused] at hcancelled
      cases hcancelled

theorem TurnsOpen.stop (h : TurnsOpen w)
    {fault : Option CoreError} (hok : EndsBetweenTurns w (.stop i fault))
    (hstep : planStep w (.stop i fault) = some w') : TurnsOpen w' := by
  rcases PlanWorld.step_stop hstep with ⟨s, next, hs, hnext, hw'⟩
  rw [hw']
  rcases Stop.step_cases hnext with
    ⟨hcancelling, hfault, _, hcancelled⟩ | ⟨hrow, error, hfailed⟩ | ⟨hrow, hnodes, _⟩
  · unfold EndsBetweenTurns at hok
    rw [hfault] at hok
    simp only [hs, hcancelling] at hok
    constructor
    · intro j e he hmid
      have hbetween := hok.left e (List.mem_of_getElem? he)
      rw [hbetween] at hmid
      cases hmid
    · intro j s' hs' hpast
      exact hcancelled
  · constructor
    · intro j e he hmid
      rw [hrow]
      exact h.midTurn j e he hmid
    · intro j s' hs' hpast
      rw [hrow]
      rcases Cells.getElem?_set_cases hs' with ⟨_, heq⟩ | ⟨_, hold⟩
      · rw [heq, hfailed] at hpast
        cases hpast
      · exact h.stopped j s' hold hpast
  · constructor
    · intro j e he hmid
      rw [hrow]
      exact h.midTurn j e he hmid
    · intro j s' hs' hpast
      rw [hrow]
      exact h.stopped i s hs (by rw [hnodes]; rfl)

theorem TurnsOpen.step {a : PlanAction} (h : TurnsOpen w)
    (hok : EndsBetweenTurns w a) (hstep : planStep w a = some w') : TurnsOpen w' := by
  cases a with
  | run graph effectiveCapacity options =>
      simp only [planStep] at hstep
      split at hstep
      · rename_i row hnone _
        rw [← Option.some.inj hstep]
        constructor
        · intro j e he hmid
          rcases h.midTurn j e he hmid with ⟨state, hstate, _⟩
          unfold PlanWorld.state at hstate
          rw [hnone] at hstate
          cases hstate
        · intro j s hs hpast
          have hcancelled := h.stopped j s hs hpast
          unfold PlanWorld.state at hcancelled
          rw [hnone] at hcancelled
          cases hcancelled
      · cases hstep
  | launch recorded =>
      simp only [planStep] at hstep
      split at hstep
      · rw [← Option.some.inj hstep]
        exact ⟨fun j e he hmid => h.midTurn j e (midTurn_of_spawn he hmid) hmid, h.stopped⟩
      · cases hstep
  | callResume caller =>
      simp only [planStep] at hstep
      split at hstep
      · rw [← Option.some.inj hstep]
        exact ⟨h.midTurn, h.stopped⟩
      · cases hstep
  | callStop =>
      rw [← Option.some.inj hstep]
      refine ⟨h.midTurn, fun j s hs hpast => ?_⟩
      rcases Cells.getElem?_concat_cases hs with hold | ⟨_, hnew⟩
      · exact h.stopped j s hold hpast
      · rw [hnew] at hpast
        cases hpast
  | driver i input => exact h.driver hok hstep
  | resume i input => exact h.resume hstep
  | stop i fault => exact h.stop hok hstep

/-!
## Runs that have ended
-/

theorem TurnsOpen.ended {a : PlanAction} (h : TurnsOpen w)
    (hok : EndsBetweenTurns w a) (hstep : planStep w a = some w') (hstate : w.state = some state)
    (hterminal : IsTerminal state) :
    w'.state = some state ∧ w'.started = w.started := by
  cases a with
  | run graph effectiveCapacity options =>
      simp only [planStep] at hstep
      split at hstep
      · rename_i row hnone _
        unfold PlanWorld.state at hstate
        rw [hnone] at hstate
        cases hstate
      · cases hstep
  | launch recorded =>
      simp only [planStep] at hstep
      split at hstep
      · rw [← Option.some.inj hstep]
        exact ⟨hstate, rfl⟩
      · cases hstep
  | callResume caller =>
      simp only [planStep] at hstep
      split at hstep
      · rw [← Option.some.inj hstep]
        exact ⟨hstate, rfl⟩
      · cases hstep
  | callStop =>
      rw [← Option.some.inj hstep]
      exact ⟨hstate, rfl⟩
  | driver i input =>
      rcases PlanWorld.step_driver hstep with ⟨d, next, hd, hnext, hw'⟩
      have hbetween := h.between hstate hterminal hd
      rw [hw']
      rcases Driver.step_cases hnext with
        ⟨_, hrow, hstarted, _⟩ | ⟨hmid, _⟩ | ⟨progress, hdw, _⟩
      · constructor
        · show next.row.map PlanRow.state = some state
          rw [hrow]
          exact hstate
        · show w.started ++ next.started = w.started
          rw [hstarted, List.append_nil]
      · rw [hbetween] at hmid
        cases hmid
      · rw [hdw] at hbetween
        cases hbetween
  | resume i input =>
      rcases PlanWorld.step_resume hstep with ⟨r, next, hr, hnext, hw'⟩
      rw [hw']
      refine ⟨?_, rfl⟩
      show next.row.map PlanRow.state = some state
      rcases Resume.step_state hnext with hrow | ⟨hpaused, _⟩
      · rw [hrow]
        exact hstate
      · rw [show w.state = some .paused from hpaused] at hstate
        rw [← Option.some.inj hstate] at hterminal
        exact absurd hterminal not_terminal_paused
  | stop i fault =>
      rcases PlanWorld.step_stop hstep with ⟨s, next, hs, hnext, hw'⟩
      rw [hw']
      refine ⟨?_, rfl⟩
      show next.row.map PlanRow.state = some state
      rcases Stop.step_cases hnext with
        ⟨hcancelling, hfault, _, hcancelled⟩ | ⟨hrow, _⟩ | ⟨hrow, _⟩
      · -- The run was cancelled before: it has not ended otherwise.
        unfold EndsBetweenTurns at hok
        rw [hfault] at hok
        simp only [hs, hcancelling] at hok
        rw [hcancelled]
        rcases hterminal with heq | heq | heq
        · rw [heq] at hstate
          exact absurd hstate hok.right.left
        · rw [heq] at hstate
          exact absurd hstate hok.right.right
        · rw [heq]
      · rw [hrow]
        exact hstate
      · rw [hrow]
        exact hstate

theorem turnsOpen_start : TurnsOpen noPlan := by
  constructor
  · intro i d hd
    cases hd
  · intro i s hs
    cases hs

theorem turnsOpen_of_reachable
    (h : planMachine.ReachableUnder EndsBetweenTurns w) : TurnsOpen w := by
  refine h.invariant ?_ (fun _ _ _ hw hok hstep => hw.step hok hstep)
  intro w hw
  rw [show w = noPlan from hw]
  exact turnsOpen_start

theorem TurnsOpen.ended_run (h : TurnsOpen w) (hrun : planMachine.Steps EndsBetweenTurns w w')
    (hstate : w.state = some state) (hterminal : IsTerminal state) :
    w'.state = some state ∧ w'.started = w.started := by
  have hall := Machine.Steps.invariant
    (P := fun t => TurnsOpen t ∧ t.state = some state ∧ t.started = w.started)
    ?_ hrun ⟨h, hstate, rfl⟩
  · exact hall.right
  · rintro s a t ⟨hopen, hs, hstarted⟩ hok hstep
    rcases hopen.ended hok hstep hs hterminal with ⟨ht, hstarted'⟩
    exact ⟨hopen.step hok hstep, ht, hstarted'.trans hstarted⟩

/-- In every run whose ends are written between turns, the state of a run that
has ended never changes, and after a stop has returned no node is started. -/
theorem ended_plan_is_final {w w' : PlanWorld} (h : planMachine.ReachableUnder EndsBetweenTurns w)
    (hrun : planMachine.Steps EndsBetweenTurns w w') :
    (forall state, w.state = some state -> IsTerminal state ->
      w'.state = some state) ∧
    (forall i : Nat, w.stops[i]? = some Stop.returned -> w'.started = w.started) := by
  have hopen := turnsOpen_of_reachable h
  constructor
  · intro state hstate hterminal
    exact (hopen.ended_run hrun hstate hterminal).left
  · intro i hstop
    have hcancelled := hopen.stopped i Stop.returned hstop rfl
    exact (hopen.ended_run hrun hcancelled (Or.inr (Or.inr rfl))).right

def manualOptions : PlanOptions :=
  { gateMode := .manual
    maxActiveRuns := some 1
    failureMode := .halt
    maxNodeRetries := 0 }

def plainAnswers : GateAnswers :=
  { evaluate := fun _ => some .pass
    updates := fun _ => true
    records := fun _ => true
    names := fun _ => true }

/-- A run of the project whose first driver has checked the state and the graph
and is about to start the task. -/
def upToStart : List PlanAction :=
  [.run (taskGraph .draft) 2 manualOptions, .launch true,
    .driver 0 .tick,
    .driver 0 (.graph (.ok (taskGraph .draft))),
    .driver 0 (.gates plainAnswers)]

/-- The task is started and attached, and the turn is written. -/
def startAndWrite : List PlanAction :=
  [.driver 0 (.start (.ok ())),
    .driver 0 .tick, .driver 0 .tick]

def stopWorkPlan : List PlanAction :=
  [.callStop, .stop 0 none, .stop 0 none]

/-- A stop between two turns: the driver notices at its next check. -/
theorem ended_plan_is_final_stopAsleep :
    exists w w', planMachine.ReachableUnder EndsBetweenTurns w ∧
      planMachine.Steps EndsBetweenTurns w w' ∧
      w.state = some WorkPlanRunState.cancelled ∧
      w.stops[0]? = some Stop.returned ∧ w.started = ["a"] ∧
      w'.state = some WorkPlanRunState.cancelled ∧ w'.started = w.started := by
  have hrun : Option.any
      (fun w => decide (w.state = some WorkPlanRunState.cancelled ∧
        w.stops[0]? = some Stop.returned ∧ w.started = ["a"] ∧
        (planMachine.runUnder EndsBetweenTurns w
          [PlanAction.driver 0 DriverInput.tick,
            PlanAction.driver 0 DriverInput.tick]).isSome = true))
      (planMachine.runUnder EndsBetweenTurns noPlan
        (upToStart ++ startAndWrite ++ stopWorkPlan)) = true := by decide +kernel
  rcases planMachine.exists_reachable_of_runUnder rfl hrun with ⟨w, hw, hp⟩
  rcases of_decide_eq_true hp with ⟨hstate, hstop, hstarted, hsome⟩
  rcases Option.isSome_iff_exists.mp hsome with ⟨w', hw'⟩
  have hsteps := planMachine.steps_of_runUnder hw'
  rcases ended_plan_is_final hw hsteps with ⟨hfinal, hnone⟩
  exact ⟨w, w', hw, hsteps, hstate, hstop, hstarted,
    hfinal _ hstate (Or.inr (Or.inr rfl)), hnone 0 hstop⟩

/-- A stop in the middle of a turn: after it has returned the driver starts the
task and writes the run as running again. -/
theorem stop_inside_turn_is_undone :
    exists w w', planMachine.Reachable w ∧
      planMachine.Steps Machine.anyStep w w' ∧
      w.state = some WorkPlanRunState.cancelled ∧
      w.stops[0]? = some Stop.returned ∧ w.started = [] ∧
      w'.state = some WorkPlanRunState.running ∧ w'.started = ["a"] := by
  have hrun : Option.any
      (fun w => decide (w.state = some WorkPlanRunState.cancelled ∧
        w.stops[0]? = some Stop.returned ∧ w.started = [] ∧
        Option.any
          (fun w' => decide (w'.state = some WorkPlanRunState.running ∧
            w'.started = ["a"]))
          (planMachine.runFrom w startAndWrite) = true))
      (planMachine.runFrom noPlan (upToStart ++ stopWorkPlan)) = true := by
    decide +kernel
  rcases planMachine.exists_reachable_of_runFrom rfl hrun with ⟨w, hw, hp⟩
  rcases of_decide_eq_true hp with ⟨hstate, hstop, hstarted, hrest⟩
  rcases (Option.any_eq_true _ _).mp hrest with ⟨w', hw', hp'⟩
  rcases of_decide_eq_true hp' with ⟨hstate', hstarted'⟩
  exact ⟨w, w', hw, planMachine.steps_of_runFrom hw', hstate, hstop, hstarted, hstate', hstarted'⟩

end WorkGraph
end Perpetual
