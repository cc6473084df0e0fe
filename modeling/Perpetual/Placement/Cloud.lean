import Perpetual.Launch.Apart
import Perpetual.Placement.Runs

/-!
# Local runs and cloud runs

The starts of threads beside the hand-off to the provider's cloud, the monitor of
the cloud runs and their reclaim.  A hand-off stops the local session, pushes a
checkpoint, launches the provider's run, and only then inserts the row that a
local start looks for.  The monitor works on a row it has read before it asked the
provider, and its updates name the row by its id alone.
-/

namespace Perpetual
namespace Placement

open Foundation
open Launch (LaunchPc Call Input Clearance Advance Apart)

namespace Cloud

/-- A row of the cloud runs, in the order of their launch.  A row is named by its
place. -/
structure CloudRun where
  threadId : String
  status : RunStatus
deriving DecidableEq, Repr

/-- How far a hand-off is; its `preflight` is everything between the look at the
cloud runs and the stop of the local session. -/
inductive HandoffStage where
  | waitingGate
  | checkingRuns
  | preflight
  | stoppingLocal
  | settling
  | checkpoint
  | launching
  | recording
  | saving
  | finished
deriving DecidableEq, Repr

structure Handoff where
  threadId : String
  policy : CloudPolicy
  stage : HandoffStage
deriving DecidableEq, Repr

/-- A pass of the monitor over one run, with the status it read; a reclaim by the
user begins as `reclaiming`. -/
inductive MonitorStage where
  | polling
  | reclaiming
  | finished
deriving DecidableEq, Repr

structure Monitor where
  run : Nat
  seen : RunStatus
  stage : MonitorStage
deriving DecidableEq, Repr

/-- What a poll comes to: the provider's run is over, it is reported running,
nothing was heard of it for too long, or there is nothing to do. -/
inductive Poll where
  | over
  | running
  | stalled
  | quiet
deriving DecidableEq, Repr

inductive Closing where
  | failed
  | expired
  | reclaimed
deriving DecidableEq, Repr

def Closing.status : Closing -> RunStatus
  | failed => .failed
  | expired => .expired
  | reclaimed => .reclaimed

structure World where
  starts : Launch.World
  runs : List CloudRun
  gateHeld : Bool
  handoffs : List Handoff
  monitors : List Monitor

def World.new : World :=
  { starts := Launch.World.new
    runs := []
    gateHeld := false
    handoffs := []
    monitors := [] }

inductive Action where
  | start (a : Launch.Action)
  | handoff (threadId : String) (policy : CloudPolicy)
  | advance (handoff : Nat) (input : Input)
  | observe (run : Nat)
  | reclaim (threadId : String)
  | poll (monitor : Nat) (answer : Poll)
  | close (monitor : Nat) (closing : Closing)
deriving DecidableEq, Repr

def World.activeForThread (w : World) (threadId : String) : Option Nat :=
  Placement.activeForThread CloudRun.threadId CloudRun.status w.runs threadId

/-- A start that finds an active cloud run returns an error. -/
def World.answered (w : World) (a : Launch.Action) : Launch.Action :=
  match a with
  | .step i .tick =>
      match w.starts.calls[i]? with
      | some call =>
          if (call.pc = .checkingCloud ∨ call.pc = .editing) ∧
              (w.activeForThread call.thread).isSome = true then
            .step i .refuse
          else a
      | none => a
  | _ => a

def World.setHandoff (w : World) (k : Nat) (h : Handoff) (stage : HandoffStage) :
    World :=
  { w with handoffs := w.handoffs.set k { h with stage := stage } }

def World.finish (w : World) (k : Nat) (h : Handoff) : World :=
  { w.setHandoff k h .finished with gateHeld := false }

def World.activeRuns (w : World) : Nat :=
  Placement.activeRuns CloudRun.status w.runs

/-- Under the gate: the policy, a run of the thread that is already active, and
the cap. -/
def World.checkRuns (w : World) (k : Nat) (h : Handoff) : World :=
  if !h.policy.enabled || (w.activeForThread h.threadId).isSome ||
      decide (h.policy.maxConcurrentCloudRuns ≤ w.activeRuns) then
    w.finish k h
  else w.setHandoff k h .preflight

/-- A refused step is an error.  The wait for the cancelled session times out
only while the registry still has its entry. -/
def World.advance (w : World) (k : Nat) (h : Handoff) (input : Input) :
    Option World :=
  match h.stage, input with
  | .waitingGate, .tick =>
      if w.gateHeld then none
      else some { w.setHandoff k h .checkingRuns with gateHeld := true }
  | .checkingRuns, .tick => some (w.checkRuns k h)
  | .preflight, .tick =>
      some (w.setHandoff k h .stoppingLocal)
  | .stoppingLocal, .tick =>
      some (w.setHandoff k h
        (if w.starts.isActive h.threadId then .settling
          else .checkpoint))
  | .settling, .tick =>
      if w.starts.isActive h.threadId then none
      else some (w.setHandoff k h .checkpoint)
  | .settling, .refuse =>
      if w.starts.isActive h.threadId then some (w.finish k h) else none
  | .checkpoint, .tick =>
      some (w.setHandoff k h .launching)
  | .launching, .tick =>
      some (w.setHandoff k h .recording)
  | .recording, .tick =>
      some
        { w.setHandoff k h .saving with
          runs :=
            w.runs ++
              [{ threadId := h.threadId, status := .provisioning }] }
  | .saving, .tick => some (w.finish k h)
  | .waitingGate, _ => none
  | .finished, _ => none
  | _, .refuse => some (w.finish k h)
  | _, _ => none

def World.setMonitor (w : World) (m : Nat) (mon : Monitor) (stage : MonitorStage) :
    World :=
  { w with monitors := w.monitors.set m { mon with stage := stage } }

/-- `set_status` and `close`: an update by id. -/
def World.setStatus (w : World) (r : Nat) (status : RunStatus) : World :=
  match w.runs[r]? with
  | some run => { w with runs := w.runs.set r { run with status := status } }
  | none => w

/-- A run reported running is marked so unless it was read so; a stalled run is
marked and reclaimed. -/
def World.poll (w : World) (m : Nat) (mon : Monitor) (answer : Poll) :
    Option World :=
  match mon.stage, answer with
  | .polling, .over =>
      some (w.setMonitor m mon .reclaiming)
  | .polling, .running =>
      if mon.seen = .running then
        some (w.setMonitor m mon .finished)
      else
        some ((w.setStatus mon.run .running).setMonitor m mon
          .finished)
  | .polling, .stalled =>
      some ((w.setStatus mon.run .stalled).setMonitor m mon
        .reclaiming)
  | .polling, .quiet =>
      some (w.setMonitor m mon .finished)
  | _, _ => none

def World.close (w : World) (m : Nat) (mon : Monitor) (closing : Closing) :
    Option World :=
  match mon.stage with
  | .reclaiming =>
      some ((w.setStatus mon.run closing.status).setMonitor m mon
        .finished)
  | _ => none

def World.addMonitor (w : World) (r : Nat) (stage : MonitorStage) : Option World :=
  match w.runs[r]? with
  | some run =>
      some
        { w with
          monitors :=
            w.monitors ++ [{ run := r, seen := run.status, stage := stage }] }
  | none => none

def step (w : World) : Action -> Option World
  | .start a =>
      (Launch.step w.starts (w.answered a)).map
        (fun starts => { w with starts := starts })
  | .handoff threadId policy =>
      some
        { w with
          handoffs :=
            w.handoffs ++
              [{ threadId := threadId
                 policy := policy
                 stage := .waitingGate }] }
  | .advance k input =>
      match w.handoffs[k]? with
      | some h => w.advance k h input
      | none => none
  | .observe r =>
      if w.runs[r]?.any (fun run => run.status.isActive) then
        w.addMonitor r .polling
      else none
  | .reclaim threadId =>
      match w.activeForThread threadId with
      | some r => w.addMonitor r .reclaiming
      | none => none
  | .poll m answer =>
      match w.monitors[m]? with
      | some mon => w.poll m mon answer
      | none => none
  | .close m closing =>
      match w.monitors[m]? with
      | some mon => w.close m mon closing
      | none => none

def machine : Machine World Action where
  start := fun w => w = World.new
  step := step

def ActiveRun (runs : List CloudRun) (thread : String) : Prop :=
  exists run, run ∈ runs ∧ run.threadId = thread ∧ run.status.isActive = true

instance (runs : List CloudRun) (thread : String) :
    Decidable (ActiveRun runs thread) :=
  inferInstanceAs (Decidable (exists run, run ∈ runs ∧ _))

variable {w : World} {thread : String}

theorem World.activeForThread_isSome :
    (w.activeForThread thread).isSome = true <-> ActiveRun w.runs thread :=
  Placement.activeForThread_isSome CloudRun.threadId CloudRun.status

theorem ActiveRun.of_concat {runs : List CloudRun} {run : CloudRun} (h : ActiveRun (runs ++ [run]) thread) :
    ActiveRun runs thread ∨ run.threadId = thread := by
  rcases h with ⟨r, hr, hthread, hactive⟩
  rcases List.mem_append.mp hr with hr | hr
  · exact .inl ⟨r, hr, hthread, hactive⟩
  · rw [List.mem_singleton] at hr
    rw [hr] at hthread
    exact .inr hthread

theorem ActiveRun.of_setStatus {r : Nat} {status : RunStatus} (h : ActiveRun (w.setStatus r status).runs thread) :
    ActiveRun w.runs thread ∨
      (status.isActive = true ∧ exists run, w.runs[r]? = some run ∧
        run.threadId = thread ∧ run.status.isActive = false) := by
  unfold World.setStatus at h
  split at h
  · rename_i run hrun
    rcases h with ⟨other, hother, hthread, hactive⟩
    rcases List.mem_iff_getElem?.mp hother with ⟨j, hj⟩
    rcases Cells.getElem?_set_cases hj with ⟨_, heq⟩ | ⟨_, hj⟩
    · rw [heq] at hthread hactive
      cases hbefore : run.status.isActive with
      | true =>
          exact .inl ⟨run, List.mem_of_getElem? hrun, hthread, hbefore⟩
      | false => exact .inr ⟨hactive, run, hrun, hthread, hbefore⟩
    · exact .inl ⟨other, List.mem_of_getElem? hj, hthread, hactive⟩
  · exact .inl h

def clearance : Clearance where
  check := .checkingCloud
  cleared := fun pc =>
    match pc with
    | .preparing => true
    | .launching => true
    | .registering _ => true
    | _ => false
  entered := by
    intro pc pc' input hadvance hcleared
    cases hadvance with
    | cloud => exact .inr ⟨rfl, rfl⟩
    | prepare => exact .inl rfl
    | launch c => exact .inl rfl
    | look => cases hcleared
    | acquire _ hpc =>
        rcases hpc with hpc | hpc <;> rw [hpc] at hcleared <;> cases hcleared
    | edit => cases hcleared
    | assignment => cases hcleared
    | registry => cases hcleared
    | store message => cases hcleared
    | retry => cases hcleared
    | leave _ _ _ hpc =>
        rcases hpc with hpc | hpc <;> rw [hpc] at hcleared <;> cases hcleared
  fresh := rfl
  launches := rfl

/-- The answer of the provider makes the monitor write a status. -/
def Monitor.writes (mon : Monitor) : Poll -> Bool
  | .running => mon.seen != .running
  | .stalled => true
  | _ => false

/-- A run is recorded only for a thread without a live session and without a start
past its cloud check, and the monitor writes a status only to a run that is still
active, unless its thread is as idle. -/
def Separate (w : World) : Action -> Prop
  | .advance k .tick =>
      forall h, h ∈ w.handoffs[k]? -> h.stage = .recording ->
        w.starts.Idle clearance h.threadId
  | .poll m answer =>
      forall mon, mon ∈ w.monitors[m]? -> mon.writes answer = true ->
        forall run, run ∈ w.runs[mon.run]? -> run.status.isActive = false ->
          w.starts.Idle clearance run.threadId
  | _ => True

instance (w : World) (a : Action) : Decidable (Separate w a) := by
  unfold Separate
  split <;> infer_instance

theorem answered_tick {a : Launch.Action} {i : Nat} {call : Call}
    (ha : w.answered a = .step i .tick) (hcall : w.starts.calls[i]? = some call)
    (hpc : call.pc = .checkingCloud) :
    ¬ ActiveRun w.runs call.thread := by
  intro hactive
  have hsame : a = .step i .tick := by
    unfold World.answered at ha
    split at ha
    · split at ha
      · split at ha
        · cases ha
        · exact ha
      · exact ha
    · exact ha
  rw [hsame] at ha
  have hsome := World.activeForThread_isSome.mpr hactive
  simp [World.answered, hcall, hpc, hsome] at ha

theorem checkRuns_runs (w : World) (k : Nat) (h : Handoff) :
    (w.checkRuns k h).starts = w.starts ∧ (w.checkRuns k h).runs = w.runs := by
  unfold World.checkRuns
  split
  · exact ⟨rfl, rfl⟩
  · exact ⟨rfl, rfl⟩

variable {w' : World}

theorem advance_runs {k : Nat} {h : Handoff} {input : Input} (hw : w.advance k h input = some w') :
    w'.starts = w.starts ∧
      (w'.runs = w.runs ∨
        h.stage = .recording ∧ input = .tick ∧
          w'.runs =
            w.runs ++
              [{ threadId := h.threadId, status := .provisioning }]) := by
  unfold World.advance at hw
  split at hw
  case h_1 =>
      split at hw
      · cases hw
      · cases hw
        exact ⟨rfl, .inl rfl⟩
  case h_2 =>
      cases hw
      rcases checkRuns_runs w k h with ⟨hstarts, hruns⟩
      exact ⟨hstarts, .inl hruns⟩
  case h_5 =>
      split at hw
      · cases hw
      · cases hw
        exact ⟨rfl, .inl rfl⟩
  case h_6 =>
      split at hw
      · cases hw
        exact ⟨rfl, .inl rfl⟩
      · cases hw
  case h_9 hstage =>
      cases hw
      exact ⟨rfl, .inr ⟨hstage, rfl, rfl⟩⟩
  case h_11 => cases hw
  case h_12 => cases hw
  case h_14 => cases hw
  all_goals
    cases hw
    exact ⟨rfl, .inl rfl⟩

theorem setStatus_starts (w : World) (r : Nat) (status : RunStatus) :
    (w.setStatus r status).starts = w.starts := by
  unfold World.setStatus
  split
  · rfl
  · rfl

theorem poll_runs {m : Nat} {mon : Monitor} {answer : Poll} (hw : w.poll m mon answer = some w') :
    w'.starts = w.starts ∧
      (w'.runs = w.runs ∨
        mon.writes answer = true ∧
          exists status, w'.runs = (w.setStatus mon.run status).runs) := by
  unfold World.poll at hw
  split at hw
  · cases hw
    exact ⟨rfl, .inl rfl⟩
  · split at hw
    · cases hw
      exact ⟨rfl, .inl rfl⟩
    · rename_i hseen
      cases hw
      refine ⟨setStatus_starts w _ _, .inr ⟨?_, .running, rfl⟩⟩
      simpa [Monitor.writes] using hseen
  · cases hw
    exact ⟨setStatus_starts w _ _, .inr ⟨rfl, .stalled, rfl⟩⟩
  · cases hw
    exact ⟨rfl, .inl rfl⟩
  · cases hw

theorem addMonitor_runs {r : Nat} {stage : MonitorStage} (hw : w.addMonitor r stage = some w') :
    w'.starts = w.starts ∧ w'.runs = w.runs := by
  unfold World.addMonitor at hw
  split at hw
  · cases hw
    exact ⟨rfl, rfl⟩
  · cases hw

theorem close_runs {m : Nat} {mon : Monitor} {closing : Closing}
    (hw : w.close m mon closing = some w') :
    w'.starts = w.starts ∧
      forall thread, ActiveRun w'.runs thread -> ActiveRun w.runs thread := by
  unfold World.close at hw
  split at hw
  · cases hw
    refine ⟨setStatus_starts w _ _, ?_⟩
    intro thread hactive
    rcases ActiveRun.of_setStatus hactive with hold | ⟨hstatus, _⟩
    · exact hold
    · cases closing <;> cases hstatus
  · cases hw

theorem step_runs {a : Action} (hok : Separate w a)
    (h : step w a = some w') (hstart : forall b, a ≠ .start b) :
    w'.starts = w.starts ∧
      forall thread, ActiveRun w'.runs thread ->
        ActiveRun w.runs thread ∨ w.starts.Idle clearance thread := by
  cases a with
  | start b => exact absurd rfl (hstart b)
  | handoff threadId policy =>
      cases h
      exact ⟨rfl, fun _ hactive => .inl hactive⟩
  | advance k input =>
      simp only [step] at h
      split at h
      · rename_i ho hho
        rcases advance_runs h with ⟨hstarts, hruns | ⟨hstage, hinput, hruns⟩⟩
        · rw [hruns]
          exact ⟨hstarts, fun _ hactive => .inl hactive⟩
        · refine ⟨hstarts, ?_⟩
          intro thread hactive
          rw [hruns] at hactive
          rw [hinput] at hok
          rcases hactive.of_concat with hold | hnew
          · exact .inl hold
          · rw [← hnew]
            exact .inr (hok ho hho hstage)
      · cases h
  | observe r =>
      simp only [step] at h
      split at h
      · rcases addMonitor_runs h with ⟨hstarts, hruns⟩
        rw [hruns]
        exact ⟨hstarts, fun _ hactive => .inl hactive⟩
      · cases h
  | reclaim threadId =>
      simp only [step] at h
      split at h
      · rcases addMonitor_runs h with ⟨hstarts, hruns⟩
        rw [hruns]
        exact ⟨hstarts, fun _ hactive => .inl hactive⟩
      · cases h
  | poll m answer =>
      simp only [step] at h
      split at h
      · rename_i mon hmon
        rcases poll_runs h with ⟨hstarts, hruns | ⟨hwrites, status, hruns⟩⟩
        · rw [hruns]
          exact ⟨hstarts, fun _ hactive => .inl hactive⟩
        · refine ⟨hstarts, ?_⟩
          intro thread hactive
          rw [hruns] at hactive
          rcases ActiveRun.of_setStatus hactive with hold | ⟨_, run, hrun, hthread, hdead⟩
          · exact .inl hold
          · rw [← hthread]
            exact .inr (hok mon hmon hwrites run hrun hdead)
      · cases h
  | close m closing =>
      simp only [step] at h
      split at h
      · rcases close_runs h with ⟨hstarts, hruns⟩
        exact ⟨hstarts, fun thread hactive => .inl (hruns thread hactive)⟩
      · cases h

theorem apart_step {a : Action}
    (hw : Apart clearance w.starts (ActiveRun w.runs)) (hok : Separate w a)
    (h : step w a = some w') : Apart clearance w'.starts (ActiveRun w'.runs) := by
  by_cases hstart : exists b, a = .start b
  · rcases hstart with ⟨b, hb⟩
    rw [hb] at h
    rcases Option.map_eq_some_iff.mp h with ⟨starts, hstarts, hw'⟩
    rw [← hw']
    apply hw.step hstarts
    intro i call ha hcall hpc
    exact answered_tick ha hcall hpc
  · have hother : forall b, a ≠ .start b := fun b hb => hstart ⟨b, hb⟩
    rcases step_runs hok h hother with ⟨hstarts, hruns⟩
    rw [hstarts]
    exact hw.away hruns

def NeverBoth (w : World) : Prop :=
  forall thread, ¬ (w.starts.HasLive thread ∧ ActiveRun w.runs thread)

/-- In every run of separate steps no thread has both a live local session and an
active cloud run. -/
theorem not_local_and_in_cloud {w : World}
    (h : machine.ReachableUnder Separate w) : NeverBoth w := by
  have hw : Apart clearance w.starts (ActiveRun w.runs) := by
    refine Machine.ReachableUnder.invariant
      (P := fun w => Apart clearance w.starts (ActiveRun w.runs)) ?_ ?_ h
    · intro w0 hw0
      have hw0' : w0 = World.new := hw0
      rw [hw0']
      exact Launch.apart_new clearance _
    · intro w a w' hw hok hstep
      exact apart_step hw hok hstep
  intro thread hboth
  exact hw.live thread hboth.left hboth.right

def ticks (i n : Nat) : List Action :=
  List.replicate n (.start (.step i .tick))

def policy : CloudPolicy :=
  { enabled := true
    maxConcurrentCloudRuns := 4 }

/-- The hand-off of a thread from its call to the wait for its session. -/
def stopLocal (k : Nat) : List Action :=
  [.handoff "th1" policy] ++ List.replicate 4 (.advance k .tick)

/-- A local session is handed off, the run is reclaimed, and the thread runs
locally again. -/
def handedOffAndBack : List Action :=
  [.start (.call "th1" none)] ++ ticks 0 8 ++ stopLocal 0 ++
    [.start (.terminal 0), .start (.remove 0)] ++
    List.replicate 5 (.advance 0 .tick) ++
    [.reclaim "th1", .close 0 .reclaimed,
      .start (.call "th1" none)] ++ ticks 1 8

theorem not_local_and_in_cloud_handedOffAndBack :
    exists w, machine.ReachableUnder Separate w ∧
      (w.starts.HasLive "th1" ∧
        w.runs = [{ threadId := "th1", status := RunStatus.reclaimed }]) ∧
      NeverBoth w := by
  have hrun : Option.any
      (fun w : World => decide (w.starts.HasLive "th1" ∧
        w.runs = [{ threadId := "th1", status := RunStatus.reclaimed }]))
      (machine.runUnder Separate World.new handedOffAndBack) = true := by
    decide +kernel
  rcases machine.exists_reachable_of_runUnder rfl hrun with ⟨w, hreach, hcheck⟩
  exact ⟨w, hreach, of_decide_eq_true hcheck, not_local_and_in_cloud hreach⟩

/-- The drain of the queue starts the thread again while the hand-off pushes its
checkpoint. -/
def drainedUnderHandoff : List Action :=
  [.start (.call "th1" none)] ++ ticks 0 8 ++ stopLocal 0 ++
    [.start (.terminal 0), .start (.remove 0),
      .advance 0 .tick, .start (.call "th1" (some "next"))] ++
    ticks 1 8 ++ List.replicate 3 (.advance 0 .tick)

theorem local_start_under_handoff : exists w, machine.Reachable w ∧ ¬ NeverBoth w := by
  have hrun : Option.any
      (fun w : World => decide (w.starts.HasLive "th1" ∧ ActiveRun w.runs "th1"))
      (machine.runFrom World.new drainedUnderHandoff) = true := by
    decide +kernel
  rcases machine.exists_reachable_of_runFrom rfl hrun with ⟨w, hreach, hcheck⟩
  exact ⟨w, hreach, fun hnever => hnever "th1" (of_decide_eq_true hcheck)⟩

end Cloud
end Placement
end Perpetual
