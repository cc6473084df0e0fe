import Perpetual.Foundation.Cells
import Perpetual.Placement.Handoff

/-!
# The cap of cloud runs

A hand-off looks at the runs of its thread and at the number of active runs under the
gate, and records its run much later under the same gate.  Meanwhile reclaims only
take runs away.  As long as no status is written to a row that is closed, a run is
recorded below the cap the hand-off has read, and for a thread without an active run.
-/

namespace Perpetual
namespace Placement
namespace Handoff

open Foundation

def activeThreads (runs : List CloudRun) : List String :=
  (runs.filter (fun run => run.status.isActive)).map CloudRun.threadId

theorem activeRuns_eq (w : World) : w.activeRuns = (activeThreads w.runs).length := by
  unfold World.activeRuns activeRuns activeThreads
  rw [List.length_map, List.countP_eq_length_filter]

theorem mem_activeThreads {runs : List CloudRun} {threadId : String} :
    threadId ∈ activeThreads runs <->
      exists run, run ∈ runs ∧ run.threadId = threadId ∧ run.status.isActive = true := by
  unfold activeThreads
  rw [List.mem_map]
  constructor
  · rintro ⟨run, hrun, hthread⟩
    rcases List.mem_filter.mp hrun with ⟨hmem, hactive⟩
    exact ⟨run, hmem, hthread, hactive⟩
  · rintro ⟨run, hmem, hthread, hactive⟩
    exact ⟨run, List.mem_filter.mpr ⟨hmem, hactive⟩, hthread⟩

variable {w w' : World}

theorem World.activeForThread_isSome {threadId : String} :
    (w.activeForThread threadId).isSome = true <-> threadId ∈ activeThreads w.runs :=
  (Placement.activeForThread_isSome CloudRun.threadId CloudRun.status).trans
    mem_activeThreads.symm

theorem activeThreads_append (runs : List CloudRun) (h : HandoffCall) :
    activeThreads (runs ++ [World.newRun h]) = activeThreads runs ++ [h.threadId] := by
  unfold activeThreads
  rw [List.filter_append, List.map_append]
  rfl

theorem activeThreads_cons (run : CloudRun) (rest : List CloudRun) :
    activeThreads (run :: rest) =
      if run.status.isActive then run.threadId :: activeThreads rest
      else activeThreads rest := by
  unfold activeThreads
  rw [List.filter_cons]
  split <;> rfl

variable {r k : Nat}

theorem activeThreads_set {runs : List CloudRun} {run run' : CloudRun} (hrun : runs[r]? = some run)
    (hthread : run'.threadId = run.threadId)
    (hactive : run'.status.isActive = true -> run.status.isActive = true) :
    (activeThreads (runs.set r run')).Sublist (activeThreads runs) := by
  induction runs generalizing r with
  | nil => exact List.Sublist.refl _
  | cons x rest ih =>
      cases r with
      | zero =>
          injection hrun with hrun
          rw [List.set_cons_zero, hrun, activeThreads_cons, activeThreads_cons, hthread]
          cases hnew : run'.status.isActive with
          | true => rw [hactive hnew]
          | false =>
              rw [if_neg Bool.false_ne_true]
              split
              · exact List.sublist_cons_self _ _
              · exact List.Sublist.refl _
      | succ r =>
          rw [List.set_cons_succ, activeThreads_cons, activeThreads_cons]
          have hrest := ih hrun
          split
          · exact hrest.cons_cons x.threadId
          · exact hrest

theorem activeThreads_takeOver (w : World) (threadId : String) :
    activeThreads (w.takeOver threadId).runs = activeThreads w.runs := by
  have hall : forall runs : List CloudRun,
      activeThreads (runs.map (fun run =>
        if run.threadId = threadId ∧ 0 < run.history.closes then
          { run with history := { run.history with takenOver := true } }
        else run)) = activeThreads runs := by
    intro runs
    induction runs with
    | nil => rfl
    | cons run rest ih =>
        rw [List.map_cons, activeThreads_cons, activeThreads_cons, ih]
        split <;> rfl
  exact hall w.runs

/-!
## What a step does to the runs
-/

/-- The poll ends in a write of a status. -/
def Reclaim.writes (c : Reclaim) : Answer -> Bool
  | .running => decide (c.copy.status ≠ .running)
  | .stalled _ => true
  | _ => false

/-- The monitor writes a status only to a row that is still active. -/
def RowsStayClosed (w : World) : Action -> Prop
  | .poll m answer =>
      forall c, c ∈ w.reclaims[m]? -> c.writes answer = true ->
        forall run, run ∈ w.runs[c.run]? -> run.status.isActive = true
  | _ => True

instance (w : World) (a : Action) : Decidable (RowsStayClosed w a) := by
  unfold RowsStayClosed
  split <;> infer_instance

theorem updateRun_runs (w : World) (r : Nat) (f : CloudRun -> CloudRun) :
    (w.updateRun r f).runs = w.runs ∨
      exists run, w.runs[r]? = some run ∧ (w.updateRun r f).runs = w.runs.set r (f run) := by
  unfold World.updateRun
  cases hrun : w.runs[r]? with
  | none => exact .inl rfl
  | some run => exact .inr ⟨run, rfl, rfl⟩

theorem updateRun_active {f : CloudRun -> CloudRun}
    (hthread : forall run, (f run).threadId = run.threadId)
    (hactive : forall run, w.runs[r]? = some run -> (f run).status.isActive = true ->
      run.status.isActive = true) :
    (activeThreads (w.updateRun r f).runs).Sublist (activeThreads w.runs) := by
  rcases updateRun_runs w r f with hsame | ⟨run, hrun, hset⟩
  · rw [hsame]
  · rw [hset]
    exact activeThreads_set hrun (hthread run) (hactive run hrun)

/-- The steps of a hand-off, with the gate and the runs after it. -/
inductive Advance (w : World) (h : HandoffCall) :
    HandoffCall -> Bool -> List CloudRun -> Prop where
  | enter (hstage : h.stage = .waitingGate) (hfree : w.gateHeld = false) :
      Advance w h { h with stage := .readingPolicy } true w.runs
  | leave (hwaiting : h.stage ≠ .waitingGate)
      (hfinished : h.stage ≠ .finished) :
      Advance w h { h with stage := .finished } false w.runs
  | read (hstage : h.stage = .readingPolicy) :
      Advance w h { h with policy := some w.policy, stage := .checkingThread }
        w.gateHeld w.runs
  | alone (hstage : h.stage = .checkingThread)
      (hnone : h.threadId ∉ activeThreads w.runs) :
      Advance w h { h with stage := .counting } w.gateHeld w.runs
  | below (p : CloudPolicy) (hstage : h.stage = .counting)
      (hp : h.policy = some p) (hlt : w.activeRuns < p.maxConcurrentCloudRuns) :
      Advance w h { h with stage := .preparing } w.gateHeld w.runs
  | prepare (hstage : h.stage = .preparing) :
      Advance w h { h with thread := w.thread? h.threadId, stage := .launching }
        w.gateHeld w.runs
  | launch (hstage : h.stage = .launching) :
      Advance w h { h with stage := .recording } w.gateHeld w.runs
  | record (hstage : h.stage = .recording) :
      Advance w h { h with stage := .saving } w.gateHeld
        (w.runs ++ [World.newRun h])

variable {h x h' : HandoffCall}

theorem leaveGate_spec (hwaiting : h.stage ≠ .waitingGate) (hfinished : h.stage ≠ .finished) :
    exists h', (w.leaveGate k h).handoffs = w.handoffs.set k h' ∧
      Advance w h h' (w.leaveGate k h).gateHeld (w.leaveGate k h).runs :=
  ⟨_, rfl, .leave hwaiting hfinished⟩

theorem below_of_cap {policy : Option CloudPolicy} {n : Nat}
    (h : ¬ (policy.map CloudPolicy.maxConcurrentCloudRuns).getD 0 ≤ n) :
    exists p, policy = some p ∧ n < p.maxConcurrentCloudRuns := by
  cases policy with
  | none => exact absurd (Nat.zero_le n) h
  | some p => exact ⟨p, rfl, Nat.not_le.mp h⟩

variable {input : Input}

theorem advanceHandoff_spec (hstep : w.advanceHandoff k h input = some w') :
    exists h', w'.handoffs = w.handoffs.set k h' ∧ Advance w h h' w'.gateHeld w'.runs := by
  cases input with
  | refuse =>
      unfold World.advanceHandoff at hstep
      cases hstage : h.stage <;> rw [hstage] at hstep <;> cases hstep <;>
        exact leaveGate_spec (by rw [hstage]; nofun) (by rw [hstage]; nofun)
  | tick =>
      unfold World.advanceHandoff at hstep
      dsimp only at hstep
      cases hstage : h.stage with
      | waitingGate =>
          rw [hstage] at hstep
          dsimp only at hstep
          cases hgate : w.gateHeld with
          | true =>
              rw [hgate] at hstep
              cases hstep
          | false =>
              rw [hgate] at hstep
              cases hstep
              exact ⟨_, rfl, .enter hstage hgate⟩
      | readingPolicy =>
          rw [hstage] at hstep
          dsimp only at hstep
          split at hstep
          · cases hstep
            exact ⟨_, rfl, .read hstage⟩
          · cases hstep
            exact leaveGate_spec (by rw [hstage]; nofun) (by rw [hstage]; nofun)
      | checkingThread =>
          rw [hstage] at hstep
          dsimp only at hstep
          split at hstep
          · cases hstep
            exact leaveGate_spec (by rw [hstage]; nofun) (by rw [hstage]; nofun)
          · rename_i hnone
            cases hstep
            exact ⟨_, rfl, .alone hstage (fun hin => hnone (World.activeForThread_isSome.mpr hin))⟩
      | counting =>
          rw [hstage] at hstep
          dsimp only at hstep
          split at hstep
          · cases hstep
            exact leaveGate_spec (by rw [hstage]; nofun) (by rw [hstage]; nofun)
          · rename_i hcap
            cases hstep
            rcases below_of_cap hcap with ⟨p, hp, hlt⟩
            exact ⟨_, rfl, .below p hstage hp hlt⟩
      | preparing =>
          rw [hstage] at hstep
          cases hstep
          exact ⟨_, rfl, .prepare hstage⟩
      | launching =>
          rw [hstage] at hstep
          cases hstep
          exact ⟨_, rfl, .launch hstage⟩
      | recording =>
          rw [hstage] at hstep
          cases hstep
          exact ⟨_, rfl, .record hstage⟩
      | saving =>
          rw [hstage] at hstep
          dsimp only at hstep
          split at hstep
          · cases hstep
            exact ⟨_, rfl, .leave (by rw [hstage]; nofun) (by rw [hstage]; nofun)⟩
          · cases hstep
            exact leaveGate_spec (by rw [hstage]; nofun) (by rw [hstage]; nofun)
      | finished =>
          rw [hstage] at hstep
          cases hstep

/-- A step of a reclaim or of a local start leaves the hand-offs and the gate alone and
takes no thread in. -/
structure Aside (w w' : World) : Prop where
  handoffs : w'.handoffs = w.handoffs
  gate : w'.gateHeld = w.gateHeld
  length : w'.runs.length = w.runs.length
  runs : (activeThreads w'.runs).Sublist (activeThreads w.runs)

theorem Aside.of_same (hhandoffs : w'.handoffs = w.handoffs) (hgate : w'.gateHeld = w.gateHeld)
    (hruns : w'.runs = w.runs) : Aside w w' :=
  { handoffs := hhandoffs
    gate := hgate
    length := by rw [hruns]
    runs := by rw [hruns] }

theorem Aside.updateRun {f : CloudRun -> CloudRun}
    (hthread : forall run, (f run).threadId = run.threadId)
    (hactive : forall run, w.runs[r]? = some run -> (f run).status.isActive = true ->
      run.status.isActive = true) : Aside w (w.updateRun r f) := by
  have hframe : (w.updateRun r f).handoffs = w.handoffs ∧
      (w.updateRun r f).gateHeld = w.gateHeld := by
    unfold World.updateRun
    split <;> exact ⟨rfl, rfl⟩
  exact
    { handoffs := hframe.left
      gate := hframe.right
      length := by
        rcases updateRun_runs w r f with hsame | ⟨run, _, hset⟩
        · rw [hsame]
        · rw [hset, List.length_set]
      runs := updateRun_active hthread hactive }

theorem addReclaim_aside {stage : ReclaimStage} (h : w.addReclaim r stage = some w') :
    Aside w w' := by
  unfold World.addReclaim at h
  split at h
  · cases h
    exact Aside.of_same rfl rfl rfl
  · cases h

variable {m : Nat} {c : Reclaim}

theorem pollReclaim_aside {answer : Answer} (h : w.pollReclaim m c answer = some w')
    (hok : c.writes answer = true -> forall run, w.runs[c.run]? = some run ->
      run.status.isActive = true) : Aside w w' := by
  unfold World.pollReclaim at h
  split at h
  · cases h
    exact Aside.of_same rfl rfl rfl
  · split at h
    · cases h
      exact Aside.of_same rfl rfl rfl
    · rename_i hseen
      cases h
      have hwrites : c.writes .running = true := decide_eq_true hseen
      have haside : Aside w (w.setStatus c.run .running) :=
        Aside.updateRun (fun _ => rfl) (fun run hrun _ => hok hwrites run hrun)
      exact ⟨haside.handoffs, haside.gate, haside.length, haside.runs⟩
  · rename_i detail _
    cases h
    have haside : Aside w (w.setStatus c.run .stalled) :=
      Aside.updateRun (fun _ => rfl) (fun run hrun _ => hok rfl run hrun)
    exact ⟨haside.handoffs, haside.gate, haside.length, haside.runs⟩
  · cases h
    exact Aside.of_same rfl rfl rfl
  · cases h

theorem fetchReclaim_aside {fetched : Fetched} {results : Results}
    (h : w.fetchReclaim m c fetched results = some w') : Aside w w' := by
  unfold World.fetchReclaim at h
  split at h
  · cases h
    exact Aside.of_same rfl rfl rfl
  · cases h

theorem closeStatus_inactive (conflict : Bool) (reason : Reason) (detail : Option String) :
    (closeStatus conflict reason detail).isActive = false := by
  unfold closeStatus
  split
  · rfl
  · split <;> rfl

theorem stepReclaim_aside (h : w.stepReclaim m c input = some w') : Aside w w' := by
  unfold World.stepReclaim at h
  split at h
  · split at h
    · cases h
    · cases h
      exact Aside.of_same rfl rfl rfl
  · split at h
    · rename_i reason detail parts conflict _
      cases h
      have hclosed := closeStatus_inactive conflict reason detail
      have haside : Aside w (w.closeRun c.run (closeStatus conflict reason detail)
          (failureNote conflict detail)) := by
        unfold World.closeRun
        apply Aside.updateRun
        · exact fun _ => rfl
        · intro run _ hactive
          exact absurd (hclosed.symm.trans hactive) Bool.false_ne_true
      exact ⟨haside.handoffs, haside.gate, haside.length, haside.runs⟩
    · split at h
      · cases h
        exact Aside.of_same rfl rfl rfl
      · cases h
        exact Aside.of_same rfl rfl rfl
    · cases h
      exact Aside.of_same rfl rfl rfl
    · rename_i reason parts conflict thread noneQueued _
      cases h
      have haside : Aside (w.saveThread (World.resolved c reason parts conflict noneQueued thread))
          ((w.saveThread (World.resolved c reason parts conflict noneQueued thread)).recordLeg
            c.run) :=
        Aside.updateRun (fun _ => rfl) (fun _ _ hactive => hactive)
      exact ⟨haside.handoffs, haside.gate, haside.length, haside.runs⟩
    · cases h

theorem stepStart_aside {i : Nat} {s : LocalStart}
    (h : w.stepStart i s input = some w') : Aside w w' := by
  unfold World.stepStart at h
  split at h
  · split at h
    · cases h
    · cases h
      exact Aside.of_same rfl rfl rfl
  · split at h
    · split at h
      · cases h
        exact Aside.of_same rfl rfl rfl
      · cases h
        exact Aside.of_same rfl rfl rfl
    · split at h
      · cases h
        exact Aside.of_same rfl rfl rfl
      · cases h
        exact Aside.of_same rfl rfl rfl
    · rename_i thread _
      cases h
      exact
        { handoffs := rfl
          gate := rfl
          length := List.length_map _
          runs := by
            have hsame := activeThreads_takeOver
              (w.saveThread (World.running s.agent thread)) s.threadId
            show (activeThreads
              ((w.saveThread (World.running s.agent thread)).takeOver s.threadId).runs).Sublist _
            rw [hsame]
            exact List.Sublist.refl _ }
    · cases h

theorem step_cases {a : Action} (hok : RowsStayClosed w a) (h : w.step a = some w') :
    (exists k x h', w.handoffs[k]? = some x ∧ w'.handoffs = w.handoffs.set k h' ∧
        Advance w x h' w'.gateHeld w'.runs) ∨
      (exists x : HandoffCall, x.stage = .waitingGate ∧ x.policy = none ∧
        w'.handoffs = w.handoffs ++ [x] ∧ w'.gateHeld = w.gateHeld ∧ w'.runs = w.runs) ∨
      Aside w w' := by
  cases a with
  | setPolicy policy =>
      cases h
      exact .inr (.inr (Aside.of_same rfl rfl rfl))
  | handoff threadId agent =>
      cases h
      exact .inr (.inl ⟨_, rfl, rfl, rfl, rfl, rfl⟩)
  | advance k input =>
      simp only [World.step] at h
      split at h
      · rename_i x hx
        rcases advanceHandoff_spec h with ⟨h', hset, hadvance⟩
        exact .inl ⟨k, x, h', hx, hset, hadvance⟩
      · cases h
  | observe r =>
      simp only [World.step] at h
      split at h
      · exact .inr (.inr (addReclaim_aside h))
      · cases h
  | poll m answer =>
      simp only [World.step] at h
      split at h
      · rename_i c hc
        exact .inr (.inr (pollReclaim_aside h (hok c hc)))
      · cases h
  | reclaimCloudRun threadId =>
      simp only [World.step] at h
      split at h
      · exact .inr (.inr (addReclaim_aside h))
      · cases h
  | fetch m fetched results =>
      simp only [World.step] at h
      split at h
      · exact .inr (.inr (fetchReclaim_aside h))
      · cases h
  | reclaimStep m input =>
      simp only [World.step] at h
      split at h
      · exact .inr (.inr (stepReclaim_aside h))
      · cases h
  | start threadId agent =>
      cases h
      exact .inr (.inr (Aside.of_same rfl rfl rfl))
  | startStep i input =>
      simp only [World.step] at h
      split at h
      · exact .inr (.inr (stepStart_aside h))
      · cases h
  | enqueue threadId message =>
      cases h
      exact .inr (.inr (Aside.of_same rfl rfl rfl))
  | drain threadId =>
      cases h
      exact .inr (.inr (Aside.of_same rfl rfl rfl))

/-!
## Admission
-/

def HandoffCall.inside (h : HandoffCall) : Bool :=
  match h.stage with
  | .waitingGate => false
  | .finished => false
  | _ => true

/-- Past the look at the runs of the thread, and not yet recorded. -/
def HandoffCall.clear (h : HandoffCall) : Bool :=
  match h.stage with
  | .counting => true
  | .preparing => true
  | .launching => true
  | .recording => true
  | _ => false

/-- Past the look at the cap, and not yet recorded. -/
def HandoffCall.counted (h : HandoffCall) : Bool :=
  match h.stage with
  | .preparing => true
  | .launching => true
  | .recording => true
  | _ => false

def Capped (w : World) : Prop :=
  forall n, (forall h, h ∈ w.handoffs -> forall p, p ∈ h.policy ->
    p.maxConcurrentCloudRuns ≤ n) -> w.activeRuns ≤ n

/-- One hand-off is inside the gate; what it has looked at still holds. -/
structure Admitted (w : World) : Prop where
  held : forall h, h ∈ w.handoffs -> h.inside = true -> w.gateHeld = true
  alone : forall (k k' : Nat) (h h' : HandoffCall), w.handoffs[k]? = some h ->
    w.handoffs[k']? = some h' -> h.inside = true -> h'.inside = true -> k = k'
  unread : forall h, h ∈ w.handoffs ->
    h.stage = .waitingGate ∨ h.stage = .readingPolicy ->
      h.policy = none
  clear : forall h, h ∈ w.handoffs -> h.clear = true -> h.threadId ∉ activeThreads w.runs
  counted : forall h, h ∈ w.handoffs -> h.counted = true ->
    exists p, h.policy = some p ∧ w.activeRuns < p.maxConcurrentCloudRuns
  capped : Capped w
  distinct : (activeThreads w.runs).Nodup

theorem HandoffCall.clear_inside (hclear : h.clear = true) : h.inside = true := by
  unfold HandoffCall.clear at hclear
  unfold HandoffCall.inside
  cases hstage : h.stage <;> rw [hstage] at hclear <;> first | rfl | cases hclear

theorem HandoffCall.counted_clear (hcounted : h.counted = true) : h.clear = true := by
  unfold HandoffCall.counted at hcounted
  unfold HandoffCall.clear
  cases hstage : h.stage <;> rw [hstage] at hcounted <;> first | rfl | cases hcounted

theorem Admitted.aside (hw : Admitted w) (h : Aside w w') : Admitted w' := by
  have hle : w'.activeRuns ≤ w.activeRuns := by
    rw [activeRuns_eq, activeRuns_eq]
    exact h.runs.length_le
  refine ⟨?_, ?_, ?_, ?_, ?_, ?_, hw.distinct.sublist h.runs⟩
  · rw [h.handoffs, h.gate]
    exact hw.held
  · rw [h.handoffs]
    exact hw.alone
  · rw [h.handoffs]
    exact hw.unread
  · rw [h.handoffs]
    intro x hx hclear hin
    exact hw.clear x hx hclear (h.runs.subset hin)
  · rw [h.handoffs]
    intro x hx hcounted
    rcases hw.counted x hx hcounted with ⟨p, hp, hlt⟩
    exact ⟨p, hp, Nat.lt_of_le_of_lt hle hlt⟩
  · intro n hn
    rw [h.handoffs] at hn
    exact Nat.le_trans hle (hw.capped n hn)

theorem Admitted.others_outside (hw : Admitted w) (hx : w.handoffs[k]? = some x)
    (h : x.inside = true ∨ w.gateHeld = false) :
    forall (j : Nat) (z : HandoffCall), j ≠ k -> w.handoffs[j]? = some z ->
      z.inside = false := by
  intro j z hjk hz
  rw [← Bool.not_eq_true]
  intro hinside
  rcases h with h | hfree
  · exact hjk (hw.alone j k z x hz hx hinside h)
  · rw [hw.held z (List.mem_of_getElem? hz) hinside] at hfree
    cases hfree

theorem Admitted.of_set (hw : Admitted w) (hx : w.handoffs[k]? = some x)
    (hset : w'.handoffs = w.handoffs.set k h') (hout : x.inside = true ∨ w.gateHeld = false)
    (hheld : h'.inside = true -> w'.gateHeld = true)
    (hunread : h'.stage = .waitingGate ∨ h'.stage = .readingPolicy ->
      h'.policy = none) (hclear : h'.clear = true -> h'.threadId ∉ activeThreads w'.runs)
    (hcounted : h'.counted = true ->
      exists p, h'.policy = some p ∧ w'.activeRuns < p.maxConcurrentCloudRuns) (hcapped : Capped w')
    (hdistinct : (activeThreads w'.runs).Nodup) : Admitted w' := by
  have hothers := hw.others_outside hx hout
  have hcases : forall z, z ∈ w'.handoffs -> z = h' ∨ (z ∈ w.handoffs ∧ z.inside = false) := by
    intro z hz
    rw [hset] at hz
    rcases List.mem_iff_getElem?.mp hz with ⟨j, hj⟩
    rcases Cells.getElem?_set_cases hj with ⟨_, heq⟩ | ⟨hjk, hj⟩
    · exact .inl heq
    · exact .inr ⟨List.mem_of_getElem? hj, hothers j z hjk hj⟩
  refine ⟨?_, ?_, ?_, ?_, ?_, hcapped, hdistinct⟩
  · intro z hz hinside
    rcases hcases z hz with heq | ⟨_, houtside⟩
    · rw [heq] at hinside
      exact hheld hinside
    · rw [houtside] at hinside
      cases hinside
  · intro i j y z hy hz hyin hzin
    rw [hset] at hy hz
    rcases Cells.getElem?_set_cases hy with ⟨hi, _⟩ | ⟨hi, hy⟩
    · rcases Cells.getElem?_set_cases hz with ⟨hj, _⟩ | ⟨hj, hz⟩
      · rw [hi, hj]
      · rw [hothers j z hj hz] at hzin
        cases hzin
    · rw [hothers i y hi hy] at hyin
      cases hyin
  · intro z hz hstage
    rcases hcases z hz with heq | ⟨hmem, _⟩
    · rw [heq] at hstage ⊢
      exact hunread hstage
    · exact hw.unread z hmem hstage
  · intro z hz hzclear
    rcases hcases z hz with heq | ⟨_, houtside⟩
    · rw [heq] at hzclear ⊢
      exact hclear hzclear
    · rw [HandoffCall.clear_inside hzclear] at houtside
      cases houtside
  · intro z hz hzcounted
    rcases hcases z hz with heq | ⟨_, houtside⟩
    · rw [heq] at hzcounted ⊢
      exact hcounted hzcounted
    · rw [HandoffCall.clear_inside (HandoffCall.counted_clear hzcounted)] at houtside
      cases houtside

theorem Capped.of_set (hw : Capped w) (hx : w.handoffs[k]? = some x)
    (hset : w'.handoffs = w.handoffs.set k h') (hpolicy : forall p, p ∈ x.policy -> p ∈ h'.policy)
    (hruns : w'.runs = w.runs) : Capped w' := by
  intro n hn
  have hsame : w'.activeRuns = w.activeRuns := by
    rw [activeRuns_eq, activeRuns_eq, hruns]
  rw [hsame]
  apply hw n
  intro z hz p hp
  rcases Cells.mem_set_or_eq hx hz h' with rfl | hmem
  · apply hn h' _ p (hpolicy p hp)
    rw [hset]
    exact List.mem_of_getElem? (Cells.getElem?_set_of_some hx h')
  · apply hn z _ p hp
    rw [hset]
    exact hmem

theorem Admitted.keep (hw : Admitted w) (hx : w.handoffs[k]? = some x)
    (hset : w'.handoffs = w.handoffs.set k h') (hcounted : x.counted = true)
    (hthread : h'.threadId = x.threadId) (hpolicy : h'.policy = x.policy)
    (hgate : w'.gateHeld = w.gateHeld) (hruns : w'.runs = w.runs)
    (hstage : h'.stage ≠ .waitingGate ∧ h'.stage ≠ .readingPolicy) :
    Admitted w' := by
  have hmem := List.mem_of_getElem? hx
  have hclear := HandoffCall.counted_clear hcounted
  have hinside := HandoffCall.clear_inside hclear
  have hsame : w'.activeRuns = w.activeRuns := by
    rw [activeRuns_eq, activeRuns_eq, hruns]
  refine hw.of_set hx hset (.inl hinside) (fun _ => hgate.trans (hw.held x hmem hinside))
    ?_ ?_ ?_ (hw.capped.of_set hx hset ?_ hruns) (by rw [hruns]; exact hw.distinct)
  · intro h
    rcases h with h | h
    · exact absurd h hstage.left
    · exact absurd h hstage.right
  · intro _
    rw [hruns, hthread]
    exact hw.clear x hmem hclear
  · intro _
    rw [hsame, hpolicy]
    exact hw.counted x hmem hcounted
  · intro p hp
    rw [hpolicy]
    exact hp

theorem Admitted.call (hw : Admitted w) (hstage : x.stage = .waitingGate)
    (hpolicy : x.policy = none) (hset : w'.handoffs = w.handoffs ++ [x])
    (hgate : w'.gateHeld = w.gateHeld) (hruns : w'.runs = w.runs) : Admitted w' := by
  have houtside : x.inside = false := by
    unfold HandoffCall.inside
    rw [hstage]
  have hcases : forall z, z ∈ w'.handoffs -> z ∈ w.handoffs ∨ z = x := by
    intro z hz
    rw [hset] at hz
    rcases List.mem_append.mp hz with hz | hz
    · exact .inl hz
    · exact .inr (List.mem_singleton.mp hz)
  have hnot : forall z, z = x -> z.inside = true -> False := by
    intro z heq hinside
    rw [heq, houtside] at hinside
    cases hinside
  have hsame : w'.activeRuns = w.activeRuns := by
    rw [activeRuns_eq, activeRuns_eq, hruns]
  refine ⟨?_, ?_, ?_, ?_, ?_, ?_, ?_⟩
  · intro z hz hinside
    rcases hcases z hz with hz | heq
    · rw [hgate]
      exact hw.held z hz hinside
    · exact (hnot z heq hinside).elim
  · intro i j y z hy hz hyin hzin
    rw [hset] at hy hz
    rcases Cells.getElem?_concat_cases hy with hy | ⟨_, heq⟩
    · rcases Cells.getElem?_concat_cases hz with hz | ⟨_, heq⟩
      · exact hw.alone i j y z hy hz hyin hzin
      · exact (hnot z heq hzin).elim
    · exact (hnot y heq hyin).elim
  · intro z hz hstage'
    rcases hcases z hz with hz | heq
    · exact hw.unread z hz hstage'
    · rw [heq]
      exact hpolicy
  · intro z hz hclear
    rcases hcases z hz with hz | heq
    · rw [hruns]
      exact hw.clear z hz hclear
    · exact (hnot z heq (HandoffCall.clear_inside hclear)).elim
  · intro z hz hcounted
    rcases hcases z hz with hz | heq
    · rw [hsame]
      exact hw.counted z hz hcounted
    · exact (hnot z heq (HandoffCall.clear_inside (HandoffCall.counted_clear hcounted))).elim
  · intro n hn
    rw [hsame]
    apply hw.capped n
    intro z hz
    apply hn z
    rw [hset]
    exact List.mem_append_left [x] hz
  · rw [hruns]
    exact hw.distinct

theorem Admitted.advance (hw : Admitted w) (hx : w.handoffs[k]? = some x)
    (hset : w'.handoffs = w.handoffs.set k h') (h : Advance w x h' w'.gateHeld w'.runs) :
    Admitted w' := by
  have hmem := List.mem_of_getElem? hx
  generalize hgate : w'.gateHeld = gate at h
  generalize hruns : w'.runs = runs at h
  cases h with
  | enter hstage hfree =>
      exact hw.of_set hx hset (.inr hfree) (fun _ => hgate)
        (fun _ => hw.unread x hmem (.inl hstage)) nofun nofun
        (hw.capped.of_set hx hset (fun _ hp => hp) hruns)
        (by rw [hruns]; exact hw.distinct)
  | leave hwaiting hfinished =>
      have hinside : x.inside = true := by
        unfold HandoffCall.inside
        split
        · rename_i heq
          exact absurd heq hwaiting
        · rename_i heq
          exact absurd heq hfinished
        · rfl
      refine hw.of_set hx hset (.inl hinside) nofun ?_ nofun nofun
        (hw.capped.of_set hx hset (fun _ hp => hp) hruns) (by rw [hruns]; exact hw.distinct)
      intro hstage
      rcases hstage with hstage | hstage <;> cases hstage
  | read hstage =>
      have hinside : x.inside = true := by
        unfold HandoffCall.inside
        rw [hstage]
      have hnone := hw.unread x hmem (.inr hstage)
      refine hw.of_set hx hset (.inl hinside) (fun _ => hgate.trans (hw.held x hmem hinside))
        ?_ nofun nofun (hw.capped.of_set hx hset ?_ hruns) (by rw [hruns]; exact hw.distinct)
      · intro hstage
        rcases hstage with hstage | hstage <;> cases hstage
      · intro p hp
        rw [hnone] at hp
        cases hp
  | alone hstage hnone =>
      have hinside : x.inside = true := by
        unfold HandoffCall.inside
        rw [hstage]
      refine hw.of_set hx hset (.inl hinside) (fun _ => hgate.trans (hw.held x hmem hinside))
        ?_ ?_ nofun (hw.capped.of_set hx hset (fun _ hp => hp) hruns)
        (by rw [hruns]; exact hw.distinct)
      · intro hstage
        rcases hstage with hstage | hstage <;> cases hstage
      · intro _
        rw [hruns]
        exact hnone
  | below p hstage hp hlt =>
      have hclear : x.clear = true := by
        unfold HandoffCall.clear
        rw [hstage]
      have hinside := HandoffCall.clear_inside hclear
      have hsame : w'.activeRuns = w.activeRuns := by
        rw [activeRuns_eq, activeRuns_eq, hruns]
      refine hw.of_set hx hset (.inl hinside) (fun _ => hgate.trans (hw.held x hmem hinside))
        ?_ ?_ ?_ (hw.capped.of_set hx hset (fun _ hp => hp) hruns)
        (by rw [hruns]; exact hw.distinct)
      · intro hstage
        rcases hstage with hstage | hstage <;> cases hstage
      · intro _
        rw [hruns]
        exact hw.clear x hmem hclear
      · intro _
        rw [hsame]
        exact ⟨p, hp, hlt⟩
  | prepare hstage =>
      have hcounted : x.counted = true := by
        unfold HandoffCall.counted
        rw [hstage]
      exact hw.keep hx hset hcounted rfl rfl hgate hruns ⟨nofun, nofun⟩
  | launch hstage =>
      have hcounted : x.counted = true := by
        unfold HandoffCall.counted
        rw [hstage]
      exact hw.keep hx hset hcounted rfl rfl hgate hruns ⟨nofun, nofun⟩
  | record hstage =>
      have hcounted : x.counted = true := by
        unfold HandoffCall.counted
        rw [hstage]
      have hclear := HandoffCall.counted_clear hcounted
      have hinside := HandoffCall.clear_inside hclear
      have hthreads : activeThreads w'.runs = activeThreads w.runs ++ [x.threadId] := by
        rw [hruns, activeThreads_append]
      rcases hw.counted x hmem hcounted with ⟨p, hp, hlt⟩
      refine hw.of_set hx hset (.inl hinside) (fun _ => hgate.trans (hw.held x hmem hinside))
        ?_ nofun nofun ?_ ?_
      · intro hstage
        rcases hstage with hstage | hstage <;> cases hstage
      · intro n hn
        have hle : p.maxConcurrentCloudRuns ≤ n := by
          apply hn { x with stage := .saving } _ p hp
          rw [hset]
          exact List.mem_of_getElem? (Cells.getElem?_set_of_some hx _)
        rw [activeRuns_eq] at hlt
        rw [activeRuns_eq, hthreads, List.length_append, List.length_singleton]
        omega
      · rw [hthreads]
        apply List.Nodup.append hw.distinct (List.nodup_singleton x.threadId)
        intro t ht ht'
        rw [List.mem_singleton.mp ht'] at ht
        exact hw.clear x hmem hclear ht

theorem Admitted.step {a : Action} (hw : Admitted w) (hok : RowsStayClosed w a)
    (h : w.step a = some w') : Admitted w' := by
  rcases step_cases hok h with ⟨k, x, h', hx, hset, hadvance⟩ |
    ⟨x, hstage, hpolicy, hset, hgate, hruns⟩ | haside
  · exact hw.advance hx hset hadvance
  · exact hw.call hstage hpolicy hset hgate hruns
  · exact hw.aside haside

theorem Admitted.fresh (policy : CloudPolicy) (threads : List ThreadRow) :
    Admitted (World.fresh policy threads) :=
  { held := fun _ h => absurd h List.not_mem_nil
    alone := fun _ _ _ _ h => by cases h
    unread := fun _ h => absurd h List.not_mem_nil
    clear := fun _ h => absurd h List.not_mem_nil
    counted := fun _ h => absurd h List.not_mem_nil
    capped := fun n _ => Nat.zero_le n
    distinct := List.nodup_nil }

theorem Admitted.reachable (h : machine.ReachableUnder RowsStayClosed w) : Admitted w := by
  refine Machine.ReachableUnder.invariant (P := Admitted) ?_ ?_ h
  · rintro s ⟨policy, threads, rfl⟩
    exact Admitted.fresh policy threads
  · exact fun _ _ _ hs hok hstep => hs.step hok hstep

/-- While the monitor writes statuses only to active rows: a row is added only by a
hand-off, with fewer active runs than the cap it read and none of its thread; the active
runs are within the largest cap that was read; and no thread has two of them. -/
theorem runs_within_cap {w : World} (h : machine.ReachableUnder RowsStayClosed w) :
    (forall a w', RowsStayClosed w a -> w.step a = some w' ->
        w'.runs.length ≠ w.runs.length ->
        exists x p, x ∈ w.handoffs ∧ x.policy = some p ∧
          w.activeRuns < p.maxConcurrentCloudRuns ∧ x.threadId ∉ activeThreads w.runs ∧
          w'.runs = w.runs ++ [World.newRun x]) ∧
      Capped w ∧ (activeThreads w.runs).Nodup := by
  have hw := Admitted.reachable h
  refine ⟨?_, hw.capped, hw.distinct⟩
  intro a w' hok hstep hlength
  rcases step_cases hok hstep with ⟨k, x, h', hx, _, hadvance⟩ | ⟨_, _, _, _, _, hruns⟩ | haside
  · have hmem := List.mem_of_getElem? hx
    generalize w'.gateHeld = gate at hadvance
    generalize hruns : w'.runs = runs at hadvance hlength
    cases hadvance with
    | record hstage =>
        have hcounted : x.counted = true := by
          unfold HandoffCall.counted
          rw [hstage]
        rcases hw.counted x hmem hcounted with ⟨p, hp, hlt⟩
        exact ⟨x, p, hmem, hp, hlt, hw.clear x hmem (HandoffCall.counted_clear hcounted), rfl⟩
    | enter _ _ => exact absurd rfl hlength
    | leave _ _ => exact absurd rfl hlength
    | read _ => exact absurd rfl hlength
    | alone _ _ => exact absurd rfl hlength
    | below _ _ _ _ => exact absurd rfl hlength
    | prepare _ => exact absurd rfl hlength
    | launch _ => exact absurd rfl hlength
  · rw [hruns] at hlength
    exact absurd rfl hlength
  · exact absurd haside.length hlength

def cloudPolicy : CloudPolicy :=
  { enabled := true
    maxConcurrentCloudRuns := 1 }

def threadRow (id : String) : ThreadRow :=
  { id := id
    status := .running
    activeAgent := some .codex
    progress := ""
    handoffState := "local" }

def handedOff (k : Nat) (threadId : String) : List Action :=
  .handoff threadId .codex :: List.replicate 8 (.advance k .tick)

/-- One thread goes to the cloud; the hand-off of another one finds the cap reached,
and one after the reclaim does not. -/
def oneAtATime : List Action :=
  handedOff 0 "th1" ++
    (.handoff "th2" .codex :: List.replicate 4 (.advance 1 .tick)) ++
    [.reclaimCloudRun "th1", .fetch 0 .nothing .nothing,
      .reclaimStep 0 .tick] ++ handedOff 2 "th2"

theorem runs_within_cap_oneAtATime :
    exists w, machine.ReachableUnder RowsStayClosed w ∧
      activeThreads w.runs = ["th2"] ∧ w.runs.length = 2 ∧ Capped w ∧
      (activeThreads w.runs).Nodup := by
  have hrun : Option.any
      (fun w : World => decide (activeThreads w.runs = ["th2"] ∧ w.runs.length = 2))
      (machine.runUnder RowsStayClosed
        (World.fresh cloudPolicy [threadRow "th1", threadRow "th2"]) oneAtATime) = true := by
    decide +kernel
  rcases machine.exists_reachable_of_runUnder ⟨_, _, rfl⟩ hrun with ⟨w, hreach, hcheck⟩
  have hend := of_decide_eq_true hcheck
  exact ⟨w, hreach, hend.left, hend.right, (runs_within_cap hreach).right⟩

end Handoff
end Placement
end Perpetual
