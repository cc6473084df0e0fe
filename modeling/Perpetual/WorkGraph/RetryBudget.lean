import Perpetual.WorkGraph.Retries
import Perpetual.Foundation.Cells

/-!
# The retry budget of a plan run

With r retries allowed, a node is started once and then once for every requeueing,
which the count of its attached runs allows r times.  The result says when at most
r + 1 agent runs of a node are started: every start has to be the first or to
follow a requeueing, and a count that allows one more retry has to know all the
starts there were.
-/

namespace Perpetual
namespace WorkGraph

open Foundation

/-!
## Copies of the row
-/

def Driver.plan? : Driver -> Option PlanRow
  | .loading plan => some plan
  | .gating plan _ => some plan
  | .reloading plan _ => some plan
  | .retrying plan _ => some plan
  | .starting plan _ _ _ _ => some plan
  | .attaching plan _ _ _ => some plan
  | _ => none

def Driver.Copies (plan : PlanRow) (d : Driver) : Prop :=
  forall p, d.plan? = some p -> p = plan

variable {d : Driver}

theorem copies_of_plan {plan : PlanRow} (h : d.plan? = some plan) : d.Copies plan := by
  intro p hp
  rw [h] at hp
  exact (Option.some.inj hp).symm

theorem copies_of_none (plan : PlanRow) (h : d.plan? = none) : d.Copies plan := by
  intro p hp
  rw [h] at hp
  cases hp

theorem copies_afterStarts (plan : PlanRow) (graph : Graph) (started : Int) :
    (afterStarts plan graph started).Copies plan := by
  unfold afterStarts
  split
  · exact copies_of_none plan rfl
  · exact copies_of_none plan rfl

theorem copies_startNodes (plan : PlanRow) (graph : Graph) (ready : List WorkNode)
    (started : Int) : (startNodes plan graph ready started).Copies plan := by
  unfold startNodes
  cases ready with
  | nil => exact copies_afterStarts plan graph started
  | cons node rest =>
      dsimp only
      split
      · exact copies_of_plan rfl
      · exact copies_afterStarts plan graph started

theorem copies_afterFailures (plan : PlanRow) (graph : Graph) :
    (afterFailures plan graph).Copies plan := by
  unfold afterFailures
  split
  · split
    · exact copies_of_none plan rfl
    · exact copies_of_none plan rfl
  · exact copies_startNodes plan graph _ 0

theorem copies_afterGates (plan : PlanRow) (graph : Graph) :
    (afterGates plan graph).Copies plan := by
  unfold afterGates
  split
  · exact copies_afterFailures plan graph
  · split
    · exact copies_of_none plan rfl
    · exact copies_of_plan rfl
    · exact copies_afterFailures plan graph

theorem copies_checkGraph (plan : PlanRow) (graph : Graph) :
    (checkGraph plan graph).Copies plan := by
  unfold checkGraph
  cases validateGatingEdgesAcyclic graph.nodes graph.edges with
  | error error => exact copies_of_none plan rfl
  | ok _ => exact copies_of_plan rfl

theorem copies_gateOutcome (plan : PlanRow) (graph : Graph)
    (outcome : Option PlanGateOutcome) : (gateOutcome plan graph outcome).Copies plan := by
  unfold gateOutcome
  split
  · exact copies_afterGates plan graph
  · exact copies_of_plan rfl
  · exact copies_of_none plan rfl

theorem copies_startOutcome (plan : PlanRow) (graph : Graph) (rest : List WorkNode)
    (started : Int) (error : CoreError) :
    (startOutcome plan graph rest started error).Copies plan := by
  unfold startOutcome
  split
  · exact copies_startNodes plan graph rest started
  · exact copies_of_none plan rfl

variable {row : Option PlanRow}

theorem plan_checkState {p : PlanRow} (h : (checkState row).plan? = some p) : row = some p := by
  cases row with
  | none => cases h
  | some plan =>
      simp only [checkState] at h
      split at h
      · exact congrArg some (Option.some.inj h)
      · cases h

theorem plan_afterWrite (progress : PlanProgress) : (afterWrite progress).plan? = none := by
  unfold afterWrite
  split
  · rfl
  · rfl

def allowedRetries (row : Option PlanRow) : Option Int :=
  row.map PlanRow.maxNodeRetries

theorem allowedRetries_gateRow (writes : GateWrites) (row : Option PlanRow) :
    allowedRetries (gateRow writes row) = allowedRetries row := by
  unfold gateRow
  cases writes.resumeAfter with
  | none => rfl
  | some nodeId =>
      cases row with
      | none => rfl
      | some plan => rfl

theorem allowedRetries_map {f : PlanRow -> PlanRow}
    (hf : forall plan, (f plan).maxNodeRetries = plan.maxNodeRetries)
    (row : Option PlanRow) : allowedRetries (row.map f) = allowedRetries row := by
  cases row with
  | none => rfl
  | some plan => exact congrArg some (hf plan)

theorem Driver.step_plan {input : DriverInput}
    {next : DriverStep} (h : d.step row input = some next) :
    allowedRetries next.row = allowedRetries row ∧
      forall p, next.driver.plan? = some p -> d.plan? = some p ∨ row = some p := by
  have hcopies : forall {plan : PlanRow} {d d' : Driver}, d.plan? = some plan ->
      d'.Copies plan -> forall p, d'.plan? = some p -> d.plan? = some p ∨ row = some p := by
    intro plan d d' hd hcopies p hp
    rw [hcopies p hp]
    exact .inl hd
  have hnone : forall {d d' : Driver}, d'.plan? = none ->
      forall p, d'.plan? = some p -> d.plan? = some p ∨ row = some p := by
    intro d d' hd' p hp
    rw [hd'] at hp
    cases hp
  unfold Driver.step at h
  split at h
  next =>
    cases h
    exact ⟨rfl, fun p hp => .inr (plan_checkState hp)⟩
  next =>
    cases h
    exact ⟨rfl, hnone rfl⟩
  next =>
    cases h
    exact ⟨rfl, fun p hp => .inr (plan_checkState hp)⟩
  next =>
    cases h
    exact ⟨rfl, hnone rfl⟩
  next plan graph =>
    cases h
    exact ⟨rfl, hcopies rfl (copies_checkGraph plan graph)⟩
  next =>
    cases h
    exact ⟨rfl, hnone rfl⟩
  next plan graph answers =>
    cases h
    exact ⟨allowedRetries_gateRow _ row, hcopies rfl (copies_gateOutcome plan graph _)⟩
  next plan _ graph =>
    cases h
    exact ⟨rfl, hcopies rfl (copies_afterGates plan graph)⟩
  next plan graph _ =>
    cases h
    exact ⟨rfl, hcopies rfl (copies_afterGates plan graph)⟩
  next plan graph answers =>
    cases h
    refine ⟨rfl, hcopies rfl ?_⟩
    split
    · exact copies_afterFailures plan graph
    · exact copies_of_none plan rfl
  next plan graph node rest started _ =>
    cases h
    exact ⟨rfl, hcopies rfl (copies_of_plan rfl)⟩
  next plan graph node rest started error =>
    cases h
    exact ⟨rfl, hcopies rfl (copies_startOutcome plan graph rest started error)⟩
  next plan graph rest started =>
    cases h
    exact ⟨rfl, hcopies rfl (copies_startNodes plan graph rest (started + 1))⟩
  next progress =>
    cases h
    exact ⟨allowedRetries_map (f := updatePlanRunProgress progress) (fun _ => rfl) row,
      hnone (plan_afterWrite progress)⟩
  next progress =>
    cases h
    exact ⟨rfl, hnone (plan_afterWrite progress)⟩
  next =>
    cases h
    exact ⟨rfl, hnone rfl⟩
  next =>
    cases h
    exact ⟨rfl, hnone rfl⟩
  next => cases h

theorem Resume.step_retries {r : Resume} {input : ResumeInput}
    {next : ResumeStep} (h : r.step row input = some next) :
    allowedRetries next.row = allowedRetries row := by
  rcases Resume.step_cases h with ⟨_, _, hrow, _, _⟩ | ⟨hrow, _, _⟩
  · rw [hrow]
    apply allowedRetries_map
    intro plan
    unfold resumePlanRun
    split
    · rfl
    · rfl
  · rw [hrow]

theorem Stop.step_retries {s : Stop} {fault : Option CoreError}
    {next : StopStep} (h : s.step row fault = some next) :
    allowedRetries next.row = allowedRetries row := by
  unfold Stop.step at h
  split at h
  · split at h
    · cases h
      rfl
    · cases h
      rfl
  · cases h
    rfl
  · cases h
    rfl
  · cases h
    rfl
  · cases h

theorem runWorkPlan_retries {graph : Graph} {effectiveCapacity : Int} {options : PlanOptions}
    {row : PlanRow} (h : runWorkPlan graph effectiveCapacity options = .ok row) :
    0 ≤ row.maxNodeRetries := by
  unfold runWorkPlan at h
  split at h
  · cases h
  · split at h
    · cases h
    · cases h
      exact Int.le_max_right options.maxNodeRetries 0

/-- What a step of the plan run can do to the retries allowed and to the copies of
the drivers. -/
structure PlanKept (w w' : PlanWorld) : Prop where
  retries : allowedRetries w'.row = allowedRetries w.row ∨
    w.row = none ∧ exists r, allowedRetries w'.row = some r ∧ 0 ≤ r
  drivers : w.drivers.length ≤ w'.drivers.length
  copies : forall d, d ∈ w'.drivers -> forall p, d.plan? = some p ->
    (exists d0, d0 ∈ w.drivers ∧ d0.plan? = some p) ∨ w.row = some p

theorem planKept_of_spawn {w w' : PlanWorld} (spawned : Bool)
    (hretries : allowedRetries w'.row = allowedRetries w.row)
    (hdrivers : w'.drivers =
      if spawned then w.drivers ++ [.fresh] else w.drivers) : PlanKept w w' := by
  cases spawned with
  | false =>
      have hsame : w'.drivers = w.drivers := hdrivers
      constructor
      · exact .inl hretries
      · rw [hsame]
      · intro d hd p hp
        rw [hsame] at hd
        exact .inl ⟨d, hd, hp⟩
  | true =>
      have hadded : w'.drivers = w.drivers ++ [.fresh] := hdrivers
      constructor
      · exact .inl hretries
      · rw [hadded, List.length_append]
        exact Nat.le_add_right _ _
      · intro d hd p hp
        rw [hadded] at hd
        rcases List.mem_append.mp hd with hold | hnew
        · exact .inl ⟨d, hold, hp⟩
        · rw [List.mem_singleton.mp hnew] at hp
          cases hp

theorem planStep_kept {w w' : PlanWorld} {action : PlanAction}
    (h : planStep w action = some w') : PlanKept w w' := by
  cases action with
  | run graph effectiveCapacity options =>
      simp only [planStep] at h
      split at h
      · rename_i row hnone hrow
        cases h
        constructor
        · exact .inr ⟨hnone, row.maxNodeRetries, rfl, runWorkPlan_retries hrow⟩
        · exact Nat.le_refl _
        · intro d hd p hp
          exact .inl ⟨d, hd, hp⟩
      · cases h
  | launch recorded =>
      simp only [planStep] at h
      split at h
      · cases h
        exact planKept_of_spawn recorded rfl rfl
      · cases h
  | callResume caller =>
      simp only [planStep] at h
      split at h
      · cases h
        exact planKept_of_spawn false rfl rfl
      · cases h
  | callStop =>
      cases h
      exact planKept_of_spawn false rfl rfl
  | driver i input =>
      rcases PlanWorld.step_driver h with ⟨d, next, hd, hnext, hw'⟩
      rcases Driver.step_plan hnext with ⟨hretries, hplan⟩
      rw [hw']
      constructor
      · exact .inl hretries
      · rw [List.length_set]
      · intro d' hd' p hp
        rcases List.mem_or_eq_of_mem_set hd' with hold | hnew
        · exact .inl ⟨d', hold, hp⟩
        · rw [hnew] at hp
          rcases hplan p hp with hkept | hread
          · exact .inl ⟨d, List.mem_of_getElem? hd, hkept⟩
          · exact .inr hread
  | resume i input =>
      rcases PlanWorld.step_resume h with ⟨r, next, _, hnext, hw'⟩
      rw [hw']
      exact planKept_of_spawn next.spawned (Resume.step_retries hnext) rfl
  | stop i fault =>
      rcases PlanWorld.step_stop h with ⟨s, next, _, hnext, hw'⟩
      rw [hw']
      exact planKept_of_spawn false (Stop.step_retries hnext) rfl

/-- A start is the first of its node or follows a requeueing, and no driver is about
to requeue the node on an earlier count. -/
def Earned (w : RetryWorld) (nodeId : String) : Prop :=
  (w.starts.count nodeId = 0 ∨ nodeId ∈ w.requeued) ∧
    forall i, i < w.plan.drivers.length ->
      forall c, c ∈ (w.loops i).counted -> c.1 ≠ nodeId

instance (w : RetryWorld) (nodeId : String) : Decidable (Earned w nodeId) := by
  unfold Earned
  infer_instance

/-- A count that leaves a retry counts every start of the node. -/
def CountsAll (w : RetryWorld) (maxNodeRetries : Int) (nodeId : String) : Prop :=
  (countRunsForNodeInPlan w.runs nodeId : Int) ≤ maxNodeRetries ->
    countRunsForNodeInPlan w.runs nodeId = w.starts.count nodeId

instance (w : RetryWorld) (maxNodeRetries : Int) (nodeId : String) :
    Decidable (CountsAll w maxNodeRetries nodeId) := by
  unfold CountsAll
  infer_instance

def KeepsCount (w : RetryWorld) : RetryAction -> Prop
  | .start i _ => forall nodeId, nodeId ∈ w.startingNode i -> Earned w nodeId
  | .outside nodeId _ => Earned w nodeId
  | .count i true =>
      forall failed, failed ∈ w.failedNode i -> CountsAll w failed.1 failed.2
  | _ => True

instance (w : RetryWorld) (action : RetryAction) : Decidable (KeepsCount w action) := by
  unfold KeepsCount
  split
  · infer_instance
  · infer_instance
  · infer_instance
  · infer_instance

def RetryWorld.retries (w : RetryWorld) : Int :=
  (allowedRetries w.plan.row).getD 0

structure Budgeted (w : RetryWorld) : Prop where
  nonneg : 0 ≤ w.retries
  copies : forall d, d ∈ w.plan.drivers -> forall p, d.plan? = some p ->
    allowedRetries w.plan.row = some p.maxNodeRetries
  idle : forall i, w.plan.drivers.length ≤ i -> (w.loops i).counted = none
  requeued : forall nodeId, nodeId ∈ w.requeued ->
    (w.starts.count nodeId : Int) ≤ w.retries
  counted : forall i nodeId attempts, (w.loops i).counted = some (nodeId, attempts) ->
    (w.starts.count nodeId : Int) ≤ w.retries
  starts : forall nodeId, (w.starts.count nodeId : Int) ≤ w.retries + 1

theorem RetryWorld.retries_le {w : RetryWorld} {p : PlanWorld} (hkept : PlanKept w.plan p) :
    w.retries ≤ { w with plan := p }.retries := by
  rcases hkept.retries with hsame | ⟨hnone, r, hset, hr⟩
  · show w.retries ≤ (allowedRetries p.row).getD 0
    rw [hsame]
    exact Int.le_refl _
  · have hzero : w.retries = 0 := by
      unfold RetryWorld.retries
      rw [hnone]
      rfl
    show w.retries ≤ (allowedRetries p.row).getD 0
    rw [hzero, hset]
    exact hr

namespace Budgeted

variable {w : RetryWorld}

theorem planned (h : Budgeted w) {p : PlanWorld} (hkept : PlanKept w.plan p) :
    Budgeted { w with plan := p } := by
  have hle := RetryWorld.retries_le hkept
  constructor
  · exact Int.le_trans h.nonneg hle
  · intro d hd plan hplan
    have hread : allowedRetries w.plan.row = some plan.maxNodeRetries := by
      rcases hkept.copies d hd plan hplan with ⟨d0, hd0, hplan0⟩ | hrow
      · exact h.copies d0 hd0 plan hplan0
      · rw [hrow]
        rfl
    rcases hkept.retries with hsame | ⟨hnone, _⟩
    · exact hsame.trans hread
    · rw [hnone] at hread
      cases hread
  · intro i hi
    exact h.idle i (Nat.le_trans hkept.drivers hi)
  · intro nodeId hmem
    exact Int.le_trans (h.requeued nodeId hmem) hle
  · intro i nodeId attempts hcounted
    exact Int.le_trans (h.counted i nodeId attempts hcounted) hle
  · intro nodeId
    exact Int.le_trans (h.starts nodeId) (Int.add_le_add_right hle 1)

theorem withRuns (h : Budgeted w) (runs : List WorkRun) (pending : Nat -> Option Nat) :
    Budgeted { w with runs := runs, pending := pending } :=
  ⟨h.nonneg, h.copies, h.idle, h.requeued, h.counted, h.starts⟩

theorem count_start (starts : List String) (nodeId : String) :
    ((starts ++ [nodeId]).count nodeId : Int) = starts.count nodeId + 1 := by
  rw [List.count_append, List.count_singleton_self]
  exact Int.natCast_add _ 1

variable {nodeId : String}

theorem count_start_of_ne (starts : List String) {other : String} (hne : other ≠ nodeId) :
    (starts ++ [nodeId]).count other = starts.count other := by
  rw [List.count_append, List.count_singleton, if_neg]
  · rfl
  · rw [beq_iff_eq]
    exact fun heq => hne heq.symm

theorem start (h : Budgeted w) (hearned : Earned w nodeId)
    (recorded : Bool) : Budgeted (w.start nodeId recorded) := by
  rcases hearned with ⟨hfirst, hnobody⟩
  have hbefore : (w.starts.count nodeId : Int) ≤ w.retries := by
    rcases hfirst with hzero | hrequeued
    · rw [hzero]
      exact h.nonneg
    · exact h.requeued nodeId hrequeued
  have hcounted : forall i other attempts,
      (w.loops i).counted = some (other, attempts) -> other ≠ nodeId := by
    intro i other attempts hc
    by_cases hi : i < w.plan.drivers.length
    · exact hnobody i hi (other, attempts) hc
    · rw [h.idle i (Nat.le_of_not_lt hi)] at hc
      cases hc
  constructor
  · exact h.nonneg
  · exact h.copies
  · exact h.idle
  · intro other hmem
    rcases List.mem_filter.mp hmem with ⟨hold, hne⟩
    show ((w.starts ++ [nodeId]).count other : Int) ≤ w.retries
    rw [count_start_of_ne w.starts (bne_iff_ne.mp hne)]
    exact h.requeued other hold
  · intro i other attempts hc
    show ((w.starts ++ [nodeId]).count other : Int) ≤ w.retries
    rw [count_start_of_ne w.starts (hcounted i other attempts hc)]
    exact h.counted i other attempts hc
  · intro other
    show ((w.starts ++ [nodeId]).count other : Int) ≤ w.retries + 1
    by_cases hsame : other = nodeId
    · rw [hsame, count_start]
      exact Int.add_le_add_right hbefore 1
    · rw [count_start_of_ne w.starts hsame]
      exact h.starts other

theorem setLoop (h : Budgeted w) {i : Nat} {loop : RetryLoop}
    (hi : i < w.plan.drivers.length ∨ loop.counted = none)
    (hcounted : forall nodeId attempts, loop.counted = some (nodeId, attempts) ->
      (w.starts.count nodeId : Int) ≤ w.retries) : Budgeted (w.setLoop i loop) := by
  constructor
  · exact h.nonneg
  · exact h.copies
  · intro j hj
    show (Function.update w.loops i loop j).counted = none
    by_cases hji : j = i
    · rw [hji, Function.update_self]
      rcases hi with hlt | hnone
      · rw [hji] at hj
        exact absurd hlt (Nat.not_lt.mpr hj)
      · exact hnone
    · rw [Function.update_of_ne hji]
      exact h.idle j hj
  · exact h.requeued
  · intro j nodeId attempts hc
    have hloop : (Function.update w.loops i loop j).counted = some (nodeId, attempts) := hc
    by_cases hji : j = i
    · rw [hji, Function.update_self] at hloop
      exact hcounted nodeId attempts hloop
    · rw [Function.update_of_ne hji] at hloop
      exact h.counted j nodeId attempts hloop
  · exact h.starts

theorem requeue (h : Budgeted w)
    (hcount : (w.starts.count nodeId : Int) ≤ w.retries) (updates : Bool) :
    Budgeted
      { w with requeued := if updates then w.requeued ++ [nodeId] else w.requeued } := by
  refine ⟨h.nonneg, h.copies, h.idle, ?_, h.counted, h.starts⟩
  cases updates with
  | false => exact h.requeued
  | true =>
      intro other hmem
      rcases List.mem_append.mp hmem with hold | hnew
      · exact h.requeued other hold
      · rw [List.mem_singleton.mp hnew]
        exact hcount

end Budgeted

theorem RetryLoop.counted_afterCount {loop : RetryLoop} {maxNodeRetries : Int} {nodeId : String}
    {answer : Option Int} (hbefore : loop.counted = none) {counted : String × Int}
    (h : (loop.afterCount maxNodeRetries nodeId answer).counted = some counted) :
    counted.1 = nodeId ∧ answer = some counted.2 ∧ counted.2 ≤ maxNodeRetries := by
  cases answer with
  | none => cases h
  | some attempts =>
      simp only [RetryLoop.afterCount] at h
      split at h
      · rw [hbefore] at h
        cases h
      · rename_i hwithin
        cases h
        exact ⟨rfl, rfl, Int.not_lt.mp hwithin⟩

theorem failedNode_driver {w : RetryWorld} {i : Nat} {failed : Int × String}
    (h : w.failedNode i = some failed) :
    exists d plan, w.plan.drivers[i]? = some d ∧ d.plan? = some plan ∧
      plan.maxNodeRetries = failed.1 := by
  unfold RetryWorld.failedNode at h
  split at h
  · rename_i plan graph hd
    split at h
    · cases h
    · rcases Option.map_eq_some_iff.mp h with ⟨id, _, hfailed⟩
      rw [← hfailed]
      exact ⟨_, plan, hd, rfl, rfl⟩
  · cases h

theorem lt_of_getElem? {α : Type} {l : List α} {i : Nat} {a : α} (h : l[i]? = some a) :
    i < l.length := (List.getElem?_eq_some_iff.mp h).choose

theorem Budgeted.step {w w' : RetryWorld} {action : RetryAction} (h : Budgeted w)
    (hok : KeepsCount w action) (hstep : retryStep w action = some w') : Budgeted w' := by
  cases action with
  | plan action =>
      simp only [retryStep] at hstep
      split at hstep
      · cases hstep
      · rcases Option.map_eq_some_iff.mp hstep with ⟨p, hp, hw'⟩
        rw [← hw']
        exact h.planned (planStep_kept hp)
  | start i recorded =>
      simp only [retryStep] at hstep
      split at hstep
      · rename_i nodeId p hnode hp
        cases hstep
        have hstarted := h.start (hok nodeId hnode) recorded
        have hkept : PlanKept (w.start nodeId recorded).plan p := planStep_kept hp
        exact (hstarted.planned hkept).withRuns _ _
      · cases hstep
  | attach i attached =>
      simp only [retryStep] at hstep
      split at hstep
      · rcases Option.map_eq_some_iff.mp hstep with ⟨p, hp, hw'⟩
        rw [← hw']
        exact (h.planned (planStep_kept hp)).withRuns _ _
      · cases hstep
  | count i counts =>
      simp only [retryStep] at hstep
      split at hstep
      · rename_i maxNodeRetries nodeId hfailed hbefore
        cases hstep
        rcases failedNode_driver hfailed with ⟨d, plan, hd, hplan, hmax⟩
        apply h.setLoop (.inl (lt_of_getElem? hd))
        intro other attempts hcounted
        rcases RetryLoop.counted_afterCount hbefore hcounted with ⟨hid, hanswer, hle⟩
        have hallowed : w.retries = maxNodeRetries := by
          unfold RetryWorld.retries
          rw [h.copies d (List.mem_of_getElem? hd) plan hplan]
          exact hmax
        cases counts with
        | false => cases hanswer
        | true =>
            have hattempts : (countRunsForNodeInPlan w.runs nodeId : Int) = attempts :=
              Option.some.inj hanswer
            have hwithin : (countRunsForNodeInPlan w.runs nodeId : Int) ≤ maxNodeRetries := by
              rw [hattempts]
              exact hle
            have hall : countRunsForNodeInPlan w.runs nodeId = w.starts.count nodeId :=
              hok (maxNodeRetries, nodeId) hfailed hwithin
            have hother : other = nodeId := hid
            rw [hother, hallowed, ← hall]
            exact hwithin
      · cases hstep
  | requeue i updates records =>
      simp only [retryStep] at hstep
      split at hstep
      · cases hstep
      · rename_i nodeId attempts hcounted
        cases hstep
        have hcount := h.counted i nodeId attempts hcounted
        have hloop : Budgeted
            (w.setLoop i ((w.loops i).afterRequeue attempts (updates && records))) := by
          apply h.setLoop (.inr rfl)
          intro other k hnone
          cases hnone
        exact hloop.requeue hcount updates
  | conclude i =>
      simp only [retryStep] at hstep
      split at hstep
      · cases hstep
      · rcases Option.map_eq_some_iff.mp hstep with ⟨p, hp, hw'⟩
        rw [← hw']
        have hloop : Budgeted (w.setLoop i RetryLoop.idle) := by
          apply h.setLoop (.inr rfl)
          intro other k hnone
          cases hnone
        have hkept : PlanKept (w.setLoop i RetryLoop.idle).plan p := planStep_kept hp
        exact hloop.planned hkept
  | outside nodeId recorded =>
      simp only [retryStep] at hstep
      split at hstep
      · cases hstep
        exact h.start hok recorded
      · cases hstep

theorem budgeted_of_reachable {w : RetryWorld}
    (h : retryMachine.ReachableUnder KeepsCount w) : Budgeted w := by
  refine h.invariant (P := Budgeted) ?_ (fun w action w' hw hok hstep => hw.step hok hstep)
  intro w hw
  rw [show w = noRetries from hw]
  constructor
  · exact Int.le_refl 0
  · intro d hd
    cases hd
  · intro i _
    rfl
  · intro nodeId hmem
    cases hmem
  · intro i nodeId attempts hcounted
    cases hcounted
  · intro nodeId
    exact Int.le_of_lt (Int.zero_lt_one)

/-- In every run that keeps the count, at most one agent run more than the retries
allowed is started for a node. -/
theorem node_starts_within_budget {w : RetryWorld} (h : retryMachine.ReachableUnder KeepsCount w)
    {row : PlanRow} (hrow : w.plan.row = some row) (nodeId : String) :
    (w.starts.count nodeId : Int) ≤ row.maxNodeRetries + 1 := by
  have hretries : w.retries = row.maxNodeRetries := by
    unfold RetryWorld.retries
    rw [hrow]
    rfl
  rw [← hretries]
  exact (budgeted_of_reachable h).starts nodeId

def retryOptions : PlanOptions :=
  { gateMode := .autonomous
    maxActiveRuns := some 1
    failureMode := .retry
    maxNodeRetries := 1 }

/-- A turn of the first driver up to the point where the status of the task counts. -/
def turnOn (status : TaskStatus) : List RetryAction :=
  [.plan (.driver 0 .tick),
    .plan
      (.driver 0 (.graph (.ok (taskGraph status)))),
    .plan
      (.driver 0
        (.gates
          { evaluate := fun _ => none
            updates := fun _ => true
            records := fun _ => true
            names := fun _ => true }))]

def endTurn : List RetryAction :=
  [.plan (.driver 0 .tick),
    .plan (.driver 0 .tick)]

def startTask : List RetryAction :=
  [.start 0 true, .attach 0 true] ++ endTurn

def requeueTask : List RetryAction :=
  [.count 0 true, .requeue 0 true true, .conclude 0] ++
    endTurn

def upToRequeue : List RetryAction :=
  [.plan (.run (taskGraph .draft) 2 retryOptions),
    .plan (.launch true)] ++
    turnOn .draft ++ startTask ++ turnOn .failed ++ requeueTask

/-- The driver starts the task once more, which makes two agent runs. -/
theorem node_starts_within_budget_oneRetry :
    exists w row, retryMachine.ReachableUnder KeepsCount w ∧ w.plan.row = some row ∧
      row.maxNodeRetries = 1 ∧ w.starts = ["a", "a"] ∧
      (w.starts.count "a" : Int) ≤ row.maxNodeRetries + 1 := by
  have hrun : Option.any
      (fun w => w.plan.row.any (fun row => decide (row.maxNodeRetries = 1)) &&
        decide (w.starts = ["a", "a"]))
      (retryMachine.runUnder KeepsCount noRetries
        (upToRequeue ++ turnOn TaskStatus.queued ++ startTask)) = true := by
    decide +kernel
  rcases retryMachine.exists_reachable_of_runUnder rfl hrun with ⟨w, hw, hp⟩
  rcases Bool.and_eq_true_iff.mp hp with ⟨hrow, hstarts⟩
  rcases (Option.any_eq_true _ _).mp hrow with ⟨row, hrow, hone⟩
  exact ⟨w, row, hw, hrow, of_decide_eq_true hone, of_decide_eq_true hstarts,
    node_starts_within_budget hw hrow "a"⟩

/-- The scheduler starts the requeued task.  That run is not attached, so that its
failure leaves the count as it was and the task is requeued again. -/
theorem queued_continuation_exceeds_budget :
    ¬ forall w row nodeId, retryMachine.Reachable w -> w.plan.row = some row ->
      row.failureMode = PlanFailureMode.retry ->
        (w.starts.count nodeId : Int) ≤ row.maxNodeRetries + 1 := by
  intro hall
  have hrun : Option.any
      (fun w => w.plan.row.any (fun row => decide
        (row.failureMode = PlanFailureMode.retry ∧ row.maxNodeRetries = 1)) &&
        decide (w.starts.count "a" = 3))
      (retryMachine.runFrom noRetries
        (upToRequeue ++ [RetryAction.outside "a" false] ++ turnOn TaskStatus.failed ++
          requeueTask ++ turnOn TaskStatus.queued ++ startTask)) = true := by
    decide +kernel
  rcases retryMachine.exists_reachable_of_runFrom rfl hrun with ⟨w, hw, hp⟩
  rcases Bool.and_eq_true_iff.mp hp with ⟨hrow, hstarts⟩
  rcases (Option.any_eq_true _ _).mp hrow with ⟨row, hrow, hboth⟩
  rcases of_decide_eq_true hboth with ⟨hretry, hone⟩
  have hbound := hall w row "a" hw hrow hretry
  rw [of_decide_eq_true hstarts, hone] at hbound
  exact absurd hbound (by decide)

end WorkGraph
end Perpetual
