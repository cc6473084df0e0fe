import Perpetual.WorkGraph.FinishedNodes
import Perpetual.WorkGraph.LostWork

/-!
# Plans that go on after a failure

In continue mode a turn ends the run by one of two comparisons of counts.  The
results say when these agree with what is left to do outside the failed subtrees.
The comparisons leave out that the failed subtrees may be the whole plan and that
nodes run in the cloud.
-/

namespace Perpetual
namespace WorkGraph

open Foundation
open Scheduler

def Driver.turn (row : Option PlanRow) : Driver -> List DriverInput -> Option Driver
  | d, [] => some d
  | .writing _, _ :: _ => none
  | d, input :: rest =>
      match d.step row input with
      | none => none
      | some next => Driver.turn next.row next.driver rest

def TurnWrites (row : Option PlanRow) (plan : PlanRow) (graph : Graph)
    (inputs : List DriverInput) (progress : PlanProgress) : Prop :=
  Driver.turn row (.loading plan) (.graph (.ok graph) :: inputs) =
    some (.writing progress)

/-- Every start that fails is tried again in a later turn. -/
def NoStartError (inputs : List DriverInput) : Prop :=
  forall error, .start (.error error) ∈ inputs ->
    planStartErrorIsRetryable error.display = true

def IsExecuting (status : TaskStatus) : Prop :=
  isActiveStatus status = true ∨ status = .runningInCloud

instance (status : TaskStatus) : Decidable (IsExecuting status) :=
  inferInstanceAs (Decidable (isActiveStatus status = true ∨ _))

def NothingExecutes (graph : Graph) : Prop :=
  forall n, n ∈ planNodes graph -> ¬ IsExecuting n.status

instance (graph : Graph) : Decidable (NothingExecutes graph) :=
  inferInstanceAs (Decidable (forall n, n ∈ planNodes graph -> _))

/-- With nothing under way and nothing to start the turn ends the run. -/
def EndsWhenIdle (plan : PlanRow) (graph : Graph) : Prop :=
  NothingExecutes graph -> readyRunnableNodes graph = [] ->
    forall row answers, exists progress,
      TurnWrites row plan graph [.gates answers] progress ∧
        IsTerminal progress.state

/-- A turn that ends the run without a start error leaves nothing under way and
nothing to start outside the failed subtrees. -/
def EndsOnlyWhenDone (plan : PlanRow) (graph : Graph) : Prop :=
  forall row inputs progress, TurnWrites row plan graph inputs progress ->
    NoStartError inputs -> IsTerminal progress.state ->
      forall n, n ∈ planNodes graph -> ¬ InFailedSubtree graph n.id ->
        ¬ IsExecuting n.status ∧ isReadyRunnable graph n = false

/-!
## Where a turn ends the run
-/

/-- The comparison before the starts. -/
def RemainderComplete (plan : PlanRow) (graph : Graph) : Prop :=
  0 < (planNodes graph).length ∧ 0 < attainableWork plan graph ∧
    attainableWork plan graph ≤ (planCounts graph).completed

/-- The comparison after the starts. -/
def NothingRunnable (plan : PlanRow) (graph : Graph) : Prop :=
  (planCounts graph).active = 0 ∧ readyRunnableNodes graph = [] ∧
    (planCounts graph).completed < attainableWork plan graph

theorem not_awaiting_of_not_isManualGate {graph : Graph} {n : WorkNode}
    (h : isManualGate graph n = false) (hgroup : n.kind ≠ .group) :
    n.status ≠ .review ∧ isDueMilestone graph n = false := by
  unfold isManualGate at h
  rw [Bool.and_eq_false_iff, bne_eq_false_iff_eq, or_iff_right hgroup,
    Bool.or_eq_false_iff, beq_eq_false_iff_ne] at h
  exact h

theorem manualGate_continue {graph : Graph} {answers : GateAnswers} {nodes : List WorkNode}
    (h : forall n, n ∈ nodes -> isManualGate graph n = false) :
    (manualGate graph answers nodes).2 = some .continue := by
  induction nodes with
  | nil => rfl
  | cons n rest ih =>
      have hrest := ih (fun m hm => h m (List.mem_cons_of_mem n hm))
      unfold manualGate
      by_cases hgroup : n.kind = .group
      · rw [if_pos hgroup]
        exact hrest
      · have hn := not_awaiting_of_not_isManualGate (h n List.mem_cons_self) hgroup
        rw [if_neg hgroup, if_neg hn.left, hn.right, if_neg Bool.false_ne_true]
        exact hrest

theorem automaticGate_continue {evaluated : Bool} {graph : Graph} {answers : GateAnswers}
    {nodes : List WorkNode} (h : forall n, n ∈ nodes -> isManualGate graph n = false)
    (statuses : List (String × TaskStatus)) :
    (automaticGate evaluated graph answers nodes statuses false).2 =
      some .continue := by
  induction nodes with
  | nil => rfl
  | cons n rest ih =>
      have hrest := ih (fun m hm => h m (List.mem_cons_of_mem n hm))
      unfold automaticGate
      by_cases hskip : n.kind = .group ∨ isActiveStatus n.status
      · rw [if_pos hskip]
        exact hrest
      · rw [if_neg hskip]
        rw [not_or] at hskip
        have hn := not_awaiting_of_not_isManualGate (h n List.mem_cons_self) hskip.left
        rw [if_neg]
        · exact hrest
        · rintro (hreview | hdue)
          · exact hn.left hreview
          · rw [hn.right] at hdue
            cases hdue

theorem applyGateMode_continue {mode : GateMode} {graph : Graph} {answers : GateAnswers}
    (h : manualGatePending graph = false) :
    (applyGateMode mode graph answers).2 = some .continue := by
  rw [manualGatePending_eq_any, List.any_eq_false] at h
  have hnone : forall n, n ∈ graph.nodes -> isManualGate graph n = false :=
    fun n hn => Bool.not_eq_true _ ▸ h n hn
  cases mode with
  | manual => exact manualGate_continue hnone
  | autoEvaluate => exact automaticGate_continue hnone []
  | autonomous => exact automaticGate_continue hnone []

section Turn

variable {plan : PlanRow} {graph : Graph}

variable {row : Option PlanRow}

theorem turn_afterGates {answers : GateAnswers} (hmode : plan.failureMode = .continue)
    (hvalid : validateGatingEdgesAcyclic graph.nodes graph.edges = .ok ())
    (hfailed : failedIds graph ≠ []) (hgate : manualGatePending graph = false)
    (inputs : List DriverInput) :
    exists row', Driver.turn row (.loading plan)
        (.graph (.ok graph) :: .gates answers :: inputs) =
      Driver.turn row' (afterFailures plan graph) inputs := by
  have hcheck : checkGraph plan graph = .gating plan graph := by
    unfold checkGraph
    rw [hvalid]
  have hafter : gateOutcome plan graph
      (applyGateMode plan.gateMode graph answers).2 = afterFailures plan graph := by
    rw [applyGateMode_continue hgate]
    show afterGates plan graph = _
    unfold afterGates
    rw [if_neg hfailed, hmode]
  refine ⟨gateRow (applyGateMode plan.gateMode graph answers).1 row, ?_⟩
  show Driver.turn row (checkGraph plan graph) (.gates answers :: inputs) = _
  rw [hcheck]
  show Driver.turn _ (gateOutcome plan graph
    (applyGateMode plan.gateMode graph answers).2) inputs = _
  rw [hafter]

variable {progress : PlanProgress} {inputs : List DriverInput}

theorem turn_writing {p : PlanProgress}
    (h : Driver.turn row (.writing p) inputs = some (.writing progress)) :
    progress = p := by
  cases inputs with
  | nil =>
      injection h with h
      injection h with h
      exact h.symm
  | cons input rest => cases h

theorem turn_afterStarts {started : Int}
    (h : Driver.turn row (afterStarts plan graph started) inputs = some (.writing progress))
    (hend : IsTerminal progress.state) : NothingRunnable plan graph := by
  unfold afterStarts at h
  by_cases hstall : plan.failureMode = .continue ∧ failedIds graph ≠ [] ∧
      (planCounts graph).active = 0 ∧ started = 0 ∧
      (readyRunnableNodes graph).length = 0 ∧
      (planCounts graph).completed < attainableWork plan graph
  · exact ⟨hstall.2.2.1, List.eq_nil_of_length_eq_zero hstall.2.2.2.2.1, hstall.2.2.2.2.2⟩
  · rw [if_neg hstall] at h
    rw [turn_writing h] at hend
    rcases hend with hend | hend | hend <;> cases hend

theorem turn_startNodes {ready : List WorkNode} {started : Int}
    (h : Driver.turn row (startNodes plan graph ready started) inputs = some (.writing progress))
    (hstarts : NoStartError inputs) (hend : IsTerminal progress.state) :
    NothingRunnable plan graph := by
  induction ready generalizing started row inputs with
  | nil => exact turn_afterStarts h hend
  | cons node ready ih =>
      rw [startNodes] at h
      by_cases hbudget : started < startBudget plan graph
      · rw [if_pos hbudget] at h
        cases inputs with
        | nil => cases h
        | cons input rest =>
            have hrest : NoStartError rest :=
              fun error he => hstarts error (List.mem_cons_of_mem input he)
            cases input with
            | start outcome =>
                cases outcome with
                | ok _ =>
                    change Driver.turn row (.attaching plan graph ready started) rest =
                      some (.writing progress) at h
                    cases rest with
                    | nil => cases h
                    | cons attached rest =>
                        cases attached with
                        | tick =>
                            exact ih h (fun error he =>
                              hrest error (List.mem_cons_of_mem _ he))
                        | _ => cases h
                | error error =>
                    change Driver.turn row (startOutcome plan graph ready started error)
                      rest = some (.writing progress) at h
                    unfold startOutcome at h
                    rw [if_pos (hstarts error List.mem_cons_self)] at h
                    exact ih h hrest
            | _ => cases h
      · rw [if_neg hbudget] at h
        exact turn_afterStarts h hend

theorem afterFailures_of_complete (hfailed : failedIds graph ≠ [])
    (h : RemainderComplete plan graph) :
    afterFailures plan graph =
      planFailed
        { planCounts graph with active := 0, blocked := excludedWork plan graph }
        ("completed all independent work; " ++ toString (failedIds graph).length ++
          " failed node(s) and their dependents were skipped") :=
  (if_pos h).trans (if_neg hfailed)

theorem afterFailures_of_open (h : ¬ RemainderComplete plan graph) :
    afterFailures plan graph = startNodes plan graph (readyRunnableNodes graph) 0 :=
  if_neg h

theorem turn_ends
    (h : Driver.turn row (afterFailures plan graph) inputs = some (.writing progress))
    (hstarts : NoStartError inputs) (hend : IsTerminal progress.state) :
    RemainderComplete plan graph ∨ NothingRunnable plan graph := by
  by_cases hdone : RemainderComplete plan graph
  · exact .inl hdone
  · rw [afterFailures_of_open hdone] at h
    exact .inr (turn_startNodes h hstarts hend)

theorem afterFailures_ends (hmode : plan.failureMode = .continue) (hfailed : failedIds graph ≠ [])
    (h : RemainderComplete plan graph ∨ NothingRunnable plan graph) :
    exists progress, afterFailures plan graph = .writing progress ∧
      IsTerminal progress.state := by
  by_cases hdone : RemainderComplete plan graph
  · exact ⟨_, afterFailures_of_complete hfailed hdone, .inr (.inl rfl)⟩
  · rcases h with h | ⟨hactive, hready, hopen⟩
    · exact absurd h hdone
    · have hstall : plan.failureMode = .continue ∧ failedIds graph ≠ [] ∧
          (planCounts graph).active = 0 ∧ (0 : Int) = 0 ∧
          (readyRunnableNodes graph).length = 0 ∧
          (planCounts graph).completed < attainableWork plan graph :=
        ⟨hmode, hfailed, hactive, rfl, by rw [hready]; rfl, hopen⟩
      rw [afterFailures_of_open hdone, hready]
      exact ⟨_, if_pos hstall, .inr (.inl rfl)⟩

theorem afterFailures_goes_on (hready : readyRunnableNodes graph = [])
    (hdone : ¬ RemainderComplete plan graph) (hstall : ¬ NothingRunnable plan graph) :
    exists progress, afterFailures plan graph = .writing progress ∧
      ¬ IsTerminal progress.state := by
  have hnot : ¬ (plan.failureMode = .continue ∧ failedIds graph ≠ [] ∧
      (planCounts graph).active = 0 ∧ (0 : Int) = 0 ∧
      (readyRunnableNodes graph).length = 0 ∧
      (planCounts graph).completed < attainableWork plan graph) := by
    rintro ⟨_, _, hactive, _, _, hopen⟩
    exact hstall ⟨hactive, hready, hopen⟩
  rw [afterFailures_of_open hdone, hready]
  refine ⟨_, if_neg hnot, ?_⟩
  rintro (hend | hend | hend) <;> cases hend

/-!
## The comparisons in terms of the graph
-/

theorem attainableWork_eq (hmode : plan.failureMode = .continue)
    (hids : (graph.nodes.map WorkNode.id).Nodup) :
    attainableWork plan graph =
      max ((outsideFailed graph).length - (unknownLost graph).length : Int) 0 := by
  unfold attainableWork excludedWork
  rw [if_pos hmode, gatingSubtreeSize_eq hids]
  congr 1
  omega

theorem length_openOutside (graph : Graph) :
    (openOutside graph).length ≤ (outsideFailed graph).length :=
  List.length_filter_le _ _

theorem planNodes_of_failed (hfailed : failedIds graph ≠ []) : 0 < (planNodes graph).length := by
  rcases List.exists_mem_of_ne_nil _ hfailed with ⟨id, hid⟩
  rcases List.mem_map.mp hid with ⟨n, hn, _⟩
  exact List.length_pos_of_mem (List.mem_of_mem_filter hn)

theorem remainderComplete_iff (hmode : plan.failureMode = .continue)
    (hids : (graph.nodes.map WorkNode.id).Nodup) (hfailed : failedIds graph ≠ []) :
    RemainderComplete plan graph <->
      (unknownLost graph).length < (outsideFailed graph).length ∧
        (openOutside graph).length ≤ (unknownLost graph).length := by
  have hnodes := planNodes_of_failed hfailed
  have hopen := length_openOutside graph
  unfold RemainderComplete
  rw [attainableWork_eq hmode hids, planCounts_completed hids]
  constructor
  · rintro ⟨_, hpos, hle⟩
    omega
  · rintro ⟨hpos, hle⟩
    refine ⟨hnodes, ?_, ?_⟩
    · omega
    · omega

theorem nothingRunnable_iff (hmode : plan.failureMode = .continue)
    (hids : (graph.nodes.map WorkNode.id).Nodup) :
    NothingRunnable plan graph <->
      (forall n, n ∈ planNodes graph -> isActiveStatus n.status = false) ∧
        readyRunnableNodes graph = [] ∧
        (unknownLost graph).length < (openOutside graph).length := by
  have hopen := length_openOutside graph
  unfold NothingRunnable
  rw [attainableWork_eq hmode hids, planCounts_completed hids, planCounts_active]
  constructor
  · rintro ⟨hactive, hready, hlt⟩
    refine ⟨hactive, hready, ?_⟩
    omega
  · rintro ⟨hactive, hready, hlt⟩
    refine ⟨hactive, hready, ?_⟩
    omega

/-!
## When the turns are right
-/

/-- Neither comparison is misled.  Some node of the plan lies outside the failed
subtrees when nothing is under way and nothing can be started; and no node outside
them runs in the cloud when nothing is under way here, nothing can be started and
work is open.  An id that no node has counts for a node; where such ids hide all
open work, nothing is under way outside the failed subtrees. -/
structure ContinueFits (graph : Graph) : Prop where
  remains : NothingExecutes graph -> readyRunnableNodes graph = [] ->
    (unknownLost graph).length < (outsideFailed graph).length
  hidden : (unknownLost graph).length < (outsideFailed graph).length ->
    (openOutside graph).length ≤ (unknownLost graph).length ->
      forall n, n ∈ outsideFailed graph ->
        ¬ IsExecuting n.status ∧ isReadyRunnable graph n = false
  cloud : (forall n, n ∈ planNodes graph -> isActiveStatus n.status = false) ->
    readyRunnableNodes graph = [] ->
      (unknownLost graph).length < (openOutside graph).length ->
        forall n, n ∈ outsideFailed graph -> n.status ≠ .runningInCloud

theorem not_ready_of_none {n : WorkNode} (h : readyRunnableNodes graph = [])
    (hn : n ∈ graph.nodes) : isReadyRunnable graph n = false := by
  cases hready : isReadyRunnable graph n with
  | false => rfl
  | true =>
      have hmem : n ∈ readyRunnableNodes graph := by
        unfold readyRunnableNodes
        rw [List.mem_insertionSort]
        exact List.mem_filter.mpr ⟨hn, hready⟩
      rw [h] at hmem
      cases hmem

theorem exists_gates (hvalid : validateGatingEdgesAcyclic graph.nodes graph.edges = .ok ())
    (h : TurnWrites row plan graph inputs progress) :
    exists answers rest, inputs = .gates answers :: rest := by
  have hcheck : checkGraph plan graph = .gating plan graph := by
    unfold checkGraph
    rw [hvalid]
  change Driver.turn row (checkGraph plan graph) inputs = _ at h
  rw [hcheck] at h
  cases inputs with
  | nil => cases h
  | cons input rest =>
      cases input with
      | gates answers => exact ⟨answers, rest, rfl⟩
      | _ => cases h

theorem turnWrites_gates (hmode : plan.failureMode = .continue)
    (hvalid : validateGatingEdgesAcyclic graph.nodes graph.edges = .ok ())
    (hfailed : failedIds graph ≠ []) (hgate : manualGatePending graph = false)
    (row : Option PlanRow) (answers : GateAnswers) (progress : PlanProgress) :
    TurnWrites row plan graph [.gates answers] progress <->
      afterFailures plan graph = .writing progress := by
  rcases @turn_afterGates plan graph row answers hmode hvalid hfailed hgate [] with ⟨row', hturn⟩
  unfold TurnWrites
  rw [hturn]
  exact Option.some_inj

theorem idle_of_compares (hmode : plan.failureMode = .continue)
    (hvalid : validateGatingEdgesAcyclic graph.nodes graph.edges = .ok ())
    (hfailed : failedIds graph ≠ []) (hgate : manualGatePending graph = false)
    (honly : EndsOnlyWhenDone plan graph)
    (h : RemainderComplete plan graph ∨ NothingRunnable plan graph) :
    forall n, n ∈ outsideFailed graph ->
      ¬ IsExecuting n.status ∧ isReadyRunnable graph n = false := by
  intro n hn
  rcases mem_outsideFailed.mp hn with ⟨hplan, hout⟩
  rcases afterFailures_ends hmode hfailed h with ⟨progress, hprogress, hend⟩
  have hwrites := turnWrites_gates hmode hvalid hfailed hgate none quietGates progress
  apply honly none [.gates quietGates] progress (hwrites.mpr hprogress) _ hend n hplan hout
  intro error herror
  cases List.mem_singleton.mp herror

theorem compares_of_endsWhenIdle (hmode : plan.failureMode = .continue)
    (hvalid : validateGatingEdgesAcyclic graph.nodes graph.edges = .ok ())
    (hfailed : failedIds graph ≠ []) (hgate : manualGatePending graph = false)
    (hidle : EndsWhenIdle plan graph) (hnone : NothingExecutes graph)
    (hready : readyRunnableNodes graph = []) :
    RemainderComplete plan graph ∨ NothingRunnable plan graph := by
  by_contra hneither
  rcases not_or.mp hneither with ⟨hnotDone, hnotStall⟩
  rcases hidle hnone hready none quietGates with ⟨progress, hturn, hend⟩
  have hprogress :=
    (turnWrites_gates hmode hvalid hfailed hgate none quietGates progress).mp hturn
  rcases afterFailures_goes_on hready hnotDone hnotStall with ⟨other, hother, hgoes⟩
  rw [hother] at hprogress
  injection hprogress with hsame
  rw [hsame] at hgoes
  exact hgoes hend

theorem ContinueFits.endsWhenIdle (hmode : plan.failureMode = .continue)
    (hids : (graph.nodes.map WorkNode.id).Nodup)
    (hvalid : validateGatingEdgesAcyclic graph.nodes graph.edges = .ok ())
    (hfailed : failedIds graph ≠ []) (hgate : manualGatePending graph = false)
    (hfits : ContinueFits graph) : EndsWhenIdle plan graph := by
  intro hnone hready row answers
  have hsome := hfits.remains hnone hready
  have hcompares : RemainderComplete plan graph ∨ NothingRunnable plan graph := by
    by_cases hhidden : (openOutside graph).length ≤ (unknownLost graph).length
    · exact .inl ((remainderComplete_iff hmode hids hfailed).mpr ⟨hsome, hhidden⟩)
    · refine .inr ((nothingRunnable_iff hmode hids).mpr
        ⟨fun n hn => ?_, hready, Nat.lt_of_not_le hhidden⟩)
      exact Bool.not_eq_true _ ▸ fun hbusy => hnone n hn (.inl hbusy)
  rcases afterFailures_ends hmode hfailed hcompares with ⟨progress, hprogress, hend⟩
  exact ⟨progress,
    (turnWrites_gates hmode hvalid hfailed hgate row answers progress).mpr hprogress, hend⟩

theorem ContinueFits.endsOnlyWhenDone (hmode : plan.failureMode = .continue)
    (hids : (graph.nodes.map WorkNode.id).Nodup)
    (hvalid : validateGatingEdgesAcyclic graph.nodes graph.edges = .ok ())
    (hfailed : failedIds graph ≠ []) (hgate : manualGatePending graph = false)
    (hfits : ContinueFits graph) : EndsOnlyWhenDone plan graph := by
  intro row inputs progress hturn hstarts hend n hplan hout
  have hn := mem_outsideFailed.mpr ⟨hplan, hout⟩
  rcases exists_gates hvalid hturn with ⟨answers, rest, hinputs⟩
  rw [hinputs] at hturn hstarts
  rcases @turn_afterGates plan graph row answers hmode hvalid hfailed hgate rest with ⟨row', hrest⟩
  unfold TurnWrites at hturn
  rw [hrest] at hturn
  have hstarts' : NoStartError rest :=
    fun error he => hstarts error (List.mem_cons_of_mem _ he)
  rcases turn_ends hturn hstarts' hend with hcomplete | hnothing
  · rcases (remainderComplete_iff hmode hids hfailed).mp hcomplete with ⟨hsome, hhidden⟩
    exact hfits.hidden hsome hhidden n hn
  · rcases (nothingRunnable_iff hmode hids).mp hnothing with ⟨hactive, hready, hwork⟩
    refine ⟨?_, not_ready_of_none hready (mem_planNodes.mp hplan).left⟩
    rintro (hbusy | hcloud)
    · rw [hactive n hplan] at hbusy
      cases hbusy
    · exact hfits.cloud hactive hready hwork n hn hcloud

/-- In continue mode, after a failure and with no gate pending, the turns end the
run exactly when nothing more can run, on the graphs that fit and on no others. -/
theorem continue_turn_iff (hmode : plan.failureMode = PlanFailureMode.continue)
    (hids : (graph.nodes.map WorkNode.id).Nodup)
    (hvalid : validateGatingEdgesAcyclic graph.nodes graph.edges = Except.ok ())
    (hfailed : failedIds graph ≠ []) (hgate : manualGatePending graph = false) :
    EndsWhenIdle plan graph ∧ EndsOnlyWhenDone plan graph <-> ContinueFits graph := by
  have hdone := remainderComplete_iff hmode hids hfailed
  have hstall := nothingRunnable_iff hmode hids
  constructor
  · rintro ⟨hidle, honly⟩
    have hends := idle_of_compares hmode hvalid hfailed hgate honly
    constructor
    · intro hnone hready
      rcases compares_of_endsWhenIdle hmode hvalid hfailed hgate hidle hnone hready with
        hcomplete | hnothing
      · exact (hdone.mp hcomplete).left
      · exact Nat.lt_of_lt_of_le (hstall.mp hnothing).2.2 (length_openOutside graph)
    · intro hsome hhidden
      exact hends (Or.inl (hdone.mpr ⟨hsome, hhidden⟩))
    · intro hactive hready hwork n hn hcloud
      have hnot := hends (Or.inr (hstall.mpr ⟨hactive, hready, hwork⟩)) n hn
      exact hnot.left (Or.inr hcloud)
  · intro hfits
    exact ⟨hfits.endsWhenIdle hmode hids hvalid hfailed hgate,
      hfits.endsOnlyWhenDone hmode hids hvalid hfailed hgate⟩

end Turn

def continuePlan : PlanRow :=
  { gateMode := .manual
    state := .running
    maxActiveRuns := 2
    failureMode := .continue
    maxNodeRetries := 0
    resumeAfterNodeId := none
    totalCount := 2
    completedCount := 0
    activeCount := 0
    blockedCount := 0
    error := none }

/-- A failed task and an independent one with the given status. -/
def failureAndTask (status : TaskStatus) : Graph :=
  { nodes :=
      [{ planTask "a" with status := .failed },
        { planTask "b" with status := status }]
    edges := [] }

theorem continue_turn_iff_independent :
    EndsWhenIdle continuePlan (failureAndTask TaskStatus.done) ∧
      EndsOnlyWhenDone continuePlan (failureAndTask TaskStatus.done) := by
  rw [continue_turn_iff rfl (by decide) (by decide) (by decide) (by decide)]
  constructor
  · decide
  · decide
  · decide

/-- A plan whose only node failed goes on for ever, and a plan ends while a task
runs in the cloud. -/
theorem failed_plan_idles_and_cloud_task_is_left :
    validateGatingEdgesAcyclic (taskGraph TaskStatus.failed).nodes
        (taskGraph TaskStatus.failed).edges = Except.ok () ∧
      failedIds (taskGraph TaskStatus.failed) ≠ [] ∧
      manualGatePending (taskGraph TaskStatus.failed) = false ∧
      ¬ EndsWhenIdle continuePlan (taskGraph TaskStatus.failed) ∧
      validateGatingEdgesAcyclic (failureAndTask TaskStatus.runningInCloud).nodes
        (failureAndTask TaskStatus.runningInCloud).edges = Except.ok () ∧
      failedIds (failureAndTask TaskStatus.runningInCloud) ≠ [] ∧
      manualGatePending (failureAndTask TaskStatus.runningInCloud) = false ∧
      ¬ EndsOnlyWhenDone continuePlan (failureAndTask TaskStatus.runningInCloud) := by
  refine ⟨by decide, by decide, by decide, ?_, by decide, by decide, by decide, ?_⟩
  · intro h
    rcases h (by decide) (by decide) none quietGates with ⟨progress, hturn, hend⟩
    have hwrites : TurnWrites none continuePlan (taskGraph TaskStatus.failed)
        [DriverInput.gates quietGates]
        { state := WorkPlanRunState.running
          counts := planCounts (taskGraph TaskStatus.failed)
          error := none } := rfl
    have hsame := hturn.symm.trans hwrites
    injection hsame with hsame
    injection hsame with hsame
    rw [hsame] at hend
    revert hend
    decide
  · intro h
    have hturn : TurnWrites none continuePlan (failureAndTask TaskStatus.runningInCloud)
        [DriverInput.gates quietGates]
        { state := WorkPlanRunState.failed
          counts := { planCounts (failureAndTask TaskStatus.runningInCloud) with active := 0 }
          error := some "no runnable work remains; 1 failed node(s) block the rest" } := rfl
    have hstarts : NoStartError [DriverInput.gates quietGates] := by
      intro error herror
      cases List.mem_singleton.mp herror
    have hout : ¬ InFailedSubtree (failureAndTask TaskStatus.runningInCloud) "b" :=
      fun hlost => absurd (mem_lostIds.mpr hlost) (by decide)
    have hleft := h none _ _ hturn hstarts (Or.inr (Or.inl rfl))
      { planTask "b" with status := TaskStatus.runningInCloud } (by decide) hout
    exact hleft.left (Or.inr rfl)

end WorkGraph
end Perpetual
