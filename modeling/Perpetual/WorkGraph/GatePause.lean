import Perpetual.Foundation.Cells
import Perpetual.WorkGraph.PlanSteps

/-!
# Gate pauses

A paused run is resumed without the user in two ways: when a node is completed,
the runs that wait for it are resumed, and the scheduler resumes the runs whose
node is done.  Both read the node that the row says to resume after.  The
results relate that node to the one that paused the gates.
-/

namespace Perpetual
namespace WorkGraph

open Foundation

/-!
## The node that paused the gates
-/

def gateNodes (mode : GateMode) (graph : Graph) (answers : GateAnswers)
    (nodes : List WorkNode) : GateWrites × Option PlanGateOutcome :=
  match mode with
  | .manual => manualGate graph answers nodes
  | .autoEvaluate => automaticGate true graph answers nodes [] false
  | .autonomous => automaticGate false graph answers nodes [] false

theorem applyGateMode_eq_gateNodes (mode : GateMode) (graph : Graph) (answers : GateAnswers) :
    applyGateMode mode graph answers = gateNodes mode graph answers graph.nodes := by
  cases mode with
  | manual => rfl
  | autoEvaluate => rfl
  | autonomous => rfl

/-- The gates pass the nodes before this one and pause at it. -/
def PausedBy (mode : GateMode) (graph : Graph) (answers : GateAnswers)
    (n : WorkNode) : Prop :=
  exists front back, graph.nodes = front ++ n :: back ∧
    (gateNodes mode graph answers front).2 ≠ some .paused ∧
    (gateNodes mode graph answers (front ++ [n])).2 = some .paused

/-!
## What a pause leaves in the row
-/

variable {graph : Graph} {answers : GateAnswers} {front : List WorkNode}

theorem manualGate_append_of_continue (rest : List WorkNode)
    (h : (manualGate graph answers front).2 = some .continue) :
    manualGate graph answers (front ++ rest) = manualGate graph answers rest := by
  induction front with
  | nil => rfl
  | cons m front ih =>
      rw [List.cons_append]
      unfold manualGate at h
      rw [manualGate]
      by_cases hgroup : m.kind = .group
      · rw [if_pos hgroup] at h ⊢
        exact ih h
      · rw [if_neg hgroup] at h ⊢
        by_cases hreview : m.status = .review
        · rw [if_pos hreview] at h
          cases h
        · rw [if_neg hreview] at h ⊢
          by_cases hdue : isDueMilestone graph m = true
          · rw [if_pos hdue] at h
            split at h
            · cases h
            · cases h
          · rw [if_neg hdue] at h ⊢
            exact ih h

theorem manualGate_append_of_not_continue (rest : List WorkNode)
    (h : (manualGate graph answers front).2 ≠ some .continue) :
    manualGate graph answers (front ++ rest) = manualGate graph answers front := by
  induction front with
  | nil => exact absurd rfl h
  | cons m front ih =>
      rw [List.cons_append]
      unfold manualGate at h ⊢
      by_cases hgroup : m.kind = .group
      · rw [if_pos hgroup] at h
        rw [if_pos hgroup, if_pos hgroup]
        exact ih h
      · rw [if_neg hgroup] at h
        rw [if_neg hgroup, if_neg hgroup]
        by_cases hreview : m.status = .review
        · rw [if_pos hreview, if_pos hreview]
        · rw [if_neg hreview] at h
          rw [if_neg hreview, if_neg hreview]
          by_cases hdue : isDueMilestone graph m = true
          · rw [if_pos hdue, if_pos hdue]
          · rw [if_neg hdue] at h
            rw [if_neg hdue, if_neg hdue]
            exact ih h

variable {n : WorkNode}

theorem manualGate_singleton_resumeAfter (h : (manualGate graph answers [n]).2 = some .paused) :
    (manualGate graph answers [n]).1.resumeAfter = resumeAfterNode answers n.id := by
  unfold manualGate at h ⊢
  by_cases hgroup : n.kind = .group
  · rw [if_pos hgroup] at h
    cases h
  · rw [if_neg hgroup] at h ⊢
    by_cases hreview : n.status = .review
    · rw [if_pos hreview]
    · rw [if_neg hreview] at h ⊢
      by_cases hdue : isDueMilestone graph n = true
      · rw [if_pos hdue] at h ⊢
        by_cases hupdates : answers.updates n.id = true
        · rw [if_pos hupdates]
        · rw [if_neg hupdates] at h
          cases h
      · rw [if_neg hdue] at h
        cases h

theorem automaticGate_resumeAfter (evaluated : Bool) (graph : Graph) (answers : GateAnswers)
    (nodes : List WorkNode) (statuses : List (String × TaskStatus)) (updatedAny : Bool) :
    (automaticGate evaluated graph answers nodes statuses updatedAny).1.resumeAfter =
      none := by
  induction nodes generalizing statuses updatedAny with
  | nil => rfl
  | cons n rest ih =>
      unfold automaticGate
      split
      · exact ih statuses updatedAny
      · split
        · split
          · rfl
          · split
            · rfl
            · split
              · rfl
              · exact ih (statuses ++ [(n.id, .done)]) true
          · split
            · rfl
            · rfl
        · exact ih statuses updatedAny

theorem automaticGate_append_of_paused {evaluated : Bool} (rest : List WorkNode)
    {statuses : List (String × TaskStatus)} {updatedAny : Bool}
    (h : (automaticGate evaluated graph answers front statuses updatedAny).2 = some .paused) :
    (automaticGate evaluated graph answers (front ++ rest) statuses updatedAny).2 =
      some .paused := by
  induction front generalizing statuses updatedAny with
  | nil =>
      unfold automaticGate at h
      cases updatedAny with
      | false => cases h
      | true => cases h
  | cons m front ih =>
      rw [List.cons_append]
      unfold automaticGate at h ⊢
      split at h
      next hskip =>
        rw [if_pos hskip]
        exact ih h
      next hskip =>
        rw [if_neg hskip]
        split at h
        next hdue =>
          rw [if_pos hdue]
          cases hverdict : (if evaluated then answers.evaluate m.id
              else some .pass) with
          | none =>
              rw [hverdict] at h
              cases h
          | some verdict =>
              rw [hverdict] at h
              cases verdict with
              | pass =>
                  dsimp only at h ⊢
                  split at h
                  next => cases h
                  next hupdates =>
                    rw [if_neg hupdates]
                    split at h
                    next => cases h
                    next hrecords =>
                      rw [if_neg hrecords]
                      exact ih h
              | fail => exact h
              | needsHuman => exact h
        next hdue =>
          rw [if_neg hdue]
          exact ih h

variable {mode : GateMode}

theorem gateNodes_append_of_paused (rest : List WorkNode)
    (h : (gateNodes mode graph answers front).2 = some .paused) :
    (gateNodes mode graph answers (front ++ rest)).2 = some .paused := by
  cases mode with
  | manual =>
      have hnot : (manualGate graph answers front).2 ≠ some .continue := by
        intro hcontinue
        cases hcontinue.symm.trans h
      show (manualGate graph answers (front ++ rest)).2 = _
      rw [manualGate_append_of_not_continue rest hnot]
      exact h
  | autoEvaluate => exact automaticGate_append_of_paused rest h
  | autonomous => exact automaticGate_append_of_paused rest h

theorem PausedBy.outcome (h : PausedBy mode graph answers n) :
    (applyGateMode mode graph answers).2 = some .paused := by
  rcases h with ⟨front, back, hnodes, _, hpaused⟩
  have hlonger := gateNodes_append_of_paused back hpaused
  rw [List.append_assoc] at hlonger
  rw [applyGateMode_eq_gateNodes, hnodes]
  exact hlonger

theorem PausedBy.manual_resumeAfter (h : PausedBy .manual graph answers n) :
    (applyGateMode .manual graph answers).1.resumeAfter =
      resumeAfterNode answers n.id := by
  rcases h with ⟨front, back, hnodes, hfront, hpaused⟩
  have hcontinue : (manualGate graph answers front).2 = some .continue := by
    by_contra hnot
    have hsame := manualGate_append_of_not_continue [n] hnot
    apply hfront
    show (manualGate graph answers front).2 = some .paused
    rw [← hsame]
    exact hpaused
  have hone : (manualGate graph answers [n]).2 = some .paused := by
    rw [← manualGate_append_of_continue [n] hcontinue]
    exact hpaused
  have hnot : (manualGate graph answers [n]).2 ≠ some .continue := by
    rw [hone]
    exact fun h => nomatch h
  have hrest : manualGate graph answers (n :: back) = manualGate graph answers [n] :=
    manualGate_append_of_not_continue back hnot
  show (manualGate graph answers graph.nodes).1.resumeAfter = _
  rw [hnodes, manualGate_append_of_continue (n :: back) hcontinue, hrest]
  exact manualGate_singleton_resumeAfter hone

theorem PausedBy.resumeAfter (h : PausedBy mode graph answers n) :
    (applyGateMode mode graph answers).1.resumeAfter =
      if mode = .manual then resumeAfterNode answers n.id else none := by
  cases mode with
  | manual => exact h.manual_resumeAfter
  | autoEvaluate => exact automaticGate_resumeAfter true graph answers _ [] false
  | autonomous => exact automaticGate_resumeAfter false graph answers _ [] false

/-!
## Who resumes the run
-/

def NamesNode (row : Option PlanRow) (nodeId : String) : Prop :=
  exists plan, row = some plan ∧ plan.resumeAfterNodeId = some nodeId

/-- What the scheduler finds about the node the run waits for. -/
def waitingNodeDone (done : String -> Bool) (row : Option PlanRow) : Bool :=
  row.any (fun plan => plan.resumeAfterNodeId.any done)

/-- Completing this node resumes the run and completing another one does not, and
the scheduler resumes it as soon as this node is done. -/
def ResumedAfter (row : Option PlanRow) (nodeId : String) : Prop :=
  (forall m, callsResume row (.unblocked m) = true <-> m = nodeId) ∧
    forall done, callsResume row (.scheduler (waitingNodeDone done row)) =
      done nodeId

variable {row : Option PlanRow}

variable {nodeId : String}

theorem resumedAfter_iff_namesNode (hpaused : row.map PlanRow.state = some .paused) :
    ResumedAfter row nodeId <-> NamesNode row nodeId := by
  cases row with
  | none => cases hpaused
  | some plan =>
      injection hpaused with hpaused
      constructor
      · intro h
        have hcalls := (h.left nodeId).mpr rfl
        have hboth : plan.state == .paused && plan.resumeAfterNodeId == some nodeId := hcalls
        rw [Bool.and_eq_true, beq_iff_eq, beq_iff_eq] at hboth
        exact ⟨plan, rfl, hboth.right⟩
      · intro h
        rcases h with ⟨named, hnamed, hnode⟩
        cases hnamed
        constructor
        · intro m
          show (plan.state == .paused && plan.resumeAfterNodeId == some m) = true <-> m = nodeId
          rw [hpaused, hnode, Bool.and_eq_true, beq_iff_eq, beq_iff_eq]
          constructor
          · intro hboth
            injection hboth.right with hm
            exact hm.symm
          · intro hm
            rw [hm]
            exact ⟨rfl, rfl⟩
        · intro done
          show ((plan.state == .paused &&
            plan.resumeAfterNodeId.isSome) && plan.resumeAfterNodeId.any done) =
              done nodeId
          rw [hpaused, hnode]
          simp

theorem namesNode_gateRow {writes : GateWrites} :
    NamesNode (gateRow writes row) nodeId <->
      row.isSome = true ∧ writes.resumeAfter = some nodeId ∨
        writes.resumeAfter = none ∧ NamesNode row nodeId := by
  unfold gateRow NamesNode
  cases row with
  | none => cases writes.resumeAfter <;> simp
  | some plan =>
      cases writes.resumeAfter with
      | none => simp
      | some stored => simp [setPlanRunResumeAfterNode]

theorem namesNode_updatePlanRunProgress {progress : PlanProgress} :
    NamesNode (row.map (updatePlanRunProgress progress)) nodeId <->
      NamesNode row nodeId := by
  unfold NamesNode
  cases row with
  | none => simp
  | some plan => simp [updatePlanRunProgress]

/-!
## The pause of a driver
-/

/-- The gates stored the node of the pause, or the row named it already. -/
def StoredForResume (mode : GateMode) (answers : GateAnswers) (n : WorkNode)
    (row : Option PlanRow) : Prop :=
  (mode = .manual ∧ answers.names n.id = true ∧ row.isSome = true) ∨
    NamesNode row n.id

theorem PausedBy.namesNode_gateRow_iff (h : PausedBy mode graph answers n) :
    NamesNode (gateRow (applyGateMode mode graph answers).1 row) n.id <->
      StoredForResume mode answers n row := by
  rw [namesNode_gateRow, h.resumeAfter]
  unfold StoredForResume resumeAfterNode
  by_cases hmode : mode = .manual
  · rw [if_pos hmode]
    by_cases hnames : answers.names n.id = true
    · rw [if_pos hnames]
      constructor
      · intro hrow
        rcases hrow with ⟨hsome, _⟩ | ⟨hnone, _⟩
        · exact .inl ⟨hmode, hnames, hsome⟩
        · cases hnone
      · intro hstored
        left
        rcases hstored with ⟨_, _, hsome⟩ | ⟨plan, hrow, _⟩
        · exact ⟨hsome, rfl⟩
        · rw [hrow]
          exact ⟨rfl, rfl⟩
    · rw [if_neg hnames]
      simp [hnames]
  · rw [if_neg hmode]
    simp [hmode]

/-- A run in the given mode whose driver has loaded a graph with the task in
review. -/
def upToGates (mode : GateMode) : List PlanAction :=
  [.run (taskGraph .review) 2
      { gateMode := mode
        maxActiveRuns := none
        failureMode := .halt
        maxNodeRetries := 0 },
    .launch true, .driver 0 .tick,
    .driver 0 (.graph (.ok (taskGraph .review)))]

def reviewTask : WorkNode :=
  { id := "a"
    projectId := "p"
    kind := .task
    status := .review
    priority := .medium
    sortOrder := 0
    createdAt := 0 }

def gatedRow (mode : GateMode) : PlanRow :=
  { gateMode := mode
    state := .running
    maxActiveRuns := 2
    failureMode := .halt
    maxNodeRetries := 0
    resumeAfterNodeId := none
    totalCount := 1
    completedCount := 0
    activeCount := 0
    blockedCount := 0
    error := none }

/-- An evaluator that asks for a human. -/
def undecidedAnswers : GateAnswers := GateAnswers.always (some .needsHuman)

theorem exists_gated (mode : GateMode) :
    exists w w', planMachine.Reachable w ∧ w.row = some (gatedRow mode) ∧
      w.drivers[0]? =
        some (.gating (gatedRow mode) (taskGraph .review)) ∧
      planStep w (.driver 0 (.gates undecidedAnswers)) = some w' := by
  have hrun : Option.any
      (fun w => decide (w.row = some (gatedRow mode) ∧
        w.drivers[0]? =
          some (.gating (gatedRow mode) (taskGraph .review)) ∧
        (planStep w
          (.driver 0 (.gates undecidedAnswers))).isSome = true))
      (planMachine.runFrom noPlan (upToGates mode)) = true := by
    cases mode with
    | manual => decide +kernel
    | autoEvaluate => decide +kernel
    | autonomous => decide +kernel
  rcases planMachine.exists_reachable_of_runFrom rfl hrun with ⟨w, hw, hp⟩
  rcases of_decide_eq_true hp with ⟨hrow, hdriver, hsome⟩
  rcases Option.isSome_iff_exists.mp hsome with ⟨w', hw'⟩
  exact ⟨w, w', hw, hrow, hdriver, hw'⟩

end WorkGraph
end Perpetual
