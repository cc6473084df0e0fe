import Perpetual.WorkGraph.GatePause

/-!
# Gates and finished nodes

The counts and the prerequisites take done and cancelled nodes for finished.  The
gates test the status on their own, and for milestones against done alone.  The
results say for which graphs the two agree.
-/

namespace Perpetual
namespace WorkGraph

/-- What the gates stop at: a node in review or a due milestone. -/
def AwaitsGate (graph : Graph) (n : WorkNode) : Prop :=
  n.status = .review ∨ isDueMilestone graph n = true

/-- The nodes that the manual check reports. -/
def isManualGate (graph : Graph) (n : WorkNode) : Bool :=
  n.kind != .group &&
    (n.status == .review || isDueMilestone graph n)

theorem manualGatePending_eq_any (graph : Graph) :
    manualGatePending graph = graph.nodes.any (isManualGate graph) := rfl

variable {graph : Graph} {n : WorkNode}

theorem awaitsGate_of_isManualGate (h : isManualGate graph n = true) : AwaitsGate graph n := by
  unfold isManualGate at h
  rw [Bool.and_eq_true, Bool.or_eq_true, beq_iff_eq] at h
  exact h.right

def statusAfter (writes : List (String × TaskStatus)) (n : WorkNode) : TaskStatus :=
  (((writes.filter (fun w => w.1 == n.id)).getLast?).map Prod.snd).getD n.status

theorem statusAfter_of_not_written {writes : List (String × TaskStatus)}
    (h : forall w, w ∈ writes -> w.1 ≠ n.id) : statusAfter writes n = n.status := by
  have hnone : writes.filter (fun w => w.1 == n.id) = [] := by
    rw [List.filter_eq_nil_iff]
    intro w hw
    rw [beq_iff_eq]
    exact h w hw
  unfold statusAfter
  rw [hnone]
  rfl

/-!
## What the gates write
-/

variable {answers : GateAnswers}

variable {w : String × TaskStatus}

theorem manualGate_writes {nodes : List WorkNode}
    (h : w ∈ (manualGate graph answers nodes).1.statuses) :
    exists n, n ∈ nodes ∧ n.id = w.1 ∧ AwaitsGate graph n := by
  induction nodes with
  | nil => cases h
  | cons n rest ih =>
      have hrest : w ∈ (manualGate graph answers rest).1.statuses ->
          exists m, m ∈ n :: rest ∧ m.id = w.1 ∧ AwaitsGate graph m := by
        intro hw
        rcases ih hw with ⟨m, hm, hid, hawaits⟩
        exact ⟨m, List.mem_cons_of_mem n hm, hid, hawaits⟩
      unfold manualGate at h
      split at h
      · exact hrest h
      · split at h
        · cases h
        · split at h
          next hdue =>
            split at h
            · rw [List.mem_singleton.mp h]
              exact ⟨n, List.mem_cons_self, rfl, .inr hdue⟩
            · cases h
          next => exact hrest h

theorem automaticGate_writes {evaluated : Bool} {nodes : List WorkNode}
    {statuses : List (String × TaskStatus)} {updatedAny : Bool}
    (h : w ∈ (automaticGate evaluated graph answers nodes statuses updatedAny).1.statuses) :
    w ∈ statuses ∨ exists n, n ∈ nodes ∧ n.id = w.1 ∧ AwaitsGate graph n := by
  induction nodes generalizing statuses updatedAny with
  | nil => exact .inl h
  | cons n rest ih =>
      have hrest : (w ∈ statuses ∨
            exists m, m ∈ rest ∧ m.id = w.1 ∧ AwaitsGate graph m) ->
          w ∈ statuses ∨ exists m, m ∈ n :: rest ∧ m.id = w.1 ∧ AwaitsGate graph m := by
        rintro (hw | ⟨m, hm, hid, hawaits⟩)
        · exact .inl hw
        · exact .inr ⟨m, List.mem_cons_of_mem n hm, hid, hawaits⟩
      unfold automaticGate at h
      split at h
      · exact hrest (ih h)
      · split at h
        next hawaits =>
          have hwritten : forall status, w ∈ statuses ++ [(n.id, status)] ->
              w ∈ statuses ∨ exists m, m ∈ n :: rest ∧ m.id = w.1 ∧
                AwaitsGate graph m := by
            intro status hw
            rcases List.mem_append.mp hw with hw | hw
            · exact .inl hw
            · rw [List.mem_singleton.mp hw]
              exact .inr ⟨n, List.mem_cons_self, rfl, hawaits⟩
          split at h
          · exact .inl h
          · split at h
            · exact .inl h
            · split at h
              · exact hwritten _ h
              · rcases ih h with hw | ⟨m, hm, hid, hm'⟩
                · exact hwritten _ hw
                · exact .inr ⟨m, List.mem_cons_of_mem n hm, hid, hm'⟩
          · split at h
            · exact .inl h
            · exact hwritten _ h
        next => exact hrest (ih h)

variable {mode : GateMode}

theorem applyGateMode_writes (h : w ∈ (applyGateMode mode graph answers).1.statuses) :
    exists n, n ∈ graph.nodes ∧ n.id = w.1 ∧ AwaitsGate graph n := by
  cases mode with
  | manual => exact manualGate_writes h
  | autoEvaluate =>
      rcases automaticGate_writes h with hw | hn
      · cases hw
      · exact hn
  | autonomous =>
      rcases automaticGate_writes h with hw | hn
      · cases hw
      · exact hn

/-!
## What the gates pause at
-/

theorem manualGate_singleton_awaitsGate
    (h : (manualGate graph answers [n]).2 = some .paused) : AwaitsGate graph n := by
  unfold manualGate at h
  split at h
  · cases h
  · split at h
    next hreview => exact .inl hreview
    next =>
      split at h
      next hdue => exact .inr hdue
      next => cases h

theorem automaticGate_concat_of_not_awaitsGate {evaluated : Bool} {front : List WorkNode}
    {statuses : List (String × TaskStatus)} {updatedAny : Bool} (hn : ¬ AwaitsGate graph n) :
    (automaticGate evaluated graph answers (front ++ [n]) statuses updatedAny).2 =
      (automaticGate evaluated graph answers front statuses updatedAny).2 := by
  induction front generalizing statuses updatedAny with
  | nil =>
      rw [List.nil_append]
      conv_lhs => rw [automaticGate]
      split
      · rfl
      · rw [if_neg (show ¬ (n.status = .review ∨ isDueMilestone graph n = true) from hn)]
  | cons m front ih =>
      rw [List.cons_append, automaticGate, automaticGate]
      split
      · exact ih
      · split
        · split
          · rfl
          · split
            · rfl
            · split
              · rfl
              · exact ih
          · split
            · rfl
            · rfl
        · exact ih

theorem PausedBy.awaitsGate (h : PausedBy mode graph answers n) : AwaitsGate graph n := by
  rcases h with ⟨front, _, _, hfront, hpaused⟩
  by_contra hn
  apply hfront
  cases mode with
  | manual =>
      by_cases hcontinue : (manualGate graph answers front).2 =
          some .continue
      · have hone : (manualGate graph answers [n]).2 = some .paused := by
          rw [← manualGate_append_of_continue [n] hcontinue]
          exact hpaused
        exact absurd (manualGate_singleton_awaitsGate hone) hn
      · have hsame := manualGate_append_of_not_continue [n] hcontinue
        show (manualGate graph answers front).2 = some .paused
        rw [← hsame]
        exact hpaused
  | autoEvaluate =>
      exact (automaticGate_concat_of_not_awaitsGate hn).symm.trans hpaused
  | autonomous =>
      exact (automaticGate_concat_of_not_awaitsGate hn).symm.trans hpaused

/-!
## Finished nodes
-/

/-- The gates write to no finished node, do not pause because of one, and the
manual check reports none. -/
structure LeavesFinished (mode : GateMode) (graph : Graph) (answers : GateAnswers) :
    Prop where
  status : forall n, n ∈ graph.nodes -> isSuccessStatus n.status = true ->
    statusAfter (applyGateMode mode graph answers).1.statuses n = n.status
  pause : forall n, PausedBy mode graph answers n -> isSuccessStatus n.status = false
  check : forall n, n ∈ graph.nodes -> isSuccessStatus n.status = true ->
    isManualGate graph n = false

/-- No cancelled milestone has all its prerequisites. -/
def NoDueCancelled (graph : Graph) : Prop :=
  forall n, n ∈ graph.nodes -> n.kind = .milestone ->
    n.status = .cancelled -> prerequisitesComplete n.id graph = false

theorem isDueMilestone_eq_true :
    isDueMilestone graph n = true <->
      n.kind = .milestone ∧ n.status ≠ .done ∧
        prerequisitesComplete n.id graph = true := by
  unfold isDueMilestone
  rw [Bool.and_eq_true, Bool.and_eq_true, beq_iff_eq, bne_iff_ne]
  exact and_assoc

theorem isSuccessStatus_eq_true {status : TaskStatus} :
    isSuccessStatus status = true <->
      status = .done ∨ status = .cancelled := by
  unfold isSuccessStatus
  rw [Bool.or_eq_true, beq_iff_eq, beq_iff_eq]

theorem NoDueCancelled.not_awaitsGate (h : NoDueCancelled graph) (hn : n ∈ graph.nodes)
    (hsuccess : isSuccessStatus n.status = true) : ¬ AwaitsGate graph n := by
  rcases isSuccessStatus_eq_true.mp hsuccess with hdone | hcancelled
  · rintro (hreview | hdue)
    · cases hdone.symm.trans hreview
    · exact (isDueMilestone_eq_true.mp hdue).right.left hdone
  · rintro (hreview | hdue)
    · cases hcancelled.symm.trans hreview
    · rcases isDueMilestone_eq_true.mp hdue with ⟨hkind, _, hprereqs⟩
      rw [h n hn hkind hcancelled] at hprereqs
      cases hprereqs

theorem PausedBy.mem (h : PausedBy mode graph answers n) : n ∈ graph.nodes := by
  rcases h with ⟨front, back, hnodes, _, _⟩
  rw [hnodes]
  exact List.mem_append_right front List.mem_cons_self

/-- The gates agree with the counts on which nodes are finished if and only if no
cancelled milestone has all its prerequisites. -/
theorem gates_leave_finished_iff {graph : Graph} (hids : (graph.nodes.map WorkNode.id).Nodup)
    (mode : GateMode) (answers : GateAnswers) :
    LeavesFinished mode graph answers <-> NoDueCancelled graph := by
  constructor
  · intro h n hn hkind hcancelled
    by_contra hprereqs
    rw [Bool.not_eq_false] at hprereqs
    have hdue : isDueMilestone graph n = true := by
      apply isDueMilestone_eq_true.mpr
      refine ⟨hkind, ?_, hprereqs⟩
      intro hdone
      cases hcancelled.symm.trans hdone
    have hreported : isManualGate graph n = true := by
      unfold isManualGate
      rw [hdue, hkind, Bool.or_true]
      rfl
    have hnone := h.check n hn (isSuccessStatus_eq_true.mpr (Or.inr hcancelled))
    rw [hreported] at hnone
    cases hnone
  · intro h
    constructor
    · intro n hn hsuccess
      apply statusAfter_of_not_written
      intro w hw hid
      rcases applyGateMode_writes hw with ⟨m, hm, hmid, hawaits⟩
      have hsame : m = n := List.inj_on_of_nodup_map hids hm hn (hmid.trans hid)
      rw [hsame] at hawaits
      exact h.not_awaitsGate hn hsuccess hawaits
    · intro n hpaused
      by_contra hsuccess
      rw [Bool.not_eq_false] at hsuccess
      exact h.not_awaitsGate hpaused.mem hsuccess hpaused.awaitsGate
    · intro n hn hsuccess
      by_contra hgate
      rw [Bool.not_eq_false] at hgate
      exact h.not_awaitsGate hn hsuccess (awaitsGate_of_isManualGate hgate)

def milestoneGraph (status : TaskStatus) : Graph :=
  { nodes :=
      [{ id := "m"
         projectId := "p"
         kind := .milestone
         status := status
         priority := .medium
         sortOrder := 0
         createdAt := 0 }]
    edges := [] }

/-- A milestone that is done stays so in every mode. -/
theorem gates_leave_finished_done :
    LeavesFinished GateMode.autonomous (milestoneGraph TaskStatus.done)
      undecidedAnswers := by
  apply (gates_leave_finished_iff (by decide) GateMode.autonomous undecidedAnswers).mpr
  intro n hn _ hcancelled
  rw [List.mem_singleton.mp hn] at hcancelled
  cases hcancelled

/-- A cancelled milestone is put in review by manual gates, which pause because of
it and report it, and is made done by autonomous gates. -/
theorem gates_reopen_cancelled_milestone :
    ¬ (forall mode graph answers, (graph.nodes.map WorkNode.id).Nodup ->
      LeavesFinished mode graph answers) ∧
    exists n, n ∈ (milestoneGraph TaskStatus.cancelled).nodes ∧
      isSuccessStatus n.status = true ∧
      statusAfter
        (applyGateMode GateMode.manual (milestoneGraph TaskStatus.cancelled)
          undecidedAnswers).1.statuses n = TaskStatus.review ∧
      statusAfter
        (applyGateMode GateMode.autonomous (milestoneGraph TaskStatus.cancelled)
          undecidedAnswers).1.statuses n = TaskStatus.done ∧
      PausedBy GateMode.manual (milestoneGraph TaskStatus.cancelled)
        undecidedAnswers n ∧
      isManualGate (milestoneGraph TaskStatus.cancelled) n = true := by
  constructor
  · intro hall
    have hleaves := hall GateMode.manual (milestoneGraph TaskStatus.cancelled)
      undecidedAnswers (by decide)
    have hsame := hleaves.status _ List.mem_cons_self (by decide)
    exact absurd hsame (by decide)
  · exact ⟨_, List.mem_cons_self, by decide, by decide, by decide,
      ⟨[], [], rfl, by decide, by decide⟩, by decide⟩

end WorkGraph
end Perpetual
