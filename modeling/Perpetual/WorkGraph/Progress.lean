import Perpetual.WorkGraph.Plan

/-!
# Progress of a plan

A plan with open work and nothing under way has a node to start or a gate to
wait for.  The one exception is a group with open status that other work is gated
on: groups are never started.

Of the open nodes that a plan counts, the acyclic gating links leave one without
an open prerequisite among them.
-/

namespace Perpetual
namespace WorkGraph

open Foundation

def EndsInGraph (graph : Graph) : Prop :=
  forall e, e ∈ graph.edges ->
    e.sourceId ∈ graph.nodes.map WorkNode.id ∧ e.targetId ∈ graph.nodes.map WorkNode.id

instance (graph : Graph) : Decidable (EndsInGraph graph) := by
  unfold EndsInGraph
  infer_instance

variable {graph : Graph}

theorem EndsInGraph.closed (h : EndsInGraph graph) :
    Closed (graph.nodes.map WorkNode.id) graph.edges := by
  intro d hd
  rcases mem_dependencies.mp hd with ⟨e, he, hdep⟩
  rcases h e he with ⟨hsource, htarget⟩
  rcases ends_of_gatingDependency hdep with ⟨hfst, hsnd⟩ | ⟨hfst, hsnd⟩
  · rw [hfst, hsnd]
    exact ⟨hsource, htarget⟩
  · rw [hfst, hsnd]
    exact ⟨htarget, hsource⟩

theorem mem_planNodes {n : WorkNode} :
    n ∈ planNodes graph <-> n ∈ graph.nodes ∧ n.kind ≠ .group := by
  unfold planNodes
  rw [List.mem_filter, bne_iff_ne]

def NothingUnderWay (graph : Graph) : Prop :=
  forall n, n ∈ planNodes graph ->
    n.status ≠ .failed ∧ isActiveStatus n.status = false ∧
      n.status ≠ .runningInCloud

def HasOpenWork (graph : Graph) : Prop :=
  exists n, n ∈ planNodes graph ∧ isSuccessStatus n.status = false

/-- A group with open status is a prerequisite of a node that the plan counts. -/
def GatedOnGroup (graph : Graph) : Prop :=
  exists g n, g ∈ graph.nodes ∧ g.kind = .group ∧
    isSuccessStatus g.status = false ∧ n ∈ planNodes graph ∧
    (g.id, n.id) ∈ dependencies graph.edges

theorem waiting_of_open {status : TaskStatus} (hopen : isSuccessStatus status = false)
    (hfailed : status ≠ .failed) (hactive : isActiveStatus status = false)
    (hcloud : status ≠ .runningInCloud) :
    status = .review ∨ status = .draft ∨
      status = .queued ∨ status = .paused := by
  cases status with
  | draft => exact .inr (.inl rfl)
  | queued => exact .inr (.inr (.inl rfl))
  | paused => exact .inr (.inr (.inr rfl))
  | review => exact .inl rfl
  | failed => exact absurd rfl hfailed
  | runningInCloud => exact absurd rfl hcloud
  | done => cases hopen
  | cancelled => cases hopen
  | running => cases hactive
  | awaitingApproval => cases hactive
  | waitingForLimit => cases hactive
  | waitingForNetwork => cases hactive

theorem exists_open_prerequisite {nodeId : String}
    (hclosed : Closed (graph.nodes.map WorkNode.id) graph.edges)
    (h : prerequisitesComplete nodeId graph = false) :
    exists m, m ∈ graph.nodes ∧ isSuccessStatus m.status = false ∧
      (m.id, nodeId) ∈ dependencies graph.edges := by
  unfold prerequisitesComplete at h
  rcases List.all_eq_false.mp h with ⟨d, hd, hunmet⟩
  rcases List.mem_filter.mp hd with ⟨hdep, hnode⟩
  rw [beq_iff_eq] at hnode
  rcases List.mem_map.mp (hclosed d hdep).left with ⟨m', hm', hid'⟩
  cases hget : getNode graph.nodes d.1 with
  | none =>
      have hnone := List.find?_eq_none.mp hget m' hm'
      exact absurd (beq_iff_eq.mpr hid') hnone
  | some m =>
      rw [hget] at hunmet
      have hmem := List.mem_of_find?_eq_some hget
      have hid : m.id = d.1 := by
        have hfound := List.find?_some hget
        exact beq_iff_eq.mp hfound
      refine ⟨m, hmem, ?_, ?_⟩
      · simpa using hunmet
      · rw [hid, ← hnode]
        exact hdep

theorem ready_or_gate {n : WorkNode} (hn : n ∈ planNodes graph)
    (hidle : NothingUnderWay graph) (hopen : isSuccessStatus n.status = false)
    (hprereqs : prerequisitesComplete n.id graph = true) :
    readyRunnableNodes graph ≠ [] ∨ manualGatePending graph = true := by
  rcases mem_planNodes.mp hn with ⟨hmem, hkind⟩
  rcases hidle n hn with ⟨hfailed, hactive, hcloud⟩
  have hgate : (n.status == .review || isDueMilestone graph n) = true ->
      manualGatePending graph = true := by
    intro h
    unfold manualGatePending
    rw [List.any_eq_true]
    refine ⟨n, hmem, ?_⟩
    rw [Bool.and_eq_true, bne_iff_ne]
    exact ⟨hkind, h⟩
  have hready : isReadyRunnable graph n = true -> readyRunnableNodes graph ≠ [] := by
    intro h
    apply List.ne_nil_of_mem
    unfold readyRunnableNodes
    rw [List.mem_insertionSort]
    exact List.mem_filter.mpr ⟨hmem, h⟩
  by_cases hmilestone : n.kind = .milestone
  · right
    apply hgate
    have hdone : n.status ≠ .done := by
      intro hdone
      rw [hdone] at hopen
      cases hopen
    simp [isDueMilestone, hmilestone, hdone, hprereqs]
  · have hrunnable : n.kind = .task ∨ n.kind = .session := by
      cases hcase : n.kind with
      | group => exact absurd hcase hkind
      | task => exact .inl rfl
      | session => exact .inr rfl
      | milestone => exact absurd hcase hmilestone
    rcases waiting_of_open hopen hfailed hactive hcloud with hreview | hwaiting
    · right
      apply hgate
      rw [hreview]
      rfl
    · left
      apply hready
      rw [← or_assoc] at hwaiting
      simp [isReadyRunnable, hrunnable, hwaiting, hprereqs]

/-- A validated plan stalls on a failure, on a gate or on a group only. -/
theorem plan_progress {graph : Graph} (hids : (graph.nodes.map WorkNode.id).Nodup)
    (hends : EndsInGraph graph)
    (hvalid : validateGatingEdgesAcyclic graph.nodes graph.edges = Except.ok ())
    (hidle : NothingUnderWay graph) (hwork : HasOpenWork graph) :
    readyRunnableNodes graph ≠ [] ∨ manualGatePending graph = true ∨
      GatedOnGroup graph := by
  have hacyclic := (validateGatingEdgesAcyclic_iff hids hends.closed).mp hvalid
  have hpart : ((planNodes graph).filter (fun n => !isSuccessStatus n.status)).map
      WorkNode.id ≠ [] := by
    rcases hwork with ⟨n, hn, hopen⟩
    apply List.ne_nil_of_mem
    exact List.mem_map_of_mem (List.mem_filter.mpr ⟨hn, by simpa using hopen⟩)
  rcases hacyclic.exists_source hpart with ⟨id, hid, hsource⟩
  rcases List.mem_map.mp hid with ⟨n, hn, hnid⟩
  rcases List.mem_filter.mp hn with ⟨hn, hopen⟩
  rw [Bool.not_eq_true'] at hopen
  cases hprereqs : prerequisitesComplete n.id graph with
  | true =>
      rcases ready_or_gate hn hidle hopen hprereqs with hready | hgate
      · exact Or.inl hready
      · exact Or.inr (Or.inl hgate)
  | false =>
      rcases exists_open_prerequisite hends.closed hprereqs with ⟨m, hm, hmopen, hdep⟩
      by_cases hgroup : m.kind = WorkNodeKind.group
      · exact Or.inr (Or.inr ⟨m, n, hm, hgroup, hmopen, hn, hdep⟩)
      · -- an open prerequisite that the plan counts would come before the source
        rw [hnid] at hdep
        refine absurd hdep (hsource m.id ?_)
        apply List.mem_map_of_mem
        apply List.mem_filter.mpr
        exact ⟨mem_planNodes.mpr ⟨hm, hgroup⟩, by simpa using hmopen⟩

def chainGraph : Graph :=
  { nodes :=
      [{ id := "a"
         projectId := "p"
         kind := .task
         status := .draft
         priority := .medium
         sortOrder := 0
         createdAt := 0 },
        { id := "b"
          projectId := "p"
          kind := .task
          status := .paused
          priority := .medium
          sortOrder := 1
          createdAt := 0 }]
    edges :=
      [{ id := "e"
         projectId := "p"
         sourceId := "b"
         targetId := "a"
         kind := .dependsOn
         label := none }] }

theorem plan_progress_chain :
    readyRunnableNodes chainGraph ≠ [] ∨ manualGatePending chainGraph = true ∨
      GatedOnGroup chainGraph := by
  have hends : EndsInGraph chainGraph := by
    intro e he
    rw [List.mem_singleton.mp he]
    decide
  have hidle : NothingUnderWay chainGraph := by
    unfold NothingUnderWay
    decide
  have hvalid : validateGatingEdgesAcyclic chainGraph.nodes chainGraph.edges = Except.ok () := by
    rw [validateGatingEdgesAcyclic_iff (by decide) hends.closed]
    apply Digraph.acyclic_of_rank (fun id => if id = "a" then 0 else 1)
    intro u v huv
    have heq : (u, v) = ("a", "b") := List.mem_singleton.mp huv
    injection heq with hu hv
    rw [hu, hv]
    decide
  exact plan_progress (by decide) hends hvalid hidle ⟨_, List.mem_cons_self, by decide⟩

end WorkGraph
end Perpetual
