import Perpetual.WorkGraph.LostWork

/-!
# The size of the lost work

The size of the failed subtrees against the nodes that are lost, for any list of failed
nodes, and against the count of the completed ones.
-/

namespace Perpetual
namespace WorkGraph

open Foundation

variable {graph : Graph} {roots : List String}

/-- The nodes that are failed roots, or are gated on one over unfinished nodes. -/
def lostNodes (graph : Graph) (roots : List String) : Set WorkNode :=
  { n | n ∈ graph.nodes ∧ Lost (dependencies graph.edges) (doneIds graph) roots n.id }

def lostPlanNodes (graph : Graph) (roots : List String) : Set WorkNode :=
  { n | n ∈ lostNodes graph roots ∧ n.kind ≠ .group }

def AreFailed (graph : Graph) (roots : List String) : Prop :=
  forall root, root ∈ roots ->
    exists n, n ∈ graph.nodes ∧ n.id = root ∧ n.status = .failed

instance : Decidable (AreFailed graph roots) := by
  unfold AreFailed
  infer_instance

def takenUp (graph : Graph) (roots : List String) : List String :=
  lostWork (dependencies graph.edges) (doneIds graph)
    (roots.length + (dependencies graph.edges).length) roots []

theorem known_of_lost (hends : EndsInGraph graph) (hroots : AreFailed graph roots) {id : String}
    (h : Lost (dependencies graph.edges) (doneIds graph) roots id) :
    id ∈ graph.nodes.map WorkNode.id := by
  rcases h with ⟨root, hroot, hpath⟩
  rcases Relation.ReflTransGen.cases_tail hpath with heq | ⟨_, _, hlead⟩
  · rcases hroots root hroot with ⟨n, hn, hid, _⟩
    rw [heq]
    exact List.mem_map.mpr ⟨n, hn, hid⟩
  · exact (hends.closed _ hlead.left).right

theorem not_success_of_lost (hids : (graph.nodes.map WorkNode.id).Nodup)
    (hroots : AreFailed graph roots) {n : WorkNode} (h : n ∈ lostNodes graph roots) :
    isSuccessStatus n.status = false := by
  rcases h with ⟨hn, root, hroot, hpath⟩
  rcases Relation.ReflTransGen.cases_tail hpath with heq | ⟨_, _, hlead⟩
  · rcases hroots root hroot with ⟨m, hm, hid, hfailed⟩
    have hsame : m = n := List.inj_on_of_nodup_map hids hm hn (hid.trans heq.symm)
    rw [← hsame, hfailed]
    rfl
  · rw [Bool.eq_false_iff]
    exact fun hdone => hlead.right (mem_doneIds hn hdone)

theorem mem_lostPlanNodes {n : WorkNode} :
    n ∈ lostPlanNodes graph roots <->
      n ∈ (planNodes graph).filter (fun n => n.id ∈ takenUp graph roots) := by
  have hlost : n.id ∈ takenUp graph roots <->
      Lost (dependencies graph.edges) (doneIds graph) roots n.id := mem_lostWork
  rw [List.mem_filter, decide_eq_true_eq, hlost, mem_planNodes]
  constructor
  · rintro ⟨⟨hn, h⟩, hkind⟩
    exact ⟨⟨hn, hkind⟩, h⟩
  · rintro ⟨⟨hn, hkind⟩, h⟩
    exact ⟨⟨hn, h⟩, hkind⟩

theorem gatingSubtreeSize_eq_length (hids : (graph.nodes.map WorkNode.id).Nodup)
    (hends : EndsInGraph graph) (hroots : AreFailed graph roots) :
    gatingSubtreeSize roots graph =
      ((planNodes graph).filter (fun n => n.id ∈ takenUp graph roots)).length := by
  have hnodup : (takenUp graph roots).Nodup := nodup_lostWork _
  have hunknown : (takenUp graph roots).filter
      (fun id => id ∉ graph.nodes.map WorkNode.id) = [] := by
    rw [List.filter_eq_nil_iff]
    intro id hid hnot
    exact of_decide_eq_true hnot (known_of_lost hends hroots (mem_lostWork.mp hid))
  have hsize : gatingSubtreeSize roots graph =
      ((takenUp graph roots).filter (fun id =>
        id ∉ (graph.nodes.filter (fun n => n.kind == .group)).map
          WorkNode.id)).length := rfl
  rw [hsize, length_not_group hids hnodup, hunknown]
  rfl

theorem ncard_lostPlanNodes (hids : (graph.nodes.map WorkNode.id).Nodup) :
    (lostPlanNodes graph roots).ncard =
      ((planNodes graph).filter (fun n => n.id ∈ takenUp graph roots)).length := by
  classical
  have hnodup : ((planNodes graph).filter (fun n => n.id ∈ takenUp graph roots)).Nodup :=
    (List.Nodup.of_map WorkNode.id (nodup_planIds hids)).filter _
  have hset : lostPlanNodes graph roots =
      ((planNodes graph).filter (fun n => n.id ∈ takenUp graph roots)).toFinset := by
    ext n
    rw [mem_lostPlanNodes, Finset.mem_coe, List.mem_toFinset]
  rw [hset, Set.ncard_coe_finset, List.toFinset_card_of_nodup hnodup]

theorem completed_eq_countP (hids : (graph.nodes.map WorkNode.id).Nodup)
    (hroots : AreFailed graph roots) :
    (planCounts graph).completed =
      ((planNodes graph).filter (fun n => n.id ∉ takenUp graph roots)).countP
        (fun n => isSuccessStatus n.status) := by
  rw [planCounts_completed_eq_countP, List.countP_filter]
  congr 1
  apply List.countP_congr
  intro n hn
  rw [Bool.and_eq_true, decide_eq_true_eq]
  constructor
  · intro hdone
    refine ⟨hdone, fun htaken => ?_⟩
    have hlost : n ∈ lostNodes graph roots :=
      ⟨(mem_planNodes.mp hn).left, mem_lostWork.mp htaken⟩
    rw [not_success_of_lost hids hroots hlost] at hdone
    cases hdone
  · exact fun h => h.left

/-- The size is the number of the lost nodes that are no groups, none of the lost nodes
is successful, and what is completed and what is lost make up the plan exactly if all
other nodes of the plan are successful. -/
theorem gatingSubtreeSize_exact (hids : (graph.nodes.map WorkNode.id).Nodup)
    (hends : EndsInGraph graph) (hroots : AreFailed graph roots) :
    gatingSubtreeSize roots graph = (lostPlanNodes graph roots).ncard ∧
      (forall n, n ∈ lostNodes graph roots -> isSuccessStatus n.status = false) ∧
      (planCounts graph).completed ≤
        (planNodes graph).length - gatingSubtreeSize roots graph ∧
      ((planCounts graph).completed =
          (planNodes graph).length - gatingSubtreeSize roots graph <->
        forall n, n ∈ planNodes graph -> n ∉ lostPlanNodes graph roots ->
          isSuccessStatus n.status = true) := by
  have hsize := gatingSubtreeSize_eq_length hids hends hroots
  have hcompleted := completed_eq_countP hids hroots
  have hsplit := List.length_eq_length_filter_add
    (l := planNodes graph) (fun n => decide (n.id ∈ takenUp graph roots))
  have hout : (planNodes graph).filter (fun n => !decide (n.id ∈ takenUp graph roots)) =
      (planNodes graph).filter (fun n => n.id ∉ takenUp graph roots) := by
    apply List.filter_congr
    intro n _
    exact (decide_not ..).symm
  have hle := List.countP_le_length
    (p := fun n : WorkNode => isSuccessStatus n.status)
    (l := (planNodes graph).filter (fun n => n.id ∉ takenUp graph roots))
  have hall := List.countP_eq_length
    (p := fun n : WorkNode => isSuccessStatus n.status)
    (l := (planNodes graph).filter (fun n => n.id ∉ takenUp graph roots))
  rw [hout] at hsplit
  refine ⟨?_, fun n hn => not_success_of_lost hids hroots hn, ?_, ?_⟩
  · rw [hsize, ncard_lostPlanNodes hids]
  · omega
  · have heq : (planCounts graph).completed =
        (planNodes graph).length - gatingSubtreeSize roots graph <->
        forall n, n ∈ (planNodes graph).filter (fun n => n.id ∉ takenUp graph roots) ->
          isSuccessStatus n.status = true := by
      rw [← hall]
      omega
    rw [heq]
    constructor
    · intro h n hn hnot
      apply h n
      rw [List.mem_filter, decide_eq_true_eq]
      refine ⟨hn, fun htaken => hnot (mem_lostPlanNodes.mpr ?_)⟩
      exact List.mem_filter.mpr ⟨hn, decide_eq_true htaken⟩
    · intro h n hn
      rcases List.mem_filter.mp hn with ⟨hplan, hnot⟩
      apply h n hplan
      intro hlost
      rcases List.mem_filter.mp (mem_lostPlanNodes.mp hlost) with ⟨_, htaken⟩
      exact of_decide_eq_true hnot (of_decide_eq_true htaken)

def subtreeNode (id : String) (kind : WorkNodeKind) (status : TaskStatus) : WorkNode :=
  { id := id
    projectId := "p"
    kind := kind
    status := status
    priority := .medium
    sortOrder := 0
    createdAt := 0 }

def dependsOn (dependent prerequisite : String) : WorkEdge :=
  { id := dependent ++ prerequisite
    projectId := "p"
    sourceId := dependent
    targetId := prerequisite
    kind := .dependsOn
    label := none }

/-- A cycle through a group, and a node that was done before its prerequisite failed. -/
def failedCycle : Graph :=
  { nodes :=
      [subtreeNode "a" .task .failed,
        subtreeNode "b" .task .draft,
        subtreeNode "g" .group .draft,
        subtreeNode "c" .task .draft,
        subtreeNode "d" .task .done]
    edges :=
      [dependsOn "b" "a", dependsOn "g" "b", dependsOn "c" "g", dependsOn "a" "c",
        dependsOn "d" "a"] }

theorem gatingSubtreeSize_exact_failedCycle :
    (lostPlanNodes failedCycle ["a"]).ncard = 3 ∧
      (planCounts failedCycle).completed =
        (planNodes failedCycle).length - gatingSubtreeSize ["a"] failedCycle := by
  have hexact := @gatingSubtreeSize_exact failedCycle ["a"] (by decide) (by decide +kernel)
    (by decide +kernel)
  have hsize : gatingSubtreeSize ["a"] failedCycle = 3 := by decide +kernel
  rw [hsize] at hexact ⊢
  exact ⟨Int.ofNat_inj.mp hexact.left.symm, by decide +kernel⟩

end WorkGraph
end Perpetual
