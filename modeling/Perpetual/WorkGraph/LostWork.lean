import Perpetual.WorkGraph.Progress

/-!
# Work lost to failed nodes

The loop that sizes the failed subtrees takes up each node once, and it takes up
exactly the nodes that the failed ones lead to over unfinished nodes.  The counts
of a plan are compared with its result.
-/

namespace Perpetual
namespace WorkGraph

open Foundation

variable {deps : List (String × String)} {done : List String}

/-- A dependent that has not finished is lost with its prerequisite. -/
def Leads (deps : List (String × String)) (done : List String) (a b : String) : Prop :=
  (a, b) ∈ deps ∧ b ∉ done

/-- The node is one of the roots or is gated on them over unfinished nodes. -/
def Lost (deps : List (String × String)) (done roots : List String) (id : String) :
    Prop :=
  exists root, root ∈ roots ∧ Relation.ReflTransGen (Leads deps done) root id

theorem mem_unfinished_outgoing {a b : String} :
    b ∈ (Digraph.outgoing deps a).filter (fun next => next ∉ done) <->
      Leads deps done a b := by
  rw [List.mem_filter, Digraph.mem_outgoing, decide_eq_true_eq]
  rfl

theorem length_outgoing (a : String) :
    (Digraph.outgoing deps a).length = deps.countP (fun d => d.1 = a) := by
  unfold Digraph.outgoing
  rw [List.length_map, List.countP_eq_length_filter]

variable {seen : List String} {id : String}

theorem countP_left (hid : id ∉ seen) :
    deps.countP (fun d => d.1 ∉ seen) =
      deps.countP (fun d => d.1 ∉ seen ++ [id]) + deps.countP (fun d => d.1 = id) := by
  induction deps with
  | nil => rfl
  | cons d deps ih =>
      simp only [List.countP_cons, ih]
      by_cases heq : d.1 = id
      · simp [heq, hid]
        omega
      · by_cases hseen : d.1 ∈ seen
        · simp [heq, hseen]
        · simp [heq, hseen]
          omega

/-- Everything that a node taken up leads to has been taken up or is queued. -/
def Followed (deps : List (String × String)) (done seen queue : List String) : Prop :=
  forall a, a ∈ seen -> forall b, Leads deps done a b -> b ∈ seen ∨ b ∈ queue

/-- The turns cover the queue and the dependencies that are left. -/
def Covered (deps : List (String × String)) (fuel : Nat) (seen queue : List String) :
    Prop :=
  queue.length + deps.countP (fun d => d.1 ∉ seen) ≤ fuel

variable {fuel : Nat} {queue : List String}

theorem Covered.take (hid : id ∉ seen) (h : Covered deps (fuel + 1) seen (id :: queue)) :
    Covered deps fuel (seen ++ [id])
      (queue ++ (Digraph.outgoing deps id).filter (fun next => next ∉ done)) := by
  unfold Covered at h ⊢
  have hlength := List.length_filter_le (fun next => decide (next ∉ done))
    (Digraph.outgoing deps id)
  rw [length_outgoing] at hlength
  rw [countP_left hid, List.length_cons] at h
  rw [List.length_append]
  omega

theorem Followed.take (h : Followed deps done seen (id :: queue)) :
    Followed deps done (seen ++ [id])
      (queue ++ (Digraph.outgoing deps id).filter (fun next => next ∉ done)) := by
  intro a ha b hlead
  rcases List.mem_append.mp ha with ha | ha
  · rcases h a ha b hlead with hb | hb
    · exact .inl (List.mem_append_left _ hb)
    · rcases List.mem_cons.mp hb with hb | hb
      · rw [hb]
        exact .inl List.mem_append_cons_self
      · exact .inr (List.mem_append_left _ hb)
  · rw [List.mem_singleton.mp ha] at hlead
    exact .inr (List.mem_append_right _ (mem_unfinished_outgoing.mpr hlead))

theorem Followed.skip (hid : id ∈ seen)
    (h : Followed deps done seen (id :: queue)) : Followed deps done seen queue := by
  intro a ha b hlead
  rcases h a ha b hlead with hb | hb
  · exact .inl hb
  · rcases List.mem_cons.mp hb with hb | hb
    · rw [hb]
      exact .inl hid
    · exact .inr hb

theorem lostWork_closed (hnodup : seen.Nodup)
    (hcovered : Covered deps fuel seen queue) (hfollowed : Followed deps done seen queue) :
    (lostWork deps done fuel queue seen).Nodup ∧
      (forall v, v ∈ seen ∨ v ∈ queue -> v ∈ lostWork deps done fuel queue seen) ∧
      Followed deps done (lostWork deps done fuel queue seen) [] := by
  induction fuel generalizing seen queue with
  | zero =>
      have hnil : queue = [] := by
        unfold Covered at hcovered
        exact List.eq_nil_of_length_eq_zero (by omega)
      rw [hnil] at hfollowed ⊢
      refine ⟨hnodup, ?_, hfollowed⟩
      rintro v (hv | hv)
      · exact hv
      · cases hv
  | succ fuel ih =>
      cases queue with
      | nil =>
          refine ⟨hnodup, ?_, hfollowed⟩
          rintro v (hv | hv)
          · exact hv
          · cases hv
      | cons id queue =>
          unfold lostWork
          by_cases hid : id ∈ seen
          · rw [if_pos hid]
            have hcovered' : Covered deps fuel seen queue := by
              unfold Covered at hcovered ⊢
              rw [List.length_cons] at hcovered
              omega
            rcases ih hnodup hcovered' (hfollowed.skip hid) with ⟨hn, hkept, hclosed⟩
            refine ⟨hn, ?_, hclosed⟩
            rintro v (hv | hv)
            · exact hkept v (.inl hv)
            · rcases List.mem_cons.mp hv with hv | hv
              · rw [hv]
                exact hkept id (.inl hid)
              · exact hkept v (.inr hv)
          · rw [if_neg hid]
            have hnodup' : (seen ++ [id]).Nodup := by
              apply List.Nodup.append hnodup (List.nodup_singleton _)
              intro v hv hv'
              rw [List.mem_singleton.mp hv'] at hv
              exact hid hv
            rcases ih hnodup' (hcovered.take hid) hfollowed.take with ⟨hn, hkept, hclosed⟩
            refine ⟨hn, ?_, hclosed⟩
            rintro v (hv | hv)
            · exact hkept v (.inl (List.mem_append_left _ hv))
            · rcases List.mem_cons.mp hv with hv | hv
              · rw [hv]
                exact hkept id (.inl List.mem_append_cons_self)
              · exact hkept v (.inr (List.mem_append_left _ hv))

theorem lostWork_sound {roots : List String}
    (hseen : forall v, v ∈ seen -> Lost deps done roots v)
    (hqueue : forall v, v ∈ queue -> Lost deps done roots v) :
    forall v, v ∈ lostWork deps done fuel queue seen -> Lost deps done roots v := by
  induction fuel generalizing seen queue with
  | zero => exact hseen
  | succ fuel ih =>
      cases queue with
      | nil => exact hseen
      | cons id queue =>
          have hid := hqueue id List.mem_cons_self
          have hrest : forall v, v ∈ queue -> Lost deps done roots v :=
            fun v hv => hqueue v (List.mem_cons_of_mem id hv)
          unfold lostWork
          by_cases hknown : id ∈ seen
          · rw [if_pos hknown]
            exact ih hseen hrest
          · rw [if_neg hknown]
            apply ih
            · intro v hv
              rcases List.mem_append.mp hv with hv | hv
              · exact hseen v hv
              · rw [List.mem_singleton.mp hv]
                exact hid
            · intro v hv
              rcases List.mem_append.mp hv with hv | hv
              · exact hrest v hv
              · rcases hid with ⟨root, hroot, hpath⟩
                exact ⟨root, hroot, hpath.tail (mem_unfinished_outgoing.mp hv)⟩

theorem covered_start (roots : List String) : Covered deps (roots.length + deps.length) [] roots :=
  Nat.add_le_add_left List.countP_le_length _

theorem followed_start (roots : List String) : Followed deps done [] roots := by
  intro a ha
  cases ha

theorem mem_lostWork {roots : List String} :
    id ∈ lostWork deps done (roots.length + deps.length) roots [] <->
      Lost deps done roots id := by
  have hspec := lostWork_closed List.nodup_nil (covered_start roots)
    (followed_start roots : Followed deps done [] roots)
  constructor
  · apply lostWork_sound
    · intro v hv
      cases hv
    · intro v hv
      exact ⟨v, hv, Relation.ReflTransGen.refl⟩
  · rintro ⟨root, hroot, hpath⟩
    have hstart := hspec.right.left root (.inr hroot)
    clear hroot
    induction hpath with
    | refl => exact hstart
    | tail _ hlead ih =>
        rcases hspec.right.right _ ih _ hlead with h | h
        · exact h
        · cases h

theorem nodup_lostWork (roots : List String) :
    (lostWork deps done (roots.length + deps.length) roots []).Nodup :=
  (lostWork_closed List.nodup_nil (covered_start roots) (followed_start roots)).left

/-!
## Failed subtrees
-/

def doneIds (graph : Graph) : List String :=
  (graph.nodes.filter (fun n => isSuccessStatus n.status)).map WorkNode.id

/-- The node has failed, or is gated on a failed node over unfinished ones. -/
def InFailedSubtree (graph : Graph) (id : String) : Prop :=
  Lost (dependencies graph.edges) (doneIds graph) (failedIds graph) id

def lostIds (graph : Graph) : List String :=
  lostWork (dependencies graph.edges) (doneIds graph)
    ((failedIds graph).length + (dependencies graph.edges).length) (failedIds graph) []

def outsideFailed (graph : Graph) : List WorkNode :=
  (planNodes graph).filter (fun n => n.id ∉ lostIds graph)

def openOutside (graph : Graph) : List WorkNode :=
  (outsideFailed graph).filter (fun n => !isSuccessStatus n.status)

/-- The ids in the failed subtrees that no node of the graph has. -/
def unknownLost (graph : Graph) : List String :=
  (lostIds graph).filter (fun id => id ∉ graph.nodes.map WorkNode.id)

theorem mem_lostIds {graph : Graph} : id ∈ lostIds graph <-> InFailedSubtree graph id :=
  mem_lostWork

variable {n : WorkNode}

theorem mem_outsideFailed {graph : Graph} :
    n ∈ outsideFailed graph <->
      n ∈ planNodes graph ∧ ¬ InFailedSubtree graph n.id := by
  unfold outsideFailed
  rw [List.mem_filter, decide_eq_true_eq, mem_lostIds]

theorem mem_doneIds {graph : Graph} (hn : n ∈ graph.nodes)
    (hdone : isSuccessStatus n.status = true) : n.id ∈ doneIds graph :=
  List.mem_map_of_mem (List.mem_filter.mpr ⟨hn, hdone⟩)

section Counts

variable {graph : Graph}

theorem not_lost_of_success (hids : (graph.nodes.map WorkNode.id).Nodup) (hn : n ∈ graph.nodes) (hdone : isSuccessStatus n.status = true) :
    ¬ InFailedSubtree graph n.id := by
  rintro ⟨root, hroot, hpath⟩
  rcases Relation.ReflTransGen.cases_tail hpath with heq | ⟨_, _, hlead⟩
  · rw [← heq] at hroot
    rcases List.mem_map.mp hroot with ⟨m, hm, hid⟩
    rcases List.mem_filter.mp hm with ⟨hm, hfailed⟩
    have hsame : m = n :=
      List.inj_on_of_nodup_map hids (mem_planNodes.mp hm).left hn hid
    rw [hsame, beq_iff_eq] at hfailed
    rw [hfailed] at hdone
    cases hdone
  · exact hlead.right (mem_doneIds hn hdone)

theorem nodup_planIds (hids : (graph.nodes.map WorkNode.id).Nodup) :
    ((planNodes graph).map WorkNode.id).Nodup :=
  List.Nodup.sublist (List.Sublist.map _ List.filter_sublist) hids

theorem length_not_group (hids : (graph.nodes.map WorkNode.id).Nodup) {lost : List String}
    (hnodup : lost.Nodup) :
    (lost.filter (fun id =>
      id ∉ (graph.nodes.filter (fun n => n.kind == .group)).map
        WorkNode.id)).length =
      ((planNodes graph).filter (fun n => n.id ∈ lost)).length +
        (lost.filter (fun id => id ∉ graph.nodes.map WorkNode.id)).length := by
  have hplan : ((planNodes graph).filter (fun n => n.id ∈ lost)).length =
      (lost.filter (fun id => id ∈ (planNodes graph).map WorkNode.id)).length := by
    rw [← List.length_map WorkNode.id]
    apply List.Perm.length_eq
    rw [List.perm_ext_iff_of_nodup]
    · intro id
      simp only [List.mem_map, List.mem_filter, decide_eq_true_eq]
      constructor
      · rintro ⟨n, ⟨hn, hlost⟩, hid⟩
        rw [← hid]
        exact ⟨hlost, n, hn, rfl⟩
      · rintro ⟨hlost, n, hn, hid⟩
        rw [← hid] at hlost
        exact ⟨n, ⟨hn, hlost⟩, hid⟩
    · exact List.Nodup.sublist (List.Sublist.map _ List.filter_sublist) (nodup_planIds hids)
    · exact hnodup.filter _
  rw [hplan]
  clear hplan hnodup
  rw [← List.countP_eq_length_filter, ← List.countP_eq_length_filter,
    ← List.countP_eq_length_filter]
  -- an id is a group's, a plan node's or unknown, and no two of these
  have hcase : forall id, (decide (id ∉ (graph.nodes.filter
        (fun n => n.kind == .group)).map WorkNode.id)) =
      (decide (id ∈ (planNodes graph).map WorkNode.id) ||
        decide (id ∉ graph.nodes.map WorkNode.id)) := by
    intro id
    rw [Bool.eq_iff_iff, Bool.or_eq_true, decide_eq_true_eq, decide_eq_true_eq, decide_eq_true_eq]
    simp only [List.mem_map, List.mem_filter, beq_iff_eq, mem_planNodes]
    constructor
    · intro hnot
      by_cases hknown : exists n, n ∈ graph.nodes ∧ n.id = id
      · rcases hknown with ⟨n, hn, hid⟩
        exact .inl ⟨n, ⟨hn, fun hkind => hnot ⟨n, ⟨hn, hkind⟩, hid⟩⟩, hid⟩
      · exact .inr hknown
    · rintro (⟨n, ⟨hn, hkind⟩, hid⟩ | hunknown) ⟨m, ⟨hm, hgroup⟩, hmid⟩
      · have hsame : m = n :=
          List.inj_on_of_nodup_map hids hm hn (hmid.trans hid.symm)
        rw [hsame] at hgroup
        exact hkind hgroup
      · exact hunknown ⟨m, hm, hmid⟩
  have hdisjoint : forall id, id ∈ (planNodes graph).map WorkNode.id ->
      id ∈ graph.nodes.map WorkNode.id := by
    intro id hid
    rcases List.mem_map.mp hid with ⟨n, hn, hid⟩
    exact List.mem_map.mpr ⟨n, (mem_planNodes.mp hn).left, hid⟩
  induction lost with
  | nil => rfl
  | cons id rest ih =>
      simp only [List.countP_cons, ih, hcase id]
      by_cases hin : id ∈ (planNodes graph).map WorkNode.id
      · have hknown := hdisjoint id hin
        simp only [hin, hknown, decide_true, not_true, decide_false, Bool.or_false, if_true,
          Bool.false_eq_true, if_false]
        omega
      · simp only [hin, decide_false, Bool.false_or, Bool.false_eq_true, if_false]
        omega

theorem gatingSubtreeSize_eq (hids : (graph.nodes.map WorkNode.id).Nodup) :
    gatingSubtreeSize (failedIds graph) graph =
      (planNodes graph).length - (outsideFailed graph).length +
        (unknownLost graph).length := by
  have hnodup : (lostIds graph).Nodup := nodup_lostWork _
  have hlost := length_not_group hids hnodup
  have hsplit := List.length_eq_length_filter_add
    (l := planNodes graph) (fun n => decide (n.id ∈ lostIds graph))
  have hout : (planNodes graph).filter (fun n => !decide (n.id ∈ lostIds graph)) =
      outsideFailed graph := by
    unfold outsideFailed
    apply List.filter_congr
    intro n _
    simp
  rw [hout] at hsplit
  have hsize : gatingSubtreeSize (failedIds graph) graph =
      ((lostIds graph).filter (fun id =>
        id ∉ (graph.nodes.filter (fun n => n.kind == .group)).map
          WorkNode.id)).length := rfl
  rw [hsize, hlost]
  unfold unknownLost
  omega

theorem foldl_planCounts (nodes : List WorkNode) (counts : PlanCounts) :
    (nodes.foldl (PlanCounts.add graph) counts).completed =
        counts.completed + nodes.countP (fun n => isSuccessStatus n.status) ∧
      (nodes.foldl (PlanCounts.add graph) counts).active =
        counts.active +
          nodes.countP (fun n => !isSuccessStatus n.status && isActiveStatus n.status) := by
  induction nodes generalizing counts with
  | nil => exact ⟨(Int.add_zero _).symm, (Int.add_zero _).symm⟩
  | cons n nodes ih =>
      rcases ih (PlanCounts.add graph counts n) with ⟨hcompleted, hactive⟩
      rw [List.foldl_cons, hcompleted, hactive, List.countP_cons, List.countP_cons]
      unfold PlanCounts.add
      cases hsuccess : isSuccessStatus n.status with
      | true =>
          simp
          omega
      | false =>
          cases hbusy : isActiveStatus n.status with
          | true =>
              simp
              omega
          | false =>
              by_cases hprereqs : prerequisitesComplete n.id graph = true
              · simp [hprereqs]
              · simp [hprereqs]

theorem planCounts_completed_eq_countP :
    (planCounts graph).completed =
      (planNodes graph).countP (fun n => isSuccessStatus n.status) := by
  have hfold := (@foldl_planCounts graph (planNodes graph)
    { completed := 0, active := 0, blocked := 0 }).left
  exact hfold.trans (Int.zero_add _)

theorem planCounts_completed (hids : (graph.nodes.map WorkNode.id).Nodup) :
    (planCounts graph).completed =
      (outsideFailed graph).length - (openOutside graph).length := by
  have houtside : (planNodes graph).countP (fun n => isSuccessStatus n.status) =
      (outsideFailed graph).countP (fun n => isSuccessStatus n.status) := by
    unfold outsideFailed
    rw [List.countP_filter]
    apply List.countP_congr
    intro n hn
    rw [Bool.and_eq_true, decide_eq_true_eq]
    constructor
    · intro hdone
      refine ⟨hdone, fun hlost => ?_⟩
      exact not_lost_of_success hids (mem_planNodes.mp hn).left hdone (mem_lostIds.mp hlost)
    · exact fun h => h.left
  have hsplit := List.length_eq_countP_add_countP
    (l := outsideFailed graph) (fun n => isSuccessStatus n.status)
  have hopen : (openOutside graph).length =
      (outsideFailed graph).countP (fun n => ¬ isSuccessStatus n.status = true) := by
    unfold openOutside
    rw [List.countP_eq_length_filter]
    congr 1
    apply List.filter_congr
    intro n _
    cases isSuccessStatus n.status with
    | true => rfl
    | false => rfl
  rw [planCounts_completed_eq_countP, houtside]
  omega

theorem planCounts_active :
    (planCounts graph).active = 0 <->
      forall n, n ∈ planNodes graph -> isActiveStatus n.status = false := by
  have hfold := (@foldl_planCounts graph (planNodes graph)
    { completed := 0, active := 0, blocked := 0 }).right
  have hcount : (planCounts graph).active = (planNodes graph).countP
      (fun n => !isSuccessStatus n.status && isActiveStatus n.status) :=
    hfold.trans (Int.zero_add _)
  rw [hcount, Int.natCast_eq_zero, List.countP_eq_zero]
  have hcase : forall status, (!isSuccessStatus status && isActiveStatus status) =
      isActiveStatus status := by
    intro status
    cases status <;> rfl
  constructor
  · intro h n hn
    have hn' := h n hn
    rw [hcase, Bool.not_eq_true] at hn'
    exact hn'
  · intro h n hn
    rw [hcase, h n hn]
    exact Bool.false_ne_true

end Counts

end WorkGraph
end Perpetual
