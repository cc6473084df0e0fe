import Perpetual.WorkGraph.EdgeAcyclicity
import Perpetual.WorkGraph.Plan

/-!
# Two views of blocked work

A node is refused while a query finds unfinished blockers among the stored links.
The plan driver reads prerequisites off its copy of the graph instead.  The query
joins two of the three kinds of gating links; hand-offs are missing.
-/

namespace Perpetual
namespace WorkGraph

open Foundation

def joinsBlocker (nodeId : String) (e : WorkEdge) (blocker : WorkNode) : Bool :=
  (e.kind == .blocks && blocker.id == e.sourceId && e.targetId == nodeId) ||
    (e.kind == .dependsOn && blocker.id == e.targetId &&
      e.sourceId == nodeId)

/-- The query answers with one row for each pair it joins. -/
def blockingEdgesForNode (nodes : List WorkNode) (edges : List WorkEdge)
    (nodeId : String) : List WorkEdge :=
  edges.flatMap (fun e =>
    (nodes.filter (fun blocker => joinsBlocker nodeId e blocker &&
      !(blocker.status == .done || blocker.status == .cancelled))).map
        (fun _ => e))

def blockedError (blockers : Nat) : CoreError :=
  .other
    ("work is blocked by " ++ toString blockers ++ " unfinished prerequisite(s)")

def checkBlockers (nodes : List WorkNode) (edges : List WorkEdge) (nodeId : String) :
    Except CoreError Unit :=
  match getNode nodes nodeId with
  | none => .error .notFound
  | some _ =>
      if (blockingEdgesForNode nodes edges nodeId).isEmpty then .ok ()
      else
        .error (blockedError (blockingEdgesForNode nodes edges nodeId).length)

def RefusedAsBlocked (nodes : List WorkNode) (edges : List WorkEdge)
    (nodeId : String) : Prop :=
  exists blockers, checkBlockers nodes edges nodeId = .error (blockedError blockers)

def projectGraph (nodes : List WorkNode) (edges : List WorkEdge) (projectId : String) :
    Graph :=
  { nodes := projectNodes nodes projectId
    edges := projectEdges edges projectId }

def WaitsOver (nodes : List WorkNode) (edges : List WorkEdge) (kind : WorkEdgeKind)
    (nodeId : String) : Prop :=
  exists e b, e ∈ edges ∧ b ∈ nodes ∧ e.kind = kind ∧
    gatingDependency e = some (b.id, nodeId) ∧ isSuccessStatus b.status = false

variable {nodeId : String} {e : WorkEdge}

theorem joinsBlocker_iff {b : WorkNode} :
    joinsBlocker nodeId e b = true <->
      (e.kind = .blocks ∨ e.kind = .dependsOn) ∧
        gatingDependency e = some (b.id, nodeId) := by
  unfold joinsBlocker gatingDependency
  cases e.kind with
  | dependsOn =>
      rw [Option.some.injEq, Prod.mk.injEq, eq_comm (a := e.targetId)]
      simp
  | blocks =>
      rw [Option.some.injEq, Prod.mk.injEq, eq_comm (a := e.sourceId)]
      simp
  | handoff => simp
  | sharesContext => simp
  | relatesTo => simp

variable {nodes : List WorkNode} {edges : List WorkEdge}

theorem mem_blockingEdgesForNode :
    e ∈ blockingEdgesForNode nodes edges nodeId <->
      e ∈ edges ∧ (e.kind = .blocks ∨ e.kind = .dependsOn) ∧
        exists b, b ∈ nodes ∧ gatingDependency e = some (b.id, nodeId) ∧
          isSuccessStatus b.status = false := by
  unfold blockingEdgesForNode
  rw [List.mem_flatMap]
  constructor
  · rintro ⟨e', he', h⟩
    rcases List.mem_map.mp h with ⟨b, hb, heq⟩
    rw [heq] at he' hb
    rcases List.mem_filter.mp hb with ⟨hb, hjoin⟩
    rw [Bool.and_eq_true, joinsBlocker_iff, Bool.not_eq_true'] at hjoin
    exact ⟨he', hjoin.left.left, b, hb, hjoin.left.right, hjoin.right⟩
  · rintro ⟨he, hkind, b, hb, hdep, hopen⟩
    refine ⟨e, he, List.mem_map.mpr ⟨b, List.mem_filter.mpr ⟨hb, ?_⟩, rfl⟩⟩
    rw [Bool.and_eq_true, joinsBlocker_iff, Bool.not_eq_true']
    exact ⟨⟨hkind, hdep⟩, hopen⟩

variable {n : WorkNode}

theorem refusedAsBlocked_iff (hn : n ∈ nodes) :
    RefusedAsBlocked nodes edges n.id <->
      WaitsOver nodes edges .blocks n.id ∨
        WaitsOver nodes edges .dependsOn n.id := by
  have hfound : exists m, getNode nodes n.id = some m := by
    cases hget : getNode nodes n.id with
    | none => exact absurd (beq_self_eq_true n.id) (List.find?_eq_none.mp hget n hn)
    | some m => exact ⟨m, rfl⟩
  rcases hfound with ⟨m, hm⟩
  have hrefused : RefusedAsBlocked nodes edges n.id <->
      exists e, e ∈ blockingEdgesForNode nodes edges n.id := by
    unfold RefusedAsBlocked checkBlockers
    rw [hm]
    cases hblockers : blockingEdgesForNode nodes edges n.id with
    | nil => simp
    | cons e rest =>
        constructor
        · intro _
          exact ⟨e, List.mem_cons_self⟩
        · intro _
          exact ⟨_, rfl⟩
  rw [hrefused]
  constructor
  · rintro ⟨e, he⟩
    rcases mem_blockingEdgesForNode.mp he with ⟨he, hkind, b, hb, hdep, hopen⟩
    rcases hkind with hkind | hkind
    · exact .inl ⟨e, b, he, hb, hkind, hdep, hopen⟩
    · exact .inr ⟨e, b, he, hb, hkind, hdep, hopen⟩
  · rintro (⟨e, b, he, hb, hkind, hdep, hopen⟩ | ⟨e, b, he, hb, hkind, hdep, hopen⟩)
    · exact ⟨e, mem_blockingEdgesForNode.mpr ⟨he, .inl hkind, b, hb, hdep, hopen⟩⟩
    · exact ⟨e, mem_blockingEdgesForNode.mpr ⟨he, .inr hkind, b, hb, hdep, hopen⟩⟩

/-!
## The prerequisites
-/

theorem mem_projectNodes {projectId : String} :
    n ∈ projectNodes nodes projectId <-> n ∈ nodes ∧ n.projectId = projectId := by
  unfold projectNodes Table.selectWhere
  rw [List.mem_filter, beq_iff_eq]

theorem getNode_of_mem (hids : (nodes.map WorkNode.id).Nodup) (hn : n ∈ nodes) :
    getNode nodes n.id = some n := by
  cases hget : getNode nodes n.id with
  | none => exact absurd (beq_self_eq_true n.id) (List.find?_eq_none.mp hget n hn)
  | some m =>
      have hid := List.find?_some hget
      have hmem := List.mem_of_find?_eq_some hget
      rw [List.inj_on_of_nodup_map hids hmem hn (beq_iff_eq.mp hid)]

theorem StoredGraph.mem_projectGraph (h : StoredGraph nodes edges) {b : WorkNode} (he : e ∈ edges)
    (hb : b ∈ nodes) (hn : n ∈ nodes) (hdep : gatingDependency e = some (b.id, n.id)) :
    e ∈ projectEdges edges n.projectId ∧ b ∈ projectNodes nodes n.projectId := by
  have hsame : forall {m : WorkNode}, m ∈ nodes ->
      InProject nodes e.projectId m.id -> m.projectId = e.projectId := by
    rintro m hm ⟨m', hm', hid, hproject⟩
    rw [List.inj_on_of_nodup_map h.nodeIds hm' hm hid] at hproject
    exact hproject
  rcases h.ends e he with ⟨hsource, htarget⟩
  have hboth : b.projectId = e.projectId ∧ n.projectId = e.projectId := by
    rcases ends_of_gatingDependency hdep with ⟨hfst, hsnd⟩ | ⟨hfst, hsnd⟩
    · rw [← hfst] at hsource
      rw [← hsnd] at htarget
      exact ⟨hsame hb hsource, hsame hn htarget⟩
    · rw [← hfst] at htarget
      rw [← hsnd] at hsource
      exact ⟨hsame hb htarget, hsame hn hsource⟩
  rcases hboth with ⟨hbproject, hnproject⟩
  constructor
  · exact mem_projectEdges.mpr ⟨he, hnproject.symm⟩
  · exact mem_projectNodes.mpr ⟨hb, hbproject.trans hnproject.symm⟩

theorem prerequisitesComplete_eq_false_iff (h : StoredGraph nodes edges) (hn : n ∈ nodes) :
    prerequisitesComplete n.id (projectGraph nodes edges n.projectId) = false <->
      exists kind, WaitsOver nodes edges kind n.id := by
  have hids : ((projectNodes nodes n.projectId).map WorkNode.id).Nodup := by
    unfold projectNodes Table.selectWhere
    exact h.nodeIds.sublist (List.filter_sublist.map _)
  unfold prerequisitesComplete
  rw [List.all_eq_false]
  constructor
  · rintro ⟨d, hd, hunmet⟩
    rcases List.mem_filter.mp hd with ⟨hdep, hnode⟩
    rw [beq_iff_eq] at hnode
    rcases mem_dependencies.mp hdep with ⟨e, he, hdep⟩
    have hedge := (mem_projectEdges.mp he).left
    have hprereq : exists b, b ∈ nodes ∧ b.id = d.1 := by
      rcases h.ends e hedge with ⟨⟨s, hs, hsid, _⟩, t, ht, htid, _⟩
      rcases ends_of_gatingDependency hdep with ⟨hfst, _⟩ | ⟨hfst, _⟩
      · exact ⟨s, hs, hsid.trans hfst.symm⟩
      · exact ⟨t, ht, htid.trans hfst.symm⟩
    rcases hprereq with ⟨b, hb, hbid⟩
    have hdep' : gatingDependency e = some (b.id, n.id) := by
      rw [hdep, hbid, ← hnode]
    have hbmem := (h.mem_projectGraph hedge hb hn hdep').right
    have hget : getNode (projectGraph nodes edges n.projectId).nodes d.1 = some b := by
      rw [← hbid]
      exact getNode_of_mem hids hbmem
    rw [hget] at hunmet
    exact ⟨e.kind, e, b, hedge, hb, rfl, hdep', by simpa using hunmet⟩
  · rintro ⟨kind, e, b, he, hb, _, hdep, hopen⟩
    rcases h.mem_projectGraph he hb hn hdep with ⟨hedge, hbmem⟩
    refine ⟨(b.id, n.id), List.mem_filter.mpr ⟨?_, beq_self_eq_true n.id⟩, ?_⟩
    · exact mem_dependencies.mpr ⟨e, hedge, hdep⟩
    · have hget : getNode (projectGraph nodes edges n.projectId).nodes b.id = some b :=
        getNode_of_mem hids hbmem
      rw [hget]
      simp [hopen]

theorem waitsOver_kind {kind : WorkEdgeKind} (h : WaitsOver nodes edges kind nodeId) :
    kind = .blocks ∨ kind = .dependsOn ∨
      kind = .handoff := by
  rcases h with ⟨e, b, _, _, hkind, hdep, _⟩
  rw [← hkind]
  unfold gatingDependency at hdep
  cases hcase : e.kind with
  | dependsOn => exact .inr (.inl rfl)
  | blocks => exact .inl rfl
  | handoff => exact .inr (.inr rfl)
  | sharesContext =>
      rw [hcase] at hdep
      cases hdep
  | relatesTo =>
      rw [hcase] at hdep
      cases hdep

/-!
## The two views
-/

/-- A node that waits for a hand-off waits over another gating link as well. -/
def HandoffCovered (nodes : List WorkNode) (edges : List WorkEdge) (nodeId : String) :
    Prop :=
  WaitsOver nodes edges .handoff nodeId ->
    WaitsOver nodes edges .blocks nodeId ∨
      WaitsOver nodes edges .dependsOn nodeId

/-- A start is refused for the prerequisites that the graph shows to be missing, if
and only if no hand-off is the only thing the node waits for. -/
theorem refused_iff_incomplete_iff {nodes : List WorkNode} {edges : List WorkEdge}
    (h : StoredGraph nodes edges) {n : WorkNode} (hn : n ∈ nodes) :
    (RefusedAsBlocked nodes edges n.id <->
        prerequisitesComplete n.id (projectGraph nodes edges n.projectId) = false) <->
      HandoffCovered nodes edges n.id := by
  rw [refusedAsBlocked_iff hn, prerequisitesComplete_eq_false_iff h hn]
  constructor
  · intro hagree hhandoff
    exact hagree.mpr ⟨_, hhandoff⟩
  · intro hcovered
    constructor
    · rintro (hwaits | hwaits)
      · exact ⟨_, hwaits⟩
      · exact ⟨_, hwaits⟩
    · rintro ⟨kind, hwaits⟩
      rcases waitsOver_kind hwaits with hkind | hkind | hkind
      · rw [hkind] at hwaits
        exact Or.inl hwaits
      · rw [hkind] at hwaits
        exact Or.inr hwaits
      · rw [hkind] at hwaits
        exact hcovered hwaits

/-!
## One link
-/

def linkedNode (id : String) : WorkNode :=
  { id := id
    projectId := "p"
    kind := .task
    status := .draft
    priority := .medium
    sortOrder := 0
    createdAt := 0 }

def linkedNodes : List WorkNode :=
  [linkedNode "a", linkedNode "b"]

def oneLink (kind : WorkEdgeKind) : List WorkEdge :=
  [{ id := "e"
     projectId := "p"
     sourceId := "a"
     targetId := "b"
     kind := kind
     label := none }]

theorem storedGraph_oneLink (kind : WorkEdgeKind) : StoredGraph linkedNodes (oneLink kind) := by
  constructor
  · decide
  · intro e he
    rw [List.mem_singleton.mp he]
    exact ⟨⟨linkedNode "a", List.mem_cons_self, rfl, rfl⟩,
      ⟨linkedNode "b", List.mem_cons_of_mem _ List.mem_cons_self, rfl, rfl⟩⟩

/-- A blocking link is seen by both. -/
theorem refused_iff_incomplete_blocks :
    RefusedAsBlocked linkedNodes (oneLink WorkEdgeKind.blocks) "b" <->
      prerequisitesComplete "b"
        (projectGraph linkedNodes (oneLink WorkEdgeKind.blocks) "p") = false := by
  refine (refused_iff_incomplete_iff (n := linkedNode "b")
    (storedGraph_oneLink WorkEdgeKind.blocks)
    (List.mem_cons_of_mem _ List.mem_cons_self)).mpr ?_
  rintro ⟨e, _, he, _, hkind, _, _⟩
  rw [List.mem_singleton.mp he] at hkind
  cases hkind

/-- The source of a hand-off has not finished, and the start is not refused. -/
theorem handoff_not_refused :
    ¬ (forall nodes edges, StoredGraph nodes edges -> forall n, n ∈ nodes ->
      (RefusedAsBlocked nodes edges n.id <->
        prerequisitesComplete n.id (projectGraph nodes edges n.projectId) = false)) := by
  intro hall
  have hagree := hall linkedNodes (oneLink WorkEdgeKind.handoff)
    (storedGraph_oneLink WorkEdgeKind.handoff) (linkedNode "b")
    (List.mem_cons_of_mem _ List.mem_cons_self)
  have hmissing : prerequisitesComplete "b"
      (projectGraph linkedNodes (oneLink WorkEdgeKind.handoff) "p") = false := by
    decide
  rcases hagree.mpr hmissing with ⟨blockers, hrefused⟩
  have hstarts : checkBlockers linkedNodes (oneLink WorkEdgeKind.handoff) "b" = Except.ok () := by
    decide
  cases hstarts.symm.trans hrefused

end WorkGraph
end Perpetual
