import Perpetual.Foundation.Digraph
import Perpetual.Proto.Enums

/-!
# Gating links

The nodes and links of a work graph and the check that the gating links among
them form no cycle.  Three kinds of links gate: one end has to be finished
before the other starts.
-/

namespace Perpetual
namespace WorkGraph

open Foundation

structure WorkNode where
  id : String
  projectId : String
  kind : WorkNodeKind
  status : TaskStatus
  priority : TaskPriority
  sortOrder : Int
  createdAt : Nat
deriving DecidableEq, Repr

structure WorkEdge where
  id : String
  projectId : String
  sourceId : String
  targetId : String
  kind : WorkEdgeKind
  label : Option String
deriving DecidableEq, Repr

structure Graph where
  nodes : List WorkNode
  edges : List WorkEdge
deriving DecidableEq, Repr

def getNode (nodes : List WorkNode) (id : String) : Option WorkNode :=
  nodes.find? (fun n => n.id == id)

def gatingDependency (edge : WorkEdge) : Option (String × String) :=
  match edge.kind with
  | .dependsOn => some (edge.targetId, edge.sourceId)
  | .blocks => some (edge.sourceId, edge.targetId)
  | .handoff => some (edge.sourceId, edge.targetId)
  | .sharesContext => none
  | .relatesTo => none

def dependencies (edges : List WorkEdge) : List (String × String) :=
  edges.filterMap gatingDependency

def selfLinkError : CoreError :=
  .other "a gating work link cannot target itself"

def cycleError : CoreError :=
  .other "gating work links must not create dependency cycles"

/-- The first loop of the check: the distinct dependencies between the given
nodes.  A dependency of a node on itself is refused wherever its ends are. -/
def collectDependencies (nodeIds : List String) :
    List WorkEdge -> List (String × String) ->
      Except CoreError (List (String × String))
  | [], collected => .ok collected
  | edge :: rest, collected =>
      match gatingDependency edge with
      | none => collectDependencies nodeIds rest collected
      | some (before, after) =>
          if before = after then .error selfLinkError
          else if before ∉ nodeIds ∨ after ∉ nodeIds then
            collectDependencies nodeIds rest collected
          else if (before, after) ∈ collected then
            collectDependencies nodeIds rest collected
          else collectDependencies nodeIds rest (collected ++ [(before, after)])

def validateGatingEdgesAcyclic (nodes : List WorkNode) (edges : List WorkEdge) :
    Except CoreError Unit :=
  match collectDependencies (nodes.map WorkNode.id) edges [] with
  | .error error => .error error
  | .ok collected =>
      if (Digraph.visit (nodes.map WorkNode.id) collected).length = nodes.length then
        .ok ()
      else .error cycleError

/-!
## What the check accepts
-/

/-- The ends of every dependency are among the nodes. -/
def Closed (nodeIds : List String) (edges : List WorkEdge) : Prop :=
  forall d, d ∈ dependencies edges -> d.1 ∈ nodeIds ∧ d.2 ∈ nodeIds

variable {edges : List WorkEdge} {d : String × String}

theorem mem_dependencies_cons {edge : WorkEdge} :
    d ∈ dependencies (edge :: edges) ↔
      gatingDependency edge = some d ∨ d ∈ dependencies edges := by
  unfold dependencies
  rw [List.filterMap_cons]
  cases hdep : gatingDependency edge with
  | none => simp
  | some d' =>
      constructor
      · intro h
        rcases List.mem_cons.mp h with h | h
        · exact .inl (by rw [h])
        · exact .inr h
      · intro h
        rcases h with h | h
        · rw [← Option.some.inj h]
          exact List.mem_cons_self
        · exact List.mem_cons_of_mem _ h

theorem mem_dependencies :
    d ∈ dependencies edges ↔ exists e, e ∈ edges ∧ gatingDependency e = some d :=
  List.mem_filterMap

theorem ends_of_gatingDependency {e : WorkEdge} (h : gatingDependency e = some d) :
    (d.1 = e.sourceId ∧ d.2 = e.targetId) ∨
      (d.1 = e.targetId ∧ d.2 = e.sourceId) := by
  unfold gatingDependency at h
  cases hkind : e.kind with
  | dependsOn =>
      rw [hkind] at h
      rw [← Option.some.inj h]
      exact .inr ⟨rfl, rfl⟩
  | blocks =>
      rw [hkind] at h
      rw [← Option.some.inj h]
      exact .inl ⟨rfl, rfl⟩
  | handoff =>
      rw [hkind] at h
      rw [← Option.some.inj h]
      exact .inl ⟨rfl, rfl⟩
  | sharesContext =>
      rw [hkind] at h
      cases h
  | relatesTo =>
      rw [hkind] at h
      cases h

/-- A dependency whose ends are both among the nodes. -/
def Inner (nodeIds : List String) (d : String × String) : Prop :=
  d.1 ∈ nodeIds ∧ d.2 ∈ nodeIds

instance (nodeIds : List String) (d : String × String) : Decidable (Inner nodeIds d) :=
  inferInstanceAs (Decidable (d.1 ∈ nodeIds ∧ d.2 ∈ nodeIds))

variable {nodeIds : List String}

theorem collectDependencies_cons {edge : WorkEdge} {rest : List WorkEdge}
    {collected collected' : List (String × String)} (hnodup : collected.Nodup)
    (h : collectDependencies nodeIds (edge :: rest) collected = .ok collected') :
    exists collected1, collectDependencies nodeIds rest collected1 = .ok collected' ∧
      collected1.Nodup ∧
      (forall d, d ∈ collected1 ↔
        d ∈ collected ∨ gatingDependency edge = some d ∧ Inner nodeIds d) ∧
      forall v, gatingDependency edge ≠ some (v, v) := by
  unfold collectDependencies at h
  cases hdep : gatingDependency edge with
  | none =>
      rw [hdep] at h
      exact ⟨collected, h, hnodup, fun d => by simp, nofun⟩
  | some dep =>
      rcases dep with ⟨before, after⟩
      rw [hdep] at h
      simp only at h
      split at h
      · cases h
      · rename_i hne
        have hself : forall v, some (before, after) ≠ some (v, v) := by
          intro v hv
          injection hv with hv
          injection hv with hbefore hafter
          exact hne (hbefore.trans hafter.symm)
        -- a link that adds nothing leads out of the list, or its dependency is known
        have hunchanged : (Inner nodeIds (before, after) -> (before, after) ∈ collected) ->
            forall d, d ∈ collected ↔
              d ∈ collected ∨ some (before, after) = some d ∧ Inner nodeIds d := by
          intro hknown d
          constructor
          · exact .inl
          · rintro (hd | ⟨hd, hin⟩)
            · exact hd
            · rw [← Option.some.inj hd] at hin ⊢
              exact hknown hin
        split at h
        · rename_i hforeign
          refine ⟨collected, h, hnodup, hunchanged ?_, hself⟩
          rintro ⟨hbefore, hafter⟩
          rcases hforeign with hforeign | hforeign
          · exact absurd hbefore hforeign
          · exact absurd hafter hforeign
        · rename_i hin
          rw [not_or, not_not, not_not] at hin
          split at h
          · rename_i hknown
            exact ⟨collected, h, hnodup, hunchanged (fun _ => hknown), hself⟩
          · rename_i hnew
            refine ⟨collected ++ [(before, after)], h, ?_, fun d => ?_, hself⟩
            · apply List.Nodup.append hnodup (List.nodup_singleton _)
              intro d hd hd'
              rw [List.mem_singleton] at hd'
              rw [hd'] at hd
              exact hnew hd
            · rw [List.mem_append, List.mem_singleton]
              constructor
              · rintro (hd | hd)
                · exact .inl hd
                · rw [hd]
                  exact .inr ⟨rfl, hin⟩
              · rintro (hd | ⟨hd, _⟩)
                · exact .inl hd
                · exact .inr (Option.some.inj hd).symm

theorem collectDependencies_spec {collected collected' : List (String × String)}
    (hnodup : collected.Nodup) (h : collectDependencies nodeIds edges collected = .ok collected') :
    collected'.Nodup ∧
      (forall d, d ∈ collected' ↔
        d ∈ collected ∨ d ∈ dependencies edges ∧ Inner nodeIds d) ∧
      forall v, (v, v) ∉ dependencies edges := by
  induction edges generalizing collected with
  | nil =>
      cases h
      exact ⟨hnodup, fun d => by simp [dependencies], fun v hv => by cases hv⟩
  | cons edge rest ih =>
      rcases collectDependencies_cons hnodup h with ⟨collected1, h, hnodup1, hadded, hself⟩
      rcases ih hnodup1 h with ⟨hnodup', hmem, hrest⟩
      refine ⟨hnodup', fun d => ?_, fun v hv => ?_⟩
      · rw [hmem d, hadded d, mem_dependencies_cons, or_and_right, or_assoc]
      · rcases mem_dependencies_cons.mp hv with hv | hv
        · exact hself v hv
        · exact hrest v hv

theorem collectDependencies_ok (hself : forall v, (v, v) ∉ dependencies edges)
    (collected : List (String × String)) :
    exists collected', collectDependencies nodeIds edges collected =
      .ok collected' := by
  induction edges generalizing collected with
  | nil => exact ⟨collected, rfl⟩
  | cons edge rest ih =>
      have hrest : forall v, (v, v) ∉ dependencies rest :=
        fun v hv => hself v (mem_dependencies_cons.mpr (.inr hv))
      unfold collectDependencies
      cases hdep : gatingDependency edge with
      | none => exact ih hrest collected
      | some dep =>
          rcases dep with ⟨before, after⟩
          have hne : before ≠ after := by
            intro heq
            rw [heq] at hdep
            exact hself after (mem_dependencies_cons.mpr (.inl hdep))
          simp only [if_neg hne]
          split
          · exact ih hrest collected
          · split
            · exact ih hrest collected
            · exact ih hrest _

variable {nodes : List WorkNode}

theorem validateGatingEdgesAcyclic_inner (hnodes : (nodes.map WorkNode.id).Nodup) :
    validateGatingEdgesAcyclic nodes edges = .ok () ↔
      (forall v, (v, v) ∉ dependencies edges) ∧
        Digraph.Acyclic
          ((dependencies edges).filter (Inner (nodes.map WorkNode.id))) := by
  have hlength : (nodes.map WorkNode.id).length = nodes.length := List.length_map ..
  have hsame : forall {collected : List (String × String)},
      (forall d, d ∈ collected ↔ d ∈ ([] : List (String × String)) ∨
        d ∈ dependencies edges ∧ Inner (nodes.map WorkNode.id) d) ->
      forall d, d ∈ collected ↔
        d ∈ (dependencies edges).filter (Inner (nodes.map WorkNode.id)) := by
    intro collected hmem d
    rw [hmem d, List.mem_filter, decide_eq_true_eq]
    simp
  constructor
  · intro h
    unfold validateGatingEdgesAcyclic at h
    split at h
    · cases h
    · rename_i collected hcollected
      rcases collectDependencies_spec List.nodup_nil hcollected with ⟨hnodup, hmem, hself⟩
      refine ⟨hself, ?_⟩
      split at h
      · rename_i hall
        have hacyclic : Digraph.Acyclic collected := by
          apply Digraph.acyclic_of_visit hnodes hnodup
          · intro d hd
            rcases (hmem d).mp hd with hd | ⟨_, hin⟩
            · cases hd
            · exact hin.right
          · rw [hlength]
            exact hall
        exact hacyclic.mono (fun d hd => (hsame hmem d).mpr hd)
      · cases h
  · rintro ⟨hself, hacyclic⟩
    rcases collectDependencies_ok hself [] with ⟨collected, hcollected⟩
    rcases collectDependencies_spec List.nodup_nil hcollected with ⟨hnodup, hmem, _⟩
    have hall : (Digraph.visit (nodes.map WorkNode.id) collected).length = nodes.length := by
      rw [← hlength]
      apply Digraph.visit_of_acyclic hnodes hnodup
      · intro d hd
        rcases (hmem d).mp hd with hd | ⟨_, hin⟩
        · cases hd
        · exact hin
      · exact hacyclic.mono (fun d hd => (hsame hmem d).mp hd)
    unfold validateGatingEdgesAcyclic
    rw [hcollected]
    exact if_pos hall

theorem validateGatingEdgesAcyclic_iff (hnodes : (nodes.map WorkNode.id).Nodup)
    (hclosed : Closed (nodes.map WorkNode.id) edges) :
    validateGatingEdgesAcyclic nodes edges = .ok () ↔
      Digraph.Acyclic (dependencies edges) := by
  have hall : (dependencies edges).filter (Inner (nodes.map WorkNode.id)) = dependencies edges := by
    rw [List.filter_eq_self]
    intro d hd
    exact decide_eq_true (hclosed d hd)
  rw [validateGatingEdgesAcyclic_inner hnodes, hall]
  constructor
  · exact fun h => h.right
  · intro h
    exact ⟨fun v hv => h v (Relation.TransGen.single hv), h⟩

/-!
## Any links

Links may be doubled, may have ends outside the list of nodes and may gate nothing.
-/

def GatesWithin (nodes : List WorkNode) (edges : List WorkEdge) (u v : String) : Prop :=
  exists e, e ∈ edges ∧ gatingDependency e = some (u, v) ∧
    u ∈ nodes.map WorkNode.id ∧ v ∈ nodes.map WorkNode.id

theorem gatesWithin_iff {u v : String} :
    GatesWithin nodes edges u v ↔
      (u, v) ∈ (dependencies edges).filter (Inner (nodes.map WorkNode.id)) := by
  rw [List.mem_filter, decide_eq_true_eq, mem_dependencies]
  constructor
  · rintro ⟨e, he, hdep, hu, hv⟩
    exact ⟨⟨e, he, hdep⟩, hu, hv⟩
  · rintro ⟨⟨e, he, hdep⟩, hu, hv⟩
    exact ⟨e, he, hdep, hu, hv⟩

theorem self_dependency_iff : (forall v, (v, v) ∉ dependencies edges) ↔
      forall e, e ∈ edges -> (gatingDependency e).isSome -> e.sourceId ≠ e.targetId := by
  constructor
  · intro h e he hgates heq
    rcases Option.isSome_iff_exists.mp hgates with ⟨⟨before, after⟩, hdep⟩
    have hends : before = after := by
      rcases ends_of_gatingDependency hdep with ⟨hfst, hsnd⟩ | ⟨hfst, hsnd⟩
      · exact hfst.trans (heq.trans hsnd.symm)
      · exact hfst.trans (heq.symm.trans hsnd.symm)
    rw [hends] at hdep
    exact h after (mem_dependencies.mpr ⟨e, he, hdep⟩)
  · intro h v hv
    rcases mem_dependencies.mp hv with ⟨e, he, hdep⟩
    have hgates : (gatingDependency e).isSome := by
      rw [hdep]
      rfl
    apply h e he hgates
    rcases ends_of_gatingDependency hdep with ⟨hfst, hsnd⟩ | ⟨hfst, hsnd⟩
    · exact hfst.symm.trans hsnd
    · exact hsnd.symm.trans hfst

/-- The check refuses links that gate a node on itself and cycles of gating links
between the nodes of the list, and nothing else. -/
theorem accepted_iff_no_cycle {nodes : List WorkNode} {edges : List WorkEdge}
    (hnodes : (nodes.map WorkNode.id).Nodup) :
    validateGatingEdgesAcyclic nodes edges = Except.ok () ↔
      (forall e, e ∈ edges -> (gatingDependency e).isSome -> e.sourceId ≠ e.targetId) ∧
        forall v, ¬ Relation.TransGen (GatesWithin nodes edges) v v := by
  rw [validateGatingEdgesAcyclic_inner hnodes, self_dependency_iff]
  have hsame : GatesWithin nodes edges = fun u v =>
      (u, v) ∈ (dependencies edges).filter (Inner (nodes.map WorkNode.id)) := by
    funext u v
    exact propext gatesWithin_iff
  rw [hsame]
  rfl

def planTask (id : String) : WorkNode :=
  { id := id
    projectId := "p"
    kind := .task
    status := .draft
    priority := .medium
    sortOrder := 0
    createdAt := 0 }

def planLink (id source target : String) (kind : WorkEdgeKind) : WorkEdge :=
  { id := id
    projectId := "p"
    sourceId := source
    targetId := target
    kind := kind
    label := none }

/-- The dependency is stated twice, a link leads out of the list, and the way back
gates nothing. -/
def doubledLinks : List WorkEdge :=
  [planLink "1" "a" "b" .blocks,
    planLink "2" "b" "a" .dependsOn,
    planLink "3" "b" "x" .handoff,
    planLink "4" "b" "a" .relatesTo]

theorem accepted_iff_no_cycle_doubled :
    validateGatingEdgesAcyclic [planTask "a", planTask "b"] doubledLinks =
      Except.ok () := by
  rw [accepted_iff_no_cycle (by decide)]
  refine ⟨by decide, ?_⟩
  have hstep : forall u v,
      GatesWithin [planTask "a", planTask "b"] doubledLinks u v ->
        u = "a" ∧ v = "b" := by
    intro u v h
    have hmem := gatesWithin_iff.mp h
    have hall : (dependencies doubledLinks).filter
        (Inner ([planTask "a", planTask "b"].map WorkNode.id)) =
          [("a", "b"), ("a", "b")] := by
      decide
    rw [hall] at hmem
    simpa using hmem
  have hpath : forall u v,
      Relation.TransGen (GatesWithin [planTask "a", planTask "b"] doubledLinks) u v ->
        u = "a" ∧ v = "b" := by
    intro u v h
    induction h with
    | single h => exact hstep _ _ h
    | tail _ h ih => exact ⟨ih.left, (hstep _ _ h).right⟩
  intro v hcycle
  rcases hpath v v hcycle with ⟨ha, hb⟩
  rw [ha] at hb
  revert hb
  decide

end WorkGraph
end Perpetual
