import Perpetual.WorkGraph.Gating

/-!
# Contracting groups

The layout works on the groups and the nodes outside them.  Links to and from the nodes of
a group are links of the group.  Positions are exact numbers.
-/

namespace Perpetual
namespace Layout

open Foundation
open WorkGraph (WorkEdge gatingDependency dependencies)

inductive LayoutMode where
  | preserveManual
  | force
deriving DecidableEq, Repr

structure WorkNode extends WorkGraph.WorkNode where
  parentId : Option String
  positionX : ℚ
  positionY : ℚ
  positionLocked : Bool
deriving DecidableEq, Repr

def softEdgeWeight : ℚ := 1 / 4

/-- A later node of the same id replaces an earlier one. -/
def byId (nodes : List WorkNode) (id : String) : Option WorkNode :=
  nodes.reverse.find? (fun n => n.id == id)

def groupIds (nodes : List WorkNode) : List String :=
  (nodes.filter (fun n => n.kind = .group)).map (fun n => n.id)

/-- The group a node is drawn in; a group is in none. -/
def groupOf (nodes : List WorkNode) (node : WorkNode) : Option String :=
  match node.parentId with
  | some parent =>
      if parent ∈ groupIds nodes ∧ node.kind ≠ .group then some parent else none
  | none => none

def visualOrder (a b : WorkNode) : Ordering :=
  (compare a.sortOrder b.sortOrder).then
    ((compare a.createdAt b.createdAt).then (compare a.id b.id))

def childrenOf (nodes : List WorkNode) (group : String) : List WorkNode :=
  (nodes.filter (fun n => groupOf nodes n = some group)).insertionSort
    (fun a b => (visualOrder a b).isLE = true)

def superOf (nodes : List WorkNode) (id : String) : Option String :=
  (byId nodes id).map (fun node => (groupOf nodes node).getD node.id)

def supers (nodes : List WorkNode) : List WorkNode :=
  nodes.filter (fun n => superOf nodes n.id = some n.id)

def superIds (nodes : List WorkNode) : List String :=
  (supers nodes).map (fun n => n.id)

/-- A link with its direction, its weight and whether it gates. -/
structure Link where
  source : String
  target : String
  weight : ℚ
  gating : Bool
deriving DecidableEq, Repr

def linkOf (edge : WorkEdge) : Link :=
  match edge.kind with
  | .dependsOn => ⟨edge.targetId, edge.sourceId, 1, true⟩
  | .blocks => ⟨edge.sourceId, edge.targetId, 1, true⟩
  | .handoff => ⟨edge.sourceId, edge.targetId, 1, true⟩
  | .sharesContext => ⟨edge.sourceId, edge.targetId, softEdgeWeight, false⟩
  | .relatesTo => ⟨edge.sourceId, edge.targetId, softEdgeWeight, false⟩

/-- The link between the super-nodes of its ends, unless an end is missing or both are the
same. -/
def contract (nodes : List WorkNode) (edge : WorkEdge) : Option Link := do
  let link := linkOf edge
  let source <- superOf nodes link.source
  let target <- superOf nodes link.target
  if source = target then none
  else some { link with source := source, target := target }

def orderEdges (nodes : List WorkNode) (edges : List WorkEdge) : List Link :=
  edges.filterMap (contract nodes)

def rankEdges (nodes : List WorkNode) (edges : List WorkEdge) : List (String × String) :=
  ((orderEdges nodes edges).filter (fun l => l.gating)).map (fun l => (l.source, l.target))

variable {nodes : List WorkNode}

variable {n : WorkNode} {g : String}

theorem of_groupOf (h : groupOf nodes n = some g) :
    n.kind ≠ .group ∧ exists m, m ∈ nodes ∧ m.kind = .group ∧
      m.id = g := by
  unfold groupOf at h
  split at h
  · split at h
    · rename_i hin
      injection h with h
      rw [h] at hin
      rcases List.mem_map.mp hin.left with ⟨m, hm, hid⟩
      rcases List.mem_filter.mp hm with ⟨hmem, hkind⟩
      exact ⟨hin.right, m, hmem, by simpa using hkind, hid⟩
    · cases h
  · cases h

theorem groupOf_mem_groupIds (h : groupOf nodes n = some g) : g ∈ groupIds nodes := by
  rcases of_groupOf h with ⟨_, m, hm, hkind, hid⟩
  rw [← hid]
  exact List.mem_map_of_mem (List.mem_filter.mpr ⟨hm, by simpa using hkind⟩)

theorem groupOf_group (h : n.kind = .group) : groupOf nodes n = none := by
  cases hgroup : groupOf nodes n with
  | none => rfl
  | some g => exact absurd h (of_groupOf hgroup).left

theorem mem_superIds_of_mem_supers (hn : n ∈ supers nodes) : n.id ∈ superIds nodes :=
  List.mem_map_of_mem hn

/-!
## Contracted links
-/

variable {edge : WorkEdge}

theorem contract_eq_some {l : Link} (h : contract nodes edge = some l) :
    superOf nodes (linkOf edge).source = some l.source ∧
      superOf nodes (linkOf edge).target = some l.target ∧ l.source ≠ l.target ∧
      l.gating = (linkOf edge).gating := by
  unfold contract at h
  rcases Option.bind_eq_some_iff.mp h with ⟨source, hsource, h⟩
  rcases Option.bind_eq_some_iff.mp h with ⟨target, htarget, h⟩
  split at h
  · cases h
  · rename_i hne
    cases h
    exact ⟨hsource, htarget, hne, rfl⟩

theorem linkOf_of_gatingDependency {d : String × String} (h : gatingDependency edge = some d) :
    (linkOf edge).source = d.1 ∧ (linkOf edge).target = d.2 ∧ (linkOf edge).gating = true := by
  unfold gatingDependency at h
  unfold linkOf
  cases hkind : edge.kind with
  | dependsOn =>
      rw [hkind] at h
      rw [← Option.some.inj h]
      exact ⟨rfl, rfl, rfl⟩
  | blocks =>
      rw [hkind] at h
      rw [← Option.some.inj h]
      exact ⟨rfl, rfl, rfl⟩
  | handoff =>
      rw [hkind] at h
      rw [← Option.some.inj h]
      exact ⟨rfl, rfl, rfl⟩
  | sharesContext =>
      rw [hkind] at h
      cases h
  | relatesTo =>
      rw [hkind] at h
      cases h

theorem gatingDependency_of_gating (h : (linkOf edge).gating = true) :
    gatingDependency edge = some ((linkOf edge).source, (linkOf edge).target) := by
  unfold linkOf at h ⊢
  unfold gatingDependency
  cases hkind : edge.kind with
  | dependsOn => rfl
  | blocks => rfl
  | handoff => rfl
  | sharesContext =>
      rw [hkind] at h
      cases h
  | relatesTo =>
      rw [hkind] at h
      cases h

theorem mem_rankEdges_iff {edges : List WorkEdge} {s t : String} :
    (s, t) ∈ rankEdges nodes edges <->
      exists d, d ∈ dependencies edges ∧ superOf nodes d.1 = some s ∧
        superOf nodes d.2 = some t ∧ s ≠ t := by
  unfold rankEdges orderEdges dependencies
  constructor
  · intro h
    rcases List.mem_map.mp h with ⟨l, hl, hends⟩
    injection hends with hs ht
    rcases List.mem_filter.mp hl with ⟨hl, hgating⟩
    rcases List.mem_filterMap.mp hl with ⟨edge, hedge, hcontract⟩
    rcases contract_eq_some hcontract with ⟨hsource, htarget, hne, hsame⟩
    rw [hgating] at hsame
    rw [hs] at hsource hne
    rw [ht] at htarget hne
    refine ⟨((linkOf edge).source, (linkOf edge).target), ?_, hsource, htarget, hne⟩
    exact List.mem_filterMap.mpr ⟨edge, hedge, gatingDependency_of_gating hsame.symm⟩
  · rintro ⟨d, hd, hs, ht, hne⟩
    rcases List.mem_filterMap.mp hd with ⟨edge, hedge, hdep⟩
    rcases linkOf_of_gatingDependency hdep with ⟨hsource, htarget, hgating⟩
    have hcontract : contract nodes edge = some { linkOf edge with source := s, target := t } := by
      unfold contract
      simp only [hsource, htarget, hs, ht, Option.bind_eq_bind, Option.bind_some, if_neg hne]
    apply List.mem_map.mpr
    refine ⟨{ linkOf edge with source := s, target := t }, ?_, rfl⟩
    apply List.mem_filter.mpr
    exact ⟨List.mem_filterMap.mpr ⟨edge, hedge, hcontract⟩, hgating⟩

/-!
## Super-nodes

The ids of the nodes are distinct: they are the primary key of the stored nodes.
-/

section Distinct

variable (hids : (nodes.map (fun n => n.id)).Nodup)
include hids

theorem eq_of_id {m : WorkNode} (hm : m ∈ nodes) (hn : n ∈ nodes) (h : m.id = n.id) : m = n :=
  List.inj_on_of_nodup_map hids hm hn h

theorem byId_of_mem (hn : n ∈ nodes) : byId nodes n.id = some n := by
  unfold byId
  cases hfound : nodes.reverse.find? (fun m => m.id == n.id) with
  | none =>
      have hnot := List.find?_eq_none.mp hfound n (List.mem_reverse.mpr hn)
      simp at hnot
  | some m =>
      have hid : m.id = n.id := by simpa using List.find?_some hfound
      have hm := List.mem_reverse.mp (List.mem_of_find?_eq_some hfound)
      rw [eq_of_id hids hm hn hid]

theorem superOf_of_mem (hn : n ∈ nodes) :
    superOf nodes n.id = some ((groupOf nodes n).getD n.id) := by
  rw [superOf, byId_of_mem hids hn, Option.map_some]

theorem mem_supers_iff : n ∈ supers nodes <-> n ∈ nodes ∧ groupOf nodes n = none := by
  unfold supers
  rw [List.mem_filter, decide_eq_true_iff]
  constructor
  · rintro ⟨hn, hself⟩
    refine ⟨hn, ?_⟩
    rw [superOf_of_mem hids hn] at hself
    cases hgroup : groupOf nodes n with
    | none => rfl
    | some g =>
        rw [hgroup] at hself
        rcases of_groupOf hgroup with ⟨hkind, m, hm, hmkind, hmid⟩
        have hid : m.id = n.id := hmid.trans (Option.some.inj hself)
        rw [eq_of_id hids hm hn hid] at hmkind
        exact absurd hmkind hkind
  · rintro ⟨hn, hnone⟩
    refine ⟨hn, ?_⟩
    rw [superOf_of_mem hids hn, hnone]
    rfl

theorem mem_superIds_of_mem (hn : n ∈ nodes) (h : groupOf nodes n = none) : n.id ∈ superIds nodes :=
  mem_superIds_of_mem_supers ((mem_supers_iff hids).mpr ⟨hn, h⟩)

theorem mem_superIds_of_groupOf (h : groupOf nodes n = some g) : g ∈ superIds nodes := by
  rcases of_groupOf h with ⟨_, m, hm, hkind, hid⟩
  rw [← hid]
  exact mem_superIds_of_mem hids hm (groupOf_group hkind)

theorem not_mem_superIds_of_groupOf (hn : n ∈ nodes)
    (h : groupOf nodes n = some g) : n.id ∉ superIds nodes := by
  intro hin
  rcases List.mem_map.mp hin with ⟨m, hm, hid⟩
  rcases (mem_supers_iff hids).mp hm with ⟨hmem, hnone⟩
  rw [eq_of_id hids hmem hn hid, h] at hnone
  cases hnone

theorem nodup_superIds : (superIds nodes).Nodup :=
  hids.sublist (List.filter_sublist.map _)

theorem superOf_mem {id s : String} (h : superOf nodes id = some s) : s ∈ superIds nodes := by
  rcases Option.map_eq_some_iff.mp h with ⟨n, hfound, hs⟩
  have hn := List.mem_reverse.mp (List.mem_of_find?_eq_some hfound)
  rw [← hs]
  cases hgroup : groupOf nodes n with
  | none => exact mem_superIds_of_mem hids hn hgroup
  | some g => exact mem_superIds_of_groupOf hids hgroup

theorem ends_of_rankEdges {edges : List WorkEdge} :
    forall e, e ∈ rankEdges nodes edges -> e.1 ∈ superIds nodes ∧ e.2 ∈ superIds nodes := by
  rintro ⟨s, t⟩ he
  rcases mem_rankEdges_iff.mp he with ⟨d, _, hs, ht, _⟩
  exact ⟨superOf_mem hids hs, superOf_mem hids ht⟩

end Distinct

end Layout
end Perpetual
