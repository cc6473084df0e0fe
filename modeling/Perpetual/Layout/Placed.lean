import Perpetual.Layout.Compute

/-!
# What is placed

Every super-node has one placement, with its size, in both modes.  In what is returned
every node has one placement: that of its super-node, or a cell of its group.
-/

namespace Perpetual
namespace Layout

open Foundation
open WorkGraph (WorkEdge)

variable {nodes : List WorkNode}

structure PlacedAll (nodes : List WorkNode) (m : OrderedMap String NodePlacement) : Prop where
  keys : m.keys.Perm (superIds nodes)
  named : forall id p, m.get? id = some p -> p.nodeId = id
  sized : forall id p, m.get? id = some p -> (p.width, p.height) = sizeOf nodes id

namespace PlacedAll

variable {m : OrderedMap String NodePlacement}

theorem get? (h : PlacedAll nodes m) {id : String} (hid : id ∈ superIds nodes) :
    exists p, m.get? id = some p :=
  OrderedMap.mem_keys_iff.mp (h.keys.mem_iff.mpr hid)

theorem set (h : PlacedAll nodes m) {p p' : NodePlacement} (hp : m.get? p.nodeId = some p)
    (hid : p'.nodeId = p.nodeId) (hwidth : p'.width = p.width) (hheight : p'.height = p.height) :
    PlacedAll nodes (m.set p'.nodeId p') := by
  have hkey : p'.nodeId ∈ m.keys := by
    rw [hid]
    exact OrderedMap.mem_keys_iff.mpr ⟨p, hp⟩
  constructor
  · rw [OrderedMap.keys_set_of_mem hkey]
    exact h.keys
  · intro id q hq
    rcases OrderedMap.get?_set_eq_some_iff.mp hq with ⟨heq, hsame⟩ | ⟨_, hold⟩
    · rw [← hsame, heq]
    · exact h.named id q hold
  · intro id q hq
    rcases OrderedMap.get?_set_eq_some_iff.mp hq with ⟨heq, hsame⟩ | ⟨_, hold⟩
    · rw [← hsame, hwidth, hheight, heq, hid]
      exact h.sized _ p hp
    · exact h.sized id q hold

end PlacedAll

theorem sizeOf_nonneg (nodes : List WorkNode) (id : String) :
    0 ≤ (sizeOf nodes id).1 ∧ 0 ≤ (sizeOf nodes id).2 := by
  unfold sizeOf
  split
  · unfold groupSize groupPad childW childGap groupHeader childH
    constructor <;> positivity
  · unfold leafW leafH
    constructor <;> norm_num

/-!
## Pinning and pushing down
-/

theorem pin_cases (s : Occupancy) (n : WorkNode) :
    pin s n = s ∨ n.positionLocked = true ∧ exists p, s.placements.get? n.id = some p ∧
      pin s n = s.put { p with x := n.positionX, y := n.positionY } := by
  unfold pin
  by_cases hlocked : n.positionLocked = true
  · rw [if_pos hlocked]
    cases hp : s.placements.get? n.id with
    | none => exact Or.inl rfl
    | some p => exact Or.inr ⟨hlocked, p, rfl, rfl⟩
  · rw [if_neg hlocked]
    exact Or.inl rfl

theorem flow_cases (s : Occupancy) (id : String) :
    flow s id = s ∨ exists p, s.placements.get? id = some p ∧
      flow s id =
        s.put { p with toRect := Rect.pushDown vgap s.occupied (guardLimit + 1) p.toRect } := by
  unfold flow
  cases hp : s.placements.get? id with
  | none => exact Or.inl rfl
  | some p => exact Or.inr ⟨p, rfl, rfl⟩

theorem PlacedAll.pin {s : Occupancy} (h : PlacedAll nodes s.placements) (n : WorkNode) :
    PlacedAll nodes (pin s n).placements := by
  rcases pin_cases s n with hsame | ⟨_, p, hp, hput⟩
  · rw [hsame]
    exact h
  · have hname := h.named _ p hp
    rw [← hname] at hp
    rw [hput]
    exact h.set hp rfl rfl rfl

theorem PlacedAll.flow {s : Occupancy} (h : PlacedAll nodes s.placements) (id : String) :
    PlacedAll nodes (flow s id).placements := by
  rcases flow_cases s id with hsame | ⟨p, hp, hput⟩
  · rw [hsame]
    exact h
  · have hname := h.named _ p hp
    rw [← hname] at hp
    rw [hput]
    rcases Rect.pushDown_shape vgap s.occupied (guardLimit + 1) p.toRect with
      ⟨_, hwidth, hheight⟩
    exact h.set hp rfl hwidth hheight

variable {g : String}

theorem mem_childrenOf_iff {n : WorkNode} :
    n ∈ childrenOf nodes g <-> n ∈ nodes ∧ groupOf nodes n = some g := by
  unfold childrenOf
  rw [List.mem_insertionSort, List.mem_filter, decide_eq_true_iff]

theorem mem_parents_iff : g ∈ parents nodes <-> exists n, n ∈ nodes ∧ groupOf nodes n = some g := by
  unfold parents
  rw [List.mem_dedup, List.mem_filterMap]

variable {p : NodePlacement}

theorem mem_childPlacements_iff {group : Rect ℚ} {list : List WorkNode} :
    p ∈ childPlacements group list <-> exists i child, list[i]? = some child ∧
      p = { childCell (group.x, group.y) list.length i with nodeId := child.id } := by
  unfold childPlacements
  rw [List.mem_iff_getElem?]
  constructor
  · rintro ⟨i, hi⟩
    rw [List.getElem?_mapIdx] at hi
    rcases Option.map_eq_some_iff.mp hi with ⟨child, hchild, hp⟩
    exact ⟨i, child, hchild, hp.symm⟩
  · rintro ⟨i, child, hchild, hp⟩
    refine ⟨i, ?_⟩
    rw [List.getElem?_mapIdx, hchild, hp]
    rfl

theorem map_nodeId_childPlacements (group : Rect ℚ) (list : List WorkNode) :
    (childPlacements group list).map NodePlacement.nodeId = list.map (fun n => n.id) := by
  apply List.ext_getElem?
  intro i
  unfold childPlacements
  rw [List.getElem?_map, List.getElem?_mapIdx, List.getElem?_map]
  cases list[i]? with
  | none => rfl
  | some child => rfl

theorem map_nodeId_allSupers {m : OrderedMap String NodePlacement}
    (hplaced : PlacedAll nodes m) (orders : MapOrders) :
    (allSupers orders m).map NodePlacement.nodeId = orders.placements.arrange m.keys := by
  have hkeys : forall id, id ∈ orders.placements.arrange m.keys -> id ∈ m.keys :=
    fun id hid => (orders.placements.perm m.keys).mem_iff.mp hid
  unfold allSupers
  generalize orders.placements.arrange m.keys = keys at hkeys
  induction keys with
  | nil => rfl
  | cons id rest ih =>
      rcases OrderedMap.mem_keys_iff.mp (hkeys id List.mem_cons_self) with ⟨p, hp⟩
      rw [List.filterMap_cons_some hp, List.map_cons, hplaced.named id p hp,
        ih (fun id' hid' => hkeys id' (List.mem_cons_of_mem id hid'))]

theorem mem_allSupers_iff {m : OrderedMap String NodePlacement}
    (hplaced : PlacedAll nodes m) (orders : MapOrders) :
    p ∈ allSupers orders m <-> m.get? p.nodeId = some p := by
  unfold allSupers
  rw [List.mem_filterMap]
  constructor
  · rintro ⟨id, _, hp⟩
    rw [hplaced.named id p hp]
    exact hp
  · intro hp
    refine ⟨p.nodeId, ?_, hp⟩
    exact (orders.placements.perm m.keys).mem_iff.mpr (OrderedMap.mem_keys_iff.mpr ⟨p, hp⟩)

theorem mem_allChildren_iff (orders : MapOrders) {m : OrderedMap String NodePlacement} :
    p ∈ allChildren orders nodes m <-> exists g group i child, m.get? g = some group ∧
      (childrenOf nodes g)[i]? = some child ∧
      p = { childCell (group.x, group.y) (childrenOf nodes g).length i with
        nodeId := child.id } := by
  unfold allChildren
  rw [List.mem_flatMap]
  constructor
  · rintro ⟨g, _, hp⟩
    unfold groupPlacements at hp
    cases hgroup : m.get? g with
    | none =>
        rw [hgroup] at hp
        cases hp
    | some group =>
        rw [hgroup] at hp
        rcases mem_childPlacements_iff.mp hp with ⟨i, child, hchild, heq⟩
        exact ⟨g, group, i, child, hgroup, hchild, heq⟩
  · rintro ⟨g, group, i, child, hgroup, hchild, hp⟩
    have hmem := mem_childrenOf_iff.mp (List.mem_of_getElem? hchild)
    refine ⟨g, (orders.children.perm _).mem_iff.mpr (mem_parents_iff.mpr ⟨child, hmem⟩), ?_⟩
    rw [groupPlacements, hgroup]
    exact mem_childPlacements_iff.mpr ⟨i, child, hchild, hp⟩

variable {edges : List WorkEdge} {id : String} {mode : LayoutMode}

section Distinct

variable (hids : (nodes.map (fun n => n.id)).Nodup)
include hids

theorem entries_flowPlacements (orders : MapOrders) (edges : List WorkEdge) :
    (flowPlacements orders nodes edges).entries =
      (Rect.columns (sizeOf nodes) leafW columnGutter y0 vgap x0
        (orderedLayers orders nodes edges)).map (fun p => (p.1, { p.2 with nodeId := p.1 })) := by
  apply OrderedMap.entries_ofList
  rw [List.map_map]
  have hkeys : (Rect.columns (sizeOf nodes) leafW columnGutter y0 vgap x0
      (orderedLayers orders nodes edges)).map Prod.fst =
        (orderedLayers orders nodes edges).flatten := Rect.map_fst_columns _ _ _ _ _ _
  have hnodup := ((orderedLayers_perm hids orders edges).nodup_iff).mpr (nodup_superIds hids)
  rw [← hkeys] at hnodup
  exact hnodup

theorem mem_columns_of_get? (orders : MapOrders) (h : (flowPlacements orders nodes edges).get? id = some p) :
    p.nodeId = id ∧ (id, p.toRect) ∈ Rect.columns (sizeOf nodes) leafW columnGutter y0 vgap x0
      (orderedLayers orders nodes edges) := by
  have hmem := OrderedMap.mem_entries_of_get? h
  rw [entries_flowPlacements hids] at hmem
  rcases List.mem_map.mp hmem with ⟨⟨a, r⟩, ha, heq⟩
  injection heq with hid hp
  rw [← hp, ← hid]
  exact ⟨rfl, ha⟩

theorem placedAll_flowPlacements (orders : MapOrders) (edges : List WorkEdge) :
    PlacedAll nodes (flowPlacements orders nodes edges) := by
  constructor
  · have hkeys : (flowPlacements orders nodes edges).keys =
        (orderedLayers orders nodes edges).flatten := by
      unfold OrderedMap.keys
      rw [entries_flowPlacements hids, List.map_map]
      exact Rect.map_fst_columns _ _ _ _ _ _
    rw [hkeys]
    exact orderedLayers_perm hids orders edges
  · intro id p hp
    exact (mem_columns_of_get? hids orders hp).left
  · intro id p hp
    have hgap : 0 ≤ vgap := by norm_num [vgap]
    rcases Rect.mem_columns hgap (fun a => (sizeOf_nonneg nodes a).right)
      (mem_columns_of_get? hids orders hp).right with ⟨_, _, _, _, _, hsize⟩
    exact hsize

theorem placedAll_pinned (orders : MapOrders) (edges : List WorkEdge) :
    PlacedAll nodes (pinned orders nodes edges).placements := by
  unfold pinned
  have hstart := placedAll_flowPlacements hids orders edges
  generalize flowPlacements orders nodes edges = m at hstart
  generalize ([] : List (Rect ℚ)) = occupied
  induction supers nodes generalizing m occupied with
  | nil => exact hstart
  | cons n rest ih => exact ih _ (PlacedAll.pin hstart n) _

theorem placedAll_superPlacements (orders : MapOrders) (edges : List WorkEdge)
    (mode : LayoutMode) : PlacedAll nodes (superPlacements orders nodes edges mode) := by
  cases mode with
  | force => exact placedAll_flowPlacements hids orders edges
  | preserveManual =>
      have hstart := placedAll_pinned hids orders edges
      unfold superPlacements
      generalize pinned orders nodes edges = s at hstart
      induction flowOrder orders nodes edges generalizing s with
      | nil => exact hstart
      | cons id rest ih => exact ih _ (hstart.flow id)

/-!
## What is returned
-/

theorem nodup_childrenOf (g : String) : (childrenOf nodes g).Nodup := by
  have hperm := List.perm_insertionSort
    (fun a b => (visualOrder a b).isLE = true)
    (nodes.filter (fun n => groupOf nodes n = some g))
  exact hperm.nodup_iff.mpr ((List.Nodup.of_map _ hids).filter _)

theorem flatMap_childrenOf_perm :
    ((parents nodes).flatMap (childrenOf nodes)).Perm
      (nodes.filter (fun n => (groupOf nodes n).isSome)) := by
  have hnodes : nodes.Nodup := List.Nodup.of_map _ hids
  apply (List.perm_ext_iff_of_nodup _ (hnodes.filter _)).mpr
  · intro n
    rw [List.mem_flatMap, List.mem_filter, Option.isSome_iff_exists]
    constructor
    · rintro ⟨g, _, hn⟩
      rcases mem_childrenOf_iff.mp hn with ⟨hmem, hgroup⟩
      exact ⟨hmem, g, hgroup⟩
    · rintro ⟨hmem, g, hgroup⟩
      exact ⟨g, mem_parents_iff.mpr ⟨n, hmem, hgroup⟩, mem_childrenOf_iff.mpr ⟨hmem, hgroup⟩⟩
  · rw [List.nodup_flatMap]
    refine ⟨fun g _ => nodup_childrenOf hids g, ?_⟩
    apply (List.nodup_dedup _).imp
    intro g g' hne n hn hn'
    have hgroup := (mem_childrenOf_iff.mp hn).right
    rw [(mem_childrenOf_iff.mp hn').right] at hgroup
    exact hne (Option.some.inj hgroup.symm)

theorem map_nodeId_allChildren {m : OrderedMap String NodePlacement}
    (hplaced : PlacedAll nodes m) (orders : MapOrders) :
    (allChildren orders nodes m).map NodePlacement.nodeId =
      ((orders.children.arrange (parents nodes)).flatMap (childrenOf nodes)).map
        (fun n => n.id) := by
  have hparents : forall g, g ∈ orders.children.arrange (parents nodes) ->
      (groupPlacements nodes m g).map NodePlacement.nodeId =
        (childrenOf nodes g).map (fun n => n.id) := by
    intro g hg
    rcases mem_parents_iff.mp ((orders.children.perm _).mem_iff.mp hg) with ⟨n, _, hgroup⟩
    rcases hplaced.get? (mem_superIds_of_groupOf hids hgroup) with ⟨p, hp⟩
    rw [groupPlacements, hp]
    exact map_nodeId_childPlacements _ _
  unfold allChildren
  rw [List.map_flatMap, List.map_flatMap]
  exact List.flatMap_congr hparents

theorem ids_perm {m : OrderedMap String NodePlacement}
    (hplaced : PlacedAll nodes m) (orders : MapOrders) :
    ((allChildren orders nodes m ++ allSupers orders m).map NodePlacement.nodeId).Perm
      (nodes.map (fun n => n.id)) := by
  have hchildren : ((allChildren orders nodes m).map NodePlacement.nodeId).Perm
      ((nodes.filter (fun n => (groupOf nodes n).isSome)).map (fun n => n.id)) := by
    rw [map_nodeId_allChildren hids hplaced]
    apply List.Perm.map
    exact ((orders.children.perm _).flatMap_right _).trans (flatMap_childrenOf_perm hids)
  have hsupers : ((allSupers orders m).map NodePlacement.nodeId).Perm (superIds nodes) := by
    rw [map_nodeId_allSupers hplaced]
    exact (orders.placements.perm _).trans hplaced.keys
  have hrest : supers nodes = nodes.filter (fun n => !(groupOf nodes n).isSome) := by
    apply List.filter_congr
    intro n hn
    have hiff := mem_supers_iff hids (n := n)
    unfold supers at hiff
    rw [List.mem_filter] at hiff
    cases hgroup : groupOf nodes n with
    | none => simpa [hn, hgroup] using hiff
    | some g => simpa [hn, hgroup] using hiff
  rw [List.map_append]
  apply (hchildren.append hsupers).trans
  unfold superIds
  rw [hrest, ← List.map_append]
  exact (List.filter_append_perm _ nodes).map _

theorem computeLayout_ids (orders : MapOrders) (edges : List WorkEdge) (mode : LayoutMode) :
    ((computeLayout orders nodes edges mode).map NodePlacement.nodeId).Perm
      (nodes.map (fun n => n.id)) := by
  unfold computeLayout
  by_cases hempty : nodes.isEmpty = true
  · rw [if_pos hempty, List.isEmpty_iff.mp hempty]
    exact List.Perm.refl []
  · rw [if_neg hempty]
    apply ((List.perm_insertionSort _ _).map NodePlacement.nodeId).trans
    exact ids_perm hids (placedAll_superPlacements hids orders edges mode) orders

theorem mem_computeLayout_iff (orders : MapOrders) :
    p ∈ computeLayout orders nodes edges mode <->
      (superPlacements orders nodes edges mode).get? p.nodeId = some p ∨
        exists g group i child,
          (superPlacements orders nodes edges mode).get? g = some group ∧
            (childrenOf nodes g)[i]? = some child ∧
            p = { childCell (group.x, group.y) (childrenOf nodes g).length i with
              nodeId := child.id } := by
  have hplaced := placedAll_superPlacements hids orders edges mode
  rw [← mem_allSupers_iff hplaced orders, ← mem_allChildren_iff orders]
  unfold computeLayout
  by_cases hempty : nodes.isEmpty = true
  · have hperm := ids_perm hids hplaced orders
    rw [List.isEmpty_iff.mp hempty, List.map_nil, List.perm_nil, List.map_eq_nil_iff,
      List.append_eq_nil_iff] at hperm
    rw [if_pos hempty]
    rw [List.isEmpty_iff.mp hempty, hperm.left, hperm.right]
    simp
  · rw [if_neg hempty, List.mem_insertionSort, List.mem_append, or_comm]

/-!
## The placement of a node
-/

theorem placementOf_eq_some_iff (orders : MapOrders) :
    placementOf (computeLayout orders nodes edges mode) id = some p <->
      p ∈ computeLayout orders nodes edges mode ∧ p.nodeId = id := by
  have hnodup : ((computeLayout orders nodes edges mode).map NodePlacement.nodeId).Nodup :=
    (computeLayout_ids hids orders edges mode).nodup_iff.mpr hids
  unfold placementOf
  constructor
  · intro h
    exact ⟨List.mem_of_find?_eq_some h, by simpa using List.find?_some h⟩
  · rintro ⟨hmem, hid⟩
    cases hfound : (computeLayout orders nodes edges mode).find? (fun q => q.nodeId == id) with
    | none =>
        have hnot := List.find?_eq_none.mp hfound p hmem
        simp [hid] at hnot
    | some q =>
        have hqid : q.nodeId = id := by simpa using List.find?_some hfound
        have hq := List.mem_of_find?_eq_some hfound
        rw [List.inj_on_of_nodup_map hnodup hq hmem (hqid.trans hid.symm)]

theorem placementOf_super (orders : MapOrders) (edges : List WorkEdge) (mode : LayoutMode) (hsuper : id ∈ superIds nodes) :
    exists p, (superPlacements orders nodes edges mode).get? id = some p ∧
      placementOf (computeLayout orders nodes edges mode) id = some p := by
  have hplaced := placedAll_superPlacements hids orders edges mode
  rcases hplaced.get? hsuper with ⟨p, hp⟩
  have hname := hplaced.named id p hp
  refine ⟨p, hp, (placementOf_eq_some_iff hids orders).mpr ⟨?_, hname⟩⟩
  rw [← hname] at hp
  exact (mem_computeLayout_iff hids orders).mpr (Or.inl hp)

theorem placementOf_child (orders : MapOrders) {group : NodePlacement} {i : Nat} {child : WorkNode}
    (hgroup : (superPlacements orders nodes edges mode).get? g = some group)
    (hchild : (childrenOf nodes g)[i]? = some child) :
    placementOf (computeLayout orders nodes edges mode) child.id =
      some { childCell (group.x, group.y) (childrenOf nodes g).length i with
        nodeId := child.id } := by
  apply (placementOf_eq_some_iff hids orders).mpr
  refine ⟨(mem_computeLayout_iff hids orders).mpr (Or.inr ?_), rfl⟩
  exact ⟨g, group, i, child, hgroup, hchild, rfl⟩

theorem exists_cell (orders : MapOrders) (edges : List WorkEdge) (mode : LayoutMode)
    {n : WorkNode} (hn : n ∈ nodes) (hg : groupOf nodes n = some g) :
    exists i group, (childrenOf nodes g)[i]? = some n ∧
      (superPlacements orders nodes edges mode).get? g = some group ∧
      placementOf (computeLayout orders nodes edges mode) g = some group ∧
      placementOf (computeLayout orders nodes edges mode) n.id =
        some { childCell (group.x, group.y) (childrenOf nodes g).length i with
          nodeId := n.id } := by
  rcases List.mem_iff_getElem?.mp (mem_childrenOf_iff.mpr ⟨hn, hg⟩) with ⟨i, hi⟩
  rcases placementOf_super hids orders edges mode (mem_superIds_of_groupOf hids hg) with
    ⟨group, hgroup, hplaced⟩
  exact ⟨i, group, hi, hgroup, hplaced, placementOf_child hids orders hgroup hi⟩

end Distinct

end Layout
end Perpetual
