import Perpetual.Layout.Flow

/-!
# Pinned nodes

A pinned node stays where it was put when it is in no group.  A node of a group is drawn in
its cell of the group, pinned or not, so that of all places only one is kept.
-/

namespace Perpetual
namespace Layout

open Foundation
open WorkGraph (WorkEdge)

variable {nodes : List WorkNode} {edges : List WorkEdge}

def KeepsPins (orders : MapOrders) (nodes : List WorkNode) (edges : List WorkEdge) : Prop :=
  forall n, n ∈ nodes -> n.positionLocked = true -> StaysPut orders nodes edges n

def WorkNode.putAt (place : String -> ℚ × ℚ) (n : WorkNode) : WorkNode :=
  { n with positionX := (place n.id).1, positionY := (place n.id).2 }

def putAt (nodes : List WorkNode) (place : String -> ℚ × ℚ) : List WorkNode :=
  nodes.map (WorkNode.putAt place)

/-!
## What does not depend on the places

Groups, links, ranks and the order within a layer are the same wherever the nodes stand.
-/

section Moved

variable (place : String -> ℚ × ℚ)

theorem map_id_putAt : (putAt nodes place).map (fun n => n.id) = nodes.map (fun n => n.id) := by
  unfold putAt
  rw [List.map_map]
  rfl

theorem groupIds_putAt : groupIds (putAt nodes place) = groupIds nodes := by
  unfold groupIds putAt
  rw [List.filter_map, List.map_map]
  rfl

theorem groupOf_putAt (n : WorkNode) :
    groupOf (putAt nodes place) (n.putAt place) = groupOf nodes n := by
  unfold groupOf
  rw [groupIds_putAt]
  rfl

theorem byId_putAt (id : String) :
    byId (putAt nodes place) id = (byId nodes id).map (WorkNode.putAt place) := by
  unfold byId putAt
  rw [← List.map_reverse, List.find?_map]
  rfl

theorem superOf_putAt (id : String) : superOf (putAt nodes place) id = superOf nodes id := by
  unfold superOf
  rw [byId_putAt, Option.map_map]
  congr 1
  funext n
  show (groupOf (putAt nodes place) (n.putAt place)).getD n.id = _
  rw [groupOf_putAt]

theorem supers_putAt : supers (putAt nodes place) = (supers nodes).map (WorkNode.putAt place) := by
  unfold supers
  simp only [superOf_putAt]
  unfold putAt
  rw [List.filter_map]
  rfl

theorem superIds_putAt : superIds (putAt nodes place) = superIds nodes := by
  unfold superIds
  rw [supers_putAt, List.map_map]
  rfl

theorem orderEdges_putAt : orderEdges (putAt nodes place) edges = orderEdges nodes edges := by
  unfold orderEdges contract
  simp only [superOf_putAt]

theorem rankEdges_putAt : rankEdges (putAt nodes place) edges = rankEdges nodes edges := by
  unfold rankEdges
  rw [orderEdges_putAt]

theorem layerOf_putAt (orders : MapOrders) :
    layerOf orders (putAt nodes place) edges = layerOf orders nodes edges := by
  unfold layerOf initialQueue
  rw [superIds_putAt, rankEdges_putAt]

theorem insertionSort_putAt {order : WorkNode -> WorkNode -> Ordering}
    (hsame : forall a b, order (a.putAt place) (b.putAt place) = order a b) (list : List WorkNode) :
    (list.map (WorkNode.putAt place)).insertionSort (fun a b => (order a b).isLE = true) =
      (list.insertionSort (fun a b => (order a b).isLE = true)).map (WorkNode.putAt place) := by
  symm
  apply List.map_insertionSort
  intro a _ b _
  rw [hsame]

theorem map_id_initial_putAt :
    (initial (putAt nodes place)).map (fun n => n.id) = (initial nodes).map (fun n => n.id) := by
  unfold initial
  rw [supers_putAt, insertionSort_putAt place (fun _ _ => rfl), List.map_map]
  rfl

theorem orderedLayers_putAt (orders : MapOrders) :
    orderedLayers orders (putAt nodes place) edges = orderedLayers orders nodes edges := by
  unfold orderedLayers initialLayers maxLayer
  rw [orderEdges_putAt, layerOf_putAt, superIds_putAt, map_id_initial_putAt]

theorem childrenOf_putAt (g : String) :
    childrenOf (putAt nodes place) g = (childrenOf nodes g).map (WorkNode.putAt place) := by
  have hfilter : (putAt nodes place).filter (fun n => groupOf (putAt nodes place) n = some g) =
      (nodes.filter (fun n => groupOf nodes n = some g)).map (WorkNode.putAt place) := by
    conv_lhs => arg 2; unfold putAt
    rw [List.filter_map]
    congr 1
    apply List.filter_congr
    intro n _
    show decide (groupOf (putAt nodes place) (n.putAt place) = some g) = _
    rw [groupOf_putAt]
  unfold childrenOf
  rw [hfilter, insertionSort_putAt place (fun _ _ => rfl)]

theorem sizeOf_putAt : sizeOf (putAt nodes place) = sizeOf nodes := by
  funext id
  unfold sizeOf
  rw [groupIds_putAt, childrenOf_putAt, List.length_map]

theorem flowPlacements_putAt (orders : MapOrders) :
    flowPlacements orders (putAt nodes place) edges = flowPlacements orders nodes edges := by
  unfold flowPlacements
  rw [sizeOf_putAt, orderedLayers_putAt]

theorem flowOrder_putAt (orders : MapOrders) :
    flowOrder orders (putAt nodes place) edges = flowOrder orders nodes edges := by
  unfold flowOrder
  simp only [orderedLayers_putAt, byId_putAt, Option.any_map]
  rfl

end Moved

theorem superPlacements_putAt (orders : MapOrders) (mode : LayoutMode)
    {place place' : String -> ℚ × ℚ}
    (hsame : forall id, id ∈ superIds nodes -> place id = place' id) :
    superPlacements orders (putAt nodes place) edges mode =
      superPlacements orders (putAt nodes place') edges mode := by
  have hsupers : supers (putAt nodes place) = supers (putAt nodes place') := by
    rw [supers_putAt, supers_putAt]
    apply List.map_congr_left
    intro n hn
    unfold WorkNode.putAt
    rw [hsame n.id (mem_superIds_of_mem_supers hn)]
  have hpinned : pinned orders (putAt nodes place) edges =
      pinned orders (putAt nodes place') edges := by
    unfold pinned
    rw [hsupers, flowPlacements_putAt, flowPlacements_putAt]
  cases mode with
  | force =>
      unfold superPlacements
      rw [flowPlacements_putAt, flowPlacements_putAt]
  | preserveManual =>
      unfold superPlacements
      rw [hpinned, flowOrder_putAt, flowOrder_putAt]

/-!
## Nodes of groups and others
-/

variable {n : WorkNode} {g : String} {i : Nat}

section Distinct

variable (hids : (nodes.map (fun n => n.id)).Nodup)
include hids

theorem staysPut_iff_cell (orders : MapOrders) {group : NodePlacement}
    (hi : (childrenOf nodes g)[i]? = some n)
    (hgroup : (superPlacements orders nodes edges .preserveManual).get? g = some group) :
    StaysPut orders nodes edges n <->
      (childCell (group.x, group.y) (childrenOf nodes g).length i).x = n.positionX ∧
        (childCell (group.x, group.y) (childrenOf nodes g).length i).y = n.positionY := by
  unfold StaysPut
  rw [placementOf_child hids orders hgroup hi]
  simp only [Option.some.injEq, exists_eq_left', Kept]

theorem staysPut_of_free (orders : MapOrders) (edges : List WorkEdge)
    (hn : n ∈ nodes) (hfree : groupOf nodes n = none) (hlocked : n.positionLocked = true) :
    StaysPut orders nodes edges n :=
  staysPut_of_super hids orders edges ((mem_supers_iff hids).mpr ⟨hn, hfree⟩) hlocked

theorem nodup_putAt (place : String -> ℚ × ℚ) :
    ((putAt nodes place).map (fun n => n.id)).Nodup := by
  rw [map_id_putAt]
  exact hids

theorem superPlacements_update (orders : MapOrders) (edges : List WorkEdge) (mode : LayoutMode) (hn : n ∈ nodes) (hg : groupOf nodes n = some g)
    (place : String -> ℚ × ℚ) (corner : ℚ × ℚ) :
    superPlacements orders (putAt nodes (Function.update place n.id corner)) edges mode =
      superPlacements orders (putAt nodes place) edges mode := by
  apply superPlacements_putAt
  intro id hid
  apply Function.update_of_ne
  intro heq
  rw [heq] at hid
  exact not_mem_superIds_of_groupOf hids hn hg hid

theorem staysPut_update_iff (orders : MapOrders)
    {group : NodePlacement} {place : String -> ℚ × ℚ} (hn : n ∈ nodes)
    (hg : groupOf nodes n = some g) (hi : (childrenOf nodes g)[i]? = some n)
    (hgroup : (superPlacements orders (putAt nodes place) edges
      .preserveManual).get? g = some group) (corner : ℚ × ℚ) :
    StaysPut orders (putAt nodes (Function.update place n.id corner)) edges
        (n.putAt (Function.update place n.id corner)) <->
      (childCell (group.x, group.y) (childrenOf nodes g).length i).x = corner.1 ∧
        (childCell (group.x, group.y) (childrenOf nodes g).length i).y = corner.2 := by
  have hchild : (childrenOf (putAt nodes (Function.update place n.id corner)) g)[i]? =
      some (n.putAt (Function.update place n.id corner)) := by
    rw [childrenOf_putAt, List.getElem?_map, hi]
    rfl
  rw [← superPlacements_update hids orders edges _ hn hg place corner] at hgroup
  rw [staysPut_iff_cell (nodup_putAt hids _) orders hchild hgroup, childrenOf_putAt,
    List.length_map]
  simp only [WorkNode.putAt, Function.update_self]

theorem existsUnique_staysPut (orders : MapOrders) (edges : List WorkEdge) (hn : n ∈ nodes) (hg : groupOf nodes n = some g)
    (place : String -> ℚ × ℚ) :
    ∃! corner, StaysPut orders (putAt nodes (Function.update place n.id corner)) edges
      (n.putAt (Function.update place n.id corner)) := by
  have hsuper : g ∈ superIds (putAt nodes place) := by
    rw [superIds_putAt]
    exact mem_superIds_of_groupOf hids hg
  rcases List.mem_iff_getElem?.mp (mem_childrenOf_iff.mpr ⟨hn, hg⟩) with ⟨i, hi⟩
  rcases (placedAll_superPlacements (nodup_putAt hids place) orders edges
    .preserveManual).get? hsuper with ⟨group, hgroup⟩
  have hstays := staysPut_update_iff hids orders hn hg hi hgroup
  refine ⟨((childCell (group.x, group.y) (childrenOf nodes g).length i).x,
    (childCell (group.x, group.y) (childrenOf nodes g).length i).y), ?_, ?_⟩
  · exact (hstays _).mpr ⟨rfl, rfl⟩
  · intro corner hcorner
    rcases (hstays corner).mp hcorner with ⟨hx, hy⟩
    exact Prod.ext hx.symm hy.symm

theorem staysPut_iff_of_pinned_group (orders : MapOrders) (edges : List WorkEdge)
    {m : WorkNode} (hm : m ∈ nodes) (hkind : m.kind = .group)
    (hlocked : m.positionLocked = true) (hi : (childrenOf nodes m.id)[i]? = some n) :
    StaysPut orders nodes edges n <->
      (childCell (m.positionX, m.positionY) (childrenOf nodes m.id).length i).x = n.positionX ∧
        (childCell (m.positionX, m.positionY) (childrenOf nodes m.id).length i).y =
          n.positionY := by
  have hsuper : m ∈ supers nodes := (mem_supers_iff hids).mpr ⟨hm, groupOf_group hkind⟩
  rcases superPlacements_kept hids orders edges hsuper hlocked with ⟨group, hgroup, hx, hy⟩
  rw [staysPut_iff_cell hids orders hi hgroup, hx, hy]

/-- Pins are kept, wherever the nodes are put, if and only if no pinned node is in a group.
One in a group stays at one place only. -/
theorem keepsPins_iff_free (orders : MapOrders) (edges : List WorkEdge) :
    ((forall place, KeepsPins orders (putAt nodes place) edges) <->
      forall n, n ∈ nodes -> n.positionLocked = true -> groupOf nodes n = none) ∧
    (forall n g, n ∈ nodes -> groupOf nodes n = some g -> forall place,
      ∃! corner, StaysPut orders (putAt nodes (Function.update place n.id corner)) edges
        (n.putAt (Function.update place n.id corner))) := by
  refine ⟨⟨?_, ?_⟩, ?_⟩
  · intro hkeeps n hn hlocked
    cases hg : groupOf nodes n with
    | none => rfl
    | some g =>
        have hany : forall corner,
            StaysPut orders (putAt nodes (Function.update (fun _ => (0, 0)) n.id corner)) edges
              (n.putAt (Function.update (fun _ => (0, 0)) n.id corner)) :=
          fun corner => hkeeps _ _ (List.mem_map_of_mem hn) hlocked
        have heq := (existsUnique_staysPut hids orders edges hn hg (fun _ => (0, 0))).unique
          (hany (0, 0)) (hany (1, 0))
        simp at heq
  · intro hfree place n' hn' hlocked
    rcases List.mem_map.mp hn' with ⟨n, hn, hmoved⟩
    rw [← hmoved] at hlocked ⊢
    apply staysPut_of_free (nodup_putAt hids place) orders edges (List.mem_map_of_mem hn) _ hlocked
    rw [groupOf_putAt]
    exact hfree n hn hlocked
  · intro n g hn hg place
    exact existsUnique_staysPut hids orders edges hn hg place

end Distinct

theorem pinnedPair_keepsPins :
    KeepsPins MapOrders.unchanged (putAt pinnedPair (fun _ => (3, 4))) [] := by
  apply (keepsPins_iff_free (by decide) MapOrders.unchanged []).left.mpr
  decide

def pinnedGroup : List WorkNode :=
  [{ node "g" .group none with positionLocked := true },
    { node "t" .task (some "g") with positionLocked := true }]

theorem pinnedGroup_moves_its_task :
    (pinnedGroup.map (fun n => n.id)).Nodup ∧
      forall orders, ¬ KeepsPins orders pinnedGroup [] := by
  refine ⟨by decide, ?_⟩
  intro orders hkeeps
  have hchild : (childrenOf pinnedGroup "g")[0]? =
      some { node "t" WorkNodeKind.task (some "g") with positionLocked := true } := by decide
  have hstays := hkeeps _ (List.mem_cons_of_mem _ List.mem_cons_self) rfl
  rcases (staysPut_iff_of_pinned_group (by decide) orders [] List.mem_cons_self rfl rfl
    hchild).mp hstays with ⟨hx, _⟩
  -- the cell is beside the padding of the group
  have hpadded : (0 : ℚ) + groupPad + ((0 % columnCount (childrenOf pinnedGroup "g").length :
      Nat) : ℚ) * (childW + childGap) = 0 := hx
  rw [Nat.zero_mod] at hpadded
  norm_num [groupPad] at hpadded

end Layout
end Perpetual
