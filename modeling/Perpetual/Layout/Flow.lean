import Perpetual.Foundation.EachStep
import Perpetual.Layout.Placed

/-!
# Flowing around the pins

Pinned super-nodes stand where they were put, wherever that is.  Any other one goes down
until it is clear of those that stand already; what it has passed is not met again.
-/

namespace Perpetual
namespace Layout

open Foundation
open WorkGraph (WorkEdge)

variable {nodes : List WorkNode}

/-!
## One rectangle
-/

/-- The loop goes down with each pass, meets nothing twice, and ends before its guard. -/
structure Descends (occupied : List (Rect ℚ)) (candidate : Rect ℚ) : Prop where
  rises : ((Rect.pushes vgap occupied (guardLimit + 1) candidate).map Prod.fst ++
    [(Rect.pushDown vgap occupied (guardLimit + 1) candidate).y]).Pairwise (fun y y' => y < y')
  once : ((Rect.pushes vgap occupied (guardLimit + 1) candidate).map Prod.snd).Nodup
  passes : (Rect.pushes vgap occupied (guardLimit + 1) candidate).length ≤ occupied.length
  guard : (Rect.pushes vgap occupied (guardLimit + 1) candidate).length ≤ guardLimit
  clear : forall r, r ∈ occupied ->
    ¬ r.Overlaps (Rect.pushDown vgap occupied (guardLimit + 1) candidate)

theorem descends {occupied : List (Rect ℚ)} (hlength : occupied.length ≤ guardLimit)
    (candidate : Rect ℚ) : Descends occupied candidate := by
  have hgap : 0 ≤ vgap := by norm_num [vgap]
  have hpasses : (Rect.pushes vgap occupied (guardLimit + 1) candidate).length ≤
      occupied.length := Rect.length_pushes_le hgap (guardLimit + 1) candidate
  constructor
  · apply List.pairwise_append.mpr
    refine ⟨Rect.pushes_rise hgap _ _, List.pairwise_singleton _ _, ?_⟩
    intro y hy y' hy'
    rcases List.mem_map.mp hy with ⟨p, hp, hpy⟩
    rw [List.mem_singleton.mp hy', ← hpy]
    exact ((Rect.pushes_bounds hgap).right p hp).right.left
  · exact Rect.pushes_nodup hgap _ _
  · exact hpasses
  · exact Nat.le_trans hpasses hlength
  · intro r hr
    exact Rect.pushDown_clear hgap (Nat.lt_succ_of_le hlength) candidate hr

/-!
## Those that stand
-/

@[simp] theorem placements_put (s : Occupancy) (p : NodePlacement) :
    (s.put p).placements = s.placements.set p.nodeId p := rfl

@[simp] theorem occupied_put (s : Occupancy) (p : NodePlacement) :
    (s.put p).occupied = s.occupied ++ [p.toRect] := rfl

/-- The rectangles of those that stand are taken, and no others. -/
structure Standing (nodes : List WorkNode) (seen : List String) (s : Occupancy) : Prop where
  placed : PlacedAll nodes s.placements
  taken : forall id, id ∈ seen ->
    exists p, s.placements.get? id = some p ∧ p.toRect ∈ s.occupied
  count : s.occupied.length = seen.length

variable {seen : List String} {s : Occupancy}

theorem Standing.put {p p' : NodePlacement}
    (h : Standing nodes seen s) (hp : s.placements.get? p.nodeId = some p)
    (hid : p'.nodeId = p.nodeId) (hwidth : p'.width = p.width) (hheight : p'.height = p.height)
    (hnew : p'.nodeId ∉ seen) : Standing nodes (seen ++ [p'.nodeId]) (s.put p') := by
  constructor
  · exact h.placed.set hp hid hwidth hheight
  · intro id hin
    rw [placements_put, occupied_put]
    rcases List.mem_append.mp hin with hold | hlast
    · have hne : id ≠ p'.nodeId := fun heq => hnew (heq ▸ hold)
      rcases h.taken id hold with ⟨q, hq, hmem⟩
      rw [OrderedMap.get?_set_of_ne _ hne]
      exact ⟨q, hq, List.mem_append_left _ hmem⟩
    · rw [List.mem_singleton.mp hlast, OrderedMap.get?_set_self]
      exact ⟨p', rfl, List.mem_append_cons_self⟩
  · rw [occupied_put, List.length_append, List.length_append, h.count]
    rfl

/-!
## Pins
-/

def Kept (n : WorkNode) (p : NodePlacement) : Prop :=
  p.x = n.positionX ∧ p.y = n.positionY

def StaysPut (orders : MapOrders) (nodes : List WorkNode) (edges : List WorkEdge)
    (n : WorkNode) : Prop :=
  exists p, placementOf (computeLayout orders nodes edges .preserveManual) n.id =
    some p ∧ Kept n p

def lockedIds (list : List WorkNode) : List String :=
  (list.filter (fun n => n.positionLocked)).map (fun n => n.id)

theorem lockedIds_concat (list : List WorkNode) (n : WorkNode) :
    lockedIds (list ++ [n]) = lockedIds list ++ if n.positionLocked then [n.id] else [] := by
  unfold lockedIds
  rw [List.filter_append, List.map_append]
  cases hlocked : n.positionLocked with
  | false => simp [hlocked]
  | true => simp [hlocked]

variable {id : String}

theorem mem_lockedIds_iff {list : List WorkNode} :
    id ∈ lockedIds list <-> exists n, n ∈ list ∧ n.positionLocked = true ∧ n.id = id := by
  unfold lockedIds
  simp only [List.mem_map, List.mem_filter, and_assoc]

variable {n : WorkNode}

theorem Standing.pin
    (h : Standing nodes seen s) (hsuper : n.id ∈ superIds nodes) (hnew : n.id ∉ seen) :
    Standing nodes (seen ++ if n.positionLocked then [n.id] else []) (pin s n) ∧
      (n.positionLocked = true ->
        exists p, (pin s n).placements.get? n.id = some p ∧ Kept n p) := by
  cases hlocked : n.positionLocked with
  | false =>
      have hsame : Layout.pin s n = s := by
        unfold Layout.pin
        rw [hlocked]
        rfl
      rw [hsame]
      simp only [Bool.false_eq_true, if_false, List.append_nil]
      exact ⟨h, fun hcontra => by cases hcontra⟩
  | true =>
      rcases h.placed.get? hsuper with ⟨p, hp⟩
      have hname := h.placed.named _ p hp
      let p' : NodePlacement := { p with x := n.positionX, y := n.positionY }
      have hpin : Layout.pin s n = s.put p' := by
        unfold Layout.pin
        rw [if_pos hlocked, hp]
      have hname' : p'.nodeId = n.id := hname
      rw [hpin, if_pos rfl, ← hname']
      rw [← hname] at hp
      rw [← hname'] at hnew
      refine ⟨h.put hp rfl rfl rfl hnew, fun _ => ⟨p', ?_, rfl, rfl⟩⟩
      rw [placements_put, OrderedMap.get?_set_self]

theorem get?_pin_of_ne (hplaced : PlacedAll nodes s.placements) (hne : id ≠ n.id) :
    (pin s n).placements.get? id = s.placements.get? id := by
  rcases pin_cases s n with hsame | ⟨_, p, hp, hput⟩
  · rw [hsame]
  · rw [hput, placements_put]
    apply OrderedMap.get?_set_of_ne
    exact (hplaced.named _ p hp) ▸ hne

theorem pinned_run (h : Standing nodes [] s) {list : List WorkNode}
    (hsupers : forall n, n ∈ list -> n.id ∈ superIds nodes)
    (hnodup : (list.map (fun n => n.id)).Nodup) :
    Standing nodes (lockedIds list) (list.foldl pin s) ∧
      forall n, n ∈ list -> n.positionLocked = true ->
        exists p, (list.foldl pin s).placements.get? n.id = some p ∧ Kept n p := by
  induction list using List.reverseRecOn with
  | nil => exact ⟨h, fun n hn => absurd hn List.not_mem_nil⟩
  | append_singleton list m ih =>
      rw [List.map_append, List.nodup_append] at hnodup
      rcases hnodup with ⟨hrest, _, hdisjoint⟩
      have hother : forall n, n ∈ list -> n.id ≠ m.id := by
        intro n hn
        exact hdisjoint n.id (List.mem_map_of_mem hn) m.id (by simp)
      rcases ih (fun n hn => hsupers n (List.mem_append_left _ hn)) hrest with
        ⟨hstanding, hkept⟩
      have hm := hsupers m List.mem_append_cons_self
      have hnew : m.id ∉ lockedIds list := by
        intro hin
        rcases mem_lockedIds_iff.mp hin with ⟨n, hn, _, hid⟩
        exact hother n hn hid
      rcases hstanding.pin hm hnew with ⟨hstanding', hmkept⟩
      rw [List.foldl_append, List.foldl_cons, List.foldl_nil, lockedIds_concat]
      refine ⟨hstanding', ?_⟩
      intro n hn hlocked
      rcases List.mem_append.mp hn with hin | hlast
      · rw [get?_pin_of_ne hstanding.placed (hother n hin)]
        exact hkept n hin hlocked
      · rw [List.mem_singleton.mp hlast] at hlocked ⊢
        exact hmkept hlocked

/-!
## Those that are not pinned
-/

theorem get?_flow_of_ne {id' : String} (hplaced : PlacedAll nodes s.placements) (hne : id' ≠ id) :
    (flow s id).placements.get? id' = s.placements.get? id' := by
  rcases flow_cases s id with hsame | ⟨p, hp, hput⟩
  · rw [hsame]
  · rw [hput, placements_put]
    apply OrderedMap.get?_set_of_ne
    exact (hplaced.named _ p hp) ▸ hne

variable {ids : List String}

theorem get?_foldl_flow_of_not_mem (hplaced : PlacedAll nodes s.placements) (h : id ∉ ids) :
    (ids.foldl flow s).placements.get? id = s.placements.get? id := by
  induction ids generalizing s with
  | nil => rfl
  | cons id' ids ih =>
      rw [List.mem_cons, not_or] at h
      rw [List.foldl_cons, ih (hplaced.flow id') h.right]
      exact get?_flow_of_ne hplaced h.left

theorem Standing.flow (h : Standing nodes seen s) (hsuper : id ∈ superIds nodes)
    (hnew : id ∉ seen) (hroom : seen.length ≤ guardLimit) :
    Standing nodes (seen ++ [id]) (flow s id) ∧
      (exists p, s.placements.get? id = some p ∧ Descends s.occupied p.toRect) ∧
      forall a, a ∈ seen -> forall p q, (flow s id).placements.get? a = some p ->
        (flow s id).placements.get? id = some q -> ¬ p.Overlaps q.toRect := by
  rcases h.placed.get? hsuper with ⟨p, hp⟩
  have hname := h.placed.named _ p hp
  have hdescends : Descends s.occupied p.toRect := by
    apply descends
    rw [h.count]
    exact hroom
  rcases Rect.pushDown_shape vgap s.occupied (guardLimit + 1) p.toRect with
    ⟨_, hwidth, hheight⟩
  let p' : NodePlacement :=
    { p with toRect := Rect.pushDown vgap s.occupied (guardLimit + 1) p.toRect }
  have hflow : Layout.flow s id = s.put p' := by
    unfold Layout.flow
    rw [hp]
  have hname' : p'.nodeId = id := hname
  have hput : Standing nodes (seen ++ [p'.nodeId]) (s.put p') := by
    rw [← hname'] at hnew
    have hold : s.placements.get? p.nodeId = some p := hname.symm ▸ hp
    exact h.put hold rfl hwidth hheight hnew
  rw [hname'] at hput
  rw [hflow]
  refine ⟨hput, ⟨p, hp, hdescends⟩, ?_⟩
  intro a ha q r hq hr
  have hne : a ≠ p'.nodeId := fun heq => hnew (hname' ▸ heq ▸ ha)
  rw [placements_put, OrderedMap.get?_set_of_ne _ hne] at hq
  rw [placements_put, ← hname', OrderedMap.get?_set_self] at hr
  rcases h.taken a ha with ⟨q', hq', hmem⟩
  rw [hq] at hq'
  rw [← Option.some.inj hq'] at hmem
  rw [← Option.some.inj hr]
  exact hdescends.clear _ hmem

/-- The last ones are clear of one another and of those that stood before. -/
structure Cleared (nodes : List WorkNode) (seen ids : List String) (s : Occupancy) : Prop where
  standing : Standing nodes (seen ++ ids) s
  apart : forall a b, a ∈ ids -> b ∈ seen ++ ids -> a ≠ b -> forall p q,
    s.placements.get? a = some p -> s.placements.get? b = some q -> ¬ p.Overlaps q.toRect

theorem Cleared.flow
    (h : Cleared nodes seen ids s) (hsuper : id ∈ superIds nodes) (hnew : id ∉ seen ++ ids)
    (hroom : (seen ++ ids).length ≤ guardLimit) : Cleared nodes seen (ids ++ [id]) (flow s id) := by
  rcases h.standing.flow hsuper hnew hroom with ⟨hstanding, _, hclear⟩
  have hframe : forall a, a ∈ seen ++ ids ->
      (Layout.flow s id).placements.get? a = s.placements.get? a := by
    intro a ha
    exact get?_flow_of_ne h.standing.placed (fun heq => hnew (heq ▸ ha))
  rw [List.append_assoc] at hstanding
  refine ⟨hstanding, ?_⟩
  intro a b ha hb hne p q hp hq
  rw [← List.append_assoc] at hb
  rcases List.mem_append.mp ha with hold | hlast
  · have hold' := List.mem_append_right seen hold
    rcases List.mem_append.mp hb with hbold | hblast
    · rw [hframe a hold'] at hp
      rw [hframe b hbold] at hq
      exact h.apart a b hold hbold hne p q hp hq
    · rw [List.mem_singleton.mp hblast] at hq
      exact hclear a hold' p q hp hq
  · rw [List.mem_singleton] at hlast
    rw [hlast] at hp hne
    have hbold : b ∈ seen ++ ids := by
      rcases List.mem_append.mp hb with hbold | hblast
      · exact hbold
      · exact absurd (List.mem_singleton.mp hblast).symm hne
    intro hover
    exact hclear b hbold q p hq hp hover.symm

theorem cleared_run (h : Standing nodes seen s)
    (hsupers : forall id, id ∈ ids -> id ∈ superIds nodes) (hnodup : (seen ++ ids).Nodup)
    (hroom : (seen ++ ids).length ≤ guardLimit) :
    Cleared nodes seen ids (ids.foldl flow s) := by
  induction ids using List.reverseRecOn with
  | nil =>
      rw [← List.append_nil seen] at h
      exact { standing := h, apart := fun a b ha => absurd ha List.not_mem_nil }
  | append_singleton ids id ih =>
      rw [← List.append_assoc, List.nodup_append] at hnodup
      rcases hnodup with ⟨hrest, _, hdisjoint⟩
      rw [← List.append_assoc, List.length_append] at hroom
      have hbefore := ih (fun a ha => hsupers a (List.mem_append_left _ ha)) hrest (by omega)
      rw [List.foldl_append, List.foldl_cons, List.foldl_nil]
      apply hbefore.flow (hsupers id List.mem_append_cons_self)
      · intro hin
        exact hdisjoint id hin id List.mem_cons_self rfl
      · omega

/-!
## All super-nodes
-/

section Distinct

variable (hids : (nodes.map (fun n => n.id)).Nodup)
include hids

theorem mem_flowOrder_iff (orders : MapOrders) {edges : List WorkEdge} :
    id ∈ flowOrder orders nodes edges <->
      exists n, n ∈ supers nodes ∧ n.positionLocked = false ∧ n.id = id := by
  unfold flowOrder
  rw [List.mem_filter, (orderedLayers_perm hids orders edges).mem_iff]
  constructor
  · rintro ⟨hsuper, hfree⟩
    rcases List.mem_map.mp hsuper with ⟨n, hn, hid⟩
    rw [← hid, byId_of_mem hids ((mem_supers_iff hids).mp hn).left] at hfree
    exact ⟨n, hn, by simpa using hfree, hid⟩
  · rintro ⟨n, hn, hfree, hid⟩
    rw [← hid, byId_of_mem hids ((mem_supers_iff hids).mp hn).left]
    exact ⟨mem_superIds_of_mem_supers hn, by simpa using hfree⟩

theorem not_mem_flowOrder (orders : MapOrders) (edges : List WorkEdge)
    (hn : n ∈ supers nodes) (hlocked : n.positionLocked = true) :
    n.id ∉ flowOrder orders nodes edges := by
  intro hin
  rcases (mem_flowOrder_iff hids orders).mp hin with ⟨m, hm, hfree, hid⟩
  have hnmem := ((mem_supers_iff hids).mp hn).left
  have hmmem := ((mem_supers_iff hids).mp hm).left
  rw [eq_of_id hids hmmem hnmem hid, hlocked] at hfree
  cases hfree

theorem locked_flow_perm (orders : MapOrders) (edges : List WorkEdge) :
    (lockedIds (supers nodes) ++ flowOrder orders nodes edges).Perm (superIds nodes) := by
  have hlocked : (lockedIds (supers nodes)).Nodup :=
    (nodup_superIds hids).sublist (List.filter_sublist.map _)
  have hflow : (flowOrder orders nodes edges).Nodup :=
    ((orderedLayers_perm hids orders edges).nodup_iff.mpr (nodup_superIds hids)).filter _
  apply (List.perm_ext_iff_of_nodup _ (nodup_superIds hids)).mpr
  · intro id
    rw [List.mem_append, mem_lockedIds_iff, mem_flowOrder_iff hids]
    unfold superIds
    rw [List.mem_map]
    constructor
    · rintro (⟨n, hn, _, hid⟩ | ⟨n, hn, _, hid⟩)
      · exact ⟨n, hn, hid⟩
      · exact ⟨n, hn, hid⟩
    · rintro ⟨n, hn, hid⟩
      cases hcase : n.positionLocked with
      | true => exact .inl ⟨n, hn, hcase, hid⟩
      | false => exact .inr ⟨n, hn, hcase, hid⟩
  · apply List.Nodup.append hlocked hflow
    intro id hin hin'
    rcases mem_lockedIds_iff.mp hin with ⟨n, hn, hpinned, hid⟩
    rw [← hid] at hin'
    exact not_mem_flowOrder hids orders edges hn hpinned hin'

theorem standing_pinned (orders : MapOrders) (edges : List WorkEdge) :
    Standing nodes (lockedIds (supers nodes)) (pinned orders nodes edges) ∧
      forall n, n ∈ supers nodes -> n.positionLocked = true ->
        exists p, (pinned orders nodes edges).placements.get? n.id = some p ∧ Kept n p := by
  have hsupers : forall n, n ∈ supers nodes -> n.id ∈ superIds nodes :=
    fun _ hn => mem_superIds_of_mem_supers hn
  have hplaced := placedAll_flowPlacements hids orders edges
  unfold pinned
  generalize flowPlacements orders nodes edges = m at hplaced
  have hstart : Standing nodes [] { placements := m, occupied := [] } :=
    { placed := hplaced
      taken := fun id hid => absurd hid List.not_mem_nil
      count := rfl }
  exact pinned_run hstart hsupers (nodup_superIds hids)

theorem superPlacements_kept (orders : MapOrders) (edges : List WorkEdge)
    (hn : n ∈ supers nodes) (hlocked : n.positionLocked = true) :
    exists p, (superPlacements orders nodes edges .preserveManual).get? n.id = some p ∧
      Kept n p := by
  rcases (standing_pinned hids orders edges).right n hn hlocked with ⟨p, hp, hkept⟩
  have hnot := not_mem_flowOrder hids orders edges hn hlocked
  refine ⟨p, ?_, hkept⟩
  unfold superPlacements
  rw [get?_foldl_flow_of_not_mem (placedAll_pinned hids orders edges) hnot]
  exact hp

theorem staysPut_of_super (orders : MapOrders) (edges : List WorkEdge)
    (hn : n ∈ supers nodes) (hlocked : n.positionLocked = true) :
    StaysPut orders nodes edges n := by
  rcases superPlacements_kept hids orders edges hn hlocked with ⟨p, hp, hkept⟩
  rcases placementOf_super hids orders edges .preserveManual
    (mem_superIds_of_mem_supers hn) with ⟨q, hq, hplaced⟩
  rw [hp] at hq
  rw [← Option.some.inj hq] at hplaced
  exact ⟨p, hplaced, hkept⟩

/-- Pinned super-nodes are where they were put, the others clear of everything, and each
was pushed down by a loop that ends by itself. -/
structure FlowsAround (orders : MapOrders) (nodes : List WorkNode) (edges : List WorkEdge) :
    Prop where
  kept : forall n, n ∈ supers nodes -> n.positionLocked = true -> StaysPut orders nodes edges n
  clear : forall n t, n ∈ supers nodes -> n.positionLocked = false -> t ∈ superIds nodes ->
    t ≠ n.id -> exists p q,
      placementOf (computeLayout orders nodes edges .preserveManual) n.id = some p ∧
      placementOf (computeLayout orders nodes edges .preserveManual) t = some q ∧
      ¬ p.Overlaps q.toRect
  loops : EachStep (fun before id => exists p,
    (before.foldl flow (pinned orders nodes edges)).placements.get? id = some p ∧
      Descends (before.foldl flow (pinned orders nodes edges)).occupied p.toRect)
    (flowOrder orders nodes edges)

theorem flowsAround (orders : MapOrders) (edges : List WorkEdge)
    (hcount : (supers nodes).length ≤ 1000) : FlowsAround orders nodes edges := by
  have hperm := locked_flow_perm hids orders edges
  have hnodup := hperm.nodup_iff.mpr (nodup_superIds hids)
  have hstanding := (standing_pinned hids orders edges).left
  have hsupers : forall id, id ∈ flowOrder orders nodes edges -> id ∈ superIds nodes :=
    fun id hid => hperm.mem_iff.mp (List.mem_append_right _ hid)
  have hroom : (lockedIds (supers nodes) ++ flowOrder orders nodes edges).length ≤ guardLimit := by
    rw [hperm.length_eq]
    unfold superIds
    rw [List.length_map]
    exact hcount
  constructor
  · intro n hn hlocked
    exact staysPut_of_super hids orders edges hn hlocked
  · intro n t hn hfree ht hne
    have hcleared := cleared_run hstanding hsupers hnodup hroom
    rcases placementOf_super hids orders edges LayoutMode.preserveManual
      (mem_superIds_of_mem_supers hn) with ⟨p, hp, hplaced⟩
    rcases placementOf_super hids orders edges LayoutMode.preserveManual ht with
      ⟨q, hq, hplaced'⟩
    refine ⟨p, q, hplaced, hplaced', ?_⟩
    have hflows : n.id ∈ flowOrder orders nodes edges :=
      (mem_flowOrder_iff hids orders).mpr ⟨n, hn, hfree, rfl⟩
    exact hcleared.apart n.id t hflows (hperm.mem_iff.mpr ht) hne.symm p q hp hq
  · intro before id behind heq
    rw [heq] at hsupers hnodup hroom
    rw [← List.append_assoc] at hnodup hroom
    rw [List.length_append, List.length_cons] at hroom
    rw [List.nodup_append] at hnodup
    rcases hnodup with ⟨hbefore, _, hdisjoint⟩
    have hcleared := cleared_run hstanding
      (fun a ha => hsupers a (List.mem_append_left _ ha)) hbefore (by omega)
    have hsuper := hsupers id List.mem_append_cons_self
    have hnew : id ∉ lockedIds (supers nodes) ++ before :=
      fun hin => hdisjoint id hin id List.mem_cons_self rfl
    exact (hcleared.standing.flow hsuper hnew (by omega)).right.left

end Distinct

/-- Two pins on top of each other, and a task that starts on them. -/
def pinnedPair : List WorkNode :=
  [{ node "a" .task none with
      positionX := 80, positionY := 80, positionLocked := true },
    { node "b" .milestone none with
      positionX := 90, positionY := -10, positionLocked := true },
    node "c" .task none]

theorem pinnedPair_flowsAround : FlowsAround MapOrders.unchanged pinnedPair [] :=
  flowsAround (by decide) MapOrders.unchanged [] (by decide)

end Layout
end Perpetual
