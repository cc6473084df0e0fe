import Perpetual.Foundation.Layering
import Perpetual.Layout.Graph

/-!
# Ranks and the order within a layer

Super-nodes are put into layers by the longest path of gating links that leads to them.
Sweeps over the layers then sort each one by the places of the neighbors in the layer
beside it.
-/

namespace Perpetual
namespace Layout

open Foundation
open WorkGraph (WorkEdge)

/-- The order in which a hash map goes through its keys; none is promised. -/
structure KeyOrder where
  arrange : List String -> List String
  perm : forall keys, (arrange keys).Perm keys

/-- The orders of the maps that one call goes through. -/
structure MapOrders where
  indegree : KeyOrder
  children : KeyOrder
  placements : KeyOrder

def KeyOrder.unchanged : KeyOrder :=
  { arrange := fun keys => keys
    perm := List.Perm.refl }

def MapOrders.unchanged : MapOrders :=
  { indegree := KeyOrder.unchanged
    children := KeyOrder.unchanged
    placements := KeyOrder.unchanged }

def orderingSweeps : Nat := 4

/-!
## Ranks
-/

def initialQueue (orders : MapOrders) (nodes : List WorkNode) (edges : List WorkEdge) :
    List String :=
  (orders.indegree.arrange (superIds nodes)).filter
    (fun id => Digraph.indegree (rankEdges nodes edges) id = 0)

def layerOf (orders : MapOrders) (nodes : List WorkNode) (edges : List WorkEdge) :
    String -> Nat :=
  (Layering.layers (superIds nodes) (rankEdges nodes edges)
    (initialQueue orders nodes edges)).layer

def maxLayer (orders : MapOrders) (nodes : List WorkNode) (edges : List WorkEdge) : Nat :=
  ((superIds nodes).map (layerOf orders nodes edges)).max?.getD 0

/-!
## The order within a layer
-/

def kindOrder : WorkNodeKind -> Nat
  | .group => 0
  | .milestone => 1
  | .task => 2
  | .session => 3

def initialOrder (a b : WorkNode) : Ordering :=
  (compare (kindOrder a.kind) (kindOrder b.kind)).then (visualOrder a b)

def initial (nodes : List WorkNode) : List WorkNode :=
  (supers nodes).insertionSort (fun a b => (initialOrder a b).isLE = true)

def initialLayers (orders : MapOrders) (nodes : List WorkNode) (edges : List WorkEdge) :
    List (List String) :=
  Layering.listed (layerOf orders nodes edges) (maxLayer orders nodes edges + 1)
    ((initial nodes).map (fun n => n.id))

/-- The other ends of the links of a super-node, with their weights. -/
def neighbors (links : List Link) (id : String) : List (String × ℚ) :=
  links.flatMap (fun l =>
    (if l.source = id then [(l.target, l.weight)] else []) ++
      (if l.target = id then [(l.source, l.weight)] else []))

/-- The mean place of the neighbors in the layer of reference; without any the place
held so far. -/
def score (near : List (String × ℚ)) (reference current : List String) (id : String) : ℚ :=
  let found := near.filterMap (fun n =>
    (reference.idxOf? n.1).map (fun place => ((place : ℚ) * n.2, n.2)))
  let acc := found.foldl (fun acc n => acc + n.1) 0
  let weightSum := found.foldl (fun sum n => sum + n.2) 0
  if 0 < weightSum then acc / weightSum else (current.idxOf id : ℚ)

def scoreOrder (current : List String) (a b : ℚ × String) : Ordering :=
  (compare a.1 b.1).then (compare (current.idxOf a.2) (current.idxOf b.2))

def reorder (links : List Link) (reference current : List String) : List String :=
  let scored := current.map (fun id => (score (neighbors links id) reference current id, id))
  (scored.insertionSort (fun a b => (scoreOrder current a b).isLE = true)).map Prod.snd

/-- A layer is sorted by the one before it, in a backward sweep by the one behind it. -/
def reorderAt (links : List Link) (forward : Bool) (layers : List (List String)) (i : Nat) :
    List (List String) :=
  match layers[if forward then i - 1 else i + 1]?, layers[i]? with
  | some reference, some current => layers.set i (reorder links reference current)
  | _, _ => layers

def sweepIndices (count : Nat) (forward : Bool) : List Nat :=
  if forward then List.range' 1 (count - 1) else (List.range (count - 1)).reverse

def sweepOnce (links : List Link) (layers : List (List String)) (sweep : Nat) :
    List (List String) :=
  let forward := sweep % 2 == 0
  (sweepIndices layers.length forward).foldl (reorderAt links forward) layers

def orderedLayers (orders : MapOrders) (nodes : List WorkNode) (edges : List WorkEdge) :
    List (List String) :=
  (List.range orderingSweeps).foldl (sweepOnce (orderEdges nodes edges))
    (initialLayers orders nodes edges)

/-!
## What the sweeps keep
-/

theorem reorder_perm (links : List Link) (reference current : List String) :
    (reorder links reference current).Perm current := by
  unfold reorder
  simp only
  apply ((List.perm_insertionSort _ _).map Prod.snd).trans
  rw [List.map_map]
  apply List.Perm.of_eq
  exact List.map_id' current

theorem reorderAt_rearranged (links : List Link) (forward : Bool)
    (layers : List (List String)) (i : Nat) :
    Layering.Rearranged (reorderAt links forward layers i) layers := by
  unfold reorderAt
  split
  · rename_i reference current _ hcurrent
    exact Layering.Rearranged.set hcurrent (reorder_perm links reference current)
  · exact Layering.Rearranged.refl layers

theorem orderedLayers_rearranged (orders : MapOrders) (nodes : List WorkNode)
    (edges : List WorkEdge) :
    Layering.Rearranged (orderedLayers orders nodes edges)
      (initialLayers orders nodes edges) := by
  apply Layering.Rearranged.foldl
  intro layers sweep
  exact Layering.Rearranged.foldl (reorderAt_rearranged _ _) _ layers

/-!
## The layers
-/

variable {nodes : List WorkNode}

theorem initialQueue_perm (orders : MapOrders) (edges : List WorkEdge) :
    (initialQueue orders nodes edges).Perm
      ((superIds nodes).filter
        (fun id => Digraph.indegree (rankEdges nodes edges) id = 0)) :=
  (orders.indegree.perm (superIds nodes)).filter _

theorem layerOf_le_maxLayer (orders : MapOrders) (edges : List WorkEdge) {id : String}
    (h : id ∈ superIds nodes) : layerOf orders nodes edges id ≤ maxLayer orders nodes edges := by
  have hmem : layerOf orders nodes edges id ∈
      (superIds nodes).map (layerOf orders nodes edges) := List.mem_map_of_mem h
  unfold maxLayer
  cases hmax : ((superIds nodes).map (layerOf orders nodes edges)).max? with
  | none =>
      rw [List.max?_eq_none_iff] at hmax
      rw [hmax] at hmem
      cases hmem
  | some top => exact (List.max?_eq_some_iff.mp hmax).right _ hmem

theorem initial_perm : ((initial nodes).map (fun n => n.id)).Perm (superIds nodes) :=
  (List.perm_insertionSort _ _).map _

theorem layerOf_of_mem (orders : MapOrders) {edges : List WorkEdge} {n : Nat}
    {layer : List String} (hn : (orderedLayers orders nodes edges)[n]? = some layer)
    {id : String} (hid : id ∈ layer) : layerOf orders nodes edges id = n := by
  rcases (orderedLayers_rearranged orders nodes edges).getElem? hn with ⟨l, hl, hperm⟩
  have hmem := hperm.mem_iff.mp hid
  rw [Layering.getElem?_listed hl] at hmem
  simpa using (List.mem_filter.mp hmem).right

section Distinct

variable (hids : (nodes.map (fun n => n.id)).Nodup)
include hids

theorem layerOf_lt (orders : MapOrders) {edges : List WorkEdge}
    (hacyclic : Digraph.Acyclic (rankEdges nodes edges)) {s t : String}
    (h : (s, t) ∈ rankEdges nodes edges) :
    layerOf orders nodes edges s < layerOf orders nodes edges t :=
  Layering.layers_rise (nodup_superIds hids) (ends_of_rankEdges hids) hacyclic
    (initialQueue_perm orders edges) h

theorem orderedLayers_perm (orders : MapOrders) (edges : List WorkEdge) :
    (orderedLayers orders nodes edges).flatten.Perm (superIds nodes) := by
  apply (orderedLayers_rearranged orders nodes edges).flatten_perm.trans
  have hinitial : ((initial nodes).map (fun n => n.id)).Perm (superIds nodes) := initial_perm
  apply List.Perm.trans _ hinitial
  apply Layering.flatten_listed_perm (hinitial.nodup_iff.mpr (nodup_superIds hids))
  intro id hid
  exact Nat.lt_succ_of_le (layerOf_le_maxLayer orders edges (hinitial.mem_iff.mp hid))

end Distinct

end Layout
end Perpetual
