import Perpetual.Foundation.OrderedMap
import Perpetual.Foundation.Rectangles
import Perpetual.Layout.Layers

/-!
# Coordinates

Layers are columns, and the nodes of a layer stand below one another.  Pinned super-nodes
then go to where they were put and the others are pushed down past what is in their way.
The nodes of a group are put into its rectangle at last.
-/

namespace Perpetual
namespace Layout

open Foundation
open WorkGraph (WorkEdge)

def x0 : ℚ := 80
def y0 : ℚ := 80
def columnGutter : ℚ := 110
def vgap : ℚ := 36

def leafW : ℚ := 230
def leafH : ℚ := 96

def groupHeader : ℚ := 42
def groupPad : ℚ := 14
def childW : ℚ := 218
def childH : ℚ := 96
def childGap : ℚ := 10
def twoColumnThreshold : Nat := 6

/-- The push-down loop breaks when its guard is over this. -/
def guardLimit : Nat := 1000

structure NodePlacement extends Rect ℚ where
  nodeId : String
deriving DecidableEq, Repr

/-!
## Sizes
-/

def columnCount (count : Nat) : Nat :=
  if twoColumnThreshold < count then 2 else 1

/-- The interior of a group for a number of nodes. -/
def groupSize (count : Nat) : ℚ × ℚ :=
  let count := max count 1
  let cols := columnCount count
  let rows := (count + cols - 1) / cols
  (2 * groupPad + cols * childW + (cols - 1 : Nat) * childGap,
    groupHeader + rows * childH + (rows - 1 : Nat) * childGap + groupPad)

def sizeOf (nodes : List WorkNode) (id : String) : ℚ × ℚ :=
  if id ∈ groupIds nodes then groupSize (childrenOf nodes id).length else (leafW, leafH)

/-!
## Super-nodes
-/

def flowPlacements (orders : MapOrders) (nodes : List WorkNode) (edges : List WorkEdge) :
    OrderedMap String NodePlacement :=
  OrderedMap.ofList
    ((Rect.columns (sizeOf nodes) leafW columnGutter y0 vgap x0
      (orderedLayers orders nodes edges)).map
        (fun p => (p.1, { p.2 with nodeId := p.1 })))

/-- The placements with the rectangles that nothing is to overlap. -/
structure Occupancy where
  placements : OrderedMap String NodePlacement
  occupied : List (Rect ℚ)

def Occupancy.put (s : Occupancy) (p : NodePlacement) : Occupancy :=
  { placements := s.placements.set p.nodeId p
    occupied := s.occupied ++ [p.toRect] }

def pin (s : Occupancy) (node : WorkNode) : Occupancy :=
  if node.positionLocked then
    match s.placements.get? node.id with
    | some p => s.put { p with x := node.positionX, y := node.positionY }
    | none => s
  else s

/-- Any other one is pushed down past every collision. -/
def flow (s : Occupancy) (id : String) : Occupancy :=
  match s.placements.get? id with
  | some p =>
      s.put { p with toRect := Rect.pushDown vgap s.occupied (guardLimit + 1) p.toRect }
  | none => s

/-- The super-nodes that are not pinned, layer by layer. -/
def flowOrder (orders : MapOrders) (nodes : List WorkNode) (edges : List WorkEdge) :
    List String :=
  (orderedLayers orders nodes edges).flatten.filter
    (fun id => (byId nodes id).any (fun n => !n.positionLocked))

def pinned (orders : MapOrders) (nodes : List WorkNode) (edges : List WorkEdge) : Occupancy :=
  (supers nodes).foldl pin
    { placements := flowPlacements orders nodes edges
      occupied := [] }

def superPlacements (orders : MapOrders) (nodes : List WorkNode) (edges : List WorkEdge) :
    LayoutMode -> OrderedMap String NodePlacement
  | .force => flowPlacements orders nodes edges
  | .preserveManual =>
      ((flowOrder orders nodes edges).foldl flow (pinned orders nodes edges)).placements

/-- The place of a node in a group of so many, in the group's rectangle. -/
def childCell (corner : ℚ × ℚ) (count index : Nat) : Rect ℚ :=
  Rect.cell (columnCount count) childW childH childGap
    (corner.1 + groupPad, corner.2 + groupHeader) index

def childPlacements (group : Rect ℚ) (list : List WorkNode) : List NodePlacement :=
  list.mapIdx (fun index child =>
    { childCell (group.x, group.y) list.length index with nodeId := child.id })

def parents (nodes : List WorkNode) : List String :=
  (nodes.filterMap (groupOf nodes)).dedup

def groupPlacements (nodes : List WorkNode) (placements : OrderedMap String NodePlacement)
    (group : String) : List NodePlacement :=
  match placements.get? group with
  | some p => childPlacements p.toRect (childrenOf nodes group)
  | none => []

def allChildren (orders : MapOrders) (nodes : List WorkNode)
    (placements : OrderedMap String NodePlacement) : List NodePlacement :=
  (orders.children.arrange (parents nodes)).flatMap (groupPlacements nodes placements)

def allSupers (orders : MapOrders) (placements : OrderedMap String NodePlacement) :
    List NodePlacement :=
  (orders.placements.arrange placements.keys).filterMap placements.get?

def computeLayout (orders : MapOrders) (nodes : List WorkNode) (edges : List WorkEdge)
    (mode : LayoutMode) : List NodePlacement :=
  if nodes.isEmpty then []
  else
    let placements := superPlacements orders nodes edges mode
    (allChildren orders nodes placements ++ allSupers orders placements).insertionSort
      (fun a b => a.nodeId ≤ b.nodeId)

def placementOf (placements : List NodePlacement) (id : String) : Option NodePlacement :=
  placements.find? (fun p => p.nodeId == id)

/-!
## Nodes and links of examples
-/

def node (id : String) (kind : WorkNodeKind) (parentId : Option String) : WorkNode :=
  { id := id
    projectId := "p"
    kind := kind
    status := .draft
    priority := .medium
    sortOrder := 0
    createdAt := 0
    parentId := parentId
    positionX := 0
    positionY := 0
    positionLocked := false }

def edge (id source target : String) (kind : WorkEdgeKind) : WorkEdge :=
  { id := id
    projectId := "p"
    sourceId := source
    targetId := target
    kind := kind
    label := none }

def twoGroups : List WorkNode :=
  [node "g1" .group none, node "a1" .task (some "g1"),
    node "a2" .task (some "g1"), node "g2" .group none,
    node "b1" .task (some "g2"), node "b2" .task (some "g2")]

def thereLink : WorkEdge := edge "e1" "a1" "b1" .blocks

def backLink : WorkEdge := edge "e2" "a2" "b2" .dependsOn

end Layout
end Perpetual
