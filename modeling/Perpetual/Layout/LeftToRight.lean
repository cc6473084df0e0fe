import Perpetual.Layout.Placed

/-!
# Prerequisites to the left

A link between two groups makes the whole group of its prerequisite come first.  Two groups
can each come before the other, although the nodes in them depend on one another in no
circle.  Then they cannot both be drawn to the left of each other.
-/

namespace Perpetual
namespace Layout

open Foundation
open WorkGraph (WorkEdge dependencies)

variable {nodes : List WorkNode} {edges : List WorkEdge} {placements : List NodePlacement}

/-- A node in or at the one super-node is a prerequisite of one in or at the other. -/
def Precedes (nodes : List WorkNode) (edges : List WorkEdge) (s t : String) : Prop :=
  exists d, d ∈ dependencies edges ∧ superOf nodes d.1 = some s ∧ superOf nodes d.2 = some t ∧
    s ≠ t

def Ranked (nodes : List WorkNode) (edges : List WorkEdge) : Prop :=
  forall s, ¬ Relation.TransGen (Precedes nodes edges) s s

/-- The one ends where the other begins or further to the left. -/
def LeftOf (placements : List NodePlacement) (s t : String) : Prop :=
  exists p q, placementOf placements s = some p ∧ placementOf placements t = some q ∧
    p.right ≤ q.x ∧ p.x < q.x

def PrerequisitesLeft (nodes : List WorkNode) (edges : List WorkEdge)
    (placements : List NodePlacement) : Prop :=
  forall d s t, d ∈ dependencies edges -> superOf nodes d.1 = some s ->
    superOf nodes d.2 = some t -> s ≠ t -> LeftOf placements s t

/-!
## Circles cannot be drawn
-/

theorem x_lt_of_path (hleft : PrerequisitesLeft nodes edges placements) {s t : String}
    (hpath : Relation.TransGen (Precedes nodes edges) s t) :
    exists p q, placementOf placements s = some p ∧ placementOf placements t = some q ∧
      p.x < q.x := by
  induction hpath with
  | single hstep =>
      rcases hstep with ⟨d, hd, hs, ht, hne⟩
      rcases hleft d _ _ hd hs ht hne with ⟨p, q, hp, hq, _, hlt⟩
      exact ⟨p, q, hp, hq, hlt⟩
  | tail _ hstep ih =>
      rcases ih with ⟨p, q, hp, hq, hlt⟩
      rcases hstep with ⟨d, hd, hs, ht, hne⟩
      rcases hleft d _ _ hd hs ht hne with ⟨q', r, hq', hr, _, hlt'⟩
      rw [hq] at hq'
      rw [← Option.some.inj hq'] at hlt'
      exact ⟨p, r, hp, hr, lt_trans hlt hlt'⟩

theorem ranked_of_left (hleft : PrerequisitesLeft nodes edges placements) : Ranked nodes edges := by
  intro s hcircle
  rcases x_lt_of_path hleft hcircle with ⟨p, q, hp, hq, hlt⟩
  rw [hp] at hq
  rw [Option.some.inj hq] at hlt
  exact lt_irrefl _ hlt

/-!
## Everything else is
-/

theorem acyclic_rankEdges_iff : Digraph.Acyclic (rankEdges nodes edges) <-> Ranked nodes edges := by
  have hsame : (fun s t => (s, t) ∈ rankEdges nodes edges) = Precedes nodes edges := by
    funext s t
    exact propext mem_rankEdges_iff
  unfold Digraph.Acyclic Ranked
  rw [hsame]

section Distinct

variable (hids : (nodes.map (fun n => n.id)).Nodup)
include hids

theorem flowPlacements_column (orders : MapOrders) {id : String} {p : NodePlacement}
    (hp : (flowPlacements orders nodes edges).get? id = some p) :
    exists column,
      (orderedLayers orders nodes edges)[layerOf orders nodes edges id]? = some column ∧
      p.x = Rect.columnStart (sizeOf nodes) leafW columnGutter x0
        (orderedLayers orders nodes edges) (layerOf orders nodes edges id) ∧
      p.width ≤ Rect.columnWidth (sizeOf nodes) leafW column := by
  have hgap : 0 ≤ vgap := by norm_num [vgap]
  have hmem := (mem_columns_of_get? hids orders hp).right
  rcases Rect.mem_columns hgap (fun a => (sizeOf_nonneg nodes a).right) hmem with
    ⟨n, column, hn, hin, hx, hsize⟩
  have hlayer : layerOf orders nodes edges id = n := layerOf_of_mem orders hn hin
  have hwidth : (sizeOf nodes id).1 ≤ Rect.columnWidth (sizeOf nodes) leafW column :=
    Rect.le_columnWidth hin
  rw [← hsize] at hwidth
  rw [hlayer]
  exact ⟨column, hn, hx, hwidth⟩

theorem leftOf_of_layerOf_lt (orders : MapOrders) {s t : String} (hs : s ∈ superIds nodes)
    (ht : t ∈ superIds nodes) (hlt : layerOf orders nodes edges s < layerOf orders nodes edges t) :
    LeftOf (computeLayout orders nodes edges .force) s t := by
  rcases placementOf_super hids orders edges .force hs with
    ⟨p, hp, hplaced⟩
  rcases placementOf_super hids orders edges .force ht with
    ⟨q, hq, hplaced'⟩
  have hflow : (flowPlacements orders nodes edges).get? s = some p := hp
  have hflow' : (flowPlacements orders nodes edges).get? t = some q := hq
  rcases flowPlacements_column hids orders hflow with ⟨column, hcolumn, hx, hwidth⟩
  rcases flowPlacements_column hids orders hflow' with ⟨_, _, hx', _⟩
  have hleast : 0 ≤ leafW := by norm_num [leafW]
  have hgutter : 0 ≤ columnGutter := by norm_num [columnGutter]
  have hnext : Rect.columnStart (sizeOf nodes) leafW columnGutter x0
        (orderedLayers orders nodes edges) (layerOf orders nodes edges s) +
        (Rect.columnWidth (sizeOf nodes) leafW column + columnGutter) ≤
      Rect.columnStart (sizeOf nodes) leafW columnGutter x0
        (orderedLayers orders nodes edges) (layerOf orders nodes edges t) :=
    Rect.columnStart_add_le hleast hgutter hcolumn hlt
  have hroom : leafW ≤ Rect.columnWidth (sizeOf nodes) leafW column :=
    Rect.least_le_columnWidth leafW column
  have hpositive : 0 < leafW := by norm_num [leafW]
  rw [← hx, ← hx'] at hnext
  refine ⟨p, q, hplaced, hplaced', ?_, ?_⟩
  · show p.x + p.width ≤ q.x
    linarith
  · linarith

/-- Prerequisites are drawn to the left of what depends on them if and only if the groups
and free nodes do not wait for one another in a circle. -/
theorem prerequisitesLeft_iff_ranked (orders : MapOrders) :
    PrerequisitesLeft nodes edges (computeLayout orders nodes edges LayoutMode.force) <->
      Ranked nodes edges := by
  constructor
  · exact ranked_of_left
  · intro hranked d s t hd hs ht hne
    have hlink : (s, t) ∈ rankEdges nodes edges := mem_rankEdges_iff.mpr ⟨d, hd, hs, ht, hne⟩
    have hlt := layerOf_lt hids orders (acyclic_rankEdges_iff.mpr hranked) hlink
    exact leftOf_of_layerOf_lt hids orders (superOf_mem hids hs) (superOf_mem hids ht) hlt

end Distinct

/-!
## Two groups with two tasks each
-/

theorem thereLink_drawn :
    PrerequisitesLeft twoGroups [thereLink]
      (computeLayout MapOrders.unchanged twoGroups [thereLink] LayoutMode.force) := by
  apply (prerequisitesLeft_iff_ranked (by decide) MapOrders.unchanged).mpr
  apply acyclic_rankEdges_iff.mp
  have hlinks : rankEdges twoGroups [thereLink] = [("g1", "g2")] := by decide
  rw [hlinks]
  apply Digraph.acyclic_of_rank (fun id => if id = "g1" then 0 else 1)
  intro s t h
  have heq := List.mem_singleton.mp h
  injection heq with hs ht
  rw [hs, ht]
  decide

/-- The graph is accepted, but each group waits for the other. -/
theorem crossed_groups_not_drawn :
    (twoGroups.map (fun n => n.id)).Nodup ∧
      WorkGraph.validateGatingEdgesAcyclic (twoGroups.map WorkNode.toWorkNode)
        [thereLink, backLink] = Except.ok () ∧
      forall orders, ¬ PrerequisitesLeft twoGroups [thereLink, backLink]
        (computeLayout orders twoGroups [thereLink, backLink] LayoutMode.force) := by
  have hthere : Precedes twoGroups [thereLink, backLink] "g1" "g2" :=
    ⟨("a1", "b1"), by decide, by decide, by decide, by decide⟩
  have hback : Precedes twoGroups [thereLink, backLink] "g2" "g1" :=
    ⟨("b2", "a2"), by decide, by decide, by decide, by decide⟩
  refine ⟨by decide, by decide, ?_⟩
  intro orders hleft
  exact ranked_of_left hleft "g1" ((Relation.TransGen.single hthere).tail hback)

end Layout
end Perpetual
