import Perpetual.Layout.Placed

/-!
# Nothing overlaps

Columns keep super-nodes apart.  The size of a group is that of the grid its nodes are put
into, so that they stay inside it and apart from one another.
-/

namespace Perpetual
namespace Layout

open Foundation
open WorkGraph (WorkEdge)

variable {nodes : List WorkNode}

/-!
## Inside a group
-/

theorem columnCount_pos (count : Nat) : 0 < columnCount count := by
  unfold columnCount
  split <;> omega

variable {i : Nat}

theorem div_lt_rows {count cols : Nat} (hcols : 0 < cols) (hi : i < count) :
    i / cols < (count + cols - 1) / cols := by
  have hrow : i / cols * cols ≤ i := Nat.div_mul_le_self i cols
  apply (Nat.le_div_iff_mul_le hcols).mpr
  rw [Nat.succ_mul]
  omega

variable {g : String}

theorem childCell_within {group : Rect ℚ} (hg : g ∈ groupIds nodes)
    (hsize : (group.width, group.height) = sizeOf nodes g) (hi : i < (childrenOf nodes g).length) :
    (childCell (group.x, group.y) (childrenOf nodes g).length i).Within group := by
  rw [sizeOf, if_pos hg] at hsize
  unfold childCell
  generalize (childrenOf nodes g).length = count at hsize hi
  have hcols := columnCount_pos count
  have hrow := div_lt_rows hcols hi
  unfold groupSize at hsize
  simp only [max_eq_left (Nat.one_le_of_lt hi)] at hsize
  generalize columnCount count = cols at hsize hcols hrow
  generalize (count + cols - 1) / cols = rows at hsize hrow
  injection hsize with hwidth hheight
  rw [Nat.cast_sub hcols] at hwidth
  rw [Nat.cast_sub (Nat.one_le_of_lt hrow)] at hheight
  have hright : group.right = group.x + group.width := rfl
  have hbottom : group.bottom = group.y + group.height := rfl
  apply Rect.cell_within _ _ _ (Nat.mod_lt i hcols) hrow
  · norm_num [groupPad]
  · rw [hright, hwidth]
    norm_num [groupPad, childW, childGap]
    linarith
  · norm_num [groupHeader]
  · rw [hbottom, hheight]
    norm_num [groupHeader, groupPad, childH, childGap]
    linarith
  · norm_num [childGap]
  · norm_num [childW]
  · norm_num [childH]

theorem childCell_not_overlaps (corner : ℚ × ℚ) (count : Nat) {j : Nat} (h : i ≠ j) :
    ¬ (childCell corner count i).Overlaps (childCell corner count j) := by
  apply Rect.cell_not_overlaps _ _ _ h
  · norm_num [childGap]
  · norm_num [childW]
  · norm_num [childH]

/-!
## The whole layout
-/

/-- Every node is placed once and nothing overlaps, apart from a group and its nodes, which
lie in it. -/
structure SetApart (nodes : List WorkNode) (placements : List NodePlacement) : Prop where
  once : (placements.map NodePlacement.nodeId).Perm (nodes.map (fun n => n.id))
  supers : forall s t, s ∈ superIds nodes -> t ∈ superIds nodes -> s ≠ t ->
    exists p q, placementOf placements s = some p ∧ placementOf placements t = some q ∧
      ¬ p.Overlaps q.toRect
  inside : forall n g, n ∈ nodes -> groupOf nodes n = some g ->
    exists p group, placementOf placements n.id = some p ∧
      placementOf placements g = some group ∧ p.Within group.toRect
  children : forall m n g, m ∈ nodes -> n ∈ nodes -> m ≠ n -> groupOf nodes m = some g ->
    groupOf nodes n = some g ->
      exists p q, placementOf placements m.id = some p ∧ placementOf placements n.id = some q ∧
        ¬ p.Overlaps q.toRect

section Distinct

variable (hids : (nodes.map (fun n => n.id)).Nodup)
include hids

theorem flowPlacements_apart (orders : MapOrders) {edges : List WorkEdge} {s t : String}
    {p q : NodePlacement} (hp : (flowPlacements orders nodes edges).get? s = some p)
    (hq : (flowPlacements orders nodes edges).get? t = some q) (hne : s ≠ t) :
    ¬ p.Overlaps q.toRect := by
  have hsymm : Std.Symm (fun (a b : String × Rect ℚ) => ¬ a.2.Overlaps b.2) :=
    ⟨fun _ _ hab hba => hab hba.symm⟩
  have hpairwise : (Rect.columns (sizeOf nodes) leafW columnGutter y0 vgap x0
      (orderedLayers orders nodes edges)).Pairwise (fun a b => ¬ a.2.Overlaps b.2) := by
    apply Rect.columns_pairwise _ _ _ (fun a => (sizeOf_nonneg nodes a).right)
    · norm_num [leafW]
    · norm_num [columnGutter]
    · norm_num [vgap]
  have hmem := (mem_columns_of_get? hids orders hp).right
  have hmem' := (mem_columns_of_get? hids orders hq).right
  exact hpairwise.forall hmem hmem' (fun heq => hne (congrArg Prod.fst heq))

theorem child_within (orders : MapOrders) (edges : List WorkEdge) (mode : LayoutMode)
    {n : WorkNode} (hn : n ∈ nodes) (hg : groupOf nodes n = some g) :
    exists p group, placementOf (computeLayout orders nodes edges mode) n.id = some p ∧
      placementOf (computeLayout orders nodes edges mode) g = some group ∧
      p.Within group.toRect := by
  rcases exists_cell hids orders edges mode hn hg with ⟨i, group, hi, hgroup, hplaced, hcell⟩
  have hsize := (placedAll_superPlacements hids orders edges mode).sized g group hgroup
  have hlt := (List.getElem?_eq_some_iff.mp hi).choose
  exact ⟨_, group, hcell, hplaced, childCell_within (groupOf_mem_groupIds hg) hsize hlt⟩

theorem children_apart (orders : MapOrders) (edges : List WorkEdge) (mode : LayoutMode)
    {m n : WorkNode} (hm : m ∈ nodes) (hn : n ∈ nodes) (hne : m ≠ n)
    (hmg : groupOf nodes m = some g) (hng : groupOf nodes n = some g) :
    exists p q, placementOf (computeLayout orders nodes edges mode) m.id = some p ∧
      placementOf (computeLayout orders nodes edges mode) n.id = some q ∧
      ¬ p.Overlaps q.toRect := by
  rcases exists_cell hids orders edges mode hm hmg with ⟨i, group, hi, hgroup, _, hcell⟩
  rcases exists_cell hids orders edges mode hn hng with ⟨j, group', hj, hgroup', _, hcell'⟩
  rw [hgroup] at hgroup'
  rw [← Option.some.inj hgroup'] at hcell'
  refine ⟨_, _, hcell, hcell', childCell_not_overlaps _ _ ?_⟩
  intro heq
  rw [heq, hj] at hi
  exact hne (Option.some.inj hi).symm

/-- Whatever the links are, nothing overlaps after a new layout of everything. -/
theorem computeLayout_setApart (orders : MapOrders) (edges : List WorkEdge) :
    SetApart nodes (computeLayout orders nodes edges LayoutMode.force) := by
  constructor
  · exact computeLayout_ids hids orders edges LayoutMode.force
  · intro s t hs ht hne
    rcases placementOf_super hids orders edges LayoutMode.force hs with ⟨p, hp, hplaced⟩
    rcases placementOf_super hids orders edges LayoutMode.force ht with ⟨q, hq, hplaced'⟩
    exact ⟨p, q, hplaced, hplaced', flowPlacements_apart hids orders hp hq hne⟩
  · intro n g hn hg
    exact child_within hids orders edges LayoutMode.force hn hg
  · intro m n g hm hn hne hmg hng
    exact children_apart hids orders edges LayoutMode.force hm hn hne hmg hng

end Distinct

/-- Two groups that wait for each other are laid out like any others. -/
theorem twoGroups_setApart :
    SetApart twoGroups
      (computeLayout MapOrders.unchanged twoGroups [thereLink, backLink] LayoutMode.force) :=
  computeLayout_setApart (by decide) MapOrders.unchanged [thereLink, backLink]

end Layout
end Perpetual
