import Mathlib

/-!
# Rectangles

Rectangles with sides along the axes, over an ordered field.  Items are stacked in columns
side by side, put into the cells of a grid, or pushed down past what is in their way; in
each case they do not overlap.
-/

namespace Perpetual
namespace Foundation

structure Rect (scalar : Type) where
  x : scalar
  y : scalar
  width : scalar
  height : scalar
deriving DecidableEq, Repr

namespace Rect

set_option linter.unusedSectionVars false

variable {scalar : Type} [Field scalar] [LinearOrder scalar] [IsStrictOrderedRing scalar]

def right (r : Rect scalar) : scalar := r.x + r.width

def bottom (r : Rect scalar) : scalar := r.y + r.height

/-- The interiors meet, when the sides are positive. -/
def Overlaps (a b : Rect scalar) : Prop :=
  a.x < b.right ∧ b.x < a.right ∧ a.y < b.bottom ∧ b.y < a.bottom

instance (a b : Rect scalar) : Decidable (a.Overlaps b) := by
  unfold Overlaps
  infer_instance

structure Within (inner outer : Rect scalar) : Prop where
  left : outer.x ≤ inner.x
  right : inner.right ≤ outer.right
  top : outer.y ≤ inner.y
  bottom : inner.bottom ≤ outer.bottom

variable {a b : Rect scalar}

theorem Overlaps.symm (h : a.Overlaps b) : b.Overlaps a :=
  ⟨h.2.1, h.1, h.2.2.2, h.2.2.1⟩

theorem not_overlaps_of_right_le (h : a.right ≤ b.x) : ¬ a.Overlaps b :=
  fun hover => absurd hover.2.1 (not_lt.mpr h)

theorem not_overlaps_of_bottom_le (h : a.bottom ≤ b.y) : ¬ a.Overlaps b :=
  fun hover => absurd hover.2.2.2 (not_lt.mpr h)

/-!
## Columns
-/

section Columns

variable {item : Type} (size : item -> scalar × scalar)

def stack (x gap : scalar) : scalar -> List item -> List (item × Rect scalar)
  | _, [] => []
  | y, a :: rest =>
      (a, { x := x, y := y, width := (size a).1, height := (size a).2 }) ::
        stack x gap (y + ((size a).2 + gap)) rest

def columnWidth (least : scalar) (column : List item) : scalar :=
  (column.map (fun a => (size a).1)).foldl max least

/-- Columns side by side, each as wide as its widest item, from a place on. -/
def columns (least gutter top gap : scalar) : scalar -> List (List item) ->
    List (item × Rect scalar)
  | _, [] => []
  | x, column :: rest =>
      stack size x gap top column ++
        columns least gutter top gap (x + (columnWidth size least column + gutter)) rest

def columnStart (least gutter : scalar) : scalar -> List (List item) -> Nat -> scalar
  | x, _, 0 => x
  | x, [], _ + 1 => x
  | x, column :: rest, n + 1 =>
      columnStart least gutter (x + (columnWidth size least column + gutter)) rest n

variable {size}

theorem map_fst_stack (x gap y : scalar) (column : List item) :
    (stack size x gap y column).map Prod.fst = column := by
  induction column generalizing y with
  | nil => rfl
  | cons a rest ih => rw [stack, List.map_cons, ih]

theorem map_fst_columns (least gutter top gap x : scalar) (layers : List (List item)) :
    (columns size least gutter top gap x layers).map Prod.fst = layers.flatten := by
  induction layers generalizing x with
  | nil => rfl
  | cons column rest ih =>
      rw [columns, List.map_append, map_fst_stack, ih, List.flatten_cons]

theorem mem_stack {x gap y : scalar} {column : List item} {p : item × Rect scalar}
    (hgap : 0 ≤ gap) (hsize : forall a, 0 ≤ (size a).2) (h : p ∈ stack size x gap y column) :
    p.1 ∈ column ∧ p.2.x = x ∧ (p.2.width, p.2.height) = size p.1 ∧ y ≤ p.2.y := by
  induction column generalizing y with
  | nil => cases h
  | cons a rest ih =>
      rw [stack] at h
      rcases List.mem_cons.mp h with heq | hrest
      · rw [heq]
        exact ⟨List.mem_cons_self, rfl, rfl, le_refl y⟩
      · rcases ih hrest with ⟨hmem, hx, hsizes, hy⟩
        have ha := hsize a
        exact ⟨List.mem_cons_of_mem a hmem, hx, hsizes, by linarith⟩

theorem stack_pairwise {x gap y : scalar} {column : List item} (hgap : 0 ≤ gap)
    (hsize : forall a, 0 ≤ (size a).2) :
    (stack size x gap y column).Pairwise (fun p q => p.2.bottom ≤ q.2.y) := by
  induction column generalizing y with
  | nil => exact List.Pairwise.nil
  | cons a rest ih =>
      rw [stack]
      apply List.Pairwise.cons _ ih
      intro q hq
      have hbelow := (mem_stack hgap hsize hq).2.2.2
      show y + (size a).2 ≤ q.2.y
      linarith

theorem le_foldl_max (widths : List scalar) (least : scalar) :
    least ≤ widths.foldl max least ∧ forall w, w ∈ widths -> w ≤ widths.foldl max least := by
  induction widths generalizing least with
  | nil => exact ⟨le_refl least, fun w hw => absurd hw List.not_mem_nil⟩
  | cons v rest ih =>
      rcases ih (max least v) with ⟨hleast, hrest⟩
      rw [List.foldl_cons]
      refine ⟨le_trans (le_max_left least v) hleast, ?_⟩
      intro w hw
      rcases List.mem_cons.mp hw with heq | hmem
      · rw [heq]
        exact le_trans (le_max_right least v) hleast
      · exact hrest w hmem

theorem le_columnWidth {least : scalar} {column : List item} {a : item} (h : a ∈ column) :
    (size a).1 ≤ columnWidth size least column :=
  (le_foldl_max _ least).2 _ (List.mem_map_of_mem h)

theorem least_le_columnWidth (least : scalar) (column : List item) :
    least ≤ columnWidth size least column :=
  (le_foldl_max _ least).1

theorem mem_columns {least gutter top gap x : scalar} {layers : List (List item)}
    {p : item × Rect scalar} (hgap : 0 ≤ gap) (hsize : forall a, 0 ≤ (size a).2)
    (h : p ∈ columns size least gutter top gap x layers) :
    exists n column, layers[n]? = some column ∧ p.1 ∈ column ∧
      p.2.x = columnStart size least gutter x layers n ∧
      (p.2.width, p.2.height) = size p.1 := by
  induction layers generalizing x with
  | nil => cases h
  | cons column rest ih =>
      rw [columns] at h
      rcases List.mem_append.mp h with hfirst | hrest
      · rcases mem_stack hgap hsize hfirst with ⟨hmem, hx, hsizes, _⟩
        exact ⟨0, column, rfl, hmem, hx, hsizes⟩
      · rcases ih hrest with ⟨n, column', hn, hmem, hx, hsizes⟩
        exact ⟨n + 1, column', hn, hmem, hx, hsizes⟩

theorem le_columnStart {least gutter x : scalar} (hleast : 0 ≤ least) (hgutter : 0 ≤ gutter)
    (layers : List (List item)) (n : Nat) : x ≤ columnStart size least gutter x layers n := by
  induction layers generalizing x n with
  | nil => cases n <;> exact le_refl x
  | cons column rest ih =>
      cases n with
      | zero => exact le_refl x
      | succ n =>
          have hwidth : least ≤ columnWidth size least column :=
            least_le_columnWidth least column
          rw [columnStart]
          apply le_trans _ (ih n)
          linarith

theorem columnStart_add_le {least gutter x : scalar} {layers : List (List item)}
    {column : List item} {m n : Nat} (hleast : 0 ≤ least) (hgutter : 0 ≤ gutter)
    (hm : layers[m]? = some column) (hlt : m < n) :
    columnStart size least gutter x layers m + (columnWidth size least column + gutter) ≤
      columnStart size least gutter x layers n := by
  induction layers generalizing x m n with
  | nil => cases hm
  | cons first rest ih =>
      cases n with
      | zero => cases hlt
      | succ n =>
          cases m with
          | zero =>
              have heq : first = column := by simpa using hm
              rw [columnStart, columnStart, heq]
              exact le_columnStart hleast hgutter rest n
          | succ m =>
              rw [columnStart, columnStart]
              exact ih (by simpa using hm) (by omega)

theorem columns_pairwise {least gutter top gap x : scalar} {layers : List (List item)}
    (hleast : 0 ≤ least) (hgutter : 0 ≤ gutter) (hgap : 0 ≤ gap)
    (hsize : forall a, 0 ≤ (size a).2) :
    (columns size least gutter top gap x layers).Pairwise
      (fun p q => ¬ p.2.Overlaps q.2) := by
  induction layers generalizing x with
  | nil => exact List.Pairwise.nil
  | cons column rest ih =>
      rw [columns]
      apply List.pairwise_append.mpr
      refine ⟨?_, ih, ?_⟩
      · apply (stack_pairwise hgap hsize).imp
        intro p q hpq
        exact not_overlaps_of_bottom_le hpq
      · intro p hp q hq
        rcases mem_stack hgap hsize hp with ⟨hmem, hx, hsizes, _⟩
        rcases mem_columns hgap hsize hq with ⟨n, _, _, _, hstart, _⟩
        have hwidth : p.2.width ≤ columnWidth size least column := by
          have hw : (size p.1).1 ≤ columnWidth size least column := le_columnWidth hmem
          rw [← hsizes] at hw
          exact hw
        apply not_overlaps_of_right_le
        rw [hstart, right, hx]
        apply le_trans _ (le_columnStart hleast hgutter rest n)
        linarith

end Columns

/-!
## Cells of a grid
-/

section Grid

/-- A cell of a grid with a number of columns, its place counted from the corner. -/
def cell (columnCount : Nat) (width height gap : scalar) (corner : scalar × scalar)
    (index : Nat) : Rect scalar :=
  { x := corner.1 + ((index % columnCount : Nat) : scalar) * (width + gap)
    y := corner.2 + ((index / columnCount : Nat) : scalar) * (height + gap)
    width := width
    height := height }

theorem cell_not_overlaps {columnCount : Nat} {width height gap : scalar}
    {corner : scalar × scalar} {i j : Nat} (hgap : 0 ≤ gap) (hwidth : 0 ≤ width)
    (hheight : 0 ≤ height) (h : i ≠ j) :
    ¬ (cell columnCount width height gap corner i).Overlaps
      (cell columnCount width height gap corner j) := by
  -- of two places in a row or a column one is a whole cell further
  have hfurther : forall (m n : Nat) (side : scalar), 0 ≤ side -> m < n ->
      (m : scalar) * (side + gap) + side ≤ (n : scalar) * (side + gap) := by
    intro m n side hside hlt
    have hcast : (m : scalar) + 1 ≤ (n : scalar) := by exact_mod_cast hlt
    have hpositive : 0 ≤ side + gap := by linarith
    have hproduct := mul_le_mul_of_nonneg_right hcast hpositive
    linarith
  have hplace : i % columnCount ≠ j % columnCount ∨ i / columnCount ≠ j / columnCount := by
    by_contra hsame
    rw [not_or, not_not, not_not] at hsame
    apply h
    rw [← Nat.div_add_mod i columnCount, ← Nat.div_add_mod j columnCount, hsame.1, hsame.2]
  rintro ⟨hx, hx', hy, hy'⟩
  unfold right at hx hx'
  unfold bottom at hy hy'
  unfold cell at hx hx' hy hy'
  dsimp only at hx hx' hy hy'
  rcases hplace with hcolumn | hrow
  · rcases Nat.lt_or_gt_of_ne hcolumn with hlt | hlt
    · have hstep := hfurther _ _ width hwidth hlt
      linarith
    · have hstep := hfurther _ _ width hwidth hlt
      linarith
  · rcases Nat.lt_or_gt_of_ne hrow with hlt | hlt
    · have hstep := hfurther _ _ height hheight hlt
      linarith
    · have hstep := hfurther _ _ height hheight hlt
      linarith

theorem cell_within {columnCount rowCount : Nat} {width height gap : scalar}
    {corner : scalar × scalar} {i : Nat} {outer : Rect scalar} (hgap : 0 ≤ gap)
    (hwidth : 0 ≤ width) (hheight : 0 ≤ height) (hcolumn : i % columnCount < columnCount)
    (hrow : i / columnCount < rowCount) (hleft : outer.x ≤ corner.1)
    (hright : corner.1 + ((columnCount : scalar) * (width + gap) - gap) ≤ outer.right)
    (htop : outer.y ≤ corner.2)
    (hbottom : corner.2 + ((rowCount : scalar) * (height + gap) - gap) ≤ outer.bottom) :
    (cell columnCount width height gap corner i).Within outer := by
  have hinside : forall (m n : Nat) (side : scalar), 0 ≤ side -> m < n ->
      0 ≤ (m : scalar) * (side + gap) ∧
        (m : scalar) * (side + gap) + side ≤ (n : scalar) * (side + gap) - gap := by
    intro m n side hside hlt
    have hcast : (m : scalar) + 1 ≤ (n : scalar) := by exact_mod_cast hlt
    have hpositive : 0 ≤ side + gap := by linarith
    have hproduct := mul_le_mul_of_nonneg_right hcast hpositive
    refine ⟨mul_nonneg (Nat.cast_nonneg m) hpositive, ?_⟩
    linarith
  rcases hinside _ _ width hwidth hcolumn with ⟨hx, hx'⟩
  rcases hinside _ _ height hheight hrow with ⟨hy, hy'⟩
  constructor
  · show outer.x ≤ corner.1 + _
    linarith
  · show corner.1 + _ + width ≤ outer.right
    linarith
  · show outer.y ≤ corner.2 + _
    linarith
  · show corner.2 + _ + height ≤ outer.bottom
    linarith

end Grid

/-!
## Pushing down
-/

variable {candidate hit r : Rect scalar} {passes : Nat}

section PushDown

def lower (gap : scalar) (hit candidate : Rect scalar) : Rect scalar :=
  { candidate with y := hit.bottom + gap }

def firstHit (occupied : List (Rect scalar)) (candidate : Rect scalar) : Option (Rect scalar) :=
  occupied.find? (fun r => decide (r.Overlaps candidate))

/-- A rectangle is pushed below the first one in its way, for a number of passes at most. -/
def pushDown (gap : scalar) (occupied : List (Rect scalar)) : Nat -> Rect scalar -> Rect scalar
  | 0, candidate => candidate
  | passes + 1, candidate =>
      match firstHit occupied candidate with
      | none => candidate
      | some hit => pushDown gap occupied passes (lower gap hit candidate)

/-- The passes that are made: where the rectangle was and what it met there. -/
def pushes (gap : scalar) (occupied : List (Rect scalar)) :
    Nat -> Rect scalar -> List (scalar × Rect scalar)
  | 0, _ => []
  | passes + 1, candidate =>
      match firstHit occupied candidate with
      | none => []
      | some hit => (candidate.y, hit) :: pushes gap occupied passes (lower gap hit candidate)

variable {gap : scalar} {occupied : List (Rect scalar)}

theorem firstHit_some (h : firstHit occupied candidate = some hit) :
    hit ∈ occupied ∧ hit.Overlaps candidate :=
  ⟨List.mem_of_find?_eq_some h, by simpa using List.find?_some h⟩

theorem firstHit_none (h : firstHit occupied candidate = none) (hr : r ∈ occupied) : ¬ r.Overlaps candidate := by
  have hnot := List.find?_eq_none.mp h r hr
  simpa using hnot

theorem pushDown_none (h : firstHit occupied candidate = none)
    (passes : Nat) : pushDown gap occupied passes candidate = candidate := by
  cases passes with
  | zero => rfl
  | succ passes => rw [pushDown, h]

theorem pushDown_some (h : firstHit occupied candidate = some hit) (passes : Nat) :
    pushDown gap occupied (passes + 1) candidate =
      pushDown gap occupied passes (lower gap hit candidate) := by
  rw [pushDown, h]

theorem pushes_none (h : firstHit occupied candidate = none)
    (passes : Nat) : pushes gap occupied passes candidate = [] := by
  cases passes with
  | zero => rfl
  | succ passes => rw [pushes, h]

theorem pushes_some (h : firstHit occupied candidate = some hit) (passes : Nat) :
    pushes gap occupied (passes + 1) candidate =
      (candidate.y, hit) :: pushes gap occupied passes (lower gap hit candidate) := by
  rw [pushes, h]

theorem pushDown_shape (gap : scalar) (occupied : List (Rect scalar)) (passes : Nat)
    (candidate : Rect scalar) :
    (pushDown gap occupied passes candidate).x = candidate.x ∧
      (pushDown gap occupied passes candidate).width = candidate.width ∧
      (pushDown gap occupied passes candidate).height = candidate.height := by
  induction passes generalizing candidate with
  | zero => exact ⟨rfl, rfl, rfl⟩
  | succ passes ih =>
      cases hhit : firstHit occupied candidate with
      | none => rw [pushDown_none hhit]; exact ⟨rfl, rfl, rfl⟩
      | some hit => rw [pushDown_some hhit]; exact ih (lower gap hit candidate)

theorem lt_lower (hgap : 0 ≤ gap) (h : hit.Overlaps candidate) :
    candidate.y < (lower gap hit candidate).y ∧ hit.bottom ≤ (lower gap hit candidate).y := by
  have hmeets : candidate.y < hit.bottom := h.2.2.2
  constructor
  · show candidate.y < hit.bottom + gap
    linarith
  · show hit.bottom ≤ hit.bottom + gap
    linarith

theorem pushes_bounds (hgap : 0 ≤ gap) :
    candidate.y ≤ (pushDown gap occupied passes candidate).y ∧
      forall p, p ∈ pushes gap occupied passes candidate ->
        candidate.y ≤ p.1 ∧ p.1 < (pushDown gap occupied passes candidate).y ∧
          p.1 < p.2.bottom ∧ p.2 ∈ occupied := by
  induction passes generalizing candidate with
  | zero => exact ⟨le_refl _, fun p hp => absurd hp List.not_mem_nil⟩
  | succ passes ih =>
      cases hhit : firstHit occupied candidate with
      | none =>
          rw [pushDown_none hhit, pushes_none hhit]
          exact ⟨le_refl _, fun p hp => absurd hp List.not_mem_nil⟩
      | some hit =>
          rcases firstHit_some hhit with ⟨hmem, hover⟩
          rcases lt_lower hgap hover with ⟨hdown, _⟩
          rcases @ih (lower gap hit candidate) with ⟨hend, hpasses⟩
          rw [pushDown_some hhit, pushes_some hhit]
          refine ⟨le_trans (le_of_lt hdown) hend, ?_⟩
          intro p hp
          rcases List.mem_cons.mp hp with heq | hrest
          · rw [heq]
            exact ⟨le_refl _, lt_of_lt_of_le hdown hend, hover.2.2.2, hmem⟩
          · rcases hpasses p hrest with ⟨hstart, hbelow, hmeets, hin⟩
            exact ⟨le_trans (le_of_lt hdown) hstart, hbelow, hmeets, hin⟩

theorem pushes_rise (hgap : 0 ≤ gap) (passes : Nat) (candidate : Rect scalar) :
    ((pushes gap occupied passes candidate).map Prod.fst).Pairwise (fun y y' => y < y') := by
  induction passes generalizing candidate with
  | zero => exact List.Pairwise.nil
  | succ passes ih =>
      cases hhit : firstHit occupied candidate with
      | none => rw [pushes_none hhit]; exact List.Pairwise.nil
      | some hit =>
          rcases firstHit_some hhit with ⟨_, hover⟩
          rw [pushes_some hhit, List.map_cons]
          apply List.Pairwise.cons _ (ih _)
          intro y hy
          rcases List.mem_map.mp hy with ⟨p, hp, hpy⟩
          rw [← hpy]
          exact lt_of_lt_of_le (lt_lower hgap hover).1 ((pushes_bounds hgap).2 p hp).1

theorem pushes_nodup (hgap : 0 ≤ gap) (passes : Nat) (candidate : Rect scalar) :
    ((pushes gap occupied passes candidate).map Prod.snd).Nodup := by
  induction passes generalizing candidate with
  | zero => exact List.nodup_nil
  | succ passes ih =>
      cases hhit : firstHit occupied candidate with
      | none => rw [pushes_none hhit]; exact List.nodup_nil
      | some hit =>
          rcases firstHit_some hhit with ⟨_, hover⟩
          rw [pushes_some hhit, List.map_cons]
          apply List.nodup_cons.mpr
          refine ⟨?_, ih _⟩
          intro hagain
          rcases List.mem_map.mp hagain with ⟨p, hp, hpeq⟩
          rcases (pushes_bounds hgap).2 p hp with ⟨hstart, _, hmeets, _⟩
          rw [hpeq] at hmeets
          have hpassed := (lt_lower hgap hover).2
          linarith

theorem length_pushes_le (hgap : 0 ≤ gap) (passes : Nat) (candidate : Rect scalar) :
    (pushes gap occupied passes candidate).length ≤ occupied.length := by
  rw [← List.length_map Prod.snd]
  apply List.Subperm.length_le
  apply (pushes_nodup hgap passes candidate).subperm
  intro r hr
  rcases List.mem_map.mp hr with ⟨p, hp, hpr⟩
  rw [← hpr]
  exact ((pushes_bounds hgap).2 p hp).2.2.2

theorem not_overlaps_of_length_lt
    (h : (pushes gap occupied passes candidate).length < passes) (hr : r ∈ occupied) :
    ¬ r.Overlaps (pushDown gap occupied passes candidate) := by
  induction passes generalizing candidate with
  | zero => cases h
  | succ passes ih =>
      cases hhit : firstHit occupied candidate with
      | none =>
          rw [pushDown_none hhit]
          exact firstHit_none hhit hr
      | some hit =>
          rw [pushes_some hhit, List.length_cons] at h
          rw [pushDown_some hhit]
          exact ih (by omega)

theorem pushDown_clear (hgap : 0 ≤ gap) (hpasses : occupied.length < passes)
    (candidate : Rect scalar) (hr : r ∈ occupied) :
    ¬ r.Overlaps (pushDown gap occupied passes candidate) := by
  apply not_overlaps_of_length_lt _ hr
  exact lt_of_le_of_lt (length_pushes_le hgap passes candidate) hpasses

end PushDown

end Rect
end Foundation
end Perpetual
