import Mathlib

/-!
# Tables

The fragment of SQL the stores use, over lists of rows: a conditional update, a
conditional delete, a selection and a lookup by key.  A statement is a function
of the rows; a transaction is a composition of statements.
-/

namespace Perpetual
namespace Foundation
namespace Table

variable {row key : Type}

def updateWhere (p : row -> Bool) (f : row -> row) (rows : List row) : List row :=
  rows.map (fun r => if p r then f r else r)

def deleteWhere (p : row -> Bool) (rows : List row) : List row :=
  rows.filter (fun r => !p r)

def selectWhere (p : row -> Bool) (rows : List row) : List row :=
  rows.filter p

def affected (p : row -> Bool) (rows : List row) : Bool :=
  rows.any p

def UniqueKey (k : row -> key) (rows : List row) : Prop :=
  (rows.map k).Nodup

/-!
## Rows of a changed table
-/

variable {p : row -> Bool} {f : row -> row} {rows : List row}

theorem mem_updateWhere {r' : row} (h : r' ∈ updateWhere p f rows) :
    exists r, r ∈ rows ∧
      ((p r = true ∧ r' = f r) ∨ (p r = false ∧ r' = r)) := by
  rcases List.mem_map.mp h with ⟨r, hr, heq⟩
  refine ⟨r, hr, ?_⟩
  cases hp : p r with
  | true =>
      rw [if_pos hp] at heq
      exact Or.inl ⟨rfl, heq.symm⟩
  | false =>
      rw [if_neg (by simp [hp])] at heq
      exact Or.inr ⟨rfl, heq.symm⟩

variable {r : row}

theorem mem_updateWhere_of_pos (f : row -> row) (hr : r ∈ rows) (hp : p r = true) :
    f r ∈ updateWhere p f rows := by
  apply List.mem_map.mpr
  exact ⟨r, hr, if_pos hp⟩

theorem mem_updateWhere_of_neg (f : row -> row) (hr : r ∈ rows) (hp : p r = false) :
    r ∈ updateWhere p f rows := by
  apply List.mem_map.mpr
  exact ⟨r, hr, if_neg (by simp [hp])⟩

theorem updateWhere_eq_self (f : row -> row) (h : forall r, r ∈ rows -> p r = false) :
    updateWhere p f rows = rows := by
  refine Eq.trans (List.map_congr_left ?_) (List.map_id rows)
  intro r hr
  exact if_neg (by simp [h r hr])

theorem updateWhere_append (p : row -> Bool) (f : row -> row) (rows rows' : List row) :
    updateWhere p f (rows ++ rows') = updateWhere p f rows ++ updateWhere p f rows' :=
  List.map_append

theorem updateWhere_cons_of_pos (f : row -> row) (rows : List row) (hp : p r = true) :
    updateWhere p f (r :: rows) = f r :: updateWhere p f rows :=
  congrArg (· :: updateWhere p f rows) (if_pos hp)

theorem mem_deleteWhere : r ∈ deleteWhere p rows ↔ r ∈ rows ∧ p r = false := by
  simp [deleteWhere]

theorem affected_iff : affected p rows = true ↔ exists r, r ∈ rows ∧ p r = true := by
  simp [affected]

variable {k : row -> key}

theorem map_updateWhere (hkey : forall r, k (f r) = k r) (rows : List row) :
    (updateWhere p f rows).map k = rows.map k := by
  unfold updateWhere
  rw [List.map_map]
  apply List.map_congr_left
  intro r _
  show k (if p r then f r else r) = k r
  split
  · exact hkey r
  · rfl

theorem UniqueKey.updateWhere (h : UniqueKey k rows) (hkey : forall r, k (f r) = k r) :
    UniqueKey k (updateWhere p f rows) := by
  unfold UniqueKey
  rw [map_updateWhere hkey]
  exact h

theorem UniqueKey.deleteWhere (h : UniqueKey k rows) : UniqueKey k (deleteWhere p rows) :=
  h.sublist (List.filter_sublist.map k)

theorem UniqueKey.concat (h : UniqueKey k rows) (hnew : k r ∉ rows.map k) :
    UniqueKey k (rows ++ [r]) := by
  unfold UniqueKey
  rw [List.map_append]
  apply List.Nodup.append h (List.nodup_singleton _)
  intro x hx hx'
  rw [List.mem_singleton] at hx'
  rw [hx'] at hx
  exact hnew hx

theorem UniqueKey.eq_of_key {r' : row} (h : UniqueKey k rows) (hr : r ∈ rows) (hr' : r' ∈ rows)
    (hkey : k r = k r') : r = r' :=
  List.inj_on_of_nodup_map h hr hr' hkey

/-!
## Reading by key
-/

variable [BEq key]

theorem find?_updateWhere (hkey : forall r, k (f r) = k r) (x : key) (rows : List row) :
    (updateWhere (fun r => k r == x) f rows).find? (fun r => k r == x) =
      (rows.find? (fun r => k r == x)).map f := by
  induction rows with
  | nil => rfl
  | cons r rest ih =>
      show ((if k r == x then f r else r) :: updateWhere (fun r => k r == x) f rest).find?
        (fun r => k r == x) = _
      cases hx : k r == x with
      | true =>
          rw [if_pos rfl]
          simp only [List.find?_cons, hkey, hx, Option.map_some]
      | false =>
          rw [if_neg Bool.false_ne_true]
          simp only [List.find?_cons, hx]
          exact ih

variable [LawfulBEq key]

theorem find?_updateWhere_of_ne (hkey : forall r, k (f r) = k r) {x y : key} (hne : y ≠ x)
    (rows : List row) :
    (updateWhere (fun r => k r == x) f rows).find? (fun r => k r == y) =
      rows.find? (fun r => k r == y) := by
  induction rows with
  | nil => rfl
  | cons r rest ih =>
      show ((if k r == x then f r else r) :: updateWhere (fun r => k r == x) f rest).find?
        (fun r => k r == y) = _
      cases hx : k r == x with
      | true =>
          have hy : (k r == y) = false := by
            apply beq_false_of_ne
            intro hy
            exact hne (hy.symm.trans (beq_iff_eq.mp hx))
          rw [if_pos rfl]
          simp only [List.find?_cons, hkey, hy]
          exact ih
      | false =>
          rw [if_neg Bool.false_ne_true, List.find?_cons, List.find?_cons, ih]

theorem filter_key (h : UniqueKey k rows) (x : key) (q : row -> Bool) :
    rows.filter (fun r => k r == x && q r) =
      ((rows.find? (fun r => k r == x)).filter q).toList := by
  induction rows with
  | nil => rfl
  | cons r rest ih =>
      have hrest : UniqueKey k rest := (List.nodup_cons.mp h).right
      cases hx : k r == x with
      | false =>
          simp only [List.filter_cons, List.find?_cons, hx, Bool.false_and,
            Bool.false_eq_true, if_false]
          exact ih hrest
      | true =>
          have hnone : rest.filter (fun r => k r == x && q r) = [] := by
            rw [List.filter_eq_nil_iff]
            intro r' hr' hboth
            rw [Bool.and_eq_true, beq_iff_eq] at hboth
            apply (List.nodup_cons.mp h).left
            rw [beq_iff_eq.mp hx, ← hboth.left]
            exact List.mem_map_of_mem hr'
          simp only [List.filter_cons, List.find?_cons, hx, hnone, Bool.true_and]
          cases hq : q r with
          | true => simp [Option.filter, hq]
          | false => simp [Option.filter, hq]

/-!
## One statement for each key
-/

theorem foldl_updateWhere {q : row -> Bool} (hdone : forall r, q (f r) = false) (xs : List key)
    (rows : List row) :
    xs.foldl (fun rows x => updateWhere (fun r => k r == x && q r) f rows) rows =
      updateWhere (fun r => xs.contains (k r) && q r) f rows := by
  induction xs generalizing rows with
  | nil => simp [updateWhere]
  | cons x xs ih =>
      rw [List.foldl_cons, ih]
      unfold updateWhere
      rw [List.map_map]
      apply List.map_congr_left
      intro r _
      simp only [Function.comp_apply, List.contains_cons]
      by_cases hq : q r = true
      · by_cases hx : (k r == x) = true
        · simp [hx, hq, hdone]
        · simp [hx, hq]
      · simp [hq]

theorem foldl_writeBack {write : row -> row -> row} {clear : row -> row}
    (hkey : forall r, k (clear r) = k r) (hwrite : forall r, write r (clear r) = r)
    (done : List row) (hunique : UniqueKey k (done ++ rows)) :
    rows.foldl (fun rs old => updateWhere (fun r => k r == k old) (write old) rs)
        (done ++ rows.map clear) =
      done ++ rows := by
  induction rows generalizing done with
  | nil => rfl
  | cons old rest ih =>
      have hne : forall r, r ∈ done ∨ r ∈ rest -> (k r == k old) = false := by
        intro r hr
        apply beq_false_of_ne
        intro heq
        unfold UniqueKey at hunique
        rw [List.map_append, List.map_cons, List.nodup_middle, List.nodup_cons,
          List.mem_append] at hunique
        apply hunique.left
        rw [← heq]
        exact hr.imp List.mem_map_of_mem List.mem_map_of_mem
      have hdone : updateWhere (fun r => k r == k old) (write old) done = done :=
        updateWhere_eq_self _ (fun r hr => hne r (Or.inl hr))
      have hrest : updateWhere (fun r => k r == k old) (write old) (rest.map clear) =
          rest.map clear := by
        apply updateWhere_eq_self
        intro r' hr'
        rcases List.mem_map.mp hr' with ⟨r, hr, heq⟩
        rw [← heq, hkey]
        exact hne r (Or.inr hr)
      have hfirst : updateWhere (fun r => k r == k old) (write old)
          (clear old :: rest.map clear) = old :: rest.map clear := by
        rw [updateWhere_cons_of_pos, hwrite, hrest]
        rw [hkey]
        exact beq_self_eq_true _
      have hstep : updateWhere (fun r => k r == k old) (write old)
          (done ++ (old :: rest).map clear) = (done ++ [old]) ++ rest.map clear := by
        rw [List.map_cons, updateWhere_append, hdone, hfirst, List.append_assoc]
        rfl
      rw [List.foldl_cons, hstep, ih (done ++ [old])]
      · rw [List.append_assoc]
        rfl
      · rw [List.append_assoc]
        exact hunique

theorem foldl_deleteWhere (xs : List key) (rows : List row) :
    xs.foldl (fun rows x => deleteWhere (fun r => k r == x) rows) rows =
      deleteWhere (fun r => xs.contains (k r)) rows := by
  induction xs generalizing rows with
  | nil => simp [deleteWhere]
  | cons x xs ih =>
      rw [List.foldl_cons, ih]
      unfold deleteWhere
      rw [List.filter_filter]
      apply List.filter_congr
      intro r _
      dsimp only
      rw [List.contains_cons, Bool.not_or, Bool.and_comm]

end Table
end Foundation
end Perpetual
