import Mathlib

/-!
# Lists of cells

The concurrent models keep their threads, channels and handles in lists indexed
by a number that never changes.  A step replaces or removes one cell.  These
lemmas say what that does to the items read off the cells, up to permutation.
-/

namespace Perpetual
namespace Foundation
namespace Cells

variable {cell item : Type}

variable {l : List cell} {i j : Nat} {x y : cell}

theorem filterMap_perm_of_getElem? (f : cell -> Option item) (h : l[i]? = some x) :
    (l.filterMap f).Perm ((f x).toList ++ (l.eraseIdx i).filterMap f) := by
  rcases List.getElem?_eq_some_iff.mp h with ⟨hi, hx⟩
  have hperm := (List.getElem_cons_eraseIdx_perm hi).symm.filterMap f
  rw [hx, List.filterMap_cons] at hperm
  cases hfx : f x with
  | none =>
      simpa [hfx] using hperm
  | some y =>
      simpa [hfx] using hperm

theorem filterMap_set_perm (f : cell -> Option item) (h : l[i]? = some x) (y : cell) :
    ((l.set i y).filterMap f).Perm
      ((f y).toList ++ (l.eraseIdx i).filterMap f) := by
  rcases List.getElem?_eq_some_iff.mp h with ⟨hi, _hx⟩
  have hperm := (List.set_perm_cons_eraseIdx hi y).filterMap f
  rw [List.filterMap_cons] at hperm
  cases hfy : f y with
  | none =>
      simpa [hfy] using hperm
  | some z =>
      simpa [hfy] using hperm

theorem flatMap_perm_of_getElem? (f : cell -> List item) (h : l[i]? = some x) :
    (l.flatMap f).Perm (f x ++ (l.eraseIdx i).flatMap f) := by
  rcases List.getElem?_eq_some_iff.mp h with ⟨hi, hx⟩
  have hperm := (List.getElem_cons_eraseIdx_perm hi).symm.flatMap_right f
  rw [hx, List.flatMap_cons] at hperm
  exact hperm

theorem flatMap_set_perm (f : cell -> List item) (h : l[i]? = some x) (y : cell) :
    ((l.set i y).flatMap f).Perm (f y ++ (l.eraseIdx i).flatMap f) := by
  rcases List.getElem?_eq_some_iff.mp h with ⟨hi, _hx⟩
  have hperm := (List.set_perm_cons_eraseIdx hi y).flatMap_right f
  rw [List.flatMap_cons] at hperm
  exact hperm

/-!
## Looking up after a change

A cell read after a replacement is the new cell or an old one at another index;
after an append it is an old cell or the new last one.
-/

variable {z : cell}

theorem getElem?_set_cases (h : (l.set i y)[j]? = some z) :
    (j = i ∧ z = y) ∨ (j ≠ i ∧ l[j]? = some z) := by
  by_cases hij : j = i
  · apply Or.inl
    rw [hij, List.getElem?_set_self'] at h
    cases hi : l[i]? with
    | none =>
        simp [hi] at h
    | some x =>
        rw [hi] at h
        exact ⟨hij, (Option.some.inj h).symm⟩
  · apply Or.inr
    rw [List.getElem?_set_ne (fun hji => hij hji.symm)] at h
    exact ⟨hij, h⟩

theorem getElem?_set_of_some (h : l[i]? = some x) (y : cell) : (l.set i y)[i]? = some y := by
  rw [List.getElem?_set_self', h]
  rfl

theorem set_of_getElem? (h : l[i]? = some x) : l.set i x = l := by
  rcases List.getElem?_eq_some_iff.mp h with ⟨hi, hx⟩
  rw [← hx]
  exact List.set_getElem_self hi

theorem getElem?_set_of_ne (hij : j ≠ i) (y : cell) : (l.set i y)[j]? = l[j]? :=
  List.getElem?_set_ne (fun hji => hij hji.symm)

theorem mem_set_of_mem_eraseIdx (h : z ∈ l.eraseIdx i) (y : cell) : z ∈ l.set i y := by
  rcases List.mem_eraseIdx_iff_getElem?.mp h with ⟨j, hji, hj⟩
  exact List.mem_of_getElem? ((getElem?_set_of_ne hji y).trans hj)

theorem mem_eraseIdx_of_ne (h : l[i]? = some x) (hz : z ∈ l) (hne : z ≠ x) : z ∈ l.eraseIdx i := by
  rcases List.mem_iff_getElem?.mp hz with ⟨j, hj⟩
  refine List.mem_eraseIdx_iff_getElem?.mpr ⟨j, ?_, hj⟩
  intro hji
  rw [hji, h] at hj
  exact hne (Option.some.inj hj).symm

theorem mem_set_of_ne (h : l[i]? = some x) (hz : z ∈ l) (hne : z ≠ x) (y : cell) : z ∈ l.set i y :=
  mem_set_of_mem_eraseIdx (mem_eraseIdx_of_ne h hz hne) y

theorem mem_set_or_eq (h : l[i]? = some x) (hz : z ∈ l) (y : cell) : z = x ∨ z ∈ l.set i y := by
  by_cases hzx : z = x
  · exact Or.inl hzx
  · exact Or.inr (mem_set_of_ne h hz hzx y)

theorem getElem?_concat_cases (h : (l ++ [y])[j]? = some z) :
    l[j]? = some z ∨ (j = l.length ∧ z = y) := by
  rw [List.getElem?_append] at h
  by_cases hj : j < l.length
  · rw [if_pos hj] at h
    exact Or.inl h
  · rw [if_neg hj] at h
    rcases List.getElem?_eq_some_iff.mp h with ⟨hlen, hz⟩
    have hzero : j - l.length = 0 := by
      simpa using hlen
    apply Or.inr
    constructor
    · omega
    · simpa [hzero] using hz.symm

theorem getElem?_concat_of_some (h : l[j]? = some z) (y : cell) : (l ++ [y])[j]? = some z := by
  rcases List.getElem?_eq_some_iff.mp h with ⟨hj, _⟩
  rw [List.getElem?_append_left hj]
  exact h

theorem zip_set {l' : List item} {z : item} (h : l'[i]? = some z) (y : cell) :
    (l.set i y).zip l' = (l.zip l').set i (y, z) := by
  induction l generalizing i l' with
  | nil => rfl
  | cons x rest ih =>
      cases l' with
      | nil => cases h
      | cons x' rest' =>
          cases i with
          | zero =>
              rw [← Option.some.inj h]
              rfl
          | succ i =>
              have hrest : (rest.set i y).zip rest' = (rest.zip rest').set i (y, z) :=
                ih h
              rw [List.set_cons_succ, List.zip_cons_cons, hrest]
              rfl

theorem countP_set_add (p : cell -> Bool) (h : l[i]? = some x) (y : cell) :
    (l.set i y).countP p + (if p x then 1 else 0) =
      l.countP p + (if p y then 1 else 0) := by
  induction l generalizing i with
  | nil => cases h
  | cons z rest ih =>
      cases i with
      | zero =>
          have hz : z = x := Option.some.inj h
          rw [hz, List.set_cons_zero, List.countP_cons, List.countP_cons]
          omega
      | succ i =>
          have hrest := ih (i := i) h
          rw [List.set_cons_succ, List.countP_cons, List.countP_cons]
          omega

variable {p : cell -> Bool}

theorem countP_set_le (h : l[i]? = some x) (himp : p y = true -> p x = true) :
    (l.set i y).countP p ≤ l.countP p := by
  have hadd := countP_set_add p h y
  cases hx : p x with
  | true =>
      rw [hx, if_pos rfl] at hadd
      split at hadd <;> omega
  | false =>
      have hy : p y = false := by
        rw [← Bool.not_eq_true]
        intro hy
        rw [himp hy] at hx
        cases hx
      rw [hx, hy] at hadd
      omega

theorem countP_le_set (h : l[i]? = some x) (himp : p x = true -> p y = true) :
    l.countP p ≤ (l.set i y).countP p := by
  have hback := countP_set_le (getElem?_set_of_some h y) himp
  rw [List.set_set, set_of_getElem? h] at hback
  exact hback

theorem countP_lt_of_imp {q : cell -> Bool} (himp : forall y, y ∈ l -> p y = true -> q y = true)
    (hx : x ∈ l) (hp : p x = false) (hq : q x = true) : l.countP p < l.countP q := by
  induction l with
  | nil => cases hx
  | cons z rest ih =>
      have hrest : forall y, y ∈ rest -> p y = true -> q y = true :=
        fun y hy => himp y (List.mem_cons_of_mem z hy)
      rw [List.countP_cons, List.countP_cons]
      rcases List.mem_cons.mp hx with hhead | htail
      · have hmono := List.countP_mono_left hrest
        rw [← hhead, hp, hq]
        simp only [Bool.false_eq_true, if_false, if_true]
        omega
      · have hlt := ih hrest htail
        have hz := himp z List.mem_cons_self
        cases hpz : p z with
        | false => simp only [Bool.false_eq_true, if_false]; omega
        | true => simp only [hz hpz, if_true]; omega

end Cells
end Foundation
end Perpetual
