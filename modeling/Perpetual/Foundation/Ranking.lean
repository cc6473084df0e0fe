import Perpetual.Foundation.Table

/-!
# Rows ranked by a stamp

A table of rows in which a stamp decides the order.  The row to be taken next is
the earliest one, and the order is changed by stamping rows anew along a list of
keys.
-/

namespace Perpetual
namespace Foundation
namespace Ranking

variable {row key : Type}

/-- The earliest row; of two rows neither of which is before the other, the one
listed first. -/
def earliest (before : row -> row -> Bool) : List row -> Option row
  | [] => none
  | r :: rest =>
      match earliest before rest with
      | none => some r
      | some r' => if before r' r then some r' else some r

variable {before : row -> row -> Bool} {rows : List row}

theorem earliest_mem {r : row} (h : earliest before rows = some r) : r ∈ rows := by
  induction rows generalizing r with
  | nil => cases h
  | cons r0 rest ih =>
      unfold earliest at h
      cases hrest : earliest before rest with
      | none =>
          rw [hrest] at h
          rw [← Option.some.inj h]
          exact List.mem_cons_self
      | some r' =>
          rw [hrest] at h
          simp only at h
          split at h
          · rw [← Option.some.inj h]
            exact List.mem_cons_of_mem _ (ih hrest)
          · rw [← Option.some.inj h]
            exact List.mem_cons_self

theorem earliest_eq_none (h : earliest before rows = none) : rows = [] := by
  cases rows with
  | nil => rfl
  | cons r rest =>
      unfold earliest at h
      cases hrest : earliest before rest with
      | none =>
          rw [hrest] at h
          cases h
      | some r' =>
          rw [hrest] at h
          simp only at h
          split at h <;> cases h

theorem earliest_le {stampOf : row -> Nat}
    (hbefore : forall a b, before a b = true -> stampOf a ≤ stampOf b)
    (hnot : forall a b, before a b = false -> stampOf b ≤ stampOf a) {r : row} (h : earliest before rows = some r) :
    forall r', r' ∈ rows -> stampOf r ≤ stampOf r' := by
  induction rows generalizing r with
  | nil => cases h
  | cons r0 rest ih =>
      unfold earliest at h
      intro r' hr'
      cases hrest : earliest before rest with
      | none =>
          rw [hrest] at h
          rw [earliest_eq_none hrest] at hr'
          rw [List.mem_singleton.mp hr', ← Option.some.inj h]
      | some r1 =>
          rw [hrest] at h
          simp only at h
          split at h
          · rename_i hlt
            rw [← Option.some.inj h]
            rcases List.mem_cons.mp hr' with heq | hmem
            · rw [heq]
              exact hbefore r1 r0 hlt
            · exact ih hrest r' hmem
          · rename_i hge
            rw [← Option.some.inj h]
            rcases List.mem_cons.mp hr' with heq | hmem
            · rw [heq]
            · have hle := hnot r1 r0 (by simpa using hge)
              exact Nat.le_trans hle (ih hrest r' hmem)

/-!
## Positions in a list of keys
-/

theorem idxOf_lt_of_pairwise [DecidableEq key] {R : key -> key -> Prop}
    {keys : List key} (h : keys.Pairwise R) {a b : key} (ha : a ∈ keys)
    (hb : b ∈ keys) (hne : a ≠ b) (hnot : ¬ R b a) :
    keys.idxOf a < keys.idxOf b := by
  induction keys with
  | nil => cases ha
  | cons k rest ih =>
      rcases List.pairwise_cons.mp h with ⟨hk, hrest⟩
      by_cases hak : k = a
      · rw [hak, List.idxOf_cons_self, List.idxOf_cons_ne _ hne]
        exact Nat.zero_lt_succ _
      · have ha' : a ∈ rest := by
          rcases List.mem_cons.mp ha with heq | hmem
          · exact absurd heq.symm hak
          · exact hmem
        by_cases hbk : k = b
        · rw [hbk] at hk
          exact absurd (hk a ha') hnot
        · have hb' : b ∈ rest := by
            rcases List.mem_cons.mp hb with heq | hmem
            · exact absurd heq.symm hbk
            · exact hmem
          rw [List.idxOf_cons_ne _ hak, List.idxOf_cons_ne _ hbk]
          exact Nat.succ_lt_succ (ih hrest ha' hb')

/-!
## Stamping anew
-/

/-- The rows with the listed keys are stamped in turn, each stamp a gap after
the one before. -/
def restamp [DecidableEq key] (keyOf : row -> key) (stamp : Nat -> row -> row)
    (gap : Nat) : Nat -> List key -> List row -> List row
  | _, [], rows => rows
  | t, k :: rest, rows =>
      restamp keyOf stamp gap (t + gap) rest
        (Table.updateWhere (fun r => keyOf r == k) (stamp t) rows)

theorem map_restamp [DecidableEq key] {value : Type} {keyOf : row -> key}
    {stamp : Nat -> row -> row} {valueOf : row -> value}
    (hvalue : forall t r, valueOf (stamp t r) = valueOf r) (gap t : Nat)
    (keys : List key) (rows : List row) :
    (restamp keyOf stamp gap t keys rows).map valueOf = rows.map valueOf := by
  induction keys generalizing t rows with
  | nil => rfl
  | cons k rest ih =>
      unfold restamp
      rw [ih]
      exact Table.map_updateWhere (fun r => hvalue t r) rows

theorem mem_restamp [DecidableEq key] {keyOf : row -> key} {stamp : Nat -> row -> row}
    (hkey : forall t r, keyOf (stamp t r) = keyOf r) {gap t : Nat} {keys : List key}
    (hnodup : keys.Nodup) {r' : row} (h : r' ∈ restamp keyOf stamp gap t keys rows) :
    exists r, r ∈ rows ∧
      ((keyOf r ∉ keys ∧ r' = r) ∨
        (keyOf r ∈ keys ∧ r' = stamp (t + gap * keys.idxOf (keyOf r)) r)) := by
  induction keys generalizing t rows with
  | nil => exact ⟨r', h, Or.inl ⟨List.not_mem_nil, rfl⟩⟩
  | cons k rest ih =>
      rcases List.nodup_cons.mp hnodup with ⟨hk, hrest⟩
      unfold restamp at h
      rcases ih hrest h with ⟨r1, hr1, hcase⟩
      rcases Table.mem_updateWhere hr1 with ⟨r, hr, ⟨hp, heq⟩ | ⟨hp, heq⟩⟩
      · have hkr : keyOf r = k := by simpa using hp
        have hkr1 : keyOf r1 = k := by rw [heq, hkey, hkr]
        rw [hkr1] at hcase
        rcases hcase with ⟨_, hr'⟩ | ⟨hmem, _⟩
        · refine ⟨r, hr, Or.inr ⟨by rw [hkr]; exact List.mem_cons_self, ?_⟩⟩
          rw [hr', heq, hkr, List.idxOf_cons_self, Nat.mul_zero, Nat.add_zero]
        · exact absurd hmem hk
      · have hkr : keyOf r ≠ k := by simpa using hp
        rw [heq] at hcase
        rcases hcase with ⟨hmem, hr'⟩ | ⟨hmem, hr'⟩
        · refine ⟨r, hr, Or.inl ⟨?_, hr'⟩⟩
          intro hcons
          rcases List.mem_cons.mp hcons with heq' | hmem'
          · exact hkr heq'
          · exact hmem hmem'
        · refine ⟨r, hr, Or.inr ⟨List.mem_cons_of_mem _ hmem, ?_⟩⟩
          rw [hr', List.idxOf_cons_ne _ (fun heq' => hkr heq'.symm), Nat.succ_eq_add_one,
            Nat.mul_add, Nat.mul_one]
          congr 1
          omega

end Ranking
end Foundation
end Perpetual
