import Mathlib

/-!
# Maps in the order of insertion

A finite map whose entries keep the order in which their keys were first set.
Setting a key that is present replaces its value in place; a key that was erased
and is set again comes last.
-/

namespace Perpetual
namespace Foundation

structure OrderedMap (key value : Type) where
  entries : List (key × value)
  nodup : (entries.map Prod.fst).Nodup

namespace OrderedMap

variable {key value : Type}

variable {m : OrderedMap key value}

@[ext] theorem ext_entries {n : OrderedMap key value} (h : m.entries = n.entries) : m = n := by
  cases m
  cases n
  cases h
  rfl

def empty : OrderedMap key value :=
  { entries := []
    nodup := List.nodup_nil }

def keys (m : OrderedMap key value) : List key :=
  m.entries.map Prod.fst

def values (m : OrderedMap key value) : List value :=
  m.entries.map Prod.snd

variable [DecidableEq key]

def get? (m : OrderedMap key value) (k : key) : Option value :=
  (m.entries.find? (fun e => e.1 = k)).map Prod.snd

/-- The list of entries with the value of a key replaced, or added at the end. -/
def setEntries (k : key) (v : value) : List (key × value) -> List (key × value)
  | [] => [(k, v)]
  | e :: rest => if e.1 = k then (k, v) :: rest else e :: setEntries k v rest

theorem keys_setEntries (k : key) (v : value) (entries : List (key × value)) :
    (setEntries k v entries).map Prod.fst =
      if k ∈ entries.map Prod.fst then entries.map Prod.fst
      else entries.map Prod.fst ++ [k] := by
  induction entries with
  | nil => rfl
  | cons e rest ih =>
      unfold setEntries
      by_cases heq : e.1 = k
      · rw [if_pos heq, List.map_cons, List.map_cons, heq, if_pos List.mem_cons_self]
      · have hiff : k ∈ (e :: rest).map Prod.fst <-> k ∈ rest.map Prod.fst := by
          rw [List.map_cons, List.mem_cons, or_iff_right (fun h => heq h.symm)]
        rw [if_neg heq, List.map_cons, ih]
        by_cases hin : k ∈ rest.map Prod.fst
        · rw [if_pos hin, if_pos (hiff.mpr hin)]
          rfl
        · rw [if_neg hin, if_neg (fun h => hin (hiff.mp h))]
          rfl

def set (m : OrderedMap key value) (k : key) (v : value) : OrderedMap key value :=
  { entries := setEntries k v m.entries
    nodup := by
      rw [keys_setEntries]
      by_cases hin : k ∈ m.entries.map Prod.fst
      · rw [if_pos hin]
        exact m.nodup
      · rw [if_neg hin]
        apply List.Nodup.append m.nodup (List.nodup_singleton k)
        intro x hx hx'
        rw [List.mem_singleton.mp hx'] at hx
        exact hin hx }

def erase (m : OrderedMap key value) (k : key) : OrderedMap key value :=
  { entries := m.entries.filter (fun e => e.1 ≠ k)
    nodup := m.nodup.sublist (List.filter_sublist.map Prod.fst) }

/-- The map of a list of entries: later entries replace earlier ones. -/
def ofList (entries : List (key × value)) : OrderedMap key value :=
  entries.foldl (fun m e => m.set e.1 e.2) empty

/-!
## Looking up
-/

theorem get?_set_self (m : OrderedMap key value) (k : key) (v : value) :
    (m.set k v).get? k = some v := by
  unfold get? set
  dsimp only
  induction m.entries with
  | nil => simp [setEntries]
  | cons e rest ih =>
      unfold setEntries
      by_cases heq : e.1 = k
      · rw [if_pos heq]
        simp
      · rw [if_neg heq, List.find?_cons_of_neg (by simpa using heq)]
        exact ih

variable {k x : key}

theorem get?_set_of_ne (m : OrderedMap key value) (hne : x ≠ k) (v : value) :
    (m.set k v).get? x = m.get? x := by
  unfold get? set
  dsimp only
  induction m.entries with
  | nil =>
      have hnot : ¬ k = x := fun h => hne h.symm
      simp [setEntries, hnot]
  | cons e rest ih =>
      unfold setEntries
      by_cases heq : e.1 = k
      · have hk : ¬ k = x := fun h => hne h.symm
        have he : ¬ e.1 = x := fun h => hne (h.symm.trans heq)
        rw [if_pos heq, List.find?_cons_of_neg (by simpa using hk),
          List.find?_cons_of_neg (by simpa using he)]
      · rw [if_neg heq]
        by_cases hx : e.1 = x
        · rw [List.find?_cons_of_pos (by simpa using hx),
            List.find?_cons_of_pos (by simpa using hx)]
        · rw [List.find?_cons_of_neg (by simpa using hx),
            List.find?_cons_of_neg (by simpa using hx)]
          exact ih

variable {v : value}

theorem get?_set_eq_some_iff {w : value} :
    (m.set k v).get? x = some w <-> (x = k ∧ v = w) ∨ (x ≠ k ∧ m.get? x = some w) := by
  by_cases hx : x = k
  · rw [hx, get?_set_self]
    simp
  · rw [get?_set_of_ne m hx]
    simp [hx]

theorem get?_erase_of_ne (m : OrderedMap key value) (hne : x ≠ k) :
    (m.erase k).get? x = m.get? x := by
  unfold get? erase
  dsimp only
  induction m.entries with
  | nil => rfl
  | cons e rest ih =>
      by_cases heq : e.1 = k
      · have he : ¬ e.1 = x := fun h => hne (h.symm.trans heq)
        rw [List.filter_cons_of_neg (by simpa using heq),
          List.find?_cons_of_neg (by simpa using he)]
        exact ih
      · rw [List.filter_cons_of_pos (by simpa using heq)]
        by_cases hx : e.1 = x
        · rw [List.find?_cons_of_pos (by simpa using hx),
            List.find?_cons_of_pos (by simpa using hx)]
        · rw [List.find?_cons_of_neg (by simpa using hx),
            List.find?_cons_of_neg (by simpa using hx)]
          exact ih

theorem get?_erase_self (m : OrderedMap key value) (k : key) : (m.erase k).get? k = none := by
  unfold get? erase
  rw [Option.map_eq_none_iff, List.find?_eq_none]
  intro e he
  simpa using (List.mem_filter.mp he).right

variable {entries : List (key × value)}

theorem get?_foldl_set_of_not_mem (h : k ∉ entries.map Prod.fst) (m : OrderedMap key value) :
    (entries.foldl (fun m e => m.set e.1 e.2) m).get? k = m.get? k := by
  induction entries generalizing m with
  | nil => rfl
  | cons e rest ih =>
      rw [List.map_cons, List.mem_cons, not_or] at h
      rw [List.foldl_cons, ih h.right, get?_set_of_ne m h.left]

theorem get?_foldl_set_of_mem (hnodup : (entries.map Prod.fst).Nodup) (h : (k, v) ∈ entries)
    (m : OrderedMap key value) : (entries.foldl (fun m e => m.set e.1 e.2) m).get? k = some v := by
  induction entries generalizing m with
  | nil => cases h
  | cons e rest ih =>
      rw [List.map_cons, List.nodup_cons] at hnodup
      rw [List.foldl_cons]
      rcases List.mem_cons.mp h with heq | hrest
      · rw [← heq] at hnodup ⊢
        rw [get?_foldl_set_of_not_mem hnodup.left, get?_set_self]
      · exact ih hnodup.right hrest _

theorem get?_foldl_erase_of_not_mem {keys : List key} (h : k ∉ keys) (m : OrderedMap key value) :
    (keys.foldl erase m).get? k = m.get? k := by
  induction keys generalizing m with
  | nil => rfl
  | cons first rest ih =>
      rw [List.mem_cons, not_or] at h
      rw [List.foldl_cons, ih h.right, get?_erase_of_ne m h.left]

theorem get?_foldl_erase_of_mem {keys : List key} (h : k ∈ keys) (m : OrderedMap key value) :
    (keys.foldl erase m).get? k = none := by
  induction keys generalizing m with
  | nil => cases h
  | cons first rest ih =>
      rw [List.foldl_cons]
      by_cases hrest : k ∈ rest
      · exact ih hrest _
      · rcases List.mem_cons.mp h with rfl | hin
        · rw [get?_foldl_erase_of_not_mem hrest, get?_erase_self]
        · exact absurd hin hrest

theorem mem_entries_of_get? (h : m.get? k = some v) : (k, v) ∈ m.entries := by
  rcases Option.map_eq_some_iff.mp h with ⟨⟨x, y⟩, hfound, hv⟩
  have hx : x = k := by simpa using List.find?_some hfound
  have hy : y = v := hv
  rw [← hx, ← hy]
  exact List.mem_of_find?_eq_some hfound

theorem mem_values_of_get? (h : m.get? k = some v) : v ∈ m.values :=
  List.mem_map_of_mem (mem_entries_of_get? h)

theorem mem_setEntries {e : key × value} (h : e ∈ setEntries k v entries) :
    e = (k, v) ∨ e ∈ entries := by
  induction entries with
  | nil => exact Or.inl (List.mem_singleton.mp h)
  | cons e' rest ih =>
      unfold setEntries at h
      by_cases heq : e'.1 = k
      · rw [if_pos heq] at h
        rcases List.mem_cons.mp h with h | h
        · exact Or.inl h
        · exact Or.inr (List.mem_cons_of_mem _ h)
      · rw [if_neg heq] at h
        rcases List.mem_cons.mp h with h | h
        · rw [h]
          exact Or.inr List.mem_cons_self
        · rcases ih h with h | h
          · exact Or.inl h
          · exact Or.inr (List.mem_cons_of_mem _ h)

/-!
## Setting and erasing
-/

theorem erase_set_self (m : OrderedMap key value) (k : key) (v : value) :
    (m.set k v).erase k = m.erase k := by
  apply ext_entries
  unfold set erase
  dsimp only
  induction m.entries with
  | nil => simp [setEntries]
  | cons e rest ih =>
      unfold setEntries
      by_cases heq : e.1 = k
      · rw [if_pos heq, List.filter_cons_of_neg (by simp),
          List.filter_cons_of_neg (by simpa using heq)]
      · rw [if_neg heq, List.filter_cons_of_pos (by simpa using heq),
          List.filter_cons_of_pos (by simpa using heq), ih]

theorem erase_set_of_ne (m : OrderedMap key value) (hne : x ≠ k) (v : value) :
    (m.set k v).erase x = (m.erase x).set k v := by
  apply ext_entries
  have hk : ¬ k = x := fun h => hne h.symm
  unfold set erase
  dsimp only
  induction m.entries with
  | nil =>
      simp [setEntries, hk]
  | cons e rest ih =>
      rw [setEntries]
      by_cases heq : e.1 = k
      · have he : ¬ e.1 = x := fun h => hne (h.symm.trans heq)
        rw [if_pos heq, List.filter_cons_of_pos (by simpa using hk),
          List.filter_cons_of_pos (by simpa using he), setEntries, if_pos heq]
      · rw [if_neg heq]
        by_cases hx : e.1 = x
        · rw [List.filter_cons_of_neg (by simpa using hx),
            List.filter_cons_of_neg (by simpa using hx), ih]
        · rw [List.filter_cons_of_pos (by simpa using hx),
            List.filter_cons_of_pos (by simpa using hx), setEntries, if_neg heq, ih]

theorem setEntries_of_new (h : k ∉ entries.map Prod.fst) (v : value) :
    setEntries k v entries = entries ++ [(k, v)] := by
  induction entries with
  | nil => rfl
  | cons e rest ih =>
      rw [List.map_cons, List.mem_cons, not_or] at h
      unfold setEntries
      rw [if_neg (fun heq => h.left heq.symm), ih h.right]
      rfl

theorem entries_ofList (hnodup : (entries.map Prod.fst).Nodup) :
    (ofList entries).entries = entries := by
  have hfold : forall (rest : List (key × value)) (front : OrderedMap key value),
      ((front.entries ++ rest).map Prod.fst).Nodup ->
        (rest.foldl (fun m e => m.set e.1 e.2) front).entries = front.entries ++ rest := by
    intro rest
    induction rest with
    | nil => exact fun front _ => (List.append_nil _).symm
    | cons e rest ih =>
        intro front hnodup
        have hnew : e.1 ∉ front.entries.map Prod.fst := by
          rw [List.map_append, List.map_cons] at hnodup
          intro hin
          exact (List.nodup_append.mp hnodup).right.right e.1 hin e.1 List.mem_cons_self rfl
        have hset : (front.set e.1 e.2).entries = front.entries ++ [e] :=
          setEntries_of_new hnew e.2
        have hassoc : front.entries ++ [e] ++ rest = front.entries ++ e :: rest := by
          rw [List.append_assoc, List.singleton_append]
        have hnodup' : (((front.set e.1 e.2).entries ++ rest).map Prod.fst).Nodup := by
          rw [hset, hassoc]
          exact hnodup
        rw [List.foldl_cons, ih (front.set e.1 e.2) hnodup', hset, hassoc]
  exact hfold entries empty hnodup

theorem ofList_entries (m : OrderedMap key value) : ofList m.entries = m :=
  ext_entries (entries_ofList m.nodup)

theorem mem_keys_iff : k ∈ m.keys <-> exists v, m.get? k = some v := by
  constructor
  · intro h
    rcases List.mem_map.mp h with ⟨e, he, hk⟩
    unfold get?
    cases hfound : m.entries.find? (fun e => e.1 = k) with
    | none =>
        have hnot := List.find?_eq_none.mp hfound e he
        simp [hk] at hnot
    | some e' => exact ⟨e'.2, rfl⟩
  · rintro ⟨v, hv⟩
    exact List.mem_map.mpr ⟨(k, v), mem_entries_of_get? hv, rfl⟩

theorem keys_set_of_mem (h : k ∈ m.keys) (v : value) : (m.set k v).keys = m.keys := by
  have hkeys : (m.set k v).keys = (setEntries k v m.entries).map Prod.fst := rfl
  rw [hkeys, keys_setEntries]
  exact if_pos h

end OrderedMap
end Foundation
end Perpetual
