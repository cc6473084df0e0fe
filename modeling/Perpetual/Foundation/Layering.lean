import Perpetual.Foundation.Digraph

/-!
# Layers by longest paths

The vertices of a graph are taken in turn as their predecessors have been, and each one
pushes its successors behind its own layer.  Edges may be parallel, and each of them counts.
Every vertex is taken once at most; in an acyclic graph every edge leads to a later layer.

The items of each layer are then listed and each list may be arranged anew.
-/

namespace Perpetual
namespace Foundation
namespace Layering

open Foundation.Digraph

variable {vertex : Type} [DecidableEq vertex]

/-- The loop's state: the layers so far, the edges that are left, the queue. -/
structure Progress (vertex : Type) where
  layer : vertex -> Nat
  count : vertex -> Nat
  queue : List vertex

def reach (base : Nat) (s : Progress vertex) (next : vertex) : Progress vertex :=
  { layer := Function.update s.layer next (max (s.layer next) (base + 1))
    count := Function.update s.count next (s.count next - 1)
    queue := if s.count next - 1 = 0 then s.queue ++ [next] else s.queue }

def take (edges : List (vertex × vertex)) (v : vertex) (queue : List vertex)
    (s : Progress vertex) : Progress vertex :=
  (outgoing edges v).foldl (reach (s.layer v)) { s with queue := queue }

/-- The queue is worked off, for a number of turns. -/
def settle (edges : List (vertex × vertex)) : Nat -> Progress vertex -> Progress vertex
  | 0, s => s
  | turns + 1, s =>
      match s.queue with
      | [] => s
      | v :: queue => settle edges turns (take edges v queue s)

/-- Before the first turn all vertices are in the first layer, and those without incoming
edges are queued in some order. -/
def start (edges : List (vertex × vertex)) (queue : List vertex) : Progress vertex :=
  { layer := fun _ => 0
    count := indegree edges
    queue := queue }

/-- No vertex is taken twice, so that as many turns as there are vertices suffice;
`settled` proves it. -/
def layers (nodes : List vertex) (edges : List (vertex × vertex)) (queue : List vertex) :
    Progress vertex :=
  settle edges nodes.length (start edges queue)

theorem layer_foldl_reach (base : Nat) (outs : List vertex) (s : Progress vertex)
    (u : vertex) : (outs.foldl (reach base) s).layer u =
      if u ∈ outs then max (s.layer u) (base + 1) else s.layer u := by
  induction outs generalizing s with
  | nil => rfl
  | cons o outs ih =>
      rw [List.foldl_cons, ih]
      unfold reach
      dsimp only
      by_cases huo : u = o
      · rw [huo, Function.update_self, if_pos List.mem_cons_self, max_assoc, max_self, ite_self]
      · rw [Function.update_of_ne huo]
        by_cases hu : u ∈ outs
        · rw [if_pos hu, if_pos (List.mem_cons_of_mem o hu)]
        · have hnot : u ∉ o :: outs := by simp [huo, hu]
          rw [if_neg hu, if_neg hnot]

theorem count_foldl_reach (base : Nat) (outs : List vertex) (s : Progress vertex)
    (u : vertex) : (outs.foldl (reach base) s).count u = s.count u - outs.count u := by
  induction outs generalizing s with
  | nil => rfl
  | cons o outs ih =>
      rw [List.foldl_cons, ih]
      unfold reach
      dsimp only
      by_cases huo : u = o
      · rw [huo, Function.update_self, List.count_cons_self]
        omega
      · rw [Function.update_of_ne huo, List.count_cons_of_ne (Ne.symm huo)]

variable {s : Progress vertex}

theorem queue_foldl_reach (base : Nat) {outs : List vertex}
    (h : forall u, outs.count u ≤ s.count u) :
    exists fresh, (outs.foldl (reach base) s).queue = s.queue ++ fresh ∧ fresh.Nodup ∧
      forall u, u ∈ fresh <-> u ∈ outs ∧ s.count u = outs.count u := by
  induction outs generalizing s with
  | nil => exact ⟨[], by simp, List.nodup_nil, by simp⟩
  | cons o outs ih =>
      have ho := h o
      rw [List.count_cons_self] at ho
      have hother : forall u, u ≠ o ->
          (reach base s o).count u = s.count u ∧ (o :: outs).count u = outs.count u := by
        intro u hu
        exact ⟨Function.update_of_ne hu _ _, List.count_cons_of_ne (Ne.symm hu)⟩
      have hself : (reach base s o).count o = s.count o - 1 := Function.update_self ..
      have hleft : forall u, outs.count u ≤ (reach base s o).count u := by
        intro u
        by_cases huo : u = o
        · rw [huo, hself]
          omega
        · have hu := h u
          rw [(hother u huo).right] at hu
          rw [(hother u huo).left]
          exact hu
      rcases ih hleft with ⟨fresh, hqueue, hnodup, hfresh⟩
      rw [List.foldl_cons, hqueue]
      by_cases hlast : s.count o - 1 = 0
      · -- this was the last edge, so that the successor does not come again
        have honce : outs.count o = 0 := by omega
        have hnot : o ∉ outs := List.count_eq_zero.mp honce
        have hjoined : (reach base s o).queue = s.queue ++ [o] := if_pos hlast
        refine ⟨o :: fresh, by rw [hjoined]; simp, ?_, ?_⟩
        · exact List.nodup_cons.mpr ⟨fun hin => hnot ((hfresh o).mp hin).left, hnodup⟩
        · intro u
          by_cases huo : u = o
          · rw [huo, List.count_cons_self]
            simp only [List.mem_cons_self, true_and, true_iff]
            omega
          · rw [List.mem_cons, List.mem_cons, or_iff_right huo, or_iff_right huo, hfresh u,
              (hother u huo).left, (hother u huo).right]
      · have hkept : (reach base s o).queue = s.queue := if_neg hlast
        refine ⟨fresh, by rw [hkept], hnodup, ?_⟩
        intro u
        rw [hfresh u]
        by_cases huo : u = o
        · rw [huo, hself, List.count_cons_self]
          constructor
          · rintro ⟨_, hcount⟩
            exact ⟨List.mem_cons_self, by omega⟩
          · rintro ⟨_, hcount⟩
            have hagain : 0 < outs.count o := by omega
            exact ⟨List.count_pos_iff.mp hagain, by omega⟩
        · rw [List.mem_cons, or_iff_right huo, (hother u huo).left, (hother u huo).right]

variable {visited : List vertex} {v : vertex}

theorem countP_take {edges : List (vertex × vertex)} (hv : v ∉ visited) (u : vertex) :
    edges.countP (fun e => e.2 = u ∧ e.1 ∉ visited) =
      edges.countP (fun e => e.2 = u ∧ e.1 ∉ visited ++ [v]) + (outgoing edges v).count u := by
  induction edges with
  | nil => rfl
  | cons e edges ih =>
      rcases e with ⟨a, b⟩
      unfold outgoing at ih ⊢
      rw [List.countP_cons, List.countP_cons, ih]
      by_cases hav : a = v
      · rw [hav, List.filter_cons_of_pos (by simp), List.map_cons, List.count_cons]
        by_cases hb : b = u
        · simp [hv, hb]
          omega
        · simp [hb]
      · rw [List.filter_cons_of_neg (by simpa using hav)]
        by_cases ha : a ∈ visited
        · simp [ha]
        · by_cases hb : b = u
          · simp [hav, ha, hb]
            omega
          · simp [hb]

variable {nodes : List vertex} {edges : List (vertex × vertex)}

/-- What has been taken, and that its edges lead to later layers. -/
structure Settling (nodes : List vertex) (edges : List (vertex × vertex))
    (visited : List vertex) (s : Progress vertex) : Prop where
  draining : Draining nodes edges visited s.queue s.count
  rises : forall u v, (u, v) ∈ edges -> u ∈ visited -> s.layer u < s.layer v

variable {queue : List vertex}

theorem settling_start (hnodes : nodes.Nodup)
    (hqueue : queue.Perm (nodes.filter (fun v => indegree edges v = 0))) :
    Settling nodes edges [] (start edges queue) :=
  { draining := (draining_start hnodes).perm hqueue
    rises := fun _ _ _ hu => absurd hu List.not_mem_nil }

theorem Settling.turn (hends : forall e, e ∈ edges -> e.2 ∈ nodes)
    (h : Settling nodes edges visited s) (hqueue : s.queue = v :: queue) :
    Settling nodes edges (visited ++ [v]) (take edges v queue s) := by
  have hdraining := h.draining
  rw [hqueue] at hdraining
  have hvnot := hdraining.head_not_visited
  -- the edges of the vertex are among those that are counted
  have htaken : forall u, s.count u =
      edges.countP (fun e => e.2 = u ∧ e.1 ∉ visited ++ [v]) + (outgoing edges v).count u := by
    intro u
    rw [hdraining.count_eq u]
    exact countP_take hvnot u
  have hcounted : forall u, (outgoing edges v).count u ≤ s.count u := by
    intro u
    have hu := htaken u
    omega
  have hcount : forall u, (take edges v queue s).count u = s.count u - (outgoing edges v).count u :=
    fun u => count_foldl_reach _ _ _ u
  have hlayer : forall u, (take edges v queue s).layer u =
      if u ∈ outgoing edges v then max (s.layer u) (s.layer v + 1) else s.layer u :=
    fun u => layer_foldl_reach _ _ _ u
  -- no vertex that has been taken is reached again, nor is this one
  have hkept : forall u, u ∈ visited ++ [v] -> (take edges v queue s).layer u = s.layer u := by
    intro u hu
    have hnot : u ∉ outgoing edges v := by
      intro hreached
      have hedge := mem_outgoing.mp hreached
      rcases List.mem_append.mp hu with hvisited | hhead
      · exact hvnot (hdraining.ordered v u hedge hvisited).left
      · rw [List.mem_singleton] at hhead
        apply hvnot
        exact hdraining.pred_visited List.mem_append_cons_self (hhead ▸ hedge)
    rw [hlayer u, if_neg hnot]
  rcases queue_foldl_reach (s.layer v) (s := { s with queue := queue }) hcounted with
    ⟨fresh, hjoined, hfreshNodup, hfresh⟩
  have hqueue' : (take edges v queue s).queue = queue ++ fresh := hjoined
  have hsplit : visited ++ [v] ++ (queue ++ fresh) = (visited ++ v :: queue) ++ fresh := by simp
  constructor
  · constructor
    · rw [hqueue', hsplit]
      apply List.Nodup.append hdraining.nodup hfreshNodup
      intro u hold hnew
      have hzero := ((hdraining.mem_iff u).mp hold).right
      rcases (hfresh u).mp hnew with ⟨hreached, heq⟩
      have hpositive := List.count_pos_iff.mpr hreached
      have heq' : s.count u = (outgoing edges v).count u := heq
      omega
    · intro u
      rw [hcount u, htaken u, Nat.add_sub_cancel]
    · intro u
      rw [hqueue', hsplit, List.mem_append, hdraining.mem_iff u, hfresh u, hcount u]
      have hle := hcounted u
      by_cases hreached : u ∈ outgoing edges v
      · have hnode : u ∈ nodes := hends (v, u) (mem_outgoing.mp hreached)
        have hpositive := List.count_pos_iff.mpr hreached
        simp only [hnode, hreached, true_and]
        omega
      · have hnone := List.count_eq_zero.mpr hreached
        simp [hreached, hnone]
    · exact hdraining.ordered_turn
  · intro a b hedge ha
    rw [hkept a ha]
    rcases List.mem_append.mp ha with hold | hhead
    · apply Nat.lt_of_lt_of_le (h.rises a b hedge hold)
      rw [hlayer b]
      split
      · exact le_max_left _ _
      · exact Nat.le_refl _
    · rw [List.mem_singleton] at hhead
      rw [hhead] at hedge ⊢
      rw [hlayer b, if_pos (mem_outgoing.mpr hedge)]
      exact Nat.lt_of_lt_of_le (Nat.lt_succ_self _) (le_max_right _ _)

theorem Settling.run {turns : Nat} (hends : forall e, e ∈ edges -> e.2 ∈ nodes)
    (h : Settling nodes edges visited s) (hturns : nodes.length ≤ visited.length + turns) :
    exists visited', Settling nodes edges visited' (settle edges turns s) ∧
      (settle edges turns s).queue = [] := by
  induction turns generalizing visited s with
  | zero =>
      have hle := h.draining.length_le
      have hnil : s.queue = [] := List.eq_nil_of_length_eq_zero (by omega)
      exact ⟨visited, h, hnil⟩
  | succ turns ih =>
      cases hqueue : s.queue with
      | nil =>
          rw [settle, hqueue]
          exact ⟨visited, h, hqueue⟩
      | cons v queue =>
          rw [settle, hqueue]
          apply ih (h.turn hends hqueue)
          rw [List.length_append, List.length_singleton]
          omega

theorem settled (hnodes : nodes.Nodup) (hends : forall e, e ∈ edges -> e.2 ∈ nodes)
    (hqueue : queue.Perm (nodes.filter (fun v => indegree edges v = 0))) :
    exists visited, Settling nodes edges visited (layers nodes edges queue) ∧
      (layers nodes edges queue).queue = [] := by
  apply (settling_start hnodes hqueue).run hends
  simp

theorem layers_rise (hnodes : nodes.Nodup)
    (hends : forall e, e ∈ edges -> e.1 ∈ nodes ∧ e.2 ∈ nodes) (hacyclic : Acyclic edges)
    (hqueue : queue.Perm (nodes.filter (fun v => indegree edges v = 0))) {u : vertex}
    (hedge : (u, v) ∈ edges) :
    (layers nodes edges queue).layer u < (layers nodes edges queue).layer v := by
  rcases settled hnodes (fun e he => (hends e he).right) hqueue with ⟨visited, h, hempty⟩
  have hdraining := h.draining
  rw [hempty] at hdraining
  exact h.rises u v hedge (hdraining.covers hends hacyclic u (hends _ hedge).left)

/-!
## Layers as lists
-/

section Listed

variable {item : Type}

/-- The items of each layer, in the order in which all are listed. -/
def listed (layer : item -> Nat) (size : Nat) (items : List item) : List (List item) :=
  (List.range size).map (fun n => items.filter (fun a => layer a = n))

def Rearranged (lists lists' : List (List item)) : Prop :=
  List.Forall₂ (fun l l' => l.Perm l') lists lists'

theorem getElem?_listed {layer : item -> Nat} {size n : Nat} {items l : List item}
    (h : (listed layer size items)[n]? = some l) :
    l = items.filter (fun a => layer a = n) := by
  unfold listed at h
  rw [List.getElem?_map] at h
  rcases Option.map_eq_some_iff.mp h with ⟨m, hm, hl⟩
  rcases List.getElem?_eq_some_iff.mp hm with ⟨hlt, hm⟩
  rw [List.getElem_range] at hm
  rw [← hl, hm]

theorem mem_flatten_listed {layer : item -> Nat} {size : Nat} {items : List item}
    (hbound : forall a, a ∈ items -> layer a < size) {a : item} :
    a ∈ (listed layer size items).flatten <-> a ∈ items := by
  unfold listed
  rw [List.mem_flatten]
  constructor
  · rintro ⟨l, hl, ha⟩
    rcases List.mem_map.mp hl with ⟨n, _, hn⟩
    rw [← hn] at ha
    exact List.mem_of_mem_filter ha
  · intro ha
    refine ⟨items.filter (fun b => layer b = layer a), ?_, ?_⟩
    · exact List.mem_map.mpr ⟨layer a, List.mem_range.mpr (hbound a ha), rfl⟩
    · exact List.mem_filter.mpr ⟨ha, by simp⟩

theorem nodup_flatten_listed {layer : item -> Nat} {size : Nat} {items : List item}
    (hitems : items.Nodup) : (listed layer size items).flatten.Nodup := by
  unfold listed
  rw [List.nodup_flatten]
  constructor
  · intro l hl
    rcases List.mem_map.mp hl with ⟨n, _, hn⟩
    rw [← hn]
    exact hitems.filter _
  · rw [List.pairwise_map]
    apply List.nodup_range.imp
    intro m n hne a hm hn
    have hm' : layer a = m := by simpa using (List.mem_filter.mp hm).right
    have hn' : layer a = n := by simpa using (List.mem_filter.mp hn).right
    exact hne (hm'.symm.trans hn')

theorem flatten_listed_perm {layer : item -> Nat} {size : Nat} {items : List item}
    (hitems : items.Nodup) (hbound : forall a, a ∈ items -> layer a < size) :
    (listed layer size items).flatten.Perm items := by
  apply (List.perm_ext_iff_of_nodup (nodup_flatten_listed hitems) hitems).mpr
  intro a
  exact mem_flatten_listed hbound

namespace Rearranged

theorem refl (lists : List (List item)) : Rearranged lists lists :=
  List.forall₂_same.mpr (fun l _ => List.Perm.refl l)

variable {lists lists' : List (List item)}

theorem trans {lists'' : List (List item)} (h : Rearranged lists lists')
    (h' : Rearranged lists' lists'') : Rearranged lists lists'' := by
  unfold Rearranged at h h' ⊢
  induction h generalizing lists'' with
  | nil =>
      cases h'
      exact List.Forall₂.nil
  | cons hfirst _ ih =>
      cases h' with
      | cons hfirst' hrest' => exact List.Forall₂.cons (hfirst.trans hfirst') (ih hrest')

theorem set {n : Nat} {l l' : List item}
    (hl : lists[n]? = some l) (hperm : l'.Perm l) : Rearranged (lists.set n l') lists := by
  unfold Rearranged
  induction lists generalizing n with
  | nil => cases hl
  | cons first rest ih =>
      cases n with
      | zero =>
          rw [List.getElem?_cons_zero] at hl
          rw [Option.some.inj hl]
          exact List.Forall₂.cons hperm (refl rest)
      | succ n =>
          rw [List.getElem?_cons_succ] at hl
          exact List.Forall₂.cons (List.Perm.refl first) (ih hl)

theorem foldl {index : Type} {f : List (List item) -> index -> List (List item)}
    (hf : forall lists i, Rearranged (f lists i) lists) (indices : List index)
    (lists : List (List item)) : Rearranged (indices.foldl f lists) lists := by
  induction indices generalizing lists with
  | nil => exact refl lists
  | cons i rest ih => exact (ih (f lists i)).trans (hf lists i)

theorem getElem? (h : Rearranged lists lists') {n : Nat}
    {l : List item} (hl : lists[n]? = some l) : exists l', lists'[n]? = some l' ∧ l.Perm l' := by
  unfold Rearranged at h
  induction h generalizing n with
  | nil => cases hl
  | cons hfirst _ ih =>
      cases n with
      | zero =>
          rw [List.getElem?_cons_zero] at hl
          rw [← Option.some.inj hl]
          exact ⟨_, rfl, hfirst⟩
      | succ n =>
          rw [List.getElem?_cons_succ] at hl
          exact ih hl

theorem flatten_perm (h : Rearranged lists lists') : lists.flatten.Perm lists'.flatten :=
  List.Perm.flatten_congr h

end Rearranged

end Listed

end Layering
end Foundation
end Perpetual
