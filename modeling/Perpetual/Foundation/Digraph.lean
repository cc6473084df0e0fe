import Mathlib

/-!
# Acyclic graphs and the removal of sources

A finite directed graph is a list of vertices and a list of edges.  The
algorithm below repeatedly removes a vertex without remaining incoming edges and
counts down the indegrees of its successors.  It visits every vertex exactly
when the graph is acyclic; the order in which vertices and successors are listed
does not matter.
-/

namespace Perpetual
namespace Foundation
namespace Digraph

variable {vertex : Type}

def Acyclic (edges : List (vertex × vertex)) : Prop :=
  forall v, ¬ Relation.TransGen (fun a b => (a, b) ∈ edges) v v

theorem Acyclic.mono {edges edges' : List (vertex × vertex)}
    (h : Acyclic edges) (hsub : edges' ⊆ edges) : Acyclic edges' := by
  intro v hcycle
  apply h v
  exact Relation.TransGen.mono (fun a b hab => hsub hab) _ _ hcycle

theorem acyclic_of_rank {edges : List (vertex × vertex)} (rank : vertex -> Nat)
    (hrank : forall u v, (u, v) ∈ edges -> rank u < rank v) : Acyclic edges := by
  have hgrows : forall u v,
      Relation.TransGen (fun a b => (a, b) ∈ edges) u v -> rank u < rank v := by
    intro u v hpath
    induction hpath with
    | single h => exact hrank _ _ h
    | tail _ h ih => exact Nat.lt_trans ih (hrank _ _ h)
  intro v hcycle
  exact Nat.lt_irrefl _ (hgrows v v hcycle)

theorem Acyclic.exists_source {edges : List (vertex × vertex)} (h : Acyclic edges)
    {part : List vertex} (hpart : part ≠ []) :
    exists v, v ∈ part ∧ forall u, u ∈ part -> (u, v) ∉ edges := by
  let below : {v // v ∈ part} -> {v // v ∈ part} -> Prop :=
    fun a b => Relation.TransGen (fun x y => (x, y) ∈ edges) a.1 b.1
  have htrans : IsTrans {v // v ∈ part} below :=
    ⟨fun _ _ _ hab hbc => Relation.TransGen.trans hab hbc⟩
  have hirrefl : Std.Irrefl below := ⟨fun a => h a.1⟩
  have hfinite : Finite {v // v ∈ part} := part.finite_toSet.to_subtype
  have hwf : WellFounded below := Finite.wellFounded_of_trans_of_irrefl below
  rcases List.exists_mem_of_ne_nil part hpart with ⟨w, hw⟩
  rcases hwf.has_min Set.univ ⟨⟨w, hw⟩, trivial⟩ with ⟨v, _, hmin⟩
  refine ⟨v.1, v.2, ?_⟩
  intro u hu hedge
  exact hmin ⟨u, hu⟩ trivial (Relation.TransGen.single hedge)

variable {v : vertex}

variable {u : vertex}

theorem Acyclic.cons {edges : List (vertex × vertex)} (h : Acyclic edges)
    (hback : ¬ Relation.ReflTransGen (fun a b => (a, b) ∈ edges) v u) :
    Acyclic ((u, v) :: edges) := by
  -- a path takes the new edge at most once
  have hsplit : forall a b,
      Relation.TransGen (fun x y => (x, y) ∈ (u, v) :: edges) a b ->
        Relation.TransGen (fun x y => (x, y) ∈ edges) a b ∨
          Relation.ReflTransGen (fun x y => (x, y) ∈ edges) a u ∧
            Relation.ReflTransGen (fun x y => (x, y) ∈ edges) v b := by
    intro a b hpath
    induction hpath with
    | single hab =>
        rcases List.mem_cons.mp hab with heq | hold
        · injection heq with ha hb
          rw [ha, hb]
          exact Or.inr ⟨Relation.ReflTransGen.refl, Relation.ReflTransGen.refl⟩
        · exact Or.inl (Relation.TransGen.single hold)
    | tail _ hbc ih =>
        rcases List.mem_cons.mp hbc with heq | hold
        · injection heq with hb hc
          rw [hb] at ih
          rw [hc]
          rcases ih with hau | ⟨_, hvu⟩
          · exact Or.inr ⟨hau.to_reflTransGen, Relation.ReflTransGen.refl⟩
          · exact absurd hvu hback
        · rcases ih with hab | ⟨hau, hvb⟩
          · exact Or.inl (Relation.TransGen.tail hab hold)
          · exact Or.inr ⟨hau, Relation.ReflTransGen.tail hvb hold⟩
  intro x hcycle
  rcases hsplit x x hcycle with hold | ⟨hxu, hvx⟩
  · exact h x hold
  · exact hback (hvx.trans hxu)

/-- An edge from a vertex that no edge leads to closes no cycle. -/
theorem Acyclic.cons_of_source {edges : List (vertex × vertex)} (h : Acyclic edges)
    (hne : u ≠ v) (hsource : forall a, (a, u) ∉ edges) : Acyclic ((u, v) :: edges) := by
  apply h.cons
  intro hpath
  rcases Relation.ReflTransGen.cases_tail hpath with heq | ⟨b, _, hb⟩
  · exact hne heq
  · exact hsource b hb

/-!
## The algorithm
-/

variable [DecidableEq vertex]

def outgoing (edges : List (vertex × vertex)) (v : vertex) : List vertex :=
  (edges.filter (fun e => e.1 = v)).map Prod.snd

def indegree (edges : List (vertex × vertex)) (v : vertex) : Nat :=
  edges.countP (fun e => e.2 = v)

/-- Counting down one successor, which joins the queue at zero. -/
def relax (s : (vertex -> Nat) × List vertex) (next : vertex) :
    (vertex -> Nat) × List vertex :=
  (Function.update s.1 next (s.1 next - 1),
    if s.1 next - 1 = 0 then s.2 ++ [next] else s.2)

/-- The queue is worked off; the vertices taken from it are collected in
order. -/
def drain (edges : List (vertex × vertex)) :
    Nat -> List vertex -> (vertex -> Nat) -> List vertex -> List vertex
  | 0, _, _, visited => visited
  | _ + 1, [], _, visited => visited
  | fuel + 1, v :: queue, count, visited =>
      drain edges fuel ((outgoing edges v).foldl relax (count, queue)).2
        ((outgoing edges v).foldl relax (count, queue)).1 (visited ++ [v])

/-- No vertex is taken twice, so that as many turns as there are vertices
suffice; `visit_exhausts` proves it. -/
def visit (nodes : List vertex) (edges : List (vertex × vertex)) : List vertex :=
  drain edges nodes.length (nodes.filter (fun v => indegree edges v = 0))
    (indegree edges) []

theorem mem_outgoing {edges : List (vertex × vertex)} : u ∈ outgoing edges v ↔ (v, u) ∈ edges := by
  unfold outgoing
  constructor
  · intro h
    rcases List.mem_map.mp h with ⟨⟨a, b⟩, he, hb⟩
    rcases List.mem_filter.mp he with ⟨he, ha⟩
    have ha' : a = v := by simpa using ha
    have hb' : b = u := hb
    rw [← ha', ← hb']
    exact he
  · intro h
    apply List.mem_map.mpr
    exact ⟨(v, u), List.mem_filter.mpr ⟨h, by simp⟩, rfl⟩

theorem nodup_outgoing {edges : List (vertex × vertex)} (h : edges.Nodup)
    (v : vertex) : (outgoing edges v).Nodup := by
  apply List.Nodup.map_on _ (h.filter _)
  rintro ⟨a, b⟩ hab ⟨c, d⟩ hcd hbd
  have hav : a = v := by simpa using (List.mem_filter.mp hab).right
  have hcv : c = v := by simpa using (List.mem_filter.mp hcd).right
  exact Prod.ext (hav.trans hcv.symm) hbd

theorem foldl_relax {outs : List vertex} (hnodup : outs.Nodup)
    (count : vertex -> Nat) (queue : List vertex) :
    (forall u, (outs.foldl relax (count, queue)).1 u =
        if u ∈ outs then count u - 1 else count u) ∧
      (outs.foldl relax (count, queue)).2 =
        queue ++ outs.filter (fun u => count u - 1 = 0) := by
  induction outs generalizing count queue with
  | nil =>
      simp
  | cons o outs ih =>
      rcases List.nodup_cons.mp hnodup with ⟨ho, hrest⟩
      rcases ih hrest (relax (count, queue) o).1 (relax (count, queue) o).2 with ⟨hcount, hqueue⟩
      -- the counts of the other successors are not touched by this one
      have hother : forall u, u ∈ outs -> (relax (count, queue) o).1 u = count u := by
        intro u hu
        have hne : u ≠ o := by
          intro heq
          rw [heq] at hu
          exact ho hu
        exact Function.update_of_ne hne _ _
      have hfilter : outs.filter (fun u => (relax (count, queue) o).1 u - 1 = 0) =
          outs.filter (fun u => count u - 1 = 0) := by
        apply List.filter_congr
        intro u hu
        rw [hother u hu]
      constructor
      · intro u
        rw [List.foldl_cons, hcount u]
        by_cases hu : u ∈ outs
        · rw [if_pos hu, hother u hu, if_pos (List.mem_cons_of_mem _ hu)]
        · rw [if_neg hu]
          by_cases huo : u = o
          · rw [huo, if_pos List.mem_cons_self]
            exact Function.update_self ..
          · have hnot : u ∉ o :: outs := by
              simp [huo, hu]
            rw [if_neg hnot]
            exact Function.update_of_ne huo _ _
      · rw [List.foldl_cons, hqueue, hfilter, List.filter_cons]
        unfold relax
        by_cases hzero : count o - 1 = 0
        · simp [hzero]
        · simp [hzero]

variable {visited queue : List vertex}

theorem countP_visit {edges : List (vertex × vertex)} (hnodup : edges.Nodup) (hv : v ∉ visited)
    (u : vertex) :
    edges.countP (fun e => e.2 = u ∧ e.1 ∉ visited) =
      edges.countP (fun e => e.2 = u ∧ e.1 ∉ visited ++ [v]) +
        (if (v, u) ∈ edges then 1 else 0) := by
  have hone : (if (v, u) ∈ edges then 1 else 0) = edges.countP (fun e => e = (v, u)) := by
    have hcount : edges.countP (fun e => e = (v, u)) = edges.count (v, u) := by
      unfold List.count
      apply List.countP_congr
      intro e _
      simp
    rw [hcount]
    by_cases hmem : (v, u) ∈ edges
    · rw [if_pos hmem, List.count_eq_one_of_mem hnodup hmem]
    · rw [if_neg hmem, List.count_eq_zero_of_not_mem hmem]
  rw [hone]
  clear hone hnodup
  induction edges with
  | nil =>
      rfl
  | cons e edges ih =>
      rcases e with ⟨a, b⟩
      simp only [List.countP_cons]
      rw [ih]
      by_cases hb : b = u
      · by_cases hav : a = v
        · rw [hav, hb]
          simp [hv]
          omega
        · by_cases ha : a ∈ visited
          · simp [hb, hav, ha]
          · simp [hb, hav, ha]
            omega
      · simp [hb]

/-- The state of the loop: what has been visited, what is queued and the counts
of the edges from vertices that have not been visited. -/
structure Draining (nodes : List vertex) (edges : List (vertex × vertex))
    (visited queue : List vertex) (count : vertex -> Nat) : Prop where
  nodup : (visited ++ queue).Nodup
  count_eq : forall v,
    count v = edges.countP (fun e => e.2 = v ∧ e.1 ∉ visited)
  mem_iff : forall v, v ∈ visited ++ queue ↔ v ∈ nodes ∧ count v = 0
  ordered : forall u v, (u, v) ∈ edges -> v ∈ visited ->
    u ∈ visited ∧ visited.idxOf u < visited.idxOf v

variable {nodes : List vertex} {edges : List (vertex × vertex)}

theorem draining_start (hnodes : nodes.Nodup) :
    Draining nodes edges [] (nodes.filter (fun v => indegree edges v = 0))
      (indegree edges) := by
  constructor
  · exact hnodes.filter _
  · intro v
    unfold indegree
    apply List.countP_congr
    intro e _
    simp
  · intro v
    simp
  · intro u v _ hv
    cases hv

variable {count : vertex -> Nat}

theorem Draining.head_not_visited (h : Draining nodes edges visited (v :: queue) count) :
    v ∉ visited := by
  intro hv
  have hdisjoint := (List.nodup_append.mp h.nodup).right.right
  exact hdisjoint v hv v List.mem_cons_self rfl

theorem Draining.perm {queue' : List vertex} (h : Draining nodes edges visited queue count)
    (hqueue : queue'.Perm queue) : Draining nodes edges visited queue' count := by
  have hall : (visited ++ queue').Perm (visited ++ queue) := hqueue.append_left visited
  constructor
  · exact hall.nodup_iff.mpr h.nodup
  · exact h.count_eq
  · intro v
    rw [hall.mem_iff]
    exact h.mem_iff v
  · exact h.ordered

theorem Draining.pred_visited (h : Draining nodes edges visited queue count)
    (hv : v ∈ visited ++ queue) (hedge : (u, v) ∈ edges) : u ∈ visited := by
  have hzero := ((h.mem_iff v).mp hv).right
  rw [h.count_eq v, List.countP_eq_zero] at hzero
  have hnot := hzero (u, v) hedge
  simpa using hnot

theorem Draining.ordered_turn (h : Draining nodes edges visited (v :: queue) count) :
    forall a b, (a, b) ∈ edges -> b ∈ visited ++ [v] ->
      a ∈ visited ++ [v] ∧ (visited ++ [v]).idxOf a < (visited ++ [v]).idxOf b := by
  have hvnot : v ∉ visited := h.head_not_visited
  intro a b hedge hb
  rcases List.mem_append.mp hb with hb | hb
  · rcases h.ordered a b hedge hb with ⟨ha, hlt⟩
    refine ⟨List.mem_append_left _ ha, ?_⟩
    rw [List.idxOf_append_of_mem ha, List.idxOf_append_of_mem hb]
    exact hlt
  · rw [List.mem_singleton] at hb
    rw [hb] at hedge ⊢
    have ha := h.pred_visited List.mem_append_cons_self hedge
    refine ⟨List.mem_append_left _ ha, ?_⟩
    rw [List.idxOf_append_of_mem ha, List.idxOf_append_of_notMem hvnot]
    have hlt := List.idxOf_lt_length_of_mem ha
    omega

theorem Draining.turn (hnodup : edges.Nodup) (hends : forall e, e ∈ edges -> e.2 ∈ nodes)
    (h : Draining nodes edges visited (v :: queue) count) :
    Draining nodes edges (visited ++ [v])
      ((outgoing edges v).foldl relax (count, queue)).2
      ((outgoing edges v).foldl relax (count, queue)).1 := by
  rcases foldl_relax (nodup_outgoing hnodup v) count queue with ⟨hcount, hqueue⟩
  have hvnot : v ∉ visited := h.head_not_visited
  -- the counts of the successors are positive before the turn
  have hpositive : forall u, u ∈ outgoing edges v -> count u ≠ 0 := by
    intro u hu hzero
    have hedge := mem_outgoing.mp hu
    rw [h.count_eq u, List.countP_eq_zero] at hzero
    have hnot := hzero (v, u) hedge
    simp [hvnot] at hnot
  have hcount' : forall u, ((outgoing edges v).foldl relax (count, queue)).1 u =
      edges.countP (fun e => e.2 = u ∧ e.1 ∉ visited ++ [v]) := by
    intro u
    have hvisit := countP_visit hnodup hvnot u
    rw [← h.count_eq u] at hvisit
    rw [hcount u]
    by_cases hu : u ∈ outgoing edges v
    · rw [if_pos hu, hvisit, if_pos (mem_outgoing.mp hu)]
      exact Nat.add_sub_cancel _ _
    · rw [if_neg hu, hvisit, if_neg (fun hedge => hu (mem_outgoing.mpr hedge))]
      exact Nat.add_zero _
  have hsplit : visited ++ [v] ++
      (queue ++ (outgoing edges v).filter (fun u => count u - 1 = 0)) =
      (visited ++ v :: queue) ++
        (outgoing edges v).filter (fun u => count u - 1 = 0) := by
    simp
  constructor
  · rw [hqueue, hsplit]
    apply List.Nodup.append h.nodup ((nodup_outgoing hnodup v).filter _)
    intro u hu hnew
    have hzero := ((h.mem_iff u).mp hu).right
    exact hpositive u (List.mem_of_mem_filter hnew) hzero
  · exact hcount'
  · intro u
    rw [hqueue, hsplit, List.mem_append, h.mem_iff u, hcount u]
    by_cases hu : u ∈ outgoing edges v
    · have hnode : u ∈ nodes := hends (v, u) (mem_outgoing.mp hu)
      have hne := hpositive u hu
      simp [hu, hnode, hne]
    · simp [hu]
  · exact h.ordered_turn

theorem Draining.length_le (h : Draining nodes edges visited queue count) :
    visited.length + queue.length ≤ nodes.length := by
  rw [← List.length_append]
  apply List.Subperm.length_le
  apply h.nodup.subperm
  intro v hv
  exact ((h.mem_iff v).mp hv).left

theorem Draining.run {fuel : Nat} (hnodup : edges.Nodup)
    (hends : forall e, e ∈ edges -> e.2 ∈ nodes) (h : Draining nodes edges visited queue count)
    (hfuel : nodes.length ≤ visited.length + fuel) :
    exists count', Draining nodes edges
      (drain edges fuel queue count visited) [] count' := by
  induction fuel generalizing visited queue count with
  | zero =>
      have hle := h.length_le
      have hnil : queue = [] := List.eq_nil_of_length_eq_zero (by omega)
      rw [hnil] at h ⊢
      exact ⟨count, h⟩
  | succ fuel ih =>
      cases queue with
      | nil =>
          exact ⟨count, h⟩
      | cons v queue =>
          apply ih (h.turn hnodup hends)
          simp only [List.length_append, List.length_singleton]
          omega

theorem visit_exhausts (hnodes : nodes.Nodup) (hnodup : edges.Nodup)
    (hends : forall e, e ∈ edges -> e.2 ∈ nodes) :
    exists count, Draining nodes edges (visit nodes edges) [] count := by
  apply (draining_start hnodes).run hnodup hends
  simp

/-!
## Acyclicity
-/

theorem acyclic_of_visit (hnodes : nodes.Nodup) (hnodup : edges.Nodup)
    (hends : forall e, e ∈ edges -> e.2 ∈ nodes)
    (hall : (visit nodes edges).length = nodes.length) : Acyclic edges := by
  rcases visit_exhausts hnodes hnodup hends with ⟨count, h⟩
  have hnodup' : (visit nodes edges).Nodup := by
    simpa using h.nodup
  have hsub : visit nodes edges ⊆ nodes := by
    intro v hv
    exact ((h.mem_iff v).mp (List.mem_append_left _ hv)).left
  have hperm : (visit nodes edges).Perm nodes :=
    (hnodup'.subperm hsub).perm_of_length_le (Nat.le_of_eq hall.symm)
  apply acyclic_of_rank (fun v => (visit nodes edges).idxOf v)
  intro u v hedge
  exact (h.ordered u v hedge (hperm.mem_iff.mpr (hends (u, v) hedge))).right

theorem Draining.covers (h : Draining nodes edges visited [] count)
    (hends : forall e, e ∈ edges -> e.1 ∈ nodes ∧ e.2 ∈ nodes) (hacyclic : Acyclic edges) :
    forall v, v ∈ nodes -> v ∈ visited := by
  by_contra hsome
  push Not at hsome
  rcases hsome with ⟨w, hw, hleft⟩
  have hpart : nodes.filter (fun v => v ∉ visited) ≠ [] :=
    List.ne_nil_of_mem (List.mem_filter.mpr ⟨hw, by simpa using hleft⟩)
  rcases hacyclic.exists_source hpart with ⟨v, hv, hsource⟩
  rcases List.mem_filter.mp hv with ⟨hnode, hvnot⟩
  have hzero : count v = 0 := by
    rw [h.count_eq v, List.countP_eq_zero]
    rintro ⟨a, b⟩ hab hcond
    have hcond' : b = v ∧ a ∉ visited := by simpa using hcond
    rw [hcond'.left] at hab
    apply hsource a _ hab
    exact List.mem_filter.mpr ⟨(hends _ hab).left, by simpa using hcond'.right⟩
  have hmem := (h.mem_iff v).mpr ⟨hnode, hzero⟩
  rw [List.append_nil] at hmem
  simp [hmem] at hvnot

theorem visit_of_acyclic (hnodes : nodes.Nodup) (hnodup : edges.Nodup)
    (hends : forall e, e ∈ edges -> e.1 ∈ nodes ∧ e.2 ∈ nodes) (hacyclic : Acyclic edges) :
    (visit nodes edges).length = nodes.length := by
  rcases visit_exhausts hnodes hnodup (fun e he => (hends e he).right) with ⟨count, h⟩
  apply Nat.le_antisymm
  · have hle := h.length_le
    simpa using hle
  · apply List.Subperm.length_le
    apply hnodes.subperm
    exact h.covers hends hacyclic

end Digraph
end Foundation
end Perpetual
