import Mathlib

/-!
# Serving in order

Numbered requests wait in a queue, one at a time is taken in hand, and the ones
served are logged.  A relation says which request has to be served before which.
The discipline below is what keeps the log in order: requests join with growing
numbers, only one is in hand, and it is taken when none that precedes it waits.

A request in hand may be served more than once, may be put back in front, and may
be let go.
-/

namespace Perpetual
namespace Foundation
namespace Line

variable {precedes : Nat -> Nat -> Prop}

/-- Whatever was served or is in hand is preceded by nothing served later and by
nothing that waits. -/
structure InLine (precedes : Nat -> Nat -> Prop) (log hand waiting : List Nat)
    (count : Nat) : Prop where
  single : hand.length ≤ 1
  known : forall n, n ∈ log ++ hand ++ waiting -> n < count
  served : (log ++ hand).Pairwise (fun x y => ¬ precedes y x)
  later : forall x y, x ∈ log ++ hand -> y ∈ waiting -> ¬ precedes y x

theorem inLine_start : InLine precedes [] [] [] 0 := by
  refine ⟨Nat.zero_le 1, ?_, List.Pairwise.nil, ?_⟩
  · intro n hn
    cases hn
  · intro x y hx
    cases hx

variable {log hand waiting : List Nat} {count : Nat}

theorem InLine.hand_perm {hand' : List Nat}
    (h : InLine precedes log hand waiting count) (hperm : hand.Perm hand') :
    InLine precedes log hand' waiting count := by
  have heq : hand = hand' := by
    cases hand with
    | nil => exact (List.nil_perm.mp hperm).symm
    | cons n rest =>
        cases rest with
        | nil => exact (List.singleton_perm.mp hperm)
        | cons n' rest =>
            have hle := h.single
            simp only [List.length_cons] at hle
            omega
  rw [← heq]
  exact h

variable {n : Nat}

theorem InLine.nothing_else {others : List Nat}
    (h : InLine precedes log (n :: others) waiting count) : others = [] := by
  cases others with
  | nil => rfl
  | cons n' rest =>
      have hle := h.single
      simp only [List.length_cons] at hle
      omega

theorem InLine.count_le {count' : Nat}
    (h : InLine precedes log hand waiting count) (hle : count ≤ count') :
    InLine precedes log hand waiting count' :=
  ⟨h.single, fun n hn => Nat.lt_of_lt_of_le (h.known n hn) hle, h.served, h.later⟩

theorem InLine.release (h : InLine precedes log hand waiting count) :
    InLine precedes log [] waiting count := by
  refine ⟨Nat.zero_le 1, fun n hn => ?_, ?_, fun x y hx hy => ?_⟩
  · apply h.known n
    rw [List.append_nil] at hn
    rcases List.mem_append.mp hn with hn | hn
    · exact List.mem_append_left _ (List.mem_append_left _ hn)
    · exact List.mem_append_right _ hn
  · rw [List.append_nil]
    exact (List.pairwise_append.mp h.served).left
  · rw [List.append_nil] at hx
    exact h.later x y (List.mem_append_left _ hx) hy

theorem InLine.take {rest : List Nat} (h : InLine precedes log [] waiting count)
    (hn : n ∈ waiting) (hfirst : forall y, y ∈ waiting -> ¬ precedes y n) (hrest : rest ⊆ waiting) :
    InLine precedes log [n] rest count := by
  have hlog := h.served
  rw [List.append_nil] at hlog
  have hserved : forall x, x ∈ log ++ [] -> forall y, y ∈ waiting -> ¬ precedes y x :=
    fun x hx y hy => h.later x y hx hy
  rw [List.append_nil] at hserved
  refine ⟨Nat.le_refl 1, fun k hk => ?_, ?_, fun x y hx hy => ?_⟩
  · apply h.known k
    rw [List.append_nil]
    rcases List.mem_append.mp hk with hk | hk
    · rcases List.mem_append.mp hk with hk | hk
      · exact List.mem_append_left _ hk
      · rw [List.mem_singleton.mp hk]
        exact List.mem_append_right _ hn
    · exact List.mem_append_right _ (hrest hk)
  · apply List.pairwise_append.mpr
    refine ⟨hlog, List.pairwise_singleton _ n, fun x hx y hy => ?_⟩
    rw [List.mem_singleton.mp hy]
    exact hserved x hx n hn
  · rcases List.mem_append.mp hx with hx | hx
    · exact hserved x hx y (hrest hy)
    · rw [List.mem_singleton.mp hx]
      exact hfirst y (hrest hy)

theorem InLine.putBack
    (h : InLine precedes log [n] [] count) : InLine precedes log [] [n] count := by
  rcases List.pairwise_append.mp h.served with ⟨hlog, _, hcross⟩
  refine ⟨Nat.zero_le 1, fun k hk => ?_, ?_, fun x y hx hy => ?_⟩
  · apply h.known k
    rw [List.append_nil] at hk ⊢
    exact hk
  · rw [List.append_nil]
    exact hlog
  · rw [List.append_nil] at hx
    rw [List.mem_singleton.mp hy]
    exact hcross x hx n (List.mem_singleton.mpr rfl)

section Growing

variable (hgrows : forall a b, precedes a b -> a < b)
include hgrows

theorem not_precedes_self (n : Nat) : ¬ precedes n n :=
  fun h => Nat.lt_irrefl n (hgrows n n h)

theorem InLine.join (h : InLine precedes log hand waiting count) :
    InLine precedes log hand (waiting ++ [count]) (count + 1) := by
  refine ⟨h.single, fun n hn => ?_, h.served, fun x y hx hy => ?_⟩
  · rw [← List.append_assoc] at hn
    rcases List.mem_append.mp hn with hn | hn
    · exact Nat.lt_succ_of_lt (h.known n hn)
    · rw [List.mem_singleton.mp hn]
      exact Nat.lt_succ_self count
  · rcases List.mem_append.mp hy with hy | hy
    · exact h.later x y hx hy
    · rw [List.mem_singleton.mp hy]
      intro hprecedes
      have hx' := h.known x (List.mem_append_left _ hx)
      exact Nat.lt_asymm hx' (hgrows count x hprecedes)

theorem InLine.requeue (h : InLine precedes log [n] waiting count) :
    InLine precedes log [n] (waiting ++ [n]) count := by
  rcases List.pairwise_append.mp h.served with ⟨_, _, hcross⟩
  refine ⟨h.single, fun k hk => ?_, h.served, fun x y hx hy => ?_⟩
  · rcases List.mem_append.mp hk with hk | hk
    · exact h.known k (List.mem_append_left _ hk)
    · rcases List.mem_append.mp hk with hk | hk
      · exact h.known k (List.mem_append_right _ hk)
      · exact h.known k (List.mem_append_left _ (List.mem_append_right _ hk))
  · rcases List.mem_append.mp hy with hy | hy
    · exact h.later x y hx hy
    · rw [List.mem_singleton.mp hy]
      rcases List.mem_append.mp hx with hx | hx
      · exact hcross x hx n (List.mem_singleton.mpr rfl)
      · rw [List.mem_singleton.mp hx]
        exact not_precedes_self hgrows n

theorem InLine.serve (h : InLine precedes log [n] waiting count) :
    InLine precedes (log ++ [n]) [n] waiting count := by
  have hmem : forall k, k ∈ log ++ [n] ++ [n] -> k ∈ log ++ [n] := by
    intro k hk
    rcases List.mem_append.mp hk with hk | hk
    · exact hk
    · exact List.mem_append_right _ hk
  refine ⟨Nat.le_refl 1, fun k hk => ?_, ?_, fun x y hx hy => h.later x y (hmem x hx) hy⟩
  · apply h.known k
    rcases List.mem_append.mp hk with hk | hk
    · exact List.mem_append_left _ (hmem k hk)
    · exact List.mem_append_right _ hk
  · apply List.pairwise_append.mpr
    refine ⟨h.served, List.pairwise_singleton _ n, fun x hx y hy => ?_⟩
    rw [List.mem_singleton.mp hy]
    rcases List.mem_append.mp hx with hx | hx
    · exact (List.pairwise_append.mp h.served).right.right x hx n (List.mem_singleton.mpr rfl)
    · rw [List.mem_singleton.mp hx]
      exact not_precedes_self hgrows n

theorem InLine.serveNew (h : InLine precedes log [] [] count) :
    InLine precedes (log ++ [count]) [count] [] (count + 1) := by
  have htaken : InLine precedes log [count] [] (count + 1) := by
    refine (h.join hgrows).take List.mem_concat_self ?_ (List.nil_subset _)
    intro y hy
    rw [List.nil_append] at hy
    rw [List.mem_singleton.mp hy]
    exact not_precedes_self hgrows count
  exact htaken.serve hgrows

end Growing

end Line
end Foundation
end Perpetual
