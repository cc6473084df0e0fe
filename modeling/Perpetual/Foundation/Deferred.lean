import Mathlib

/-!
# Deferred items

What happens in a turn is seen at once, but for the items that are deferred to the end of
the turn.  Nothing changes its place exactly if no other item comes behind a deferred one.
-/

namespace Perpetual
namespace Foundation

variable {item : Type} (late : item -> Bool)

/-- The items of a turn as they are seen. -/
def deferred (items : List item) : List item :=
  items.filter (fun a => !late a) ++ items.filter late

/-- Behind a deferred item there are deferred ones only. -/
def LateLast (items : List item) : Prop :=
  items.Pairwise (fun a b => late a = true -> late b = true)

variable {late}

theorem length_deferred (items : List item) : (deferred late items).length = items.length := by
  unfold deferred
  rw [List.length_append]
  have hparts := List.length_eq_length_filter_add (l := items) late
  omega

theorem lateLast_deferred (items : List item) : LateLast late (deferred late items) := by
  unfold LateLast deferred
  rw [List.pairwise_append]
  refine ⟨?_, ?_, ?_⟩
  · apply List.pairwise_of_forall_mem_list
    intro a ha b _ hlate
    have hearly := (List.mem_filter.mp ha).right
    rw [hlate] at hearly
    cases hearly
  · apply List.pairwise_of_forall_mem_list
    intro a _ b hb _
    exact (List.mem_filter.mp hb).right
  · intro a ha b _ hlate
    have hearly := (List.mem_filter.mp ha).right
    rw [hlate] at hearly
    cases hearly

theorem deferred_eq_iff (items : List item) :
    deferred late items = items <-> LateLast late items := by
  constructor
  · intro h
    have hlast : LateLast late (deferred late items) := lateLast_deferred items
    rw [h] at hlast
    exact hlast
  · intro h
    induction items with
    | nil => rfl
    | cons a rest ih =>
        have hrest := List.pairwise_cons.mp h
        unfold deferred
        cases ha : late a with
        | false =>
            rw [List.filter_cons_of_pos (by rw [ha]; rfl),
              List.filter_cons_of_neg (by rw [ha]; exact Bool.false_ne_true), List.cons_append]
            exact congrArg (List.cons a) (ih hrest.right)
        | true =>
            have hall : forall b, b ∈ a :: rest -> late b = true := by
              intro b hb
              rcases List.mem_cons.mp hb with hb | hb
              · rw [hb]
                exact ha
              · exact hrest.left b hb ha
            rw [List.filter_eq_self.mpr hall, List.filter_eq_nil_iff.mpr, List.nil_append]
            intro b hb
            rw [hall b hb]
            exact Bool.false_ne_true

theorem deferred_map {other : Type} (f : other -> item) (items : List other) :
    deferred late (items.map f) = (deferred (fun a => late (f a)) items).map f := by
  unfold deferred
  rw [List.map_append, List.filter_map, List.filter_map]
  rfl

/-- Turn by turn nothing changes its place exactly if nothing does in any turn. -/
theorem flatten_deferred_eq_iff (turns : List (List item)) :
    (turns.map (deferred late)).flatten = turns.flatten <->
      forall turn, turn ∈ turns -> LateLast late turn := by
  induction turns with
  | nil => simp
  | cons turn rest ih =>
      rw [List.map_cons, List.flatten_cons, List.flatten_cons, List.forall_mem_cons,
        ← deferred_eq_iff, ← ih]
      constructor
      · intro h
        exact List.append_inj h (length_deferred turn)
      · rintro ⟨hturn, hrest⟩
        rw [hturn, hrest]

theorem length_flatten_deferred (turns : List (List item)) :
    (turns.map (deferred late)).flatten.length = turns.flatten.length := by
  induction turns with
  | nil => rfl
  | cons turn rest ih =>
      rw [List.map_cons, List.flatten_cons, List.length_append, ih, length_deferred,
        List.flatten_cons, List.length_append]

theorem length_flatten_le {few many : List (List item)}
    (h : List.Forall₂ List.Sublist few many) : few.flatten.length ≤ many.flatten.length := by
  induction h with
  | nil => exact le_refl _
  | cons hturn hrest ih =>
      have hfirst := hturn.length_le
      rw [List.flatten_cons, List.flatten_cons, List.length_append, List.length_append]
      omega

/-- Turns that hold as much in all as what they are taken from have left nothing out. -/
theorem eq_of_sublists {few many : List (List item)} (h : List.Forall₂ List.Sublist few many)
    (hlength : few.flatten.length = many.flatten.length) : few = many := by
  induction h with
  | nil => rfl
  | cons hturn hrest ih =>
      have hfirst := hturn.length_le
      have hlater := length_flatten_le hrest
      rw [List.flatten_cons, List.flatten_cons, List.length_append, List.length_append] at hlength
      rw [hturn.eq_of_length (by omega), ih (by omega)]

end Foundation
end Perpetual
