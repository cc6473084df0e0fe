import Mathlib

/-!
# Conditions on every step of a list

A condition on an item and the items before it, asked of every item of a list.  Two such
conditions are asked of the same lists when they agree as long as both were met so far.
-/

namespace Perpetual
namespace Foundation

variable {item : Type}

theorem split_of_concat {items before behind : List item} {x y : item}
    (h : items ++ [x] = before ++ y :: behind) :
    (items = before ∧ x = y) ∨
      exists rest, items = before ++ y :: rest ∧ behind = rest ++ [x] := by
  cases behind using List.reverseRecOn with
  | nil =>
      rcases List.append_inj' h rfl with ⟨hitems, hx⟩
      exact Or.inl ⟨hitems, List.singleton_inj.mp hx⟩
  | append_singleton rest z =>
      have hsplit : items ++ [x] = (before ++ y :: rest) ++ [z] := by
        rw [h]
        simp
      rcases List.append_inj' hsplit rfl with ⟨hitems, hx⟩
      exact Or.inr ⟨rest, hitems, by rw [hx]⟩

def EachStep (holds : List item -> item -> Prop) (items : List item) : Prop :=
  forall before x behind, items = before ++ x :: behind -> holds before x

namespace EachStep

variable {holds : List item -> item -> Prop}

theorem nil : EachStep holds [] := by
  intro before x behind h
  simp at h

theorem concat_iff (items : List item) (x : item) :
    EachStep holds (items ++ [x]) <-> EachStep holds items ∧ holds items x := by
  constructor
  · intro h
    refine ⟨fun before y behind heq => ?_, h items x [] rfl⟩
    exact h before y (behind ++ [x]) (by rw [heq]; simp)
  · rintro ⟨hitems, hlast⟩ before y behind heq
    rcases split_of_concat heq with ⟨hbefore, hy⟩ | ⟨rest, hrest, _hbehind⟩
    · rw [← hbefore, ← hy]
      exact hlast
    · exact hitems before y rest hrest

theorem cons_iff (x : item) (items : List item) :
    EachStep holds (x :: items) <->
      holds [] x ∧ EachStep (fun before => holds (x :: before)) items := by
  constructor
  · intro h
    refine ⟨h [] x items rfl, fun before y behind heq => ?_⟩
    exact h (x :: before) y behind (by rw [heq, List.cons_append])
  · rintro ⟨hx, hitems⟩ before y behind heq
    cases before with
    | nil =>
        injection heq with hxy _hbehind
        rw [← hxy]
        exact hx
    | cons z before =>
        injection heq with hxz hrest
        rw [← hxz]
        exact hitems before y behind hrest

theorem exists_first_failure {items : List item} (h : ¬ EachStep holds items) :
    exists before x behind, items = before ++ x :: behind ∧
      EachStep holds before ∧ ¬ holds before x := by
  induction items using List.reverseRecOn with
  | nil => exact absurd nil h
  | append_singleton items x ih =>
      by_cases hitems : EachStep holds items
      · refine ⟨items, x, [], rfl, hitems, fun hx => ?_⟩
        exact h ((concat_iff items x).mpr ⟨hitems, hx⟩)
      · rcases ih hitems with ⟨before, y, behind, heq, hbefore, hy⟩
        exact ⟨before, y, behind ++ [x], by rw [heq]; simp, hbefore, hy⟩

theorem of_prefix {front items : List item} (h : EachStep holds items) (hfront : front <+: items) :
    EachStep holds front := by
  intro before x behind heq
  rcases hfront with ⟨rest, hitems⟩
  exact h before x (behind ++ rest) (by rw [← hitems, heq]; simp)

theorem split_of_first_failure {before before' behind behind' : List item} {x y : item}
    (h : before ++ x :: behind = before' ++ y :: behind') (hx : ¬ holds before x)
    (hbefore' : EachStep holds before') :
    exists rest, before ++ [x] = before' ++ y :: rest := by
  rcases List.append_eq_append_iff.mp h with ⟨mid, hlong, hrest⟩ | ⟨mid, hlong, hrest⟩
  · cases mid with
    | nil =>
        injection hrest with hitem _hbehind
        exact ⟨[], by rw [hlong, List.append_nil, hitem]⟩
    | cons z mid =>
        injection hrest with hitem _hbehind
        exact absurd (hbefore' before x mid (by rw [hlong, hitem])) hx
  · cases mid with
    | nil =>
        injection hrest with hitem _hbehind
        exact ⟨[], by rw [hlong, List.append_nil, hitem]⟩
    | cons z mid =>
        injection hrest with hitem _hbehind
        exact ⟨mid ++ [x], by rw [hlong, hitem, List.append_assoc, List.cons_append]⟩

theorem first_failure_unique
    {before before' behind behind' : List item} {x x' : item}
    (h : before ++ x :: behind = before' ++ x' :: behind')
    (hbefore : EachStep holds before) (hbefore' : EachStep holds before')
    (hx : ¬ holds before x) (hx' : ¬ holds before' x') : before = before' ∧ x = x' := by
  rcases split_of_first_failure h hx hbefore' with ⟨rest, hreached⟩
  rcases split_of_concat hreached with hsame | ⟨rest', hrest', _hrest⟩
  · exact hsame
  · exact absurd (hbefore before' x' rest' hrest') hx'

theorem congr
    {other : List item -> item -> Prop}
    (h : forall before x, EachStep holds before -> EachStep other before ->
      (holds before x <-> other before x))
    (items : List item) : EachStep holds items <-> EachStep other items := by
  induction items using List.reverseRecOn with
  | nil => exact ⟨fun _ => nil, fun _ => nil⟩
  | append_singleton items x ih =>
      rw [concat_iff, concat_iff]
      constructor
      · rintro ⟨hitems, hx⟩
        have hother := ih.mp hitems
        exact ⟨hother, (h items x hitems hother).mp hx⟩
      · rintro ⟨hother, hx⟩
        have hitems := ih.mpr hother
        exact ⟨hitems, (h items x hitems hother).mpr hx⟩

end EachStep

end Foundation
end Perpetual
