import Perpetual.Foundation.EachStep

/-!
# Slots

Items are put into a list of slots one after another.  An item takes the place of the
first one it replaces, or a new slot behind the others.

As long as no item replaces two that stand when it comes, the slots hold exactly the
items that no later one replaces.  An item that replaces two takes the place of the
first and leaves the second where it is.
-/

namespace Perpetual
namespace Foundation
namespace Slots

variable {item : Type} (replaces : item -> item -> Prop)

/-- No item in a slot replaces one before it. -/
def Distinct (slots : List item) : Prop :=
  slots.Pairwise (fun x y => ¬ replaces y x)

/-- No item behind it replaces the item. -/
def Standing (items : List item) (x : item) : Prop :=
  exists before behind, items = before ++ x :: behind ∧
    forall y, y ∈ behind -> ¬ replaces y x

/-- No item replaces two different ones that stand when it comes. -/
def Orderly (items : List item) : Prop :=
  EachStep (fun before x =>
    forall y z, Standing replaces before y -> Standing replaces before z ->
      replaces x y -> replaces x z -> y = z) items

variable [DecidableRel replaces]

def put (slots : List item) (x : item) : List item :=
  match slots with
  | [] => [x]
  | y :: rest => if replaces x y then x :: rest else y :: put rest x

def fill (items : List item) : List item :=
  items.foldl (put replaces) []

variable {replaces}

/-!
## One item
-/

variable (replaces) in
theorem put_cases (slots : List item) (x : item) :
    ((forall y, y ∈ slots -> ¬ replaces x y) ∧ put replaces slots x = slots ++ [x]) ∨
    (exists front y back, slots = front ++ y :: back ∧ replaces x y ∧
      (forall z, z ∈ front -> ¬ replaces x z) ∧
      put replaces slots x = front ++ x :: back) := by
  induction slots with
  | nil =>
      apply Or.inl
      exact ⟨fun y hy => absurd hy List.not_mem_nil, rfl⟩
  | cons first rest ih =>
      by_cases hfirst : replaces x first
      · apply Or.inr
        refine ⟨[], first, rest, rfl, hfirst, fun z hz => absurd hz List.not_mem_nil, ?_⟩
        show (if replaces x first then x :: rest else first :: put replaces rest x) = _
        rw [if_pos hfirst]
        rfl
      · have hput : put replaces (first :: rest) x = first :: put replaces rest x := by
          show (if replaces x first then x :: rest else first :: put replaces rest x) = _
          rw [if_neg hfirst]
        rcases ih with ⟨hnone, heq⟩ | ⟨front, y, back, hrest, hy, hfront, heq⟩
        · apply Or.inl
          exact ⟨List.forall_mem_cons.mpr ⟨hfirst, hnone⟩, by rw [hput, heq]; rfl⟩
        · apply Or.inr
          refine ⟨first :: front, y, back, by rw [hrest]; rfl, hy, ?_, ?_⟩
          · exact List.forall_mem_cons.mpr ⟨hfirst, hfront⟩
          · rw [hput, heq]
            rfl

theorem mem_put_self (slots : List item) (x : item) : x ∈ put replaces slots x := by
  rcases put_cases replaces slots x with
    ⟨_hnone, heq⟩ | ⟨front, y, back, _hslots, _hy, _hfront, heq⟩
  · rw [heq]
    exact List.mem_append_right _ (List.mem_singleton_self x)
  · rw [heq]
    exact List.mem_append_cons_self

variable {slots : List item} {x : item}

theorem mem_of_mem_put {y : item} (h : y ∈ put replaces slots x) : y ∈ slots ∨ y = x := by
  rcases put_cases replaces slots x with
    ⟨_hnone, heq⟩ | ⟨front, z, back, hslots, _hz, _hfront, heq⟩
  · rw [heq] at h
    simpa using h
  · rw [heq] at h
    rw [hslots]
    simp only [List.mem_append, List.mem_cons] at h ⊢
    tauto

theorem put_of_none (h : forall y, y ∈ slots -> ¬ replaces x y) :
    put replaces slots x = slots ++ [x] := by
  rcases put_cases replaces slots x with
    ⟨_hnone, heq⟩ | ⟨front, y, back, hslots, hy, _hfront, _heq⟩
  · exact heq
  · exact absurd hy (h y (by rw [hslots]; simp))

section Distinct

variable (hrefl : forall x, replaces x x) (hsymm : forall x y, replaces x y -> replaces y x)
include hsymm

omit [DecidableRel replaces] in
theorem distinct_middle (front back : List item) (x : item) :
    Distinct replaces (front ++ x :: back) <->
      Distinct replaces (front ++ back) ∧
        forall y, y ∈ front ++ back -> ¬ replaces x y := by
  have hcomm : forall y, ¬ replaces y x <-> ¬ replaces x y :=
    fun y => not_congr ⟨hsymm y x, hsymm x y⟩
  unfold Distinct
  rw [List.pairwise_append, List.pairwise_append, List.pairwise_cons]
  simp only [List.mem_append, List.mem_cons]
  constructor
  · rintro ⟨hfront, ⟨hx, hback⟩, hacross⟩
    refine ⟨⟨hfront, hback, fun y hy z hz => hacross y hy z (Or.inr hz)⟩, ?_⟩
    intro y hy
    cases hy with
    | inl hy => exact hacross y hy x (Or.inl rfl)
    | inr hy => exact (hcomm y).mp (hx y hy)
  · rintro ⟨⟨hfront, hback, hacross⟩, hx⟩
    refine ⟨hfront, ⟨fun y hy => (hcomm y).mpr (hx y (Or.inr hy)), hback⟩, ?_⟩
    intro y hy z hz
    cases hz with
    | inl hz => exact hz ▸ hx y (Or.inl hy)
    | inr hz => exact hacross y hy z hz

omit [DecidableRel replaces] in
theorem eq_of_replaces
    {slots : List item} (h : Distinct replaces slots) {x y : item}
    (hx : x ∈ slots) (hy : y ∈ slots) (hxy : replaces x y) : x = y := by
  have hsymmetric : Std.Symm (fun x y => ¬ replaces y x) :=
    ⟨fun a b hab hba => hab (hsymm a b hba)⟩
  by_contra hne
  exact h.forall hx hy hne (hsymm x y hxy)

include hrefl

theorem distinct_put_iff (h : Distinct replaces slots) (x : item) :
    Distinct replaces (put replaces slots x) <->
      forall y z, y ∈ slots -> z ∈ slots -> replaces x y -> replaces x z -> y = z := by
  rcases put_cases replaces slots x with
    ⟨hnone, heq⟩ | ⟨front, f, back, hslots, hf, hfront, heq⟩
  · rw [heq, distinct_middle hsymm slots [] x, List.append_nil]
    constructor
    · intro _ y z hy _hz hxy _hxz
      exact absurd hxy (hnone y hy)
    · intro _
      exact ⟨h, hnone⟩
  · subst hslots
    have hothers := (distinct_middle hsymm front back f).mp h
    rw [heq, distinct_middle hsymm front back x]
    constructor
    · rintro ⟨_hrest, hx⟩
      have honly : forall y, y ∈ front ++ f :: back -> replaces x y -> y = f := by
        intro y hy hxy
        by_contra hne
        apply hx y _ hxy
        simp only [List.mem_append, List.mem_cons] at hy ⊢
        tauto
      intro y z hy hz hxy hxz
      rw [honly y hy hxy, honly z hz hxz]
    · intro honly
      refine ⟨hothers.left, ?_⟩
      intro y hy hxy
      have hmem : y ∈ front ++ f :: back := by
        simp only [List.mem_append, List.mem_cons] at hy ⊢
        tauto
      have hyf : y = f := honly y f hmem (by simp) hxy hf
      exact hothers.right y hy (hyf ▸ hrefl f)

theorem mem_put_iff (h : Distinct replaces slots)
    (honly : forall y z, y ∈ slots -> z ∈ slots -> replaces x y -> replaces x z -> y = z)
    (y : item) :
    y ∈ put replaces slots x <-> y = x ∨ (y ∈ slots ∧ ¬ replaces x y) := by
  have hput := (distinct_put_iff hrefl hsymm h x).mpr honly
  rcases put_cases replaces slots x with
    ⟨hnone, heq⟩ | ⟨front, f, back, hslots, hf, hfront, heq⟩
  · rw [heq, List.mem_append, List.mem_singleton]
    constructor
    · rintro (hy | hy)
      · exact Or.inr ⟨hy, hnone y hy⟩
      · exact Or.inl hy
    · rintro (hy | ⟨hy, _hxy⟩)
      · exact Or.inr hy
      · exact Or.inl hy
  · rw [heq] at hput ⊢
    have hx := ((distinct_middle hsymm front back x).mp hput).right
    have hmem : y ∈ front ++ x :: back <-> y = x ∨ y ∈ front ++ back := by
      simp only [List.mem_append, List.mem_cons]
      tauto
    rw [hmem, hslots]
    constructor
    · rintro (hy | hy)
      · exact Or.inl hy
      · refine Or.inr ⟨?_, hx y hy⟩
        simp only [List.mem_append, List.mem_cons] at hy ⊢
        tauto
    · rintro (hy | ⟨hy, hxy⟩)
      · exact Or.inl hy
      · have hne : y ≠ f := fun heqf => hxy (heqf ▸ hf)
        simp only [List.mem_append, List.mem_cons] at hy ⊢
        tauto

end Distinct

/-!
## Many items
-/

theorem fill_concat (items : List item) (x : item) :
    fill replaces (items ++ [x]) = put replaces (fill replaces items) x := by
  unfold fill
  rw [List.foldl_append, List.foldl_cons, List.foldl_nil]

variable {items : List item}

theorem mem_of_mem_fill (h : x ∈ fill replaces items) : x ∈ items := by
  induction items using List.reverseRecOn with
  | nil => exact h
  | append_singleton items y ih =>
      rw [fill_concat] at h
      cases mem_of_mem_put h with
      | inl hold => exact List.mem_append_left _ (ih hold)
      | inr hnew => exact List.mem_append_right _ (List.mem_singleton.mpr hnew)

theorem mem_fill_last (items : List item) (x : item) : x ∈ fill replaces (items ++ [x]) := by
  rw [fill_concat]
  exact mem_put_self _ x

theorem fill_of_distinct (h : Distinct replaces items) : fill replaces items = items := by
  induction items using List.reverseRecOn with
  | nil => rfl
  | append_singleton items x ih =>
      rcases List.pairwise_append.mp h with ⟨hitems, _hlast, hnew⟩
      rw [fill_concat, ih hitems]
      exact put_of_none (fun y hy => hnew y hy x (List.mem_singleton_self x))

omit [DecidableRel replaces] in
theorem standing_concat (items : List item) (x y : item) :
    Standing replaces (items ++ [x]) y <->
      y = x ∨ (Standing replaces items y ∧ ¬ replaces x y) := by
  constructor
  · rintro ⟨before, behind, heq, hbehind⟩
    rcases split_of_concat heq with ⟨_hbefore, hy⟩ | ⟨rest, hrest, hlast⟩
    · exact Or.inl hy.symm
    · rw [hlast] at hbehind
      refine Or.inr ⟨⟨before, rest, hrest, fun w hw => ?_⟩, ?_⟩
      · exact hbehind w (List.mem_append_left _ hw)
      · exact hbehind x (List.mem_append_right _ (List.mem_singleton_self x))
  · rintro (hy | ⟨⟨before, behind, hitems, hbehind⟩, hx⟩)
    · exact ⟨items, [], by rw [hy], fun w hw => absurd hw List.not_mem_nil⟩
    · refine ⟨before, behind ++ [x], by rw [hitems]; simp, ?_⟩
      intro w hw
      cases List.mem_append.mp hw with
      | inl hold => exact hbehind w hold
      | inr hlast => exact (List.mem_singleton.mp hlast) ▸ hx

section Fill

variable (hrefl : forall x, replaces x x) (hsymm : forall x y, replaces x y -> replaces y x)
include hrefl hsymm

theorem fill_of_orderly (h : Orderly replaces items) :
    Distinct replaces (fill replaces items) ∧
      forall x, x ∈ fill replaces items <-> Standing replaces items x := by
  induction items using List.reverseRecOn with
  | nil =>
      refine ⟨List.Pairwise.nil, fun x => ⟨fun hx => absurd hx List.not_mem_nil, ?_⟩⟩
      rintro ⟨before, behind, heq, _hbehind⟩
      simp at heq
  | append_singleton items x ih =>
      rcases (EachStep.concat_iff items x).mp h with ⟨hitems, hlast⟩
      rcases ih hitems with ⟨hdistinct, hmem⟩
      have honly : forall y z, y ∈ fill replaces items -> z ∈ fill replaces items ->
          replaces x y -> replaces x z -> y = z :=
        fun y z hy hz => hlast y z ((hmem y).mp hy) ((hmem z).mp hz)
      rw [fill_concat]
      refine ⟨(distinct_put_iff hrefl hsymm hdistinct x).mpr honly, fun y => ?_⟩
      rw [mem_put_iff hrefl hsymm hdistinct honly, hmem y, standing_concat]

theorem orderly_of_distinct_fill
    (h : forall before, before <+: items -> Distinct replaces (fill replaces before)) :
    Orderly replaces items := by
  induction items using List.reverseRecOn with
  | nil => exact EachStep.nil
  | append_singleton items x ih =>
      have hitems : Orderly replaces items :=
        ih (fun before hbefore => h before (hbefore.trans (List.prefix_append items [x])))
      rcases fill_of_orderly hrefl hsymm hitems with ⟨hdistinct, hmem⟩
      have hput : Distinct replaces (put replaces (fill replaces items) x) := by
        rw [← fill_concat]
        exact h _ (List.prefix_refl _)
      have honly := (distinct_put_iff hrefl hsymm hdistinct x).mp hput
      refine (EachStep.concat_iff items x).mpr ⟨hitems, fun y z hy hz => ?_⟩
      exact honly y z ((hmem y).mpr hy) ((hmem z).mpr hz)

theorem distinct_fill_of_trans
    (htrans : forall x y z, replaces x y -> replaces y z -> replaces x z)
    (items : List item) : Distinct replaces (fill replaces items) := by
  induction items using List.reverseRecOn with
  | nil => exact List.Pairwise.nil
  | append_singleton items x ih =>
      rw [fill_concat]
      refine (distinct_put_iff hrefl hsymm ih x).mpr (fun y z hy hz hxy hxz => ?_)
      have hyz : replaces y z := htrans y x z (hsymm x y hxy) hxz
      exact eq_of_replaces hsymm ih hy hz hyz

end Fill

end Slots
end Foundation
end Perpetual
