import Mathlib

/-!
# Choosing one after the other

Items choose a place in turn, each from what the earlier ones have left.  What an item gets
does not depend on the order of the items exactly when each one chooses behind any others
what it chooses first.
-/

namespace Perpetual
namespace Foundation
namespace Greedy

variable {item place : Type} (choose : item -> List place -> Option place)

/-- The choices of the items in turn, behind the places that are taken. -/
def greedyFrom : List place -> List item -> List (item × place)
  | _, [] => []
  | used, a :: rest =>
      match choose a used with
      | some l => (a, l) :: greedyFrom (used ++ [l]) rest
      | none => greedyFrom used rest

def greedy (items : List item) : List (item × place) := greedyFrom choose [] items

def solo (a : item) : Option place := choose a []

/-- Which places are taken matters, not when they were. -/
def OnlyMembers : Prop :=
  forall a (used used' : List place), (forall l, l ∈ used <-> l ∈ used') ->
    choose a used = choose a used'

/-- Each item chooses behind any others what it chooses first. -/
def Stable (items : List item) : Prop :=
  forall a, a ∈ items -> forall others : List item, others.Nodup -> a ∉ others ->
    (forall b, b ∈ others -> b ∈ items) ->
    choose a (others.filterMap (solo choose)) = solo choose a

def OrderIndependent (items : List item) : Prop :=
  forall items', items'.Perm items -> forall p, p ∈ greedy choose items' <-> p ∈ greedy choose items

variable {choose}

variable {a : item}

theorem greedyFrom_none {used : List place} (h : choose a used = none) (rest : List item) :
    greedyFrom choose used (a :: rest) = greedyFrom choose used rest := by
  rw [greedyFrom, h]

variable {l : place}

theorem greedyFrom_some {used : List place} (h : choose a used = some l) (rest : List item) :
    greedyFrom choose used (a :: rest) = (a, l) :: greedyFrom choose (used ++ [l]) rest := by
  rw [greedyFrom, h]

theorem greedyFrom_append (front back : List item) :
    forall used : List place,
      greedyFrom choose used (front ++ back) = greedyFrom choose used front ++
        greedyFrom choose (used ++ (greedyFrom choose used front).map Prod.snd) back := by
  induction front with
  | nil =>
      intro used
      simp [greedyFrom]
  | cons a front ih =>
      intro used
      rw [List.cons_append]
      cases hchoice : choose a used with
      | none => rw [greedyFrom_none hchoice, greedyFrom_none hchoice, ih]
      | some l =>
          rw [greedyFrom_some hchoice, greedyFrom_some hchoice, ih]
          simp

variable {front items : List item}

theorem greedy_concat_none (h : choose a ((greedy choose front).map Prod.snd) = none) :
    greedy choose (front ++ [a]) = greedy choose front := by
  unfold greedy at h ⊢
  rw [greedyFrom_append, List.nil_append, greedyFrom_none h]
  exact List.append_nil _

theorem greedy_concat_some (h : choose a ((greedy choose front).map Prod.snd) = some l) :
    greedy choose (front ++ [a]) = greedy choose front ++ [(a, l)] := by
  unfold greedy at h ⊢
  rw [greedyFrom_append, List.nil_append, greedyFrom_some h]
  rfl

theorem nodup_greedy
    (hfresh : forall a used l, choose a used = some l -> l ∉ used) (items : List item) :
    ((greedy choose items).map Prod.snd).Nodup := by
  induction items using List.reverseRecOn with
  | nil => exact List.nodup_nil
  | append_singleton front a ih =>
      cases hchoice : choose a ((greedy choose front).map Prod.snd) with
      | none =>
          rw [greedy_concat_none hchoice]
          exact ih
      | some l =>
          rw [greedy_concat_some hchoice, List.map_append]
          apply List.Nodup.append ih (List.nodup_singleton l)
          intro k hk hk'
          rw [List.mem_singleton.mp hk'] at hk
          exact hfresh a _ l hchoice hk

theorem mem_of_mem_greedyFrom :
    forall {used : List place}, (a, l) ∈ greedyFrom choose used items -> a ∈ items := by
  induction items with
  | nil =>
      intro used h
      cases h
  | cons b items ih =>
      intro used h
      cases hchoice : choose b used with
      | none =>
          rw [greedyFrom_none hchoice] at h
          exact List.mem_cons_of_mem b (ih h)
      | some k =>
          rw [greedyFrom_some hchoice] at h
          rcases List.mem_cons.mp h with h | h
          · injection h with ha _
            rw [ha]
            exact List.mem_cons_self
          · exact List.mem_cons_of_mem b (ih h)

theorem mem_greedy_middle {back : List item} (ha : a ∉ front) (ha' : a ∉ back) (l : place) :
    (a, l) ∈ greedy choose (front ++ a :: back) <->
      choose a ((greedy choose front).map Prod.snd) = some l := by
  unfold greedy
  rw [greedyFrom_append, List.mem_append, List.nil_append]
  have hfront : (a, l) ∉ greedyFrom choose [] front :=
    fun h => ha (mem_of_mem_greedyFrom h)
  rw [or_iff_right hfront]
  cases hchoice : choose a ((greedyFrom choose [] front).map Prod.snd) with
  | none =>
      rw [greedyFrom_none hchoice]
      constructor
      · intro h
        exact absurd (mem_of_mem_greedyFrom h) ha'
      · intro h
        cases h
  | some k =>
      rw [greedyFrom_some hchoice, List.mem_cons]
      constructor
      · rintro (h | h)
        · injection h with _ hl
          rw [hl]
        · exact absurd (mem_of_mem_greedyFrom h) ha'
      · intro h
        injection h with hl
        exact Or.inl (by rw [hl])

theorem mem_greedy_first (hnodup : items.Nodup) (ha : a ∈ items) (h : OrderIndependent choose items)
    (l : place) : (a, l) ∈ greedy choose items <-> solo choose a = some l := by
  rcases List.append_of_mem ha with ⟨front, back, hitems⟩
  have hperm : (a :: (front ++ back)).Perm items := by
    rw [hitems]
    exact List.perm_middle.symm
  have hrest : a ∉ front ++ back := (List.nodup_cons.mp (hperm.nodup_iff.mpr hnodup)).left
  rw [← h _ hperm, ← List.nil_append (a :: (front ++ back))]
  exact mem_greedy_middle List.not_mem_nil hrest l

theorem choose_behind_first (hmembers : OnlyMembers choose)
    (hgets : forall c k, (c, k) ∈ greedy choose front <-> c ∈ front ∧ solo choose c = some k)
    (b : item) :
    choose b ((greedy choose front).map Prod.snd) =
      choose b (front.filterMap (solo choose)) := by
  apply hmembers
  intro k
  rw [List.mem_map, List.mem_filterMap]
  constructor
  · rintro ⟨⟨c, k'⟩, hmem, hk⟩
    rw [← show k' = k from hk]
    exact ⟨c, (hgets c k').mp hmem⟩
  · rintro ⟨c, hc⟩
    exact ⟨(c, k), (hgets c k).mpr hc, rfl⟩

theorem mem_greedy_of_stable (hmembers : OnlyMembers choose) (hstable : Stable choose items)
    {items' : List item} (hnodup : items'.Nodup) (hsub : forall a, a ∈ items' -> a ∈ items)
    (a : item) (l : place) :
    (a, l) ∈ greedy choose items' <-> a ∈ items' ∧ solo choose a = some l := by
  induction items' using List.reverseRecOn generalizing a l with
  | nil =>
      constructor
      · intro h
        cases h
      · intro h
        cases h.left
  | append_singleton front b ih =>
      have hfront : front.Nodup := (List.nodup_append.mp hnodup).left
      have hb : b ∉ front := by
        intro hin
        exact (List.nodup_append.mp hnodup).right.right b hin b List.mem_cons_self rfl
      have hfrontSub : forall c, c ∈ front -> c ∈ items :=
        fun c hc => hsub c (List.mem_append_left _ hc)
      have hearlier := ih hfront hfrontSub
      have hused : choose b ((greedy choose front).map Prod.snd) = solo choose b := by
        rw [← hstable b (hsub b (by simp)) front hfront hb hfrontSub]
        exact choose_behind_first hmembers hearlier b
      rw [List.mem_append, List.mem_singleton]
      by_cases hab : a = b
      · rw [hab, mem_greedy_middle hb List.not_mem_nil, hused]
        exact ⟨fun h => ⟨Or.inr rfl, h⟩, And.right⟩
      · have hsplit : (a, l) ∈ greedy choose (front ++ [b]) <-> (a, l) ∈ greedy choose front := by
          unfold greedy
          rw [greedyFrom_append, List.mem_append]
          constructor
          · rintro (h | h)
            · exact h
            · exact absurd (List.mem_singleton.mp (mem_of_mem_greedyFrom h)) hab
          · exact Or.inl
        rw [hsplit, hearlier, or_iff_left hab]

theorem exists_perm_append (hfront : front.Nodup) (hsub : forall b, b ∈ front -> b ∈ items) :
    exists back, (front ++ back).Perm items := by
  rcases hfront.subperm (fun b hb => hsub b hb) with ⟨front', hperm, hsublist⟩
  rcases hsublist.exists_perm_append with ⟨back, hback⟩
  exact ⟨back, ((hperm.symm.append_right back).trans hback.symm)⟩

theorem mem_greedy_front (h : OrderIndependent choose items) (hnodup : items.Nodup)
    {back : List item} (hperm : (front ++ back).Perm items) (b : item) (k : place) :
    (b, k) ∈ greedy choose front <-> b ∈ front ∧ solo choose b = some k := by
  have hall := hperm.nodup_iff.mpr hnodup
  have hitems (hin : b ∈ front) : b ∈ items :=
    hperm.mem_iff.mp (List.mem_append_left _ hin)
  constructor
  · intro hb
    have hin := mem_of_mem_greedyFrom hb
    refine ⟨hin, (mem_greedy_first hnodup (hitems hin) h k).mp ((h _ hperm _).mp ?_)⟩
    unfold greedy at hb ⊢
    rw [greedyFrom_append]
    exact List.mem_append_left _ hb
  · rintro ⟨hin, hsolo⟩
    have hb := (h _ hperm _).mpr ((mem_greedy_first hnodup (hitems hin) h k).mpr hsolo)
    unfold greedy at hb ⊢
    rw [greedyFrom_append, List.mem_append] at hb
    rcases hb with hb | hb
    · exact hb
    · have hlater := mem_of_mem_greedyFrom hb
      exact absurd rfl ((List.nodup_append.mp hall).right.right b hin b hlater)

theorem orderIndependent_iff (hmembers : OnlyMembers choose) (hnodup : items.Nodup) :
    OrderIndependent choose items <-> Stable choose items := by
  constructor
  · intro h a ha others hothers hnot hsub
    have hfront : (others ++ [a]).Nodup := by
      rw [List.nodup_append]
      refine ⟨hothers, List.nodup_singleton a, ?_⟩
      intro b hb c hc heq
      rw [heq, List.mem_singleton.mp hc] at hb
      exact hnot hb
    have hmem : forall b, b ∈ others ++ [a] -> b ∈ items := by
      intro b hb
      rcases List.mem_append.mp hb with hb | hb
      · exact hsub b hb
      · rw [List.mem_singleton.mp hb]
        exact ha
    rcases exists_perm_append hfront hmem with ⟨back, hperm⟩
    rw [List.append_assoc, List.singleton_append] at hperm
    have hback : a ∉ back := by
      have hall := hperm.nodup_iff.mpr hnodup
      exact (List.nodup_cons.mp (List.nodup_append.mp hall).right.left).left
    -- the places taken in front of the item are the first choices of the others
    rw [← choose_behind_first hmembers (mem_greedy_front h hnodup hperm) a]
    apply Option.ext
    intro l
    rw [← mem_greedy_middle hnot hback l, h _ hperm, mem_greedy_first hnodup ha h l]
  · intro hstable items' hperm p
    rcases p with ⟨a, l⟩
    rw [mem_greedy_of_stable hmembers hstable (hperm.nodup_iff.mpr hnodup)
      (fun b hb => hperm.mem_iff.mp hb),
      mem_greedy_of_stable hmembers hstable hnodup (fun b hb => hb), hperm.mem_iff]

end Greedy
end Foundation
end Perpetual
