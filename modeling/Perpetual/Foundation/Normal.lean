import Perpetual.Foundation.Text

/-!
# Normal forms of texts and lists

A text is trimmed when it neither starts nor ends with white space; trimming gives such a
text and leaves it as it is.  Dropping what repeats its neighbour leaves every item once
exactly when no item comes again behind another one.
-/

namespace Perpetual
namespace Foundation
namespace Normal

open Text

/-!
## Trimmed texts
-/

def StartsClean (text : List Char) : Prop :=
  forall c, text.head? = some c -> isWhitespace c = false

def EndsClean (text : List Char) : Prop :=
  forall c, text.getLast? = some c -> isWhitespace c = false

variable {front text : List Char}

theorem startsClean_of_prefix (h : StartsClean text) (hfront : front <+: text) :
    StartsClean front := by
  intro c hc
  rcases hfront with ⟨rest, heq⟩
  apply h c
  rw [← heq, List.head?_append, hc]
  rfl

theorem startsClean_dropWhile (text : List Char) : StartsClean (text.dropWhile isWhitespace) := by
  intro c hc
  have hfirst := List.head?_dropWhile_not isWhitespace text
  rw [hc] at hfirst
  exact hfirst

theorem dropWhile_of_startsClean (h : StartsClean text) : text.dropWhile isWhitespace = text := by
  cases text with
  | nil => rfl
  | cons c rest => rw [List.dropWhile_cons, h c rfl]; rfl

theorem toList_trim (text : String) :
    (trim text).toList = (text.toList.dropWhile isWhitespace).rdropWhile isWhitespace := by
  simp [trim, List.rdropWhile]

theorem length_trim_le (text : String) : (trim text).toList.length ≤ text.toList.length := by
  rw [toList_trim]
  exact ((List.rdropWhile_prefix _ _).sublist.trans (List.dropWhile_sublist _)).length_le

theorem startsClean_trim (text : String) : StartsClean (trim text).toList := by
  rw [toList_trim]
  exact startsClean_of_prefix (startsClean_dropWhile text.toList) (List.rdropWhile_prefix _ _)

theorem endsClean_trim (text : String) : EndsClean (trim text).toList := by
  intro c hc
  rw [toList_trim, List.rdropWhile, List.getLast?_reverse] at hc
  have hlast := List.head?_dropWhile_not isWhitespace (text.toList.dropWhile isWhitespace).reverse
  rw [hc] at hlast
  exact hlast

theorem trim_of_clean
    {text : String} (hstart : StartsClean text.toList) (hend : EndsClean text.toList) :
    trim text = text := by
  apply String.toList_injective
  rw [toList_trim, dropWhile_of_startsClean hstart, List.rdropWhile]
  have hback : StartsClean text.toList.reverse := by
    intro c hc
    rw [List.head?_reverse] at hc
    exact hend c hc
  rw [dropWhile_of_startsClean hback, List.reverse_reverse]

theorem trim_trim (text : String) : trim (trim text) = trim text :=
  trim_of_clean (startsClean_trim text) (endsClean_trim text)

/-!
## Trimmed texts of a script
-/

/-- The text neither starts nor ends with the white space of a script. -/
structure ScriptClean (text : List Char) : Prop where
  start : forall c rest, text = c :: rest -> isScriptWhitespace c = false
  stop : forall front c, text = front ++ [c] -> isScriptWhitespace c = false

theorem dropWhile_of_start (h : forall c rest, text = c :: rest -> isScriptWhitespace c = false) :
    text.dropWhile isScriptWhitespace = text := by
  cases text with
  | nil => rfl
  | cons c rest =>
      rw [List.dropWhile_cons, h c rest rfl]
      rfl

theorem trimScript_of_clean (h : ScriptClean text) : trimScript text = text := by
  have hback : forall c rest, text.reverse = c :: rest -> isScriptWhitespace c = false := by
    intro c rest hc
    apply h.stop rest.reverse c
    rw [← List.reverse_reverse text, hc, List.reverse_cons]
  unfold trimScript
  rw [dropWhile_of_start h.start, dropWhile_of_start hback, List.reverse_reverse]

theorem dropWhile_eq_cons
    {rest : List Char} {c : Char} (h : text.dropWhile isScriptWhitespace = c :: rest) :
    isScriptWhitespace c = false := by
  have hfirst := List.head?_dropWhile_not isScriptWhitespace text
  rw [h] at hfirst
  exact hfirst

theorem clean_trimScript (text : List Char) : ScriptClean (trimScript text) := by
  constructor
  · intro c rest hc
    have hprefix : trimScript text <+: text.dropWhile isScriptWhitespace := by
      have hback := List.dropWhile_suffix isScriptWhitespace
        (l := (text.dropWhile isScriptWhitespace).reverse)
      have hfront := List.reverse_prefix.mpr hback
      rw [List.reverse_reverse] at hfront
      exact hfront
    rcases hprefix with ⟨tail, htail⟩
    rw [hc, List.cons_append] at htail
    exact dropWhile_eq_cons htail.symm
  · intro front c hc
    unfold trimScript at hc
    have hback := congrArg List.reverse hc
    rw [List.reverse_reverse, List.reverse_append, List.reverse_singleton,
      List.singleton_append] at hback
    exact dropWhile_eq_cons hback

theorem trimScript_of_start (h : forall c rest, text = c :: rest -> isScriptWhitespace c = false) :
    exists back, text = trimScript text ++ back ∧
      forall c, c ∈ back -> isScriptWhitespace c = true := by
  refine ⟨(text.reverse.takeWhile isScriptWhitespace).reverse, ?_, ?_⟩
  · unfold trimScript
    rw [dropWhile_of_start h, ← List.reverse_append, List.takeWhile_append_dropWhile,
      List.reverse_reverse]
  · intro c hc
    exact List.mem_takeWhile_imp (List.mem_reverse.mp hc)

theorem dropWhile_append_of_all (h : forall c, c ∈ front -> isScriptWhitespace c = true) :
    (front ++ text).dropWhile isScriptWhitespace = text.dropWhile isScriptWhitespace := by
  induction front with
  | nil => rfl
  | cons c front ih =>
      rw [List.cons_append, List.dropWhile_cons, h c List.mem_cons_self]
      exact ih (fun d hd => h d (List.mem_cons_of_mem c hd))

theorem trimScript_append
    {back : List Char} (hfront : forall c, c ∈ front -> isScriptWhitespace c = true)
    (hback : forall c, c ∈ back -> isScriptWhitespace c = true) (htext : ScriptClean text)
    (hne : text ≠ []) : trimScript (front ++ (text ++ back)) = text := by
  have hstart : forall c rest, text ++ back = c :: rest -> isScriptWhitespace c = false := by
    intro c rest hc
    cases text with
    | nil => exact absurd rfl hne
    | cons d text =>
        injection hc with hd _
        rw [← hd]
        exact htext.start d text rfl
  have hreverse : forall c, c ∈ back.reverse -> isScriptWhitespace c = true := by
    intro c hc
    exact hback c (List.mem_reverse.mp hc)
  have hlast : forall c rest, text.reverse = c :: rest -> isScriptWhitespace c = false := by
    intro c rest hc
    apply htext.stop rest.reverse c
    rw [← List.reverse_reverse text, hc, List.reverse_cons]
  unfold trimScript
  rw [dropWhile_append_of_all hfront, dropWhile_of_start hstart, List.reverse_append,
    dropWhile_append_of_all hreverse, dropWhile_of_start hlast, List.reverse_reverse]

/-!
## Repeats
-/

section Repeats

variable {item : Type} [DecidableEq item]

theorem sublist_destutter'
    (l : List item) (x : item) {chain : List item} (hchain : chain.IsChain (fun a b => a ≠ b))
    (h : chain.Sublist (x :: l)) : chain.Sublist (l.destutter' (fun a b => a ≠ b) x) := by
  induction l generalizing x chain with
  | nil => exact h
  | cons y rest ih =>
      by_cases hxy : x ≠ y
      · rw [List.destutter'_cons_pos _ hxy]
        cases h with
        | cons _ hrest => exact (ih y hchain hrest).cons x
        | cons_cons _ hrest => exact (ih y hchain.tail hrest).cons_cons x
      · rw [List.destutter'_cons_neg _ hxy]
        have heq : x = y := not_not.mp hxy
        subst heq
        apply ih x hchain
        cases h with
        | cons _ hrest => exact hrest
        | cons_cons _ hrest =>
            rename_i inner
            cases hrest with
            | cons _ hinner => exact hinner.cons_cons x
            | cons_cons _ hinner => exact absurd rfl (List.isChain_cons_cons.mp hchain).left

theorem exists_between_of_not_nodup
    {l : List item} (hchain : l.IsChain (fun a b => a ≠ b)) (h : ¬ l.Nodup) :
    exists a b, [a, b, a].Sublist l ∧ a ≠ b := by
  induction l with
  | nil => exact absurd List.nodup_nil h
  | cons x rest ih =>
      by_cases hmem : x ∈ rest
      · cases rest with
        | nil => exact absurd hmem List.not_mem_nil
        | cons y rest =>
            have hxy : x ≠ y := (List.isChain_cons_cons.mp hchain).left
            have hlater : x ∈ rest := (List.mem_cons.mp hmem).resolve_left hxy
            exact ⟨x, y, ((List.singleton_sublist.mpr hlater).cons_cons y).cons_cons x, hxy⟩
      · have hrest : ¬ rest.Nodup := fun hnodup => h (List.nodup_cons.mpr ⟨hmem, hnodup⟩)
        rcases ih hchain.tail hrest with ⟨a, b, hsub, hab⟩
        exact ⟨a, b, hsub.cons x, hab⟩

theorem nodup_destutter_iff (l : List item) :
    (l.destutter (fun a b => a ≠ b)).Nodup <->
      forall a b, [a, b, a].Sublist l -> a = b := by
  constructor
  · intro h a b hsub
    by_contra hab
    have hchain : [a, b, a].IsChain (fun a b => a ≠ b) := by simp [hab, Ne.symm hab]
    cases l with
    | nil => cases hsub
    | cons x rest =>
        have hkept := h.sublist (sublist_destutter' rest x hchain hsub)
        simp at hkept
  · intro h
    by_contra hdup
    rcases exists_between_of_not_nodup (List.isChain_destutter _ l) hdup with
      ⟨a, b, hsub, hab⟩
    exact hab (h a b (hsub.trans (List.destutter_sublist _ l)))

theorem destutter_of_nodup {l : List item} (h : l.Nodup) : l.destutter (fun a b => a ≠ b) = l :=
  List.destutter_of_isChain _ l (List.Pairwise.isChain h)

end Repeats

end Normal
end Foundation
end Perpetual
