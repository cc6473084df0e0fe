import Perpetual.Foundation.Search

/-!
# Cutting and rewriting a text from left to right

A text is cut around the first occurrence of a marker, and rewritten by a rule that is
tried at every position the earlier matches have left.  A marker whose first character
does not come again in it never overlaps itself, so a text in front of it that lacks the
marker is the whole text in front of its first occurrence.
-/

namespace Perpetual
namespace Foundation
namespace Text

/-!
## The text on both sides of a marker
-/

/-- The text in front of the first occurrence of a marker and the text behind it. -/
def cutAround (marker text : List Char) : Option (List Char × List Char) :=
  (indexOf marker text).map (fun n => (text.take n, text.drop (n + marker.length)))

/-- The first character of a marker does not come again in it. -/
def HeadOnce : List Char -> Prop
  | [] => False
  | first :: tail => first ∉ tail

instance : (marker : List Char) -> Decidable (HeadOnce marker)
  | [] => inferInstanceAs (Decidable False)
  | first :: tail => inferInstanceAs (Decidable (first ∉ tail))

variable {marker front back text : List Char}

theorem HeadOnce.ne_nil (h : HeadOnce marker) : marker ≠ [] := by
  intro hnil
  rw [hnil] at h
  exact h

theorem indexOf_eq_some (hmarker : marker ≠ []) :
    forall {text : List Char} {n : Nat}, indexOf marker text = some n ->
      exists front back, text = front ++ (marker ++ back) ∧ front.length = n ∧
        ¬ marker <:+: front
  | [], n, h => by
      unfold indexOf at h
      rw [if_neg (fun hbegins => hmarker (List.prefix_nil.mp hbegins))] at h
      cases h
  | c :: text, n, h => by
      unfold indexOf at h
      by_cases hhere : marker <+: c :: text
      · rw [if_pos hhere] at h
        injection h with hn
        rcases hhere with ⟨back, hback⟩
        exact ⟨[], back, hback.symm, hn, fun hin => hmarker (List.infix_nil.mp hin)⟩
      · rw [if_neg hhere, Option.map_eq_some_iff] at h
        rcases h with ⟨m, hm, hn⟩
        rcases indexOf_eq_some hmarker hm with ⟨front, back, htext, hlength, hfront⟩
        have hlacks : ¬ marker <:+: c :: front := by
          intro hin
          rcases List.infix_cons_iff.mp hin with hbegins | hrest
          · apply hhere
            rw [htext]
            exact hbegins.trans (List.prefix_append (c :: front) (marker ++ back))
          · exact hfront hrest
        exact ⟨c :: front, back, by rw [htext]; rfl, by rw [List.length_cons, hlength, hn], hlacks⟩

theorem HeadOnce.prefix_of_prefix_append (h : HeadOnce marker) (hfront : front ≠ [])
    (hbegins : marker <+: front ++ (marker ++ back)) : marker <+: front := by
  rcases List.prefix_or_prefix_of_prefix hbegins (List.prefix_append front (marker ++ back))
    with hin | ⟨rest, hrest⟩
  · exact hin
  · cases rest with
    | nil =>
        rw [List.append_nil] at hrest
        rw [hrest]
    | cons d rest =>
        cases front with
        | nil => exact absurd rfl hfront
        | cons e front =>
            -- the marker would start again inside itself
            rcases hbegins with ⟨after, hafter⟩
            have hmeet : (e :: front) ++ (d :: (rest ++ after)) =
                (e :: front) ++ (marker ++ back) := by
              rw [← hafter, ← hrest]
              simp
            have hrestart := List.append_cancel_left hmeet
            rw [← hrest] at h hrestart
            injection hrestart with hd _
            exact absurd (by rw [hd]; simp) h

theorem indexOf_of_headOnce (h : HeadOnce marker) (hfront : ¬ marker <:+: front)
    (back : List Char) : indexOf marker (front ++ (marker ++ back)) = some front.length := by
  induction front with
  | nil => exact indexOf_append_self marker back
  | cons d front ih =>
      have hhere : ¬ marker <+: d :: (front ++ (marker ++ back)) := by
        intro hbegins
        exact hfront (h.prefix_of_prefix_append (List.cons_ne_nil d front) hbegins).isInfix
      have htail : ¬ marker <:+: front :=
        fun hin => hfront (hin.trans (List.suffix_cons d front).isInfix)
      rw [List.cons_append]
      unfold indexOf
      rw [if_neg hhere, ih htail]
      rfl

theorem cutAround_of_headOnce (h : HeadOnce marker) (hfront : ¬ marker <:+: front)
    (back : List Char) : cutAround marker (front ++ (marker ++ back)) = some (front, back) := by
  unfold cutAround
  rw [indexOf_of_headOnce h hfront, Option.map_some, List.take_left, ← List.drop_drop,
    List.drop_left, List.drop_left]

theorem cutAround_eq_some (hmarker : marker ≠ []) (h : cutAround marker text = some (front, back)) :
    text = front ++ (marker ++ back) ∧ ¬ marker <:+: front := by
  unfold cutAround at h
  rw [Option.map_eq_some_iff] at h
  rcases h with ⟨n, hn, hcut⟩
  rcases indexOf_eq_some hmarker hn with ⟨front', back', htext, hlength, hfront⟩
  rw [htext, ← hlength, List.take_left, ← List.drop_drop, List.drop_left, List.drop_left] at hcut
  injection hcut with hf hb
  rw [← hf, ← hb]
  exact ⟨htext, hfront⟩

theorem cutAround_eq_none (h : cutAround marker text = none) : ¬ marker <:+: text := by
  unfold cutAround at h
  rw [Option.map_eq_none_iff] at h
  induction text with
  | nil =>
      unfold indexOf at h
      intro hin
      rw [if_pos (List.infix_nil.mp hin ▸ List.prefix_refl [])] at h
      cases h
  | cons c text ih =>
      unfold indexOf at h
      by_cases hhere : marker <+: c :: text
      · rw [if_pos hhere] at h
        cases h
      · rw [if_neg hhere, Option.map_eq_none_iff] at h
        intro hin
        rcases List.infix_cons_iff.mp hin with hbegins | hrest
        · exact hhere hbegins
        · exact ih h hrest

theorem HeadOnce.suffix_of_cutAround {before rest : List Char} (h : HeadOnce marker)
    (hcut : cutAround marker (front ++ (marker ++ back)) = some (before, rest)) :
    back <:+ rest := by
  rcases cutAround_eq_some h.ne_nil hcut with ⟨htext, hbefore⟩
  have hrest : rest <:+ front ++ (marker ++ back) := by
    rw [htext, ← List.append_assoc]
    exact List.suffix_append (before ++ marker) rest
  have hback : back <:+ front ++ (marker ++ back) := by
    rw [← List.append_assoc]
    exact List.suffix_append (front ++ marker) back
  apply List.suffix_of_suffix_length_le hback hrest
  have hlength := congrArg List.length htext
  simp only [List.length_append] at hlength
  rcases List.append_eq_append_iff.mp htext with ⟨between, hearly, hmeet⟩ | ⟨between, hlate, _⟩
  · cases between with
    | nil =>
        rw [hearly, List.append_nil] at hlength
        omega
    | cons c between =>
        -- the marker would stand in front of its first occurrence
        have hbegins : marker <+: (c :: between) ++ (marker ++ rest) := ⟨back, hmeet⟩
        have hin := h.prefix_of_prefix_append (List.cons_ne_nil c between) hbegins
        rw [hearly] at hbefore
        exact absurd (hin.isInfix.trans (List.suffix_append front _).isInfix) hbefore
  · rw [hlate, List.length_append] at hlength
    omega

variable {first : Char}

theorem not_infix_append_of_head {tail : List Char} (hfront : first ∉ front)
    (hback : ¬ first :: tail <:+: back) : ¬ first :: tail <:+: front ++ back := by
  induction front with
  | nil => exact hback
  | cons d front ih =>
      rw [List.mem_cons, not_or] at hfront
      intro h
      rcases List.infix_cons_iff.mp h with hbegins | hin
      · rw [List.append_eq, List.cons_prefix_cons] at hbegins
        exact hfront.left hbegins.left
      · exact ih hfront.right hin

variable {c : Char}

theorem not_infix_append_cons (hc : c ∉ marker) (hfront : ¬ marker <:+: front)
    (hback : ¬ marker <:+: back) : ¬ marker <:+: front ++ c :: back := by
  intro h
  rcases infix_of_infix_append_cons hc h with hin | hin
  · exact hfront hin
  · exact hback hin

/-!
## Rewriting
-/

/-- How many characters a rule takes off the front of a text and what it writes for them. -/
abbrev Rule := List Char -> Option (Nat × List Char)

/-- A text rewritten from left to right; the first number counts the characters that
belong to the last match. -/
def rewriteFrom (rule : Rule) : Nat -> List Char -> List Char
  | _, [] => []
  | taken + 1, _ :: text => rewriteFrom rule taken text
  | 0, c :: text =>
      match rule (c :: text) with
      | some (n, new) => new ++ rewriteFrom rule (n - 1) text
      | none => c :: rewriteFrom rule 0 text

def rewrite (rule : Rule) (text : List Char) : List Char := rewriteFrom rule 0 text

@[simp] theorem rewriteFrom_nil (rule : Rule) (taken : Nat) : rewriteFrom rule taken [] = [] := by
  cases taken with
  | zero => rfl
  | succ taken => rfl

variable {rule : Rule}

theorem rewriteFrom_match {new : List Char} {n : Nat} (h : rule (c :: text) = some (n, new)) :
    rewriteFrom rule 0 (c :: text) = new ++ rewriteFrom rule (n - 1) text := by
  simp only [rewriteFrom, h]

theorem rewriteFrom_skip (h : rule (c :: text) = none) :
    rewriteFrom rule 0 (c :: text) = c :: rewriteFrom rule 0 text := by
  simp only [rewriteFrom, h]

theorem prefix_of_prefix_rewriteFrom
    (hrule : forall text n new, rule text = some (n, new) -> new.head? = some first) :
    forall {pattern text : List Char}, first ∉ pattern ->
      pattern <+: rewriteFrom rule 0 text -> pattern <+: text
  | [], _, _, _ => List.nil_prefix
  | d :: pattern, [], _, h => by
      rw [rewriteFrom_nil] at h
      exact h
  | d :: pattern, c :: text, hfirst, h => by
      cases hmatch : rule (c :: text) with
      | some found =>
          rw [rewriteFrom_match hmatch] at h
          have hhead := hrule (c :: text) found.1 found.2 hmatch
          cases hnew : found.2 with
          | nil =>
              rw [hnew] at hhead
              cases hhead
          | cons e new =>
              rw [hnew] at hhead h
              rw [List.cons_append, List.cons_prefix_cons] at h
              injection hhead with he
              exact absurd (by rw [h.left, he]; simp) hfirst
      | none =>
          rw [rewriteFrom_skip hmatch, List.cons_prefix_cons] at h
          rw [List.cons_prefix_cons]
          exact ⟨h.left, prefix_of_prefix_rewriteFrom hrule
            (fun hin => hfirst (List.mem_cons_of_mem d hin)) h.right⟩

/-!
## Replacing a marker
-/

def replaceRule (marker new : List Char) : Rule :=
  fun text => if marker <+: text then some (marker.length, new) else none

/-- Every occurrence of a marker, from left to right, replaced. -/
def replaceAll (marker new text : List Char) : List Char :=
  rewrite (replaceRule marker new) text

theorem not_infix_replaceAll {middle : List Char} {last : Char} (hmarker : marker ≠ [])
    (hfirst : first ∉ marker) (hlast : last ∉ marker) (hnew : ¬ marker <:+: first :: middle)
    (text : List Char) : ¬ marker <:+: replaceAll marker (first :: (middle ++ [last])) text := by
  have hrule : forall t n new,
      replaceRule marker (first :: (middle ++ [last])) t = some (n, new) ->
        new.head? = some first := by
    intro t n new h
    unfold replaceRule at h
    split at h
    · injection h with hpair
      injection hpair with _ heq
      rw [← heq]
      rfl
    · cases h
  suffices hall : forall (taken : Nat),
      ¬ marker <:+: rewriteFrom (replaceRule marker (first :: (middle ++ [last]))) taken text by
    exact hall 0
  induction text with
  | nil =>
      intro taken h
      rw [rewriteFrom_nil] at h
      exact hmarker (List.infix_nil.mp h)
  | cons c text ih =>
      intro taken
      cases taken with
      | succ taken => exact ih taken
      | zero =>
          by_cases hhere : marker <+: c :: text
          · rw [rewriteFrom_match (if_pos hhere)]
            intro h
            rw [← List.cons_append, List.append_assoc, List.singleton_append] at h
            rcases infix_of_infix_append_cons hlast h with hin | hin
            · exact hnew hin
            · exact ih (marker.length - 1) hin
          · have hskip : replaceRule marker (first :: (middle ++ [last])) (c :: text) = none :=
              if_neg hhere
            rw [rewriteFrom_skip hskip]
            intro h
            rcases List.infix_cons_iff.mp h with hbegins | hin
            · apply hhere
              apply prefix_of_prefix_rewriteFrom hrule hfirst
              rw [rewriteFrom_skip hskip]
              exact hbegins
            · exact ih 0 hin

end Text
end Foundation
end Perpetual
