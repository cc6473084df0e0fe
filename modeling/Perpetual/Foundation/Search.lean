import Perpetual.Foundation.Text

/-!
# Searching a text for a marker

The position of the first and of the last occurrence of a pattern.  A text may
hold characters that a pattern lacks; no occurrence reaches across one of them,
which is what makes the position of a marker behind such a character certain.
-/

namespace Perpetual
namespace Foundation
namespace Text

def indexOf (pattern : List Char) : List Char -> Option Nat
  | [] => if pattern <+: [] then some 0 else none
  | c :: text =>
      if pattern <+: c :: text then some 0
      else (indexOf pattern text).map (fun n => n + 1)

def lastIndexOf (pattern : List Char) : List Char -> Option Nat
  | [] => if pattern <+: [] then some 0 else none
  | c :: text =>
      match lastIndexOf pattern text with
      | some n => some (n + 1)
      | none => if pattern <+: c :: text then some 0 else none

/-- The characters from one position up to another. -/
def slice (start stop : Nat) (text : List Char) : List Char :=
  (text.take stop).drop start

variable {pattern text : List Char} {c : Char}

theorem not_infix_of_not_mem (hc : c ∈ pattern) (htext : c ∉ text) : ¬ pattern <:+: text := by
  intro h
  exact htext (h.subset hc)

theorem prefix_of_prefix_append_cons {back : List Char} (front : List Char) (hc : c ∉ pattern)
    (h : pattern <+: front ++ c :: back) : pattern <+: front := by
  cases Nat.lt_or_ge front.length pattern.length with
  | inr hshort =>
      exact List.prefix_of_prefix_length_le h (List.prefix_append front (c :: back)) hshort
  | inl hlong =>
      have hreach : front ++ [c] <+: front ++ c :: back := ⟨back, by simp⟩
      have hinside : front ++ [c] <+: pattern :=
        List.prefix_of_prefix_length_le hreach h (by simpa using hlong)
      exact absurd (hinside.subset (by simp)) hc

theorem append_cons_inj :
    forall {a b x y : List Char}, c ∉ a -> c ∉ b -> a ++ c :: x = b ++ c :: y ->
      a = b ∧ x = y
  | [], [], _, _, _, _, h => by
      injection h with _ htail
      exact ⟨rfl, htail⟩
  | [], d :: b, _, _, _, hb, h => by
      injection h with hd _
      exact absurd (by rw [hd]; simp) hb
  | d :: a, [], _, _, ha, _, h => by
      injection h with hd _
      exact absurd (by rw [hd]; simp) ha
  | d :: a, e :: b, _, _, ha, hb, h => by
      injection h with hd htail
      have hrest := append_cons_inj (fun hin => ha (List.mem_cons_of_mem d hin))
        (fun hin => hb (List.mem_cons_of_mem e hin)) htail
      rw [hd, hrest.left]
      exact ⟨rfl, hrest.right⟩

theorem append_cons_inj_last {a b x y : List Char} (hx : c ∉ x) (hy : c ∉ y)
    (h : a ++ c :: x = b ++ c :: y) : x = y := by
  have hreverse := congrArg List.reverse h
  simp only [List.reverse_append, List.reverse_cons, List.append_assoc,
    List.singleton_append] at hreverse
  have hcut := append_cons_inj (fun hin => hx (List.mem_reverse.mp hin))
    (fun hin => hy (List.mem_reverse.mp hin)) hreverse
  exact List.reverse_injective hcut.left

theorem trimScript_infix (text : List Char) : trimScript text <:+: text := by
  unfold trimScript
  have hfront := List.dropWhile_suffix (p := isScriptWhitespace) (l := text)
  have hback := List.dropWhile_suffix (p := isScriptWhitespace)
    (l := (text.dropWhile isScriptWhitespace).reverse)
  have hprefix := List.reverse_prefix.mpr hback
  rw [List.reverse_reverse] at hprefix
  exact hprefix.isInfix.trans hfront.isInfix

/-!
## The first occurrence
-/

theorem indexOf_eq_none (h : ¬ pattern <:+: text) : indexOf pattern text = none := by
  induction text with
  | nil =>
      unfold indexOf
      rw [if_neg (fun hprefix => h hprefix.isInfix)]
  | cons c text ih =>
      have htail : ¬ pattern <:+: text :=
        fun hin => h (hin.trans (List.suffix_cons c text).isInfix)
      unfold indexOf
      rw [if_neg (fun hprefix => h hprefix.isInfix), ih htail]
      rfl

theorem indexOf_append_self (pattern back : List Char) :
    indexOf pattern (pattern ++ back) = some 0 := by
  have hprefix := List.prefix_append pattern back
  cases htext : pattern ++ back with
  | nil =>
      rw [htext] at hprefix
      exact if_pos hprefix
  | cons c text =>
      rw [htext] at hprefix
      exact if_pos hprefix

theorem indexOf_append_cons {front : List Char} (hc : c ∉ pattern)
    (hfront : ¬ pattern <:+: front) (back : List Char) :
    indexOf pattern (front ++ c :: (pattern ++ back)) = some (front.length + 1) := by
  induction front with
  | nil =>
      have hhere : ¬ pattern <+: c :: (pattern ++ back) := by
        intro hprefix
        exact hfront (prefix_of_prefix_append_cons [] hc hprefix).isInfix
      rw [List.nil_append]
      unfold indexOf
      rw [if_neg hhere, indexOf_append_self]
      rfl
  | cons d front ih =>
      have hhere : ¬ pattern <+: d :: (front ++ c :: (pattern ++ back)) := by
        intro hprefix
        exact hfront (prefix_of_prefix_append_cons (d :: front) hc hprefix).isInfix
      have htail : ¬ pattern <:+: front :=
        fun hin => hfront (hin.trans (List.suffix_cons d front).isInfix)
      rw [List.cons_append]
      unfold indexOf
      rw [if_neg hhere, ih htail]
      rfl

/-!
## The last occurrence
-/

theorem lastIndexOf_of_length_lt (h : text.length < pattern.length) :
    lastIndexOf pattern text = none := by
  have hshort : forall t : List Char, t.length < pattern.length -> ¬ pattern <+: t := by
    intro t ht hprefix
    have hle := hprefix.length_le
    omega
  induction text with
  | nil => exact if_neg (hshort [] h)
  | cons c text ih =>
      rw [List.length_cons] at h
      unfold lastIndexOf
      rw [ih (by omega)]
      exact if_neg (hshort (c :: text) h)

theorem lastIndexOf_append_self (hpattern : pattern ≠ []) (front : List Char) :
    lastIndexOf pattern (front ++ pattern) = some front.length := by
  induction front with
  | nil =>
      cases pattern with
      | nil => exact absurd rfl hpattern
      | cons c rest =>
          show (match lastIndexOf (c :: rest) rest with
            | some n => some (n + 1)
            | none => if c :: rest <+: c :: rest then some 0 else none) = _
          rw [lastIndexOf_of_length_lt (by simp)]
          exact if_pos (List.prefix_refl _)
  | cons c front ih =>
      rw [List.cons_append]
      unfold lastIndexOf
      rw [ih]
      rfl

end Text
end Foundation
end Perpetual
