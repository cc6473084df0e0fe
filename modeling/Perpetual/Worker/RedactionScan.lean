import Perpetual.Worker.Redaction

/-!
# How the two patterns scan a text

Neither pattern begins an introduction inside another one or inside a mask, so a text is
scanned piece by piece.
-/

namespace Perpetual
namespace Worker

open Foundation
open Foundation.Text

variable {more rest word text : List Char}

theorem shared_of_append_eq {first second : List Char} (hfirst : first ≠ []) (hsecond : second ≠ [])
    (h : first ++ more = second ++ rest) : exists c, c ∈ first ∧ c ∈ second := by
  cases first with
  | nil => exact absurd rfl hfirst
  | cons c first =>
      cases second with
      | nil => exact absurd rfl hsecond
      | cons d second =>
          injection h with hc _
          exact ⟨c, List.mem_cons_self, by rw [hc]; exact List.mem_cons_self⟩

theorem begins_in_head {back head joint : List Char} (hword : word ≠ [])
    (hjoint : forall c, c ∈ word -> c ∉ joint)
    (h : back ++ (word ++ more) = head ++ (joint ++ rest))
    (hlong : back.length < head.length + joint.length) :
    exists tail, tail ≠ [] ∧ head = back ++ tail ∧ word ++ more = tail ++ (joint ++ rest) := by
  rcases List.append_eq_append_iff.mp h with ⟨tail, hin, hrest⟩ | ⟨tail, hin, hrest⟩
  · by_cases htail : tail = []
    · rw [htail, List.append_nil] at hin
      rw [htail, List.nil_append] at hrest
      have hne : joint ≠ [] := by
        intro hnil
        rw [hin, hnil, List.length_nil] at hlong
        exact absurd hlong (Nat.lt_irrefl _)
      rcases shared_of_append_eq hword hne hrest with ⟨c, hc, hc'⟩
      exact absurd hc' (hjoint c hc)
    · exact ⟨tail, htail, hin, hrest⟩
  · rw [hin, List.length_append] at hlong
    rcases List.append_eq_append_iff.mp hrest with ⟨after, htail, _⟩ | ⟨rest', hjoint', hmeet⟩
    · rw [htail, List.length_append] at hlong
      omega
    · have hne : rest' ≠ [] := by
        intro hnil
        rw [hjoint', hnil, List.append_nil] at hlong
        omega
      rcases shared_of_append_eq hword hne hmeet with ⟨c, hc, hc'⟩
      apply absurd _ (hjoint c hc)
      rw [hjoint']
      exact List.mem_append_right tail hc'

theorem lower_append (front back : List Char) : lower (front ++ back) = lower front ++ lower back :=
  List.map_append

theorem length_lower (text : List Char) : (lower text).length = text.length :=
  List.length_map _

variable {c : Char}

theorem mem_lower (h : c ∈ text) : c.toLower ∈ lower text :=
  List.mem_map_of_mem h

/-!
## Characters of words
-/

def isWordChar (c : Char) : Bool :=
  decide (33 ≤ c.toNat) && decide (c.toNat < 128) && c != '=' && c != ':'

theorem toLower_of_small (h : c.toNat < 65) : c.toLower = c := by
  have hall : forall n, n < 65 -> (Char.ofNat n).toLower = Char.ofNat n := by decide
  have hc := hall c.toNat h
  rw [Char.ofNat_toNat] at hc
  exact hc

theorem isWordChar_of_toLower (h : isWordChar c.toLower = true) : isWordChar c = true := by
  by_cases hsmall : c.toNat < 65
  · rw [toLower_of_small hsmall] at h
    exact h
  · unfold isWordChar at h ⊢
    simp only [Bool.and_eq_true, decide_eq_true_eq, bne_iff_ne, ne_eq] at h ⊢
    have hle := toNat_le_toLower c
    refine ⟨⟨⟨by omega, by omega⟩, ?_⟩, ?_⟩
    · intro hc
      rw [hc] at hsmall
      exact hsmall (by decide)
    · intro hc
      rw [hc] at hsmall
      exact hsmall (by decide)

theorem notSpace_of_isWordChar (h : isWordChar c = true) : isScriptWhitespace c = false := by
  unfold isWordChar at h
  simp only [Bool.and_eq_true, decide_eq_true_eq] at h
  exact notSpace_of_range h.left.left.left h.left.left.right

theorem isWordChar_of_bearer (hword : lower word = bearer) (hc : c ∈ word) :
    isWordChar c = true := by
  have hall : bearer.all isWordChar = true := by decide
  apply isWordChar_of_toLower
  rw [← hword, List.all_eq_true] at hall
  exact hall c.toLower (mem_lower hc)

theorem isWordChar_of_sensitive (hword : lower word ∈ sensitiveWords) (hc : c ∈ word) :
    isWordChar c = true := by
  have hall : sensitiveWords.all (fun w => w.all isWordChar) = true := by decide
  apply isWordChar_of_toLower
  exact List.all_eq_true.mp (List.all_eq_true.mp hall (lower word) hword) c.toLower (mem_lower hc)

theorem not_isWordChar_of_joint {gap gap' : List Char} {sign : Char}
    (hgap : forall c, c ∈ gap -> isScriptWhitespace c = true) (hsign : sign = '=' ∨ sign = ':')
    (hgap' : forall c, c ∈ gap' -> isScriptWhitespace c = true) (hc : c ∈ gap ++ sign :: gap') :
    isWordChar c = false := by
  have hspace : isScriptWhitespace c = true -> isWordChar c = false := by
    intro h
    by_contra hword
    rw [notSpace_of_isWordChar (by simpa using hword)] at h
    cases h
  rcases List.mem_append.mp hc with hc | hc
  · exact hspace (hgap c hc)
  · rcases List.mem_cons.mp hc with hc | hc
    · rw [hc]
      rcases hsign with h | h
      · rw [h]
        decide
      · rw [h]
        decide
    · exact hspace (hgap' c hc)

/-!
## The first pattern
-/

/-- A word that neither goes on like an end of the scheme nor is gone on with by one. -/
def clearOfBearer (word : List Char) : Bool :=
  (List.range 5).all (fun k =>
    !(bearer.drop (k + 1)).isPrefixOf word && !word.isPrefixOf (bearer.drop (k + 1)))

theorem prefix_cases {front first second : List Char} (h : front ++ more = first ++ second) :
    lower front <+: lower first ∨ lower first <+: lower front := by
  have hfront : lower front <+: lower (front ++ more) := by
    rw [lower_append]
    exact List.prefix_append _ _
  have hfirst : lower first <+: lower (front ++ more) := by
    rw [h, lower_append]
    exact List.prefix_append _ _
  exact List.prefix_or_prefix_of_prefix hfront hfirst

theorem not_meets_scheme {tail front : List Char} (hclear : clearOfBearer (lower word) = true)
    (hfront : front ≠ []) (htail : tail ≠ []) (hscheme : lower (front ++ tail) = bearer)
    (h : word ++ more = tail ++ rest) : False := by
  have hlength : front.length + tail.length = 6 := by
    have hsum := congrArg List.length hscheme
    rw [length_lower, List.length_append] at hsum
    exact hsum
  have hpos := List.length_pos_iff.mpr hfront
  have hpos' := List.length_pos_iff.mpr htail
  have hdrop : lower tail = bearer.drop (front.length - 1 + 1) := by
    rw [Nat.sub_add_cancel hpos, ← hscheme, lower_append, ← length_lower front, List.drop_left]
  have hclear' := List.all_eq_true.mp hclear (front.length - 1) (by
    rw [List.mem_range]
    omega)
  rw [← hdrop, Bool.and_eq_true, Bool.not_eq_true', Bool.not_eq_true'] at hclear'
  rcases prefix_cases h with hprefix | hprefix
  · rw [List.isPrefixOf_iff_prefix.mpr hprefix] at hclear'
    cases hclear'.right
  · rw [List.isPrefixOf_iff_prefix.mpr hprefix] at hclear'
    cases hclear'.left

theorem bearer_apart (hne : word ≠ []) (hchars : forall c, c ∈ word -> isWordChar c = true)
    (hclear : clearOfBearer (lower word) = true) (front : List Char) :
    bearerMask.Apart front word where
  lead_ne_nil := hne
  short := by
    rintro back more intro rest _ hback ⟨scheme, gap, hintro, hscheme, _, hspace⟩ htext
    by_contra hlong
    rw [hintro, List.append_assoc] at htext
    rw [hintro, List.length_append] at hlong
    have hgap : forall c, c ∈ word -> c ∉ gap := by
      intro c hc hin
      have hcspace := hspace c hin
      rw [notSpace_of_isWordChar (hchars c hc)] at hcspace
      cases hcspace
    rcases begins_in_head hne hgap htext (Nat.lt_of_not_le hlong) with ⟨tail, htail, hin, hrest⟩
    rw [hin] at hscheme
    exact not_meets_scheme hclear hback htail hscheme hrest

theorem sensitive_ne_nil (h : lower word ∈ sensitiveWords) : word ≠ [] := by
  intro hnil
  rw [hnil] at h
  exact absurd h (by decide)

theorem bearer_apart_scheme (h : lower word = bearer) (front : List Char) :
    bearerMask.Apart front word := by
  apply bearer_apart _ (fun c => isWordChar_of_bearer h)
  · rw [h]
    decide
  · intro hnil
    rw [hnil] at h
    cases h

theorem bearer_apart_sensitive (h : lower word ∈ sensitiveWords) (front : List Char) :
    bearerMask.Apart front word := by
  apply bearer_apart (sensitive_ne_nil h) (fun c => isWordChar_of_sensitive h)
  have hall : sensitiveWords.all clearOfBearer = true := by decide
  exact List.all_eq_true.mp hall (lower word) h

theorem bearer_rule_none (h : c.toLower ≠ 'b') (more : List Char) :
    bearerMask.rule (c :: more) = none := by
  apply Masking.rule_none_of_no_intro
  rintro intro rest htext ⟨scheme, gap, hintro, hscheme, _, _⟩
  cases scheme with
  | nil => cases hscheme
  | cons d scheme =>
      rw [hintro] at htext
      injection htext with hc _
      injection hscheme with hd _
      rw [hc] at h
      exact h hd

/-!
## The second pattern
-/

theorem sensitiveWords_infixFree {other : List Char} (hword : word ∈ sensitiveWords)
    (hother : other ∈ sensitiveWords) (h : word <:+: other) : word = other := by
  have hall : sensitiveWords.all (fun word => sensitiveWords.all (fun other =>
      !decide (word <:+: other) || word == other)) = true := by
    decide
  have hthis := List.all_eq_true.mp (List.all_eq_true.mp hall word hword) other hother
  rw [decide_eq_true h] at hthis
  simpa using hthis

theorem keyed_apart (h : lower word ∈ sensitiveWords) (front : List Char) :
    keyedMask.Apart front word where
  lead_ne_nil := sensitive_ne_nil h
  short := by
    rintro back more intro rest _ hback
      ⟨other, gap, sign, gap', hintro, hother, hgap, hsign, hgap'⟩ htext
    by_contra hlong
    rw [hintro, List.append_assoc] at htext
    rw [hintro, List.length_append] at hlong
    have hjoint : forall c, c ∈ word -> c ∉ gap ++ sign :: gap' := by
      intro c hc hin
      have hchar := isWordChar_of_sensitive h hc
      rw [not_isWordChar_of_joint hgap hsign hgap' hin] at hchar
      cases hchar
    rcases begins_in_head (sensitive_ne_nil h) hjoint htext (Nat.lt_of_not_le hlong) with
      ⟨tail, htail, hin, hrest⟩
    rcases List.append_eq_append_iff.mp hrest with ⟨after, hafter, _⟩ | ⟨after, hafter, hmeet⟩
    · -- the other word would hold this one
      have hinfix : lower word <:+: lower other := by
        rw [hin, hafter, lower_append, lower_append, ← List.append_assoc]
        exact ⟨lower back, lower after, rfl⟩
      have heq := sensitiveWords_infixFree h hother hinfix
      have hlength := congrArg List.length heq
      rw [length_lower, length_lower, hin, hafter, List.length_append, List.length_append]
        at hlength
      exact hback (List.length_eq_zero_iff.mp (by omega))
    · by_cases hnil : after = []
      · rw [hnil, List.append_nil] at hafter
        have hinfix : lower word <:+: lower other := by
          rw [hin, hafter, lower_append]
          exact (List.suffix_append _ _).isInfix
        have hlength := congrArg List.length (sensitiveWords_infixFree h hother hinfix)
        rw [length_lower, length_lower, hin, hafter, List.length_append] at hlength
        exact hback (List.length_eq_zero_iff.mp (by omega))
      · -- the joint would begin in this word
        rcases shared_of_append_eq (by simp) hnil hmeet with ⟨c, hc, hc'⟩
        apply hjoint c ?_ hc
        rw [hafter]
        exact List.mem_append_right tail hc'

/-- No introduction goes over the character and white space behind it. -/
def blocksKeyed (c : Char) : Bool :=
  isWordChar c && sensitiveWords.all (fun word => word.getLast? != some c.toLower)

theorem not_sensitive_of_blocks (h : blocksKeyed c = true) (front : List Char) :
    lower (front ++ [c]) ∉ sensitiveWords := by
  intro hmem
  unfold blocksKeyed at h
  rw [Bool.and_eq_true] at h
  have hlast := List.all_eq_true.mp h.right _ hmem
  rw [lower_append] at hlast
  simp [lower] at hlast

theorem keyed_apart_space {space : Char} (hc : blocksKeyed c = true)
    (hspace : isScriptWhitespace space = true) (front : List Char) :
    keyedMask.Apart (front ++ [c]) [space] where
  lead_ne_nil := List.cons_ne_nil _ _
  short := by
    rintro back more intro rest hsuffix hback
      ⟨word, gap, sign, gap', hintro, hword, hgap, hsign, hgap'⟩ htext
    by_contra hlong
    have hchar : isWordChar c = true := by
      unfold blocksKeyed at hc
      exact (Bool.and_eq_true _ _ ▸ hc).left
    -- the text in front ends in the character
    have hend : exists front', back = front' ++ [c] := by
      rcases List.suffix_concat_iff.mp hsuffix with hnil | ⟨front', hfront', _⟩
      · exact absurd hnil hback
      · exact ⟨front', hfront'⟩
    rcases hend with ⟨front', hend⟩
    rw [hintro, List.append_assoc] at htext
    rw [hintro, List.length_append] at hlong
    have hnotWord : back ≠ word := by
      intro heq
      rw [← heq, hend] at hword
      exact not_sensitive_of_blocks hc front' hword
    rcases List.append_eq_append_iff.mp htext with ⟨tail, hin, hrest⟩ | ⟨tail, hin, hrest⟩
    · cases tail with
      | nil => exact hnotWord (by rw [hin, List.append_nil])
      | cons d tail =>
          injection hrest with hd _
          have hdchar := isWordChar_of_sensitive hword (c := d) (by rw [hin]; simp)
          rw [← hd] at hdchar
          rw [notSpace_of_isWordChar hdchar] at hspace
          cases hspace
    · have hmem : c ∈ gap ++ sign :: gap' := by
        have htail : tail ≠ [] := by
          intro hnil
          rw [hnil, List.append_nil] at hin
          exact hnotWord hin
        have hlast : tail.getLast? = some c := by
          rw [← List.getLast?_append_of_ne_nil word htail, ← hin, hend]
          exact List.getLast?_concat
        rw [hin, List.length_append] at hlong
        rcases List.append_eq_append_iff.mp hrest with ⟨after, hafter, _⟩ | ⟨after, hafter, _⟩
        · rw [hafter] at hlong
          simp only [List.length_append] at hlong
          omega
        · rw [hafter]
          exact List.mem_append_left after (List.mem_of_getLast? hlast)
      rw [not_isWordChar_of_joint hgap hsign hgap' hmem] at hchar
      cases hchar

/-- No sensitive word goes on with what the text begins with. -/
def clearOfWords (text : List Char) : Bool :=
  sensitiveWords.all (fun word => !word.isPrefixOf (lower text) && !(lower text).isPrefixOf word)

theorem keyed_rule_none (h : clearOfWords text = true) (more : List Char) :
    keyedMask.rule (text ++ more) = none := by
  apply Masking.rule_none_of_no_intro
  rintro intro rest htext ⟨word, gap, sign, gap', hintro, hword, _⟩
  rw [hintro, List.append_assoc] at htext
  have hclear := List.all_eq_true.mp h (lower word) hword
  rw [Bool.and_eq_true, Bool.not_eq_true', Bool.not_eq_true'] at hclear
  rcases prefix_cases htext with hprefix | hprefix
  · rw [List.isPrefixOf_iff_prefix.mpr hprefix] at hclear
    cases hclear.right
  · rw [List.isPrefixOf_iff_prefix.mpr hprefix] at hclear
    cases hclear.left

def clearThroughout : List Char -> Bool
  | [] => true
  | c :: text => clearOfWords (c :: text) && clearThroughout text

theorem keyed_deaf (h : clearThroughout text = true) : keyedMask.Deaf text := by
  induction text with
  | nil => exact trivial
  | cons c text ih =>
      rw [clearThroughout, Bool.and_eq_true] at h
      exact ⟨keyed_rule_none h.left, ih h.right⟩

theorem keyed_deaf_redacted : keyedMask.Deaf redacted :=
  keyed_deaf (by decide)

theorem keyed_deaf_of_chars (h : forall c, c ∈ text -> clearOfWords [c] = true) :
    keyedMask.Deaf text := by
  apply Masking.deaf_of_chars
  intro c hc more
  exact keyed_rule_none (h c hc) more

/-!
## Doubled characters
-/

def startsTwice : List Char -> Bool
  | c :: d :: _ => c == d
  | _ => true

theorem not_doubled (h : startsTwice (lower word) = false) : c :: c :: rest ≠ word ++ more := by
  intro heq
  cases word with
  | nil => cases h
  | cons d word =>
      cases word with
      | nil => cases h
      | cons e word =>
          injection heq with hd heq
          injection heq with he _
          rw [← hd, ← he] at h
          simp [lower, startsTwice] at h

theorem bearer_doubled (c : Char) (more : List Char) :
    bearerMask.masked (c :: c :: more) = c :: bearerMask.masked (c :: more) := by
  apply Masking.masked_cons
  apply Masking.rule_none_of_no_intro
  rintro intro rest htext ⟨scheme, gap, hintro, hscheme, _, _⟩
  rw [hintro, List.append_assoc] at htext
  exact not_doubled (by rw [hscheme]; decide) htext

theorem keyed_doubled (c : Char) (more : List Char) :
    keyedMask.masked (c :: c :: more) = c :: keyedMask.masked (c :: more) := by
  apply Masking.masked_cons
  apply Masking.rule_none_of_no_intro
  rintro intro rest htext ⟨word, gap, sign, gap', hintro, hword, _⟩
  rw [hintro, List.append_assoc] at htext
  have hall : sensitiveWords.all (fun word => !startsTwice word) = true := by decide
  have hword' := List.all_eq_true.mp hall (lower word) hword
  rw [Bool.not_eq_true'] at hword'
  exact not_doubled hword' htext

end Worker
end Perpetual
