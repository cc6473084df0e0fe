import Mathlib

/-!
# Substrings of formatted texts

A text built by formatting numbers into a template alternates literal segments
and runs of digits.  A pattern without digits that occurs in such a text occurs
in one of its literal segments.

The white space trimmed from a text is the Unicode property of that name.
-/

namespace Perpetual
namespace Foundation
namespace Text

def contains (text pattern : String) : Bool :=
  decide (pattern.toList <:+: text.toList)

def isWhitespace (c : Char) : Bool :=
  (9 ≤ c.toNat && c.toNat ≤ 13) || c.toNat == 0x20 || c.toNat == 0x85 ||
    c.toNat == 0xA0 || c.toNat == 0x1680 ||
    (0x2000 ≤ c.toNat && c.toNat ≤ 0x200A) || c.toNat == 0x2028 ||
    c.toNat == 0x2029 || c.toNat == 0x202F || c.toNat == 0x205F ||
    c.toNat == 0x3000

def trim (text : String) : String :=
  String.ofList
    ((text.toList.dropWhile isWhitespace).reverse.dropWhile isWhitespace).reverse

/-- The white space of a script: without the next-line character, with the byte
order mark. -/
def isScriptWhitespace (c : Char) : Bool :=
  (isWhitespace c && c.toNat != 0x85) || c.toNat == 0xFEFF

def trimScript (text : List Char) : List Char :=
  ((text.dropWhile isScriptWhitespace).reverse.dropWhile isScriptWhitespace).reverse

theorem trimScript_eq_self {first last : Char} {middle : List Char}
    (hfirst : isScriptWhitespace first = false) (hlast : isScriptWhitespace last = false) :
    trimScript (first :: (middle ++ [last])) = first :: (middle ++ [last]) := by
  unfold trimScript
  rw [List.dropWhile_cons, hfirst]
  show ((first :: (middle ++ [last])).reverse.dropWhile isScriptWhitespace).reverse = _
  rw [← List.cons_append, List.reverse_append, List.reverse_singleton,
    List.singleton_append, List.dropWhile_cons, hlast]
  simp

def DigitFree (pattern : List Char) : Prop :=
  forall c, c ∈ pattern -> c.isDigit = false

/-!
## Splitting an occurrence at a foreign character
-/

variable {pattern back : List Char}

theorem infix_of_infix_append_cons {front : List Char} {c : Char} (hc : c ∉ pattern)
    (h : pattern <:+: front ++ c :: back) :
    pattern <:+: front ∨ pattern <:+: back := by
  rcases h with ⟨pre, post, heq⟩
  rw [List.append_assoc] at heq
  rcases List.append_eq_append_iff.mp heq with ⟨mid, hfront, hrest⟩ | hcase
  · -- the occurrence starts inside the front part
    rcases List.append_eq_append_iff.mp hrest with ⟨tail, hmid, _hpost⟩ | hcut
    · apply Or.inl
      exact ⟨pre, tail, by rw [hfront, hmid, List.append_assoc]⟩
    · rcases hcut with ⟨tail, hpattern, htail⟩
      cases tail with
      | nil =>
          apply Or.inl
          have hmid : pattern = mid := by simpa using hpattern
          exact ⟨pre, [], by rw [hfront, hmid, List.append_nil]⟩
      | cons d tail =>
          have hd : c = d := by
            injection htail
          have hmem : c ∈ pattern := by
            rw [hpattern, hd]
            simp
          exact absurd hmem hc
  · rcases hcase with ⟨mid, hpre, hrest⟩
    cases mid with
    | nil =>
        -- the occurrence starts at the foreign character
        cases pattern with
        | nil =>
            exact Or.inl (List.nil_infix)
        | cons d tail =>
            have hd : c = d := by
              injection hrest
            have hmem : c ∈ d :: tail := by
              rw [hd]
              simp
            exact absurd hmem hc
    | cons d mid =>
        apply Or.inr
        injection hrest with _hd hback
        exact ⟨mid, post, by rw [List.append_assoc]; exact hback.symm⟩

theorem infix_of_infix_foreign_append {run : List Char} (hrun : forall c, c ∈ run -> c ∉ pattern)
    (h : pattern <:+: run ++ back) : pattern <:+: back := by
  induction run with
  | nil => simpa using h
  | cons c run ih =>
      have hsplit : pattern <:+: [] ∨ pattern <:+: run ++ back :=
        infix_of_infix_append_cons (hrun c (by simp)) (by simpa using h)
      cases hsplit with
      | inl hnil =>
          rw [List.infix_nil.mp hnil]
          exact List.nil_infix
      | inr hrest => exact ih (fun d hd => hrun d (List.mem_cons_of_mem c hd)) hrest

theorem not_mem_of_isDigit (hfree : DigitFree pattern) {c : Char}
    (hc : c.isDigit = true) : c ∉ pattern := by
  intro hmem
  rw [hfree c hmem] at hc
  cases hc

theorem infix_of_infix_append_number {front : List Char} (hfree : DigitFree pattern) (n : Nat)
    (h : pattern <:+: front ++ ((toString n).toList ++ back)) :
    pattern <:+: front ∨ pattern <:+: back := by
  have hlist : (toString n).toList = Nat.toDigits 10 n := by simp
  have hdigits : forall c, c ∈ Nat.toDigits 10 n -> c.isDigit = true := by
    intro c hc
    exact Nat.isDigit_of_mem_toDigits (by decide) (by decide) hc
  rw [hlist] at h
  cases hn : Nat.toDigits 10 n with
  | nil =>
      have hpos := Nat.length_toDigits_pos (b := 10) (n := n)
      rw [hn] at hpos
      cases hpos
  | cons d rest =>
      rw [hn] at h hdigits
      have hforeign : forall c, c ∈ d :: rest -> c ∉ pattern :=
        fun c hc => not_mem_of_isDigit hfree (hdigits c hc)
      rcases infix_of_infix_append_cons (hforeign d (by simp)) h with hfront | hrest
      · exact Or.inl hfront
      · exact Or.inr (infix_of_infix_foreign_append
          (fun c hc => hforeign c (List.mem_cons_of_mem d hc)) hrest)

/-!
## Templates
-/

/-- A format template: literal segments each followed by a number, then the
closing segment. -/
def fill : List (String × Nat) -> String -> String
  | [], last => last
  | (segment, n) :: rest, last => segment ++ (toString n ++ fill rest last)

theorem contains_fill {pattern : String} (hfree : DigitFree pattern.toList)
    {parts : List (String × Nat)} {last : String} (h : contains (fill parts last) pattern = true) :
    exists segment, segment ∈ parts.map Prod.fst ++ [last] ∧
      contains segment pattern = true := by
  induction parts with
  | nil =>
      exact ⟨last, by simp, h⟩
  | cons part rest ih =>
      rcases part with ⟨segment, n⟩
      have hinfix := of_decide_eq_true h
      simp only [fill, String.toList_append] at hinfix
      rcases infix_of_infix_append_number hfree n hinfix with hhere | hlater
      · exact ⟨segment, by simp, decide_eq_true hhere⟩
      · rcases ih (decide_eq_true hlater) with ⟨found, hmem, hin⟩
        exact ⟨found, by simp only [List.map_cons, List.cons_append,
          List.mem_cons, hmem, or_true], hin⟩

theorem not_contains_fill {pattern : String}
    (hfree : DigitFree pattern.toList)
    {parts : List (String × Nat)} {last : String}
    (habsent : (parts.map Prod.fst ++ [last]).all
      (fun segment => !contains segment pattern) = true) :
    contains (fill parts last) pattern = false := by
  cases hc : contains (fill parts last) pattern with
  | false => rfl
  | true =>
      rcases contains_fill hfree hc with ⟨segment, hmem, hin⟩
      have hout := List.all_eq_true.mp habsent segment hmem
      rw [hin] at hout
      cases hout

end Text
end Foundation
end Perpetual
