import Perpetual.Foundation.Casing
import Perpetual.Foundation.Json
import Perpetual.Foundation.Masking

/-!
# Redaction of relayed approvals

A worker takes credentials out of an approval before it relays it.  Two patterns are applied to
every text in turn: the first masks what follows the bearer scheme, the second what follows a
sensitive word and an equals sign or colon.  Values under sensitive keys are dropped whole.
-/

namespace Perpetual
namespace Worker

open Foundation
open Foundation.Text

/-!
## The two patterns
-/

def bearer : List Char := "bearer".toList

def sensitiveWords : List (List Char) :=
  ["token".toList, "secret".toList, "password".toList, "authorization".toList,
    "api_key".toList, "api-key".toList, "apikey".toList, "credential".toList]

def redacted : List Char := "[redacted]".toList

def lower (text : List Char) : List Char := text.map Char.toLower

/-- The length of the scheme and the white space behind it. -/
def findBearer (text : List Char) : Option Nat :=
  if bearer <+: lower text then
    let gap := (text.drop bearer.length).takeWhile isScriptWhitespace
    if gap.isEmpty then none else some (bearer.length + gap.length)
  else none

def matchWord (text : List Char) : Option Nat :=
  (sensitiveWords.find? (fun word => word.isPrefixOf (lower text))).map List.length

/-- The length of a sensitive word, the sign and the white space around it. -/
def findKeyed (text : List Char) : Option Nat :=
  match matchWord text with
  | none => none
  | some n =>
      let gap := (text.drop n).takeWhile isScriptWhitespace
      match (text.drop n).dropWhile isScriptWhitespace with
      | sign :: rest =>
          if sign = '=' ∨ sign = ':' then
            some (n + gap.length + 1 + (rest.takeWhile isScriptWhitespace).length)
          else none
      | [] => none

/-- The pattern has a range from the slash to the equals sign where the hyphen was meant. -/
def isBearerChar (c : Char) : Bool :=
  c.isAlphanum || c == '.' || c == '_' || c == '~' || c == '+' ||
    (decide ('/' ≤ c) && decide (c ≤ '='))

def isValueChar (c : Char) : Bool :=
  !(isScriptWhitespace c || c == ',' || c == ';')

structure IntroducesBearer (intro : List Char) : Prop where
  split : exists word gap, intro = word ++ gap ∧ lower word = bearer ∧ gap ≠ [] ∧
    forall c, c ∈ gap -> isScriptWhitespace c = true

structure IntroducesKeyed (intro : List Char) : Prop where
  split : exists word gap sign gap', intro = word ++ (gap ++ sign :: gap') ∧
    lower word ∈ sensitiveWords ∧ (forall c, c ∈ gap -> isScriptWhitespace c = true) ∧
    (sign = '=' ∨ sign = ':') ∧ (forall c, c ∈ gap' -> isScriptWhitespace c = true)

variable {c : Char}

theorem notSpace_of_range (h : 33 ≤ c.toNat) (h' : c.toNat < 128) :
    isScriptWhitespace c = false := by
  unfold isScriptWhitespace isWhitespace
  simp only [Bool.or_eq_false_iff, Bool.and_eq_false_iff, beq_eq_false_iff_ne, bne_eq_false_iff_eq,
    decide_eq_false_iff_not]
  omega

theorem toNat_le_toLower (c : Char) : c.toNat ≤ c.toLower.toNat := by
  by_cases h : c.toNat < 128
  · have hall : forall n, n < 128 -> (Char.ofNat n).toNat ≤ (Char.ofNat n).toLower.toNat := by
      decide
    have hc := hall c.toNat h
    rw [Char.ofNat_toNat] at hc
    exact hc
  · rw [Casing.toLower_of_foreign (by omega)]

variable {word : List Char}

theorem split_of_prefix {text : List Char} (h : word <+: lower text) :
    exists front back, text = front ++ back ∧ lower front = word ∧
      front.length = word.length := by
  refine ⟨text.take word.length, text.drop word.length, (List.take_append_drop _ _).symm, ?_, ?_⟩
  · unfold lower at h ⊢
    rw [List.map_take]
    exact (List.prefix_iff_eq_take.mp h).symm
  · have hlength := h.length_le
    unfold lower at hlength
    rw [List.length_map] at hlength
    rw [List.length_take, Nat.min_eq_left hlength]

theorem findBearer_iff (text : List Char) (n : Nat) :
    findBearer text = some n <-> exists intro rest, text = intro ++ rest ∧ intro.length = n ∧
      IntroducesBearer intro ∧ StopsAt isScriptWhitespace rest := by
  unfold findBearer
  constructor
  · intro h
    by_cases hprefix : bearer <+: lower text
    · rw [if_pos hprefix] at h
      rcases split_of_prefix hprefix with ⟨word, back, htext, hword, hlength⟩
      rw [htext, ← hlength, List.drop_left] at h
      by_cases hempty : (back.takeWhile isScriptWhitespace).isEmpty = true
      · simp only [hempty] at h
        cases h
      · dsimp only at h
        rw [if_neg hempty] at h
        injection h with hn
        refine ⟨word ++ back.takeWhile isScriptWhitespace, back.dropWhile isScriptWhitespace,
          ?_, ?_,
          ⟨word, _, rfl, hword, ?_, fun c hc => List.mem_takeWhile_imp hc⟩,
          stopsAt_dropWhile isScriptWhitespace back⟩
        · rw [List.append_assoc, List.takeWhile_append_dropWhile, htext]
        · rw [List.length_append, hn]
        · exact fun hnil => hempty (List.isEmpty_iff.mpr hnil)
    · rw [if_neg hprefix] at h
      cases h
  · rintro ⟨intro, rest, htext, hlength, ⟨word, gap, hintro, hword, hgap, hspace⟩, hstops⟩
    have hwordLength : word.length = bearer.length := by
      rw [← hword]
      exact (List.length_map _).symm
    have hprefix : bearer <+: lower text := by
      rw [htext, hintro, ← hword]
      unfold lower
      rw [List.map_append, List.map_append, List.append_assoc]
      exact List.prefix_append _ _
    rw [if_pos hprefix, htext, hintro, ← hwordLength, List.append_assoc, List.drop_left]
    dsimp only
    rw [takeWhile_append_of_stopsAt hspace hstops, if_neg (fun h => hgap (List.isEmpty_iff.mp h)),
      ← hlength, hintro, List.length_append]

theorem sensitiveWords_prefixFree {other : List Char} (hword : word ∈ sensitiveWords)
    (hother : other ∈ sensitiveWords) (h : word <+: other) : word = other := by
  have hall : sensitiveWords.all (fun word => sensitiveWords.all (fun other =>
      !word.isPrefixOf other || word == other)) = true := by
    decide
  rw [List.all_eq_true] at hall
  have hthis := List.all_eq_true.mp (hall word hword) other hother
  rw [List.isPrefixOf_iff_prefix.mpr h] at hthis
  simpa using hthis

theorem matchWord_of_split {back : List Char} (hword : lower word ∈ sensitiveWords) :
    matchWord (word ++ back) = some word.length := by
  unfold matchWord
  have hprefix : lower word <+: lower (word ++ back) := by
    unfold lower
    rw [List.map_append]
    exact List.prefix_append _ _
  have hlength : (lower word).length = word.length := List.length_map _
  cases hfound : sensitiveWords.find? (fun w => w.isPrefixOf (lower (word ++ back))) with
  | none =>
      have hnot := List.find?_eq_none.mp hfound (lower word) hword
      rw [List.isPrefixOf_iff_prefix] at hnot
      exact absurd hprefix hnot
  | some other =>
      have hother := List.mem_of_find?_eq_some hfound
      have hother' : other <+: lower (word ++ back) := by
        have hfront := List.find?_some hfound
        rwa [List.isPrefixOf_iff_prefix] at hfront
      have heq : lower word = other := by
        rcases List.prefix_or_prefix_of_prefix hprefix hother' with h | h
        · exact sensitiveWords_prefixFree hword hother h
        · exact (sensitiveWords_prefixFree hother hword h).symm
      rw [Option.map_some, ← heq, hlength]

theorem split_of_matchWord {text : List Char} {n : Nat} (h : matchWord text = some n) :
    exists word back, text = word ++ back ∧ lower word ∈ sensitiveWords ∧ word.length = n := by
  unfold matchWord at h
  rcases Option.map_eq_some_iff.mp h with ⟨word, hfound, hn⟩
  have hprefix : word <+: lower text := by
    have hfront := List.find?_some hfound
    rwa [List.isPrefixOf_iff_prefix] at hfront
  rcases split_of_prefix hprefix with ⟨front, back, htext, hfront, hlength⟩
  refine ⟨front, back, htext, ?_, hlength.trans hn⟩
  rw [hfront]
  exact List.mem_of_find?_eq_some hfound

theorem notSpace_sign {sign : Char} (h : sign = '=' ∨ sign = ':') :
    isScriptWhitespace sign = false := by
  rcases h with h | h
  · rw [h]
    decide
  · rw [h]
    decide

theorem findKeyed_iff (text : List Char) (n : Nat) :
    findKeyed text = some n <-> exists intro rest, text = intro ++ rest ∧ intro.length = n ∧
      IntroducesKeyed intro ∧ StopsAt isScriptWhitespace rest := by
  unfold findKeyed
  constructor
  · intro h
    cases hword : matchWord text with
    | none =>
        rw [hword] at h
        cases h
    | some k =>
        rcases split_of_matchWord hword with ⟨word, back, htext, hmem, hlength⟩
        rw [hword, htext, ← hlength] at h
        simp only [List.drop_left] at h
        cases hback : back.dropWhile isScriptWhitespace with
        | nil =>
            rw [hback] at h
            cases h
        | cons sign rest =>
            rw [hback] at h
            dsimp only at h
            by_cases hsign : sign = '=' ∨ sign = ':'
            · rw [if_pos hsign] at h
              injection h with hn
              refine ⟨word ++ (back.takeWhile isScriptWhitespace ++
                sign :: rest.takeWhile isScriptWhitespace), rest.dropWhile isScriptWhitespace,
                ?_, ?_,
                ⟨word, _, sign, _, rfl, hmem, fun c hc => List.mem_takeWhile_imp hc, hsign,
                  fun c hc => List.mem_takeWhile_imp hc⟩, stopsAt_dropWhile isScriptWhitespace rest⟩
              · rw [List.append_assoc, List.append_assoc, List.cons_append,
                  List.takeWhile_append_dropWhile, ← hback, List.takeWhile_append_dropWhile, htext]
              · rw [← hn]
                simp only [List.length_append, List.length_cons]
                omega
            · rw [if_neg hsign] at h
              cases h
  · rintro ⟨intro, rest, htext, hlength, ⟨word, gap, sign, gap', hintro, hmem, hgap, hsign, hgap'⟩,
      hstops⟩
    have hsplit : text = word ++ (gap ++ sign :: (gap' ++ rest)) := by
      rw [htext, hintro]
      simp
    have hstops' : StopsAt isScriptWhitespace (sign :: (gap' ++ rest)) :=
      stopsAt_cons.mpr (notSpace_sign hsign)
    rw [hsplit, matchWord_of_split hmem]
    simp only [List.drop_left]
    rw [takeWhile_append_of_stopsAt hgap hstops', dropWhile_append_of_stopsAt hgap hstops']
    dsimp only
    rw [if_pos hsign, takeWhile_append_of_stopsAt hgap' hstops, ← hlength, hintro]
    simp only [List.length_append, List.length_cons]
    congr 1
    omega

theorem range_of_isBearerChar (h : isBearerChar c = true) : 33 ≤ c.toNat ∧ c.toNat < 128 := by
  unfold isBearerChar at h
  simp only [Char.isAlphanum, Char.isAlpha, Char.isUpper, Char.isLower, Char.isDigit,
    Bool.or_eq_true, Bool.and_eq_true, decide_eq_true_eq, beq_iff_eq, Char.le_def,
    UInt32.le_iff_toNat_le] at h
  have hval : c.val.toNat = c.toNat := rfl
  rcases h with (((((((h | h) | h) | h) | h) | h) | h) | h)
  all_goals first
    | exact ⟨le_trans (by decide) h.left, lt_of_le_of_lt h.right (by decide)⟩
    | rw [h]; decide

theorem notSpace_of_isValueChar (h : isValueChar c = true) : isScriptWhitespace c = false := by
  unfold isValueChar at h
  simp only [Bool.not_eq_true', Bool.or_eq_false_iff] at h
  exact h.left.left

def bearerMask : Masking where
  find := findBearer
  Introduces := IntroducesBearer
  gap := isScriptWhitespace
  covers := isBearerChar
  mask := redacted
  find_iff := findBearer_iff
  introduces_ne_nil := by
    rintro intro ⟨word, gap, hintro, _, hgap, _⟩ hnil
    rw [hintro, List.append_eq_nil_iff] at hnil
    exact hgap hnil.right
  gap_of_covers := by
    intro c h
    exact notSpace_of_range (range_of_isBearerChar h).left (range_of_isBearerChar h).right

def keyedMask : Masking where
  find := findKeyed
  Introduces := IntroducesKeyed
  gap := isScriptWhitespace
  covers := isValueChar
  mask := redacted
  find_iff := findKeyed_iff
  introduces_ne_nil := by
    rintro intro ⟨word, gap, sign, gap', hintro, _⟩ hnil
    rw [hintro] at hnil
    simp at hnil
  gap_of_covers := by
    intro c h
    exact notSpace_of_isValueChar h

def redactSensitiveText (text : List Char) : List Char :=
  keyedMask.masked (bearerMask.masked text)

/-!
## The walk through an approval
-/

def isSensitiveKey (key : List Char) : Bool :=
  key.tails.any (fun text => (matchWord text).isSome)

/-- The walk counts down the levels that are left of seven. -/
def redactSensitiveValue : Nat -> Json -> Json
  | 0, _ => Json.string "[truncated]".toList
  | levels + 1, value =>
      match value with
      | Json.string text => Json.string (redactSensitiveText text)
      | Json.array items => Json.array ((items.take 200).map (redactSensitiveValue levels))
      | Json.object members =>
          Json.object ((members.take 200).map (fun m =>
            (m.1, if isSensitiveKey m.1 then Json.string redacted
              else redactSensitiveValue levels m.2)))
      | other => other

/-- What the redaction reads and writes of an approval; the other fields are copied. -/
structure ApprovalRequest where
  command : Option (List (List Char))
  input : Json
  reason : Option (List Char)

def sanitizeApprovalForCoordinator (approval : ApprovalRequest) : ApprovalRequest where
  command := approval.command.map (List.map redactSensitiveText)
  input := redactSensitiveValue 7 approval.input
  reason := match approval.reason with
    | some reason => if reason.isEmpty then none else some (redactSensitiveText reason)
    | none => none

example : redactSensitiveText "Authorization=Bearer abc.def".toList =
    "Authorization=[redacted] [redacted]".toList := by decide +kernel

end Worker
end Perpetual
