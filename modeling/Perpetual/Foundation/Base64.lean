import Perpetual.Foundation.Base64url
import Perpetual.Foundation.Utf8

/-!
# Strict base64

The decoder of the standard alphabet: groups of four characters, a last group
padded to four, and no bits left over behind the bytes of that group.
-/

namespace Perpetual
namespace Foundation
namespace Base64

open Base64url (octets)

def value? (c : Char) : Option Nat :=
  if 65 ≤ c.toNat ∧ c.toNat ≤ 90 then some (c.toNat - 65)
  else if 97 ≤ c.toNat ∧ c.toNat ≤ 122 then some (c.toNat - 71)
  else if 48 ≤ c.toNat ∧ c.toNat ≤ 57 then some (c.toNat + 4)
  else if c = '+' then some 62
  else if c = '/' then some 63
  else none

/-- The alphabet with the padding character. -/
def isBase64 (c : Char) : Bool :=
  (value? c).isSome || c == '='

def full (a b c d : Char) : Option (List UInt8) :=
  match value? a, value? b, value? c, value? d with
  | some v0, some v1, some v2, some v3 => some (octets [v0, v1, v2, v3])
  | _, _, _, _ => none

/-- A last group that stands for two bytes. -/
def padded (a b c : Char) : Option (List UInt8) :=
  match value? a, value? b, value? c with
  | some v0, some v1, some v2 => if v2 % 4 = 0 then some (octets [v0, v1, v2]) else none
  | _, _, _ => none

/-- A last group that stands for one byte. -/
def paddedTwice (a b : Char) : Option (List UInt8) :=
  match value? a, value? b with
  | some v0, some v1 => if v1 % 16 = 0 then some (octets [v0, v1]) else none
  | _, _ => none

def last (a b c d : Char) : Option (List UInt8) :=
  if d = '=' then if c = '=' then paddedTwice a b else padded a b c
  else full a b c d

def decode : List Char -> Option (List UInt8)
  | [] => some []
  | [a, b, c, d] => last a b c d
  | a :: b :: c :: d :: rest =>
      match full a b c d, decode rest with
      | some group, some bytes => some (group ++ bytes)
      | _, _ => none
  | _ => none

/-!
## What a group is made of
-/

variable {c : Char}

theorem isBase64_of_value? {v : Nat} (h : value? c = some v) : isBase64 c = true := by
  simp [isBase64, h]

variable {a b : Char} {bytes : List UInt8}

theorem full_spec {d : Char} (h : full a b c d = some bytes) :
    bytes.length = 3 ∧ forall x, x ∈ [a, b, c, d] -> isBase64 x = true := by
  unfold full at h
  split at h
  · rename_i h0 h1 h2 h3
    constructor
    · rw [← Option.some.inj h]
      rfl
    · intro x hx
      simp only [List.mem_cons, List.not_mem_nil, or_false] at hx
      rcases hx with rfl | rfl | rfl | rfl
      · exact isBase64_of_value? h0
      · exact isBase64_of_value? h1
      · exact isBase64_of_value? h2
      · exact isBase64_of_value? h3
  · cases h

theorem padded_spec (h : padded a b c = some bytes) :
    bytes.length = 2 ∧ forall x, x ∈ [a, b, c] -> isBase64 x = true := by
  unfold padded at h
  split at h
  · rename_i h0 h1 h2
    split at h
    · constructor
      · rw [← Option.some.inj h]
        rfl
      · intro x hx
        simp only [List.mem_cons, List.not_mem_nil, or_false] at hx
        rcases hx with rfl | rfl | rfl
        · exact isBase64_of_value? h0
        · exact isBase64_of_value? h1
        · exact isBase64_of_value? h2
    · cases h
  · cases h

theorem paddedTwice_spec (h : paddedTwice a b = some bytes) :
    bytes.length = 1 ∧ forall x, x ∈ [a, b] -> isBase64 x = true := by
  unfold paddedTwice at h
  split at h
  · rename_i h0 h1
    split at h
    · constructor
      · rw [← Option.some.inj h]
        rfl
      · intro x hx
        simp only [List.mem_cons, List.not_mem_nil, or_false] at hx
        rcases hx with rfl | rfl
        · exact isBase64_of_value? h0
        · exact isBase64_of_value? h1
    · cases h
  · cases h

theorem last_spec {d : Char} (h : last a b c d = some bytes) :
    (bytes.length + 2) / 3 = 1 ∧ forall x, x ∈ [a, b, c, d] -> isBase64 x = true := by
  have hpad : isBase64 '=' = true := by decide
  unfold last at h
  split at h
  · rename_i hd
    split at h
    · rename_i hc
      rcases paddedTwice_spec h with ⟨hlength, hchars⟩
      constructor
      · omega
      · intro x hx
        simp only [List.mem_cons, List.not_mem_nil, or_false] at hx hchars
        rcases hx with hx | hx | hx | hx
        · exact hchars x (Or.inl hx)
        · exact hchars x (Or.inr hx)
        · rw [hx, hc, hpad]
        · rw [hx, hd, hpad]
    · rcases padded_spec h with ⟨hlength, hchars⟩
      constructor
      · omega
      · intro x hx
        simp only [List.mem_cons, List.not_mem_nil, or_false] at hx hchars
        rcases hx with hx | hx | hx | hx
        · exact hchars x (Or.inl hx)
        · exact hchars x (Or.inr (Or.inl hx))
        · exact hchars x (Or.inr (Or.inr hx))
        · rw [hx, hd, hpad]
  · rcases full_spec h with ⟨hlength, hchars⟩
    exact ⟨by omega, hchars⟩

/-!
## The length and the characters of a valid text
-/

theorem decode_spec {text : List Char} (h : decode text = some bytes) :
    text.length = 4 * ((bytes.length + 2) / 3) ∧
      forall c, c ∈ text -> isBase64 c = true := by
  induction text using decode.induct generalizing bytes with
  | case1 =>
      cases h
      constructor
      · rfl
      · intro c hc
        cases hc
  | case2 a b c d =>
      rcases last_spec h with ⟨hlength, hchars⟩
      constructor
      · rw [hlength]
        rfl
      · exact hchars
  | case3 a b c d rest hne group more hrest hgroup ih =>
      rw [decode.eq_3 a b c d rest hne, hgroup, hrest] at h
      rcases full_spec hgroup with ⟨hlength, hchars⟩
      rcases ih hrest with ⟨hmore, hin⟩
      constructor
      · rw [← Option.some.inj h]
        simp only [List.length_cons, List.length_append]
        omega
      · intro x hx
        have hsplit : x ∈ [a, b, c, d] ++ rest := hx
        rcases List.mem_append.mp hsplit with hx | hx
        · exact hchars x hx
        · exact hin x hx
  | case4 a b c d rest hne hnot ih =>
      rw [decode.eq_3 a b c d rest hne] at h
      split at h
      · rename_i hgroup hrest
        exact (hnot _ _ hgroup hrest).elim
      · cases h
  | case5 text h0 h4 hlong =>
      rw [decode.eq_4 text h0 h4 hlong] at h
      cases h

theorem utf8Size_of_isBase64 (h : isBase64 c = true) : c.utf8Size = 1 := by
  have hsmall : c.toNat < 128 := by
    by_contra hlarge
    have hnot : forall d : Char, d.toNat < 128 -> c ≠ d := by
      intro d hd heq
      rw [heq] at hlarge
      exact hlarge hd
    have hvalue : value? c = none := by
      unfold value?
      rw [if_neg (by omega), if_neg (by omega), if_neg (by omega),
        if_neg (hnot '+' (by decide)), if_neg (hnot '/' (by decide))]
    simp [isBase64, hvalue, hnot '=' (by decide)] at h
  unfold Char.utf8Size
  have hval : c.val.toNat = c.toNat := rfl
  rw [if_pos]
  rw [UInt32.le_iff_toNat_le, hval]
  exact Nat.le_of_lt_succ hsmall

theorem length_encode_of_isBase64 {text : List Char} (h : forall c, c ∈ text -> isBase64 c = true) :
    (Utf8.encode text).length = text.length := by
  induction text with
  | nil => rfl
  | cons c text ih =>
      rw [Utf8.encode_cons, List.length_append, String.length_utf8EncodeChar,
        utf8Size_of_isBase64 (h c (by simp)),
        ih (fun d hd => h d (List.mem_cons_of_mem c hd)), List.length_cons, Nat.add_comm]

end Base64
end Foundation
end Perpetual
