import Mathlib

/-!
# Texts, bytes and code units

A text is a list of Unicode scalar values.  The module gives its UTF-8 bytes,
the decoder that replaces what is not well formed, and the number of UTF-16 code
units of a text, which is what a script calls its length.
-/

namespace Perpetual
namespace Foundation
namespace Utf8

def encode (text : List Char) : List UInt8 :=
  text.flatMap String.utf8EncodeChar

theorem encode_cons (c : Char) (text : List Char) :
    encode (c :: text) = String.utf8EncodeChar c ++ encode text :=
  List.flatMap_cons

/-- The number of UTF-16 code units. -/
def units : List Char -> Nat
  | [] => 0
  | c :: rest => (if c.toNat < 0x10000 then 1 else 2) + units rest

/-!
## Decoding

The well-formed sequences are those of the table of the Unicode standard: the
second byte of a sequence of three or four is restricted by the first.
-/

def isContinuation (b : UInt8) : Bool :=
  decide (0x80 ≤ b.toNat ∧ b.toNat ≤ 0xBF)

def isSecond (b0 b1 : UInt8) : Bool :=
  if b0.toNat = 0xE0 then decide (0xA0 ≤ b1.toNat ∧ b1.toNat ≤ 0xBF)
  else if b0.toNat = 0xED then decide (0x80 ≤ b1.toNat ∧ b1.toNat ≤ 0x9F)
  else if b0.toNat = 0xF0 then decide (0x90 ≤ b1.toNat ∧ b1.toNat ≤ 0xBF)
  else if b0.toNat = 0xF4 then decide (0x80 ≤ b1.toNat ∧ b1.toNat ≤ 0x8F)
  else isContinuation b1

/-- The code point at the front of the bytes and the number of its bytes. -/
def sequence? : List UInt8 -> Option (Nat × Nat)
  | b0 :: rest =>
      if b0.toNat < 0x80 then some (b0.toNat, 1)
      else if b0.toNat < 0xC2 then none
      else if b0.toNat < 0xE0 then
        match rest with
        | b1 :: _ =>
            if isContinuation b1 then
              some ((b0.toNat - 0xC0) * 64 + (b1.toNat - 0x80), 2)
            else none
        | [] => none
      else if b0.toNat < 0xF0 then
        match rest with
        | b1 :: b2 :: _ =>
            if isSecond b0 b1 && isContinuation b2 then
              some ((b0.toNat - 0xE0) * 4096 + (b1.toNat - 0x80) * 64 +
                (b2.toNat - 0x80), 3)
            else none
        | _ => none
      else if b0.toNat < 0xF5 then
        match rest with
        | b1 :: b2 :: b3 :: _ =>
            if isSecond b0 b1 && isContinuation b2 && isContinuation b3 then
              some ((b0.toNat - 0xF0) * 262144 + (b1.toNat - 0x80) * 4096 +
                (b2.toNat - 0x80) * 64 + (b3.toNat - 0x80), 4)
            else none
        | _ => none
      else none
  | [] => none

/-- The length of the longest front part that begins a well-formed sequence. -/
def subpart : List UInt8 -> Nat
  | b0 :: b1 :: b2 :: _ =>
      if 0xE0 ≤ b0.toNat ∧ b0.toNat < 0xF5 ∧ isSecond b0 b1 = true then
        if 0xF0 ≤ b0.toNat ∧ isContinuation b2 = true then 3 else 2
      else 1
  | [b0, b1] =>
      if 0xE0 ≤ b0.toNat ∧ b0.toNat < 0xF5 ∧ isSecond b0 b1 = true then 2 else 1
  | _ => 1

def decodeFuel : Nat -> List UInt8 -> List Char
  | _, [] => []
  | 0, _ :: _ => []
  | fuel + 1, b :: rest =>
      match sequence? (b :: rest) with
      | some (v, size) => Char.ofNat v :: decodeFuel fuel ((b :: rest).drop size)
      | none =>
          Char.ofNat 0xFFFD :: decodeFuel fuel ((b :: rest).drop (subpart (b :: rest)))

def decode (bytes : List UInt8) : List Char :=
  decodeFuel bytes.length bytes

theorem toNat_cases (c : Char) : c.toNat < 0xD800 ∨ (0xDFFF < c.toNat ∧ c.toNat < 0x110000) :=
  c.valid

theorem sequence?_encodeChar (c : Char) (rest : List UInt8) :
    sequence? (String.utf8EncodeChar c ++ rest) =
      some (c.toNat, (String.utf8EncodeChar c).length) := by
  have hvalid := toNat_cases c
  have hval : c.val.toNat = c.toNat := rfl
  unfold String.utf8EncodeChar
  simp only [hval]
  generalize c.toNat = v at hvalid
  by_cases h1 : v ≤ 0x7f
  · rw [if_pos h1]
    have hb : (UInt8.ofNat v).toNat = v := by simp; omega
    simp only [List.cons_append, List.nil_append, sequence?, hb, List.length_cons, List.length_nil]
    rw [if_pos (by omega)]
  rw [if_neg h1]
  by_cases h2 : v ≤ 0x7ff
  · rw [if_pos h2]
    have hb0 : (UInt8.ofNat (v / 64 % 0x20 + 0xc0)).toNat = v / 64 + 0xc0 := by
      simp; omega
    have hb1 : (UInt8.ofNat (v % 0x40 + 0x80)).toNat = v % 0x40 + 0x80 := by
      simp; omega
    simp only [List.cons_append, List.nil_append, sequence?, isContinuation, hb0, hb1,
      List.length_cons, List.length_nil]
    rw [if_neg (by omega), if_neg (by omega), if_pos (by omega), if_pos (by simp; omega)]
    have harith : (v / 64 + 192 - 192) * 64 + (v % 64 + 128 - 128) = v := by omega
    rw [harith]
  rw [if_neg h2]
  by_cases h3 : v ≤ 0xffff
  · rw [if_pos h3]
    have hb0 : (UInt8.ofNat (v / 4096 % 0x10 + 0xe0)).toNat = v / 4096 + 0xe0 := by
      simp; omega
    have hb1 : (UInt8.ofNat (v / 64 % 0x40 + 0x80)).toNat = v / 64 % 0x40 + 0x80 := by
      simp; omega
    have hb2 : (UInt8.ofNat (v % 0x40 + 0x80)).toNat = v % 0x40 + 0x80 := by
      simp; omega
    simp only [List.cons_append, List.nil_append, sequence?, isSecond, isContinuation,
      hb0, hb1, hb2, List.length_cons, List.length_nil]
    rw [if_neg (by omega), if_neg (by omega), if_neg (by omega), if_pos (by omega)]
    rw [if_pos ?_]
    · have harith : (v / 4096 + 224 - 224) * 4096 + (v / 64 % 64 + 128 - 128) * 64 +
          (v % 64 + 128 - 128) = v := by omega
      rw [harith]
    · rw [Bool.and_eq_true]
      constructor
      · -- the second byte avoids overlong forms and surrogates
        split
        · simp; omega
        split
        · simp; omega
        rw [if_neg (by omega), if_neg (by omega)]
        simp; omega
      · simp; omega
  rw [if_neg h3]
  have hb0 : (UInt8.ofNat (v / 262144 % 0x08 + 0xf0)).toNat = v / 262144 + 0xf0 := by
    simp; omega
  have hb1 : (UInt8.ofNat (v / 4096 % 0x40 + 0x80)).toNat = v / 4096 % 0x40 + 0x80 := by
    simp; omega
  have hb2 : (UInt8.ofNat (v / 64 % 0x40 + 0x80)).toNat = v / 64 % 0x40 + 0x80 := by
    simp; omega
  have hb3 : (UInt8.ofNat (v % 0x40 + 0x80)).toNat = v % 0x40 + 0x80 := by
    simp; omega
  simp only [List.cons_append, List.nil_append, sequence?, isSecond, isContinuation,
    hb0, hb1, hb2, hb3, List.length_cons, List.length_nil]
  rw [if_neg (by omega), if_neg (by omega), if_neg (by omega), if_neg (by omega), if_pos (by omega)]
  rw [if_pos ?_]
  · have harith : (v / 262144 + 240 - 240) * 262144 +
        (v / 4096 % 64 + 128 - 128) * 4096 + (v / 64 % 64 + 128 - 128) * 64 +
          (v % 64 + 128 - 128) = v := by omega
    rw [harith]
  · rw [Bool.and_eq_true, Bool.and_eq_true]
    refine ⟨⟨?_, by simp; omega⟩, by simp; omega⟩
    rw [if_neg (by omega), if_neg (by omega)]
    split
    · simp; omega
    split
    · simp; omega
    simp; omega

theorem decodeFuel_encode (text : List Char) :
    forall fuel, (encode text).length ≤ fuel ->
      decodeFuel fuel (encode text) = text := by
  induction text with
  | nil =>
      intro fuel _
      cases fuel with
      | zero => rfl
      | succ fuel => rfl
  | cons c rest ih =>
      intro fuel hfuel
      rw [encode_cons] at hfuel ⊢
      have hseq := sequence?_encodeChar c (encode rest)
      have hlength : 0 < (String.utf8EncodeChar c).length :=
        List.length_pos_of_ne_nil String.utf8EncodeChar_ne_nil
      rw [List.length_append] at hfuel
      cases fuel with
      | zero => omega
      | succ fuel =>
          cases hbytes : String.utf8EncodeChar c ++ encode rest with
          | nil =>
              have hnil := congrArg List.length hbytes
              rw [List.length_append, List.length_nil] at hnil
              omega
          | cons b tail =>
              rw [hbytes] at hseq
              show (match sequence? (b :: tail) with
                | some (v, size) =>
                    Char.ofNat v :: decodeFuel fuel ((b :: tail).drop size)
                | none =>
                    Char.ofNat 0xFFFD ::
                      decodeFuel fuel ((b :: tail).drop (subpart (b :: tail)))) = _
              rw [hseq]
              show Char.ofNat c.toNat :: decodeFuel fuel
                ((b :: tail).drop (String.utf8EncodeChar c).length) = _
              rw [← hbytes, List.drop_left, Char.ofNat_toNat, ih fuel (by omega)]

@[simp] theorem decode_encode (text : List Char) : decode (encode text) = text :=
  decodeFuel_encode text _ (Nat.le_refl _)

theorem length_encode_le (text : List Char) : (encode text).length ≤ 4 * text.length := by
  induction text with
  | nil => simp [encode]
  | cons c rest ih =>
      have hsize := c.utf8Size_le_four
      rw [encode_cons, List.length_append, String.length_utf8EncodeChar, List.length_cons]
      omega

theorem units_append (a b : List Char) : units (a ++ b) = units a + units b := by
  induction a with
  | nil => simp [units]
  | cons c rest ih =>
      simp only [List.cons_append, units, ih]
      omega

theorem units_le_of_prefix {a b : List Char} (h : a <+: b) : units a ≤ units b := by
  rcases h with ⟨rest, rfl⟩
  rw [units_append]
  omega

theorem units_le_length_encode (text : List Char) : units text ≤ (encode text).length := by
  induction text with
  | nil => simp [units]
  | cons c rest ih =>
      rw [encode_cons, List.length_append, String.length_utf8EncodeChar]
      have hsize := c.utf8Size_pos
      have hval : c.val.toNat = c.toNat := rfl
      simp only [units]
      split
      · omega
      · rename_i hbig
        have hfour : 2 ≤ c.utf8Size := by
          unfold Char.utf8Size
          simp only [UInt32.le_iff_toNat_le, hval]
          split
          · rename_i h
            simp at h
            omega
          split
          · omega
          split
          · omega
          · omega
        omega

theorem units_eq_length {text : List Char} (h : forall c, c ∈ text -> c.toNat < 0x10000) :
    units text = text.length := by
  induction text with
  | nil => rfl
  | cons c rest ih =>
      have hc : c.toNat < 0x10000 := h c (by simp)
      have hrest : units rest = rest.length :=
        ih (fun d hd => h d (List.mem_cons_of_mem c hd))
      simp only [units, List.length_cons]
      rw [if_pos hc, hrest]
      omega

end Utf8
end Foundation
end Perpetual
