import Perpetual.Foundation.StringDecoder

/-!
# Texts of a script

A script's text is a list of UTF-16 code units, in which a surrogate may stand alone.  What
reads such a text as scalar values puts the replacement character for each lone one.
-/

namespace Perpetual
namespace Foundation
namespace Utf16

open StringDecoder (replacement)

def isHigh (u : UInt16) : Bool :=
  decide (0xD800 ≤ u.toNat ∧ u.toNat < 0xDC00)

def isLow (u : UInt16) : Bool :=
  decide (0xDC00 ≤ u.toNat ∧ u.toNat < 0xE000)

def isSurrogate (u : UInt16) : Bool :=
  isHigh u || isLow u

def encodeChar (c : Char) : List UInt16 :=
  if c.toNat < 0x10000 then [UInt16.ofNat c.toNat]
  else
    [UInt16.ofNat (0xD800 + (c.toNat - 0x10000) / 0x400),
      UInt16.ofNat (0xDC00 + (c.toNat - 0x10000) % 0x400)]

def encode (text : List Char) : List UInt16 :=
  text.flatMap encodeChar

/-- A unit that is no part of a pair. -/
def single (u : UInt16) : Char :=
  if isSurrogate u then replacement else Char.ofNat u.toNat

def pair (high low : UInt16) : Char :=
  Char.ofNat (0x10000 + (high.toNat - 0xD800) * 0x400 + (low.toNat - 0xDC00))

def scalars : List UInt16 -> List Char
  | [] => []
  | [u] => [single u]
  | u :: v :: rest =>
      if isHigh u && isLow v then pair u v :: scalars rest
      else single u :: scalars (v :: rest)

theorem encode_append (a b : List Char) : encode (a ++ b) = encode a ++ encode b :=
  List.flatMap_append

theorem encode_cons (c : Char) (text : List Char) :
    encode (c :: text) = encodeChar c ++ encode text :=
  List.flatMap_cons

variable {u : UInt16}

theorem isHigh_iff : isHigh u = true <-> 0xD800 ≤ u.toNat ∧ u.toNat < 0xDC00 :=
  decide_eq_true_iff

theorem isLow_iff : isLow u = true <-> 0xDC00 ≤ u.toNat ∧ u.toNat < 0xE000 :=
  decide_eq_true_iff

theorem isSurrogate_iff : isSurrogate u = true <-> 0xD800 ≤ u.toNat ∧ u.toNat < 0xE000 := by
  unfold isSurrogate
  rw [Bool.or_eq_true, isHigh_iff, isLow_iff]
  omega

theorem scalars_cons {rest : List UInt16} (h : (isHigh u && rest.head?.any isLow) = false) :
    scalars (u :: rest) = single u :: scalars rest := by
  cases rest with
  | nil => rfl
  | cons v rest =>
      have hpair : ¬ (isHigh u && isLow v) = true := by
        rw [Bool.not_eq_true]
        exact h
      rw [scalars, if_neg hpair]

theorem scalars_cons_of_not_surrogate (h : isSurrogate u = false)
    (rest : List UInt16) : scalars (u :: rest) = Char.ofNat u.toNat :: scalars rest := by
  have hhigh : isHigh u = false := (Bool.or_eq_false_iff.mp h).left
  rw [scalars_cons (by rw [hhigh, Bool.false_and])]
  unfold single
  rw [h, if_neg Bool.false_ne_true]

/-- In front of a unit that ends no pair the texts may be read apart. -/
theorem scalars_append (front : List UInt16) {back : List UInt16}
    (h : back.head?.any isLow = false) :
    scalars (front ++ back) = scalars front ++ scalars back := by
  induction front using scalars.induct with
  | case1 => rfl
  | case2 u =>
      rw [List.singleton_append, scalars_cons (by rw [h, Bool.and_false])]
      rfl
  | case3 u v rest hpair ih =>
      rw [List.cons_append, List.cons_append, scalars, if_pos hpair, ih, scalars, if_pos hpair,
        List.cons_append]
  | case4 u v rest hpair ih =>
      rw [List.cons_append] at ih
      rw [List.cons_append, List.cons_append, scalars, if_neg hpair, ih, scalars, if_neg hpair,
        List.cons_append]

theorem scalars_append_cons (front : List UInt16) (h : isSurrogate u = false) (back : List UInt16) :
    scalars (front ++ u :: back) = scalars front ++ Char.ofNat u.toNat :: scalars back := by
  have hlow : (u :: back).head?.any isLow = false := (Bool.or_eq_false_iff.mp h).right
  rw [scalars_append front hlow, scalars_cons_of_not_surrogate h]

/-!
## The units of a character
-/

theorem char_toNat_ofNat {n : Nat} (h : n < 0xD800 ∨ (0xDFFF < n ∧ n < 0x110000)) :
    (Char.ofNat n).toNat = n := by
  unfold Char.ofNat
  rw [dif_pos (show n.isValidChar from h)]
  rfl

theorem scalars_encodeChar (c : Char) (rest : List UInt16) :
    scalars (encodeChar c ++ rest) = c :: scalars rest := by
  have hvalid := Utf8.toNat_cases c
  unfold encodeChar
  by_cases hbmp : c.toNat < 0x10000
  · have hunit : (UInt16.ofNat c.toNat).toNat = c.toNat :=
      UInt16.toNat_ofNat_of_lt' hbmp
    have hplain : isSurrogate (UInt16.ofNat c.toNat) = false := by
      rw [Bool.eq_false_iff, Ne, isSurrogate_iff, hunit]
      omega
    rw [if_pos hbmp, List.singleton_append, scalars_cons_of_not_surrogate hplain, hunit,
      Char.ofNat_toNat]
  · have hhigh : (UInt16.ofNat (0xD800 + (c.toNat - 0x10000) / 0x400)).toNat =
        0xD800 + (c.toNat - 0x10000) / 0x400 :=
      UInt16.toNat_ofNat_of_lt' (show _ < 0x10000 by omega)
    have hlow : (UInt16.ofNat (0xDC00 + (c.toNat - 0x10000) % 0x400)).toNat =
        0xDC00 + (c.toNat - 0x10000) % 0x400 :=
      UInt16.toNat_ofNat_of_lt' (show _ < 0x10000 by omega)
    have hpair : (isHigh (UInt16.ofNat (0xD800 + (c.toNat - 0x10000) / 0x400)) &&
        isLow (UInt16.ofNat (0xDC00 + (c.toNat - 0x10000) % 0x400))) = true := by
      rw [Bool.and_eq_true, isHigh_iff, isLow_iff, hhigh, hlow]
      omega
    have hvalue : 0x10000 + (0xD800 + (c.toNat - 0x10000) / 0x400 - 0xD800) * 0x400 +
        (0xDC00 + (c.toNat - 0x10000) % 0x400 - 0xDC00) = c.toNat := by
      omega
    rw [if_neg hbmp, List.cons_append, List.singleton_append, scalars, if_pos hpair]
    unfold pair
    rw [hhigh, hlow, hvalue, Char.ofNat_toNat]

theorem scalars_encode_append (text : List Char) (rest : List UInt16) :
    scalars (encode text ++ rest) = text ++ scalars rest := by
  induction text with
  | nil => rfl
  | cons c text ih => rw [encode_cons, List.append_assoc, scalars_encodeChar, ih, List.cons_append]

@[simp] theorem scalars_encode (text : List Char) : scalars (encode text) = text := by
  have hread := scalars_encode_append text []
  rw [List.append_nil] at hread
  rw [hread]
  exact List.append_nil text

theorem encodeChar_single (h : isSurrogate u = false) : encodeChar (single u) = [u] := by
  have hlt := u.toNat_lt
  have hrange : ¬ (0xD800 ≤ u.toNat ∧ u.toNat < 0xE000) := by
    rw [← isSurrogate_iff, h]
    exact Bool.false_ne_true
  have hchar := char_toNat_ofNat (n := u.toNat) (by omega)
  unfold single encodeChar
  rw [h, if_neg Bool.false_ne_true, hchar, if_pos (by omega), UInt16.ofNat_toNat]

theorem encodeChar_pair {high low : UInt16} (hhigh : isHigh high = true)
    (hlow : isLow low = true) : encodeChar (pair high low) = [high, low] := by
  rw [isHigh_iff] at hhigh
  rw [isLow_iff] at hlow
  have hchar := char_toNat_ofNat
    (n := 0x10000 + (high.toNat - 0xD800) * 0x400 + (low.toNat - 0xDC00)) (by omega)
  have hfirst : 0xD800 + (0x10000 + (high.toNat - 0xD800) * 0x400 + (low.toNat - 0xDC00) -
      0x10000) / 0x400 = high.toNat := by omega
  have hsecond : 0xDC00 + (0x10000 + (high.toNat - 0xD800) * 0x400 + (low.toNat - 0xDC00) -
      0x10000) % 0x400 = low.toNat := by omega
  unfold pair encodeChar
  rw [hchar, if_neg (by omega), hfirst, hsecond, UInt16.ofNat_toNat, UInt16.ofNat_toNat]

/-!
## Texts that are read as they are
-/

/-- The text holds no lone surrogate, and no replacement character either. -/
def Legible (units : List UInt16) : Prop :=
  replacement ∉ scalars units

variable {units : List UInt16}

theorem encode_scalars (h : Legible units) : encode (scalars units) = units := by
  unfold Legible at h
  induction units using scalars.induct with
  | case1 => rfl
  | case2 u =>
      have hplain : isSurrogate u = false := by
        rw [Bool.eq_false_iff]
        intro hsurrogate
        apply h
        rw [scalars, single, if_pos hsurrogate]
        exact List.mem_singleton_self _
      rw [scalars, encode_cons, encodeChar_single hplain]
      rfl
  | case3 u v rest hpair ih =>
      rw [scalars, if_pos hpair, List.mem_cons, not_or] at h
      rw [Bool.and_eq_true] at hpair
      rw [scalars, if_pos (by rw [hpair.left, hpair.right]; rfl), encode_cons,
        encodeChar_pair hpair.left hpair.right, ih h.right]
      rfl
  | case4 u v rest hpair ih =>
      rw [scalars, if_neg hpair, List.mem_cons, not_or] at h
      have hplain : isSurrogate u = false := by
        rw [Bool.eq_false_iff]
        intro hsurrogate
        apply h.left
        rw [single, if_pos hsurrogate]
      rw [scalars, if_neg hpair, encode_cons, encodeChar_single hplain, ih h.right]
      rfl

/-- A legible text is read like no other. -/
theorem eq_of_scalars_eq {units' : List UInt16} (h : Legible units)
    (heq : scalars units' = scalars units) : units' = units := by
  have h' : Legible units' := by
    unfold Legible
    rw [heq]
    exact h
  rw [← encode_scalars h', ← encode_scalars h, heq]

theorem legible_encode_append {text : List Char} {rest : List UInt16} :
    Legible (encode text ++ rest) <-> replacement ∉ text ∧ Legible rest := by
  unfold Legible
  rw [scalars_encode_append, List.mem_append, not_or]

/-- Another surrogate of the same half, with the same low byte. -/
theorem exists_twin (h : isSurrogate u = true) :
    exists u', u' ≠ u ∧ isSurrogate u' = true ∧ isLow u' = isLow u ∧
      u'.toUInt8 = u.toUInt8 := by
  rw [isSurrogate_iff] at h
  have hodd : exists n, n ≠ u.toNat ∧ n / 512 = u.toNat / 512 ∧ n % 256 = u.toNat % 256 ∧
      n < 0x10000 := by
    by_cases heven : u.toNat / 256 % 2 = 0
    · exact ⟨u.toNat + 256, by omega⟩
    · exact ⟨u.toNat - 256, by omega⟩
  rcases hodd with ⟨n, hne, hhalf, hbyte, hn⟩
  have hnat : (UInt16.ofNat n).toNat = n := UInt16.toNat_ofNat_of_lt' hn
  refine ⟨UInt16.ofNat n, ?_, ?_, ?_, ?_⟩
  · intro heq
    rw [heq] at hnat
    exact hne hnat.symm
  · rw [isSurrogate_iff, hnat]
    omega
  · rw [Bool.eq_iff_iff, isLow_iff, isLow_iff, hnat]
    omega
  · apply UInt8.toNat_inj.mp
    rw [UInt16.toNat_toUInt8, UInt16.toNat_toUInt8, hnat]
    exact hbyte

theorem pair_ne_replacement {high low : UInt16} (hhigh : isHigh high = true)
    (hlow : isLow low = true) : pair high low ≠ replacement := by
  intro heq
  have hunits := encodeChar_pair hhigh hlow
  rw [heq] at hunits
  cases hunits

/-- A lone surrogate, in place of a unit that is read as the replacement character: the
units around it are read as before. -/
theorem exists_same_unit (h : single u = replacement) :
    exists u', u' ≠ u ∧ single u' = replacement ∧ isLow u' = isLow u ∧
      u'.toUInt8 = u.toUInt8 := by
  cases hsurrogate : isSurrogate u with
  | true =>
      rcases exists_twin hsurrogate with ⟨u', hne, htwin, hlow, hbyte⟩
      exact ⟨u', hne, if_pos htwin, hlow, hbyte⟩
  | false =>
      have hu : [u] = [0xFFFD] := by
        rw [← encodeChar_single hsurrogate, h]
        rfl
      injection hu with hu
      rw [hu]
      exact ⟨0xD8FD, by decide, by decide, by decide, by decide⟩

/-- An illegible text is read like another one, even byte by byte. -/
theorem exists_same_reading (h : ¬ Legible units) :
    exists units', units' ≠ units ∧ scalars units' = scalars units ∧
      units'.map UInt16.toUInt8 = units.map UInt16.toUInt8 ∧
      units'.head?.any isLow = units.head?.any isLow := by
  unfold Legible at h
  rw [not_not] at h
  induction units using scalars.induct with
  | case1 => exact absurd h List.not_mem_nil
  | case2 u =>
      rcases exists_same_unit (List.mem_singleton.mp h).symm with
        ⟨u', hne, hsingle, hlow, hbyte⟩
      refine ⟨[u'], ?_, ?_, ?_, hlow⟩
      · intro heq
        exact hne (List.head_eq_of_cons_eq heq)
      · rw [scalars, scalars, hsingle, (List.mem_singleton.mp h).symm]
      · rw [List.map_singleton, List.map_singleton, hbyte]
  | case3 u v rest hpair ih =>
      rw [scalars, if_pos hpair, List.mem_cons] at h
      have hparts := Bool.and_eq_true_iff.mp hpair
      rcases h with h | h
      · exact absurd h.symm (pair_ne_replacement hparts.left hparts.right)
      · rcases ih h with ⟨rest', hne, hscalars, hbytes, _⟩
        refine ⟨u :: v :: rest', ?_, ?_, ?_, rfl⟩
        · intro heq
          exact hne (List.tail_eq_of_cons_eq (List.tail_eq_of_cons_eq heq))
        · rw [scalars, if_pos hpair, scalars, if_pos hpair, hscalars]
        · rw [List.map_cons, List.map_cons, hbytes]
          rfl
  | case4 u v rest hnot ih =>
      have hpair : (isHigh u && (v :: rest).head?.any isLow) = false :=
        Bool.eq_false_iff.mpr hnot
      rw [scalars_cons hpair, List.mem_cons] at h
      by_cases hrest : replacement ∈ scalars (v :: rest)
      · rcases ih hrest with ⟨rest', hne, hscalars, hbytes, hlow⟩
        refine ⟨u :: rest', ?_, ?_, ?_, rfl⟩
        · intro heq
          exact hne (List.tail_eq_of_cons_eq heq)
        · have hstill : (isHigh u && rest'.head?.any isLow) = false := by
            rw [hlow]
            exact hpair
          rw [scalars_cons hstill, scalars_cons hpair, hscalars]
        · rw [List.map_cons, hbytes]
          rfl
      · have hsingle : single u = replacement := by
          rcases h with h | h
          · exact h.symm
          · exact absurd h hrest
        rcases exists_same_unit hsingle with ⟨u', hne, hsingle', hlow, hbyte⟩
        have hstill : (isHigh u' && (v :: rest).head?.any isLow) = false := by
          cases hv : isLow v with
          | false => exact (congrArg (isHigh u' && ·) hv).trans (Bool.and_false _)
          | true =>
              -- a low surrogate behind it would be lone, and so be read as a replacement
              exfalso
              apply hrest
              have hvsurrogate : isSurrogate v = true := by
                unfold isSurrogate
                rw [hv, Bool.or_true]
              have hvhigh : isHigh v = false := by
                rw [isLow_iff] at hv
                rw [Bool.eq_false_iff, Ne, isHigh_iff]
                omega
              have hlone : (isHigh v && rest.head?.any isLow) = false := by
                rw [hvhigh, Bool.false_and]
              rw [scalars_cons hlone, single, if_pos hvsurrogate]
              exact List.mem_cons_self
        refine ⟨u' :: v :: rest, ?_, ?_, ?_, hlow⟩
        · intro heq
          exact hne (List.head_eq_of_cons_eq heq)
        · rw [scalars_cons hstill, scalars_cons hpair, hsingle, hsingle']
        · rw [List.map_cons, hbyte]
          rfl

end Utf16
end Foundation
end Perpetual
