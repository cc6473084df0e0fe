import Perpetual.Foundation.Utf16

/-!
# Base64url

The unpadded encoding with the alphabet that is safe in a URL, and the tolerant
decoder of the script runtime: it reads the low byte of each code unit, in both alphabets,
stops at a padding character and skips every other foreign one.
-/

namespace Perpetual
namespace Foundation
namespace Base64url

def digit (v : Nat) : Char :=
  if v < 26 then Char.ofNat (65 + v)
  else if v < 52 then Char.ofNat (71 + v)
  else if v < 62 then Char.ofNat (v - 4)
  else if v = 62 then '-'
  else '_'

def value? (b : UInt8) : Option Nat :=
  if 65 ≤ b.toNat ∧ b.toNat ≤ 90 then some (b.toNat - 65)
  else if 97 ≤ b.toNat ∧ b.toNat ≤ 122 then some (b.toNat - 71)
  else if 48 ≤ b.toNat ∧ b.toNat ≤ 57 then some (b.toNat + 4)
  else if b.toNat = 45 ∨ b.toNat = 43 then some 62
  else if b.toNat = 95 ∨ b.toNat = 47 then some 63
  else none

def isPad (b : UInt8) : Bool :=
  b.toNat == 61

def sextets : List UInt8 -> List Nat
  | b0 :: b1 :: b2 :: rest =>
      b0.toNat / 4 :: (b0.toNat % 4 * 16 + b1.toNat / 16) ::
        (b1.toNat % 16 * 4 + b2.toNat / 64) :: b2.toNat % 64 :: sextets rest
  | [b0, b1] =>
      [b0.toNat / 4, b0.toNat % 4 * 16 + b1.toNat / 16, b1.toNat % 16 * 4]
  | [b0] => [b0.toNat / 4, b0.toNat % 4 * 16]
  | [] => []

def octets : List Nat -> List UInt8
  | v0 :: v1 :: v2 :: v3 :: rest =>
      UInt8.ofNat (v0 * 4 + v1 / 16) :: UInt8.ofNat (v1 % 16 * 16 + v2 / 4) ::
        UInt8.ofNat (v2 % 4 * 64 + v3) :: octets rest
  | [v0, v1, v2] =>
      [UInt8.ofNat (v0 * 4 + v1 / 16), UInt8.ofNat (v1 % 16 * 16 + v2 / 4)]
  | [v0, v1] => [UInt8.ofNat (v0 * 4 + v1 / 16)]
  | [_] => []
  | [] => []

def encode (bytes : List UInt8) : List Char :=
  (sextets bytes).map digit

/-- What the decoder reads of the low bytes. -/
def readBytes (bytes : List UInt8) : List Nat :=
  (bytes.takeWhile (fun b => !isPad b)).filterMap value?

def decodeUnits (units : List UInt16) : List UInt8 :=
  octets (readBytes (units.map UInt16.toUInt8))

def decode (text : List Char) : List UInt8 :=
  decodeUnits (Utf16.encode text)

theorem sextets_lt (bytes : List UInt8) : forall v, v ∈ sextets bytes -> v < 64 := by
  induction bytes using sextets.induct with
  | case1 b0 b1 b2 rest ih =>
      intro v hv
      have h0 := b0.toNat_lt
      have h1 := b1.toNat_lt
      have h2 := b2.toNat_lt
      simp only [sextets, List.mem_cons] at hv
      rcases hv with hv | hv | hv | hv | hv
      · omega
      · omega
      · omega
      · omega
      · exact ih v hv
  | case2 b0 b1 =>
      intro v hv
      have h0 := b0.toNat_lt
      have h1 := b1.toNat_lt
      simp only [sextets, List.mem_cons, List.not_mem_nil, or_false] at hv
      omega
  | case3 b0 =>
      intro v hv
      have h0 := b0.toNat_lt
      simp only [sextets, List.mem_cons, List.not_mem_nil, or_false] at hv
      omega
  | case4 =>
      intro v hv
      simp [sextets] at hv

theorem octets_sextets (bytes : List UInt8) : octets (sextets bytes) = bytes := by
  have hbyte : forall (b : UInt8) (n : Nat), n = b.toNat -> UInt8.ofNat n = b := by
    intro b n h
    rw [h, UInt8.ofNat_toNat]
  induction bytes using sextets.induct with
  | case1 b0 b1 b2 rest ih =>
      have h0 := b0.toNat_lt
      have h1 := b1.toNat_lt
      have h2 := b2.toNat_lt
      simp only [sextets, octets]
      rw [ih, hbyte b0 _ (by omega), hbyte b1 _ (by omega), hbyte b2 _ (by omega)]
  | case2 b0 b1 =>
      have h0 := b0.toNat_lt
      have h1 := b1.toNat_lt
      simp only [sextets, octets]
      rw [hbyte b0 _ (by omega), hbyte b1 _ (by omega)]
  | case3 b0 =>
      have h0 := b0.toNat_lt
      simp only [sextets, octets]
      rw [hbyte b0 _ (by omega)]
  | case4 => rfl

def digitByte (v : Nat) : UInt8 :=
  UInt8.ofNat (digit v).toNat

theorem digit_spec : forall v, v < 64 ->
    (Utf16.encodeChar (digit v)).map UInt16.toUInt8 = [digitByte v] ∧
      isPad (digitByte v) = false ∧ value? (digitByte v) = some v := by
  decide

theorem map_encode_digits {values : List Nat} (h : forall v, v ∈ values -> v < 64) :
    (Utf16.encode (values.map digit)).map UInt16.toUInt8 = values.map digitByte := by
  induction values with
  | nil => rfl
  | cons v rest ih =>
      have hv := (digit_spec v (h v List.mem_cons_self)).left
      have hrest := ih (fun w hw => h w (List.mem_cons_of_mem v hw))
      rw [List.map_cons, Utf16.encode_cons, List.map_append, hv, hrest]
      rfl

theorem readBytes_digits {values : List Nat} (h : forall v, v ∈ values -> v < 64) :
    readBytes (values.map digitByte) = values := by
  unfold readBytes
  induction values with
  | nil => rfl
  | cons v rest ih =>
      rcases digit_spec v (h v List.mem_cons_self) with ⟨_, hpad, hvalue⟩
      have hrest := ih (fun w hw => h w (List.mem_cons_of_mem v hw))
      rw [List.map_cons, List.takeWhile_cons, if_pos (by rw [hpad]; rfl),
        List.filterMap_cons_some hvalue, hrest]

@[simp] theorem decode_encode (bytes : List UInt8) : decode (encode bytes) = bytes := by
  unfold decode decodeUnits encode
  rw [map_encode_digits (sextets_lt bytes), readBytes_digits (sextets_lt bytes), octets_sextets]

/-!
## The characters and the length of an encoding
-/

theorem length_encode (bytes : List UInt8) :
    (encode bytes).length = (4 * bytes.length + 2) / 3 := by
  unfold encode
  rw [List.length_map]
  induction bytes using sextets.induct with
  | case1 b0 b1 b2 rest ih =>
      simp only [sextets, List.length_cons, ih]
      omega
  | case2 b0 b1 => simp [sextets]
  | case3 b0 => simp [sextets]
  | case4 => simp [sextets]

def isUrlSafe (c : Char) : Bool :=
  decide (48 ≤ c.toNat ∧ c.toNat ≤ 57) || decide (65 ≤ c.toNat ∧ c.toNat ≤ 90) ||
    decide (97 ≤ c.toNat ∧ c.toNat ≤ 122) || c == '-' || c == '_'

theorem isUrlSafe_digit : forall v, v < 64 -> isUrlSafe (digit v) = true := by
  decide

theorem isUrlSafe_of_mem_encode
    {bytes : List UInt8} {c : Char} (h : c ∈ encode bytes) : isUrlSafe c = true := by
  rcases List.mem_map.mp h with ⟨v, hv, rfl⟩
  exact isUrlSafe_digit v (sextets_lt bytes v hv)

end Base64url
end Foundation
end Perpetual
