import Perpetual.Pairing.Host

/-!
# The handshake over the texts of a script

What the host reads of a hello are the texts of a script, in which a surrogate may stand
alone.  The functions of the handshake are given over code units here; on the texts that
hold no lone surrogate they are those of the host.
-/

namespace Perpetual
namespace Pairing

open Foundation
open Utf16

abbrev Units := List UInt16

def colon : UInt16 := 58

namespace Script

def isIdentifierUnit (u : UInt16) : Bool :=
  decide (65 ≤ u.toNat ∧ u.toNat ≤ 90) || decide (97 ≤ u.toNat ∧ u.toNat ≤ 122) ||
    decide (48 ≤ u.toNat ∧ u.toNat ≤ 57) || u == 46 || u == 95 || u == 58 || u == 45

def safeIdentifier (value : Units) (max : Nat) : Bool :=
  decide (8 ≤ value.length) && decide (value.length ≤ max) && value.all isIdentifierUnit

/-- The hash reads the payload as UTF-8. -/
def mac (P : Platform) (secret payload : Units) : Units :=
  encode (Base64url.encode
    (P.hmac (Base64url.decodeUnits secret) (Utf8.encode (Utf16.scalars payload))))

def verifyMac (P : Platform) (secret payload value : Units) : Bool :=
  decide (Base64url.decodeUnits value = Base64url.decodeUnits (mac P secret payload))

def clientMacPayload (inviteId deviceId nonce : Units) : Units :=
  encode (protocolLabel ++ ":client:".toList) ++ inviteId ++ colon :: deviceId ++
    colon :: nonce

def serverMacPayload (inviteId deviceId clientNonce serverNonce : Units) : Units :=
  encode (protocolLabel ++ ":server:".toList) ++ inviteId ++ colon :: deviceId ++
    colon :: clientNonce ++ colon :: serverNonce

def decodeFixed (value : Units) (bytes : Nat) : Option Bytes :=
  if (Base64url.decodeUnits value).length = bytes then some (Base64url.decodeUnits value)
  else none

/-!
## Identifiers
-/

theorem isIdentifierUnit_iff {u : UInt16} :
    isIdentifierUnit u = true <->
      (65 ≤ u.toNat ∧ u.toNat ≤ 90) ∨ (97 ≤ u.toNat ∧ u.toNat ≤ 122) ∨
        (48 ≤ u.toNat ∧ u.toNat ≤ 57) ∨ u.toNat = 46 ∨ u.toNat = 95 ∨ u.toNat = 58 ∨
        u.toNat = 45 := by
  have hmark : forall v : UInt16, (u == v) = true <-> u.toNat = v.toNat := by
    intro v
    rw [beq_iff_eq, UInt16.toNat_inj]
  unfold isIdentifierUnit
  simp only [Bool.or_eq_true, decide_eq_true_eq, hmark, or_assoc]
  rfl

theorem isIdentifierChar_iff {c : Char} :
    isIdentifierChar c = true <->
      (65 ≤ c.toNat ∧ c.toNat ≤ 90) ∨ (97 ≤ c.toNat ∧ c.toNat ≤ 122) ∨
        (48 ≤ c.toNat ∧ c.toNat ≤ 57) ∨ c.toNat = 46 ∨ c.toNat = 95 ∨ c.toNat = 58 ∨
        c.toNat = 45 := by
  have hmark : forall d : Char, (c == d) = true <-> c.toNat = d.toNat := by
    intro d
    rw [beq_iff_eq, Char.toNat_inj]
  simp only [isIdentifierChar, Char.isAlphanum, Char.isAlpha, Char.isUpper, Char.isLower,
    Char.isDigit, Bool.or_eq_true, Bool.and_eq_true, decide_eq_true_eq, ge_iff_le,
    UInt32.le_iff_toNat_le, hmark, or_assoc]
  rfl

theorem all_encodeChar (c : Char) :
    (encodeChar c).all isIdentifierUnit = isIdentifierChar c := by
  rw [Bool.eq_iff_iff, List.all_eq_true, isIdentifierChar_iff]
  unfold encodeChar
  by_cases hbmp : c.toNat < 0x10000
  · have hunit : (UInt16.ofNat c.toNat).toNat = c.toNat := UInt16.toNat_ofNat_of_lt' hbmp
    rw [if_pos hbmp, List.forall_mem_singleton, isIdentifierUnit_iff, hunit]
  · have hvalid := Utf8.toNat_cases c
    have hhigh : (UInt16.ofNat (0xD800 + (c.toNat - 0x10000) / 0x400)).toNat =
        0xD800 + (c.toNat - 0x10000) / 0x400 :=
      UInt16.toNat_ofNat_of_lt' (show _ < 0x10000 by omega)
    rw [if_neg hbmp, List.forall_mem_cons, isIdentifierUnit_iff, hhigh]
    constructor
    · intro h
      omega
    · intro h
      omega

theorem all_encode (text : Text) :
    (encode text).all isIdentifierUnit = text.all isIdentifierChar := by
  induction text with
  | nil => rfl
  | cons c rest ih =>
      rw [encode_cons, List.all_append, all_encodeChar, ih, List.all_cons]

theorem length_encode {text : Text} (h : text.all isIdentifierChar = true) :
    (encode text).length = text.length := by
  induction text with
  | nil => rfl
  | cons c rest ih =>
      rw [List.all_cons, Bool.and_eq_true, isIdentifierChar_iff] at h
      have hone : encodeChar c = [UInt16.ofNat c.toNat] := if_pos (by omega)
      rw [encode_cons, hone, List.length_append, ih h.right, List.length_cons, Nat.add_comm]
      rfl

theorem safeIdentifier_encode (text : Text) (max : Nat) :
    safeIdentifier (encode text) max = Pairing.safeIdentifier text max := by
  unfold safeIdentifier Pairing.safeIdentifier
  rw [all_encode]
  cases hall : text.all isIdentifierChar with
  | false => rw [Bool.and_false, Bool.and_false]
  | true => rw [length_encode hall]

/-!
## The other functions
-/

theorem decodeFixed_encode (text : Text) (bytes : Nat) :
    decodeFixed (encode text) bytes = Pairing.decodeFixed text bytes := rfl

theorem encode_colon (text : Text) : encode (':' :: text) = colon :: encode text := rfl

theorem clientMacPayload_encode (inviteId deviceId nonce : Text) :
    clientMacPayload (encode inviteId) (encode deviceId) (encode nonce) =
      encode (Pairing.clientMacPayload inviteId deviceId nonce) := by
  unfold clientMacPayload Pairing.clientMacPayload
  simp only [encode_append, encode_colon]

theorem serverMacPayload_encode (inviteId deviceId clientNonce serverNonce : Text) :
    serverMacPayload (encode inviteId) (encode deviceId) (encode clientNonce)
        (encode serverNonce) =
      encode (Pairing.serverMacPayload inviteId deviceId clientNonce serverNonce) := by
  unfold serverMacPayload Pairing.serverMacPayload
  simp only [encode_append, encode_colon]

theorem mac_encode (P : Platform) (secret payload : Text) :
    mac P (encode secret) (encode payload) =
      encode (Pairing.mac P secret payload) := by
  unfold mac Pairing.mac
  rw [Utf16.scalars_encode]
  rfl

theorem verifyMac_encode (P : Platform) (secret payload value : Text) :
    verifyMac P (encode secret) (encode payload) (encode value) =
      Pairing.verifyMac P secret payload value := by
  unfold verifyMac
  rw [mac_encode]
  rfl

/-- What the host lets in has passed the tests on code units. -/
theorem admitted_of_authenticate {P : Platform} {h : Host} {hello : ClientHello}
    {peer : Host.Authenticated} (hauth : h.authenticate P hello = .ok peer) :
    safeIdentifier (encode hello.inviteId) 128 = true ∧
      safeIdentifier (encode hello.deviceId) 128 = true ∧
      (decodeFixed (encode hello.nonce) 32).isSome = true := by
  have hnonce := (Host.authenticate_ok hauth).right.left
  rw [safeIdentifier_encode, safeIdentifier_encode, decodeFixed_encode, hnonce]
  unfold Host.authenticate at hauth
  split at hauth
  · cases hauth
  · rename_i hchecked
    rw [not_or, not_or, not_or, Bool.not_eq_false, Bool.not_eq_false] at hchecked
    exact ⟨hchecked.right.right.right, hchecked.right.right.left, rfl⟩

end Script
end Pairing
end Perpetual
