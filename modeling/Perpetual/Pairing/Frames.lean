import Perpetual.Foundation.Base64url
import Perpetual.Foundation.Json
import Perpetual.Foundation.Text
import Perpetual.Foundation.Utf8

/-!
# Encrypted frames

The frames of a paired connection: one line of plaintext sealed under the key of
its direction, with the frame counter as nonce and the direction as associated
data.  The cryptographic library of the runtime is a parameter; what is assumed
of it is stated where it is used.
-/

namespace Perpetual
namespace Pairing

open Foundation
open Utf8

abbrev Bytes := List UInt8
abbrev Text := List Char

/-- The functions of the runtime: the authenticated cipher, which returns the
ciphertext and its tag, the keyed hash, the key derivation, and the buffer made
from a value that is not a text. -/
structure Platform where
  encrypt : Bytes -> Bytes -> Bytes -> Bytes -> Bytes × Bytes
  decrypt : Bytes -> Bytes -> Bytes -> Bytes -> Bytes -> Option Bytes
  hmac : Bytes -> Bytes -> Bytes
  hkdf : Bytes -> Bytes -> Bytes -> Bytes
  bufferFrom : Option Json -> Option Bytes

/-- Ciphertexts are as long as their plaintexts, and tags have sixteen bytes. -/
structure Platform.Sized (P : Platform) : Prop where
  ciphertext : forall key nonce aad plaintext,
    (P.encrypt key nonce aad plaintext).1.length = plaintext.length
  tag : forall key nonce aad plaintext,
    (P.encrypt key nonce aad plaintext).2.length = 16

/-- A cipher that leaves the plaintext as it is and appends an empty tag, and a hash that
shows its key and its text. -/
def plainPlatform : Platform where
  encrypt := fun _ _ _ plaintext => (plaintext, List.replicate 16 0)
  decrypt := fun _ _ _ ciphertext tag =>
    if tag = List.replicate 16 0 then some ciphertext else none
  hmac := fun key text => key ++ text
  hkdf := fun key _ _ => key ++ key
  bufferFrom := fun _ => none

theorem plainPlatform_sized : plainPlatform.Sized where
  ciphertext := fun _ _ _ _ => rfl
  tag := fun _ _ _ _ => List.length_replicate

theorem plainPlatform_decrypt (key nonce aad plaintext : Bytes) :
    plainPlatform.decrypt key nonce aad (plainPlatform.encrypt key nonce aad plaintext).1
      (plainPlatform.encrypt key nonce aad plaintext).2 = some plaintext := by
  show (if List.replicate 16 0 = List.replicate 16 0 then some plaintext else none) = _
  rw [if_pos rfl]

def maxWireLineBytes : Nat := 24 * 1024 * 1024

def protocolLabel : Text := "perpetual-collaboration-v1".toList

inductive Direction where
  | c2s
  | s2c
  deriving DecidableEq, Repr

def Direction.text : Direction -> Text
  | .c2s => "c2s".toList
  | .s2c => "s2c".toList

/-- The associated data of the frames of a direction. -/
def Direction.aad (direction : Direction) : Bytes :=
  encode (protocolLabel ++ ':' :: direction.text)

theorem aad_injective : Function.Injective Direction.aad := by
  intro a b h
  cases a with
  | c2s =>
      cases b with
      | c2s => rfl
      | s2c =>
          revert h
          decide +kernel
  | s2c =>
      cases b with
      | c2s =>
          revert h
          decide +kernel
      | s2c => rfl

structure SessionKeys where
  clientToServer : Bytes
  serverToClient : Bytes
  deriving DecidableEq

/-!
## Nonces
-/

def bigEndian : Nat -> Nat -> Bytes
  | 0, _ => []
  | size + 1, n => UInt8.ofNat (n / 256 ^ size) :: bigEndian size n

def counterNonce (counter : Nat) : Except String Bytes :=
  if counter = 0 then .error "invalid frame counter"
  else if 2 ^ 64 ≤ counter then .error "ERR_OUT_OF_RANGE"
  else .ok ([0, 0, 0, 0] ++ bigEndian 8 counter)

theorem bigEndian_mod {a b : Nat} {size : Nat} (h : bigEndian size a = bigEndian size b) :
    a % 256 ^ size = b % 256 ^ size := by
  induction size with
  | zero => simp [Nat.mod_one]
  | succ size ih =>
      simp only [bigEndian, List.cons.injEq] at h
      rcases h with ⟨hhead, htail⟩
      have hbyte : a / 256 ^ size % 256 = b / 256 ^ size % 256 := by
        have hnat := congrArg UInt8.toNat hhead
        simpa using hnat
      rw [Nat.pow_succ, Nat.mod_mul, Nat.mod_mul, ih htail, hbyte]

variable {counter : Nat}

theorem counterNonce_ok_iff {nonce : Bytes} :
    counterNonce counter = .ok nonce ↔
      (0 < counter ∧ counter < 2 ^ 64) ∧ nonce = [0, 0, 0, 0] ++ bigEndian 8 counter := by
  unfold counterNonce
  constructor
  · intro h
    split at h
    · cases h
    split at h
    · cases h
    · injection h with h
      exact ⟨by omega, h.symm⟩
  · rintro ⟨hrange, hnonce⟩
    rw [if_neg (by omega), if_neg (by omega), hnonce]

theorem counterNonce_injective
    {a b : Nat} {nonce : Bytes} (ha : counterNonce a = .ok nonce)
    (hb : counterNonce b = .ok nonce) : a = b := by
  rcases counterNonce_ok_iff.mp ha with ⟨harange, hanonce⟩
  rcases counterNonce_ok_iff.mp hb with ⟨hbrange, hbnonce⟩
  rw [hanonce] at hbnonce
  have hmod := bigEndian_mod (List.append_cancel_left hbnonce)
  have hpow : 256 ^ 8 = 2 ^ 64 := by norm_num
  rw [hpow] at hmod
  rw [Nat.mod_eq_of_lt harange.2, Nat.mod_eq_of_lt hbrange.2] at hmod
  exact hmod

/-!
## Sealing and opening
-/

structure EncryptedFrame where
  n : Text
  c : Text
  deriving DecidableEq

def decimal (counter : Nat) : Text :=
  Nat.toDigits 10 counter

def encryptFrame (P : Platform) (key : Bytes) (counter : Nat)
    (direction : Direction) (plaintext : Text) : Except String EncryptedFrame :=
  match counterNonce counter with
  | .error message => .error message
  | .ok nonce =>
      let body := P.encrypt key nonce direction.aad (encode plaintext)
      .ok { n := decimal counter, c := Base64url.encode (body.1 ++ body.2) }

def EncryptedFrame.line (frame : EncryptedFrame) : Text :=
  Json.stringify [("n".toList, frame.n), ("c".toList, frame.c)]

/-- Reading a property of a parsed value.  Only an object has properties under
the names read here, and reading one of `null` throws. -/
def property (value : Json) (key : Text) : Except String (Option Json) :=
  match value with
  | .null => .error "TypeError"
  | .object members => .ok (Json.member members key)
  | _ => .ok none

def payloadOf (P : Platform) (value : Option Json) : Except String Bytes :=
  match value with
  | some (.string text) => .ok (Base64url.decode text)
  | other =>
      match P.bufferFrom other with
      | none => .error "ERR_INVALID_ARG_TYPE"
      | some bytes => .ok bytes

/-- The checks on a payload, and its decryption. -/
def openPayload (P : Platform) (key : Bytes) (expectedCounter : Nat)
    (direction : Direction) (payload : Bytes) : Except String Text :=
  if payload.length < 16 ∨ maxWireLineBytes < payload.length then
    .error "invalid encrypted frame size"
  else
    match counterNonce expectedCounter with
    | .error message => .error message
    | .ok nonce =>
        match P.decrypt key nonce direction.aad (payload.take (payload.length - 16))
            (payload.drop (payload.length - 16)) with
        | none => .error "Unsupported state or unable to authenticate data"
        | some bytes => .ok (decode bytes)

def decryptFrame (P : Platform) (key : Bytes) (expectedCounter : Nat)
    (direction : Direction) (frame : Json) : Except String Text :=
  match property frame "n".toList with
  | .error message => .error message
  | .ok (some (.string n)) =>
      if n = decimal expectedCounter then
        match property frame "c".toList with
        | .error message => .error message
        | .ok c =>
            match payloadOf P c with
            | .error message => .error message
            | .ok payload => openPayload P key expectedCounter direction payload
      else .error "out-of-order encrypted frame"
  | .ok _ => .error "out-of-order encrypted frame"

/-!
## What a decrypted frame shows
-/

variable {P : Platform} {key : Bytes} {direction : Direction}

variable {text : Text}

theorem openPayload_ok {payload : Bytes}
    (h : openPayload P key counter direction payload = .ok text) :
    exists nonce ciphertext tag bytes, counterNonce counter = .ok nonce ∧
      P.decrypt key nonce direction.aad ciphertext tag = some bytes ∧
        text = decode bytes := by
  unfold openPayload at h
  split at h
  · cases h
  cases hnonce : counterNonce counter with
  | error message =>
      rw [hnonce] at h
      cases h
  | ok nonce =>
      rw [hnonce] at h
      dsimp only at h
      split at h
      · cases h
      · rename_i bytes hdecrypt
        injection h with h
        exact ⟨nonce, _, _, bytes, rfl, hdecrypt, h.symm⟩

theorem decryptFrame_ok {frame : Json} (h : decryptFrame P key counter direction frame = .ok text) :
    exists nonce ciphertext tag bytes, counterNonce counter = .ok nonce ∧
      P.decrypt key nonce direction.aad ciphertext tag = some bytes ∧
        text = decode bytes := by
  unfold decryptFrame at h
  split at h
  · cases h
  · split at h
    · split at h
      · cases h
      · split at h
        · cases h
        · exact openPayload_ok h
    · cases h
  · cases h

/-!
## What the writer's own frames are
-/

variable {plaintext : Text} {frame : EncryptedFrame}

theorem encryptFrame_ok_iff :
    encryptFrame P key counter direction plaintext = .ok frame ↔
      exists nonce, counterNonce counter = .ok nonce ∧
        frame = { n := decimal counter,
                  c := Base64url.encode
                    ((P.encrypt key nonce direction.aad (encode plaintext)).1 ++
                      (P.encrypt key nonce direction.aad (encode plaintext)).2) } := by
  unfold encryptFrame
  cases counterNonce counter with
  | error message => simp
  | ok nonce =>
      simp only [Except.ok.injEq, exists_eq_left']
      exact ⟨Eq.symm, Eq.symm⟩

theorem parse_line (frame : EncryptedFrame) :
    Json.parse frame.line =
      some (.object [("n".toList, .string frame.n), ("c".toList, .string frame.c)]) :=
  Json.parse_stringify _ _

theorem decryptFrame_encryptFrame (hsized : P.Sized)
    (hframe : encryptFrame P key counter direction plaintext = .ok frame)
    (hopens : forall nonce, counterNonce counter = .ok nonce ->
      P.decrypt key nonce direction.aad
        (P.encrypt key nonce direction.aad (encode plaintext)).1
        (P.encrypt key nonce direction.aad (encode plaintext)).2 =
          some (encode plaintext))
    (hlength : (encode plaintext).length + 16 ≤ maxWireLineBytes) :
    decryptFrame P key counter direction
      (.object [("n".toList, .string frame.n), ("c".toList, .string frame.c)]) =
        .ok plaintext := by
  rcases encryptFrame_ok_iff.mp hframe with ⟨nonce, hnonce, rfl⟩
  have hdecrypt := hopens nonce hnonce
  have hciphertext := hsized.ciphertext key nonce direction.aad (encode plaintext)
  have htag := hsized.tag key nonce direction.aad (encode plaintext)
  generalize (P.encrypt key nonce direction.aad (encode plaintext)).1 = body at *
  generalize (P.encrypt key nonce direction.aad (encode plaintext)).2 = tag at *
  show (if decimal counter = decimal counter then
      openPayload P key counter direction
        (Base64url.decode (Base64url.encode (body ++ tag)))
    else _) = _
  rw [if_pos rfl, Base64url.decode_encode]
  unfold openPayload
  rw [List.length_append, hciphertext, htag, if_neg (by omega), hnonce]
  have hcut : (encode plaintext).length + 16 - 16 = body.length := by omega
  rw [hcut, List.take_left, List.drop_left]
  dsimp only
  rw [hdecrypt]
  show Except.ok (decode (encode plaintext)) = _
  rw [decode_encode]

/-!
## The line of a frame
-/

theorem newline_not_mem_line (frame : EncryptedFrame) : '\n' ∉ frame.line :=
  Json.newline_not_mem_stringify _

theorem trimScript_line (frame : EncryptedFrame) : Text.trimScript frame.line = frame.line := by
  have hshape : frame.line = '\x7b' ::
      ((Json.stringifyMember ("n".toList, frame.n) ++ ',' ::
        Json.stringifyMember ("c".toList, frame.c)) ++ ['\x7d']) := by
    simp [EncryptedFrame.line, Json.stringify, Json.stringifyMembers]
  rw [hshape]
  exact Text.trimScript_eq_self (by decide) (by decide)

variable {c : Char}

theorem isUrlSafe_of_isDigit (h : c.isDigit = true) : Base64url.isUrlSafe c = true := by
  have hnat : 48 ≤ c.toNat ∧ c.toNat ≤ 57 := by
    simpa [Char.isDigit, UInt32.le_iff_toNat_le] using h
  simp [Base64url.isUrlSafe, hnat]

theorem toNat_of_isUrlSafe (h : Base64url.isUrlSafe c = true) :
    c.toNat = 45 ∨ (48 ≤ c.toNat ∧ c.toNat ≤ 57) ∨ (65 ≤ c.toNat ∧ c.toNat ≤ 90) ∨
      c.toNat = 95 ∨ (97 ≤ c.toNat ∧ c.toNat ≤ 122) := by
  simp only [Base64url.isUrlSafe, Bool.or_eq_true, decide_eq_true_eq, beq_iff_eq] at h
  rcases h with (((h | h) | h) | h) | h
  · omega
  · omega
  · omega
  · rw [h]
    decide
  · rw [h]
    decide

theorem isPlain_of_isUrlSafe (h : Base64url.isUrlSafe c = true) : Json.isPlain c = true := by
  have hrange := toNat_of_isUrlSafe h
  have hne : forall d : Char, d.toNat = 34 ∨ d.toNat = 92 -> c ≠ d := by
    intro d hd heq
    rw [heq] at hrange
    omega
  have hquote := hne '"' (by decide)
  have hbackslash := hne '\\' (by decide)
  simp only [Json.isPlain, Bool.and_eq_true, bne_iff_ne, ne_eq, decide_eq_true_eq]
  exact ⟨⟨hquote, hbackslash⟩, by omega⟩

theorem units_quote (h : forall c, c ∈ text -> Base64url.isUrlSafe c = true) :
    units (Json.quote text) = text.length + 2 := by
  have hunits : units text = text.length := by
    apply units_eq_length
    intro c hc
    have hrange := toNat_of_isUrlSafe (h c hc)
    omega
  rw [Json.quote_of_isPlain (fun c hc => isPlain_of_isUrlSafe (h c hc))]
  have hmark : units ['"'] = 1 := by decide
  have hfirst : units ('"' :: (text ++ ['"'])) = 1 + units (text ++ ['"']) := by
    simp [units]
  rw [hfirst, units_append, hunits, hmark]
  omega

theorem units_line_le (hsized : P.Sized)
    (hframe : encryptFrame P key counter direction plaintext = .ok frame)
    (hlength : (encode plaintext).length + 16 ≤ maxWireLineBytes) :
    units frame.line ≤ 40 * 1024 * 1024 := by
  rcases encryptFrame_ok_iff.mp hframe with ⟨nonce, hnonce, rfl⟩
  rcases counterNonce_ok_iff.mp hnonce with ⟨hrange, _⟩
  have hciphertext := hsized.ciphertext key nonce direction.aad (encode plaintext)
  have htag := hsized.tag key nonce direction.aad (encode plaintext)
  generalize (P.encrypt key nonce direction.aad (encode plaintext)).1 = body at *
  generalize (P.encrypt key nonce direction.aad (encode plaintext)).2 = tag at *
  have hdigits : (decimal counter).length ≤ 20 := by
    apply (Nat.length_toDigits_le_iff (by decide) (by decide)).mpr
    calc counter < 2 ^ 64 := hrange.2
      _ ≤ 10 ^ 20 := by norm_num
  have hcounter : units (Json.quote (decimal counter)) = (decimal counter).length + 2 := by
    apply units_quote
    intro c hc
    exact isUrlSafe_of_isDigit (Nat.isDigit_of_mem_toDigits (by decide) (by decide) hc)
  have hpayload : units (Json.quote (Base64url.encode (body ++ tag))) =
      (Base64url.encode (body ++ tag)).length + 2 := by
    apply units_quote
    intro c hc
    exact Base64url.isUrlSafe_of_mem_encode hc
  have hbody := Base64url.length_encode (body ++ tag)
  rw [List.length_append, hciphertext, htag] at hbody
  have hshape : forall n c : Text, EncryptedFrame.line ⟨n, c⟩ =
      "\x7b\"n\":".toList ++ (Json.quote n ++
        (",\"c\":".toList ++ (Json.quote c ++ "\x7d".toList))) := by
    intro n c
    simp [EncryptedFrame.line, Json.stringify, Json.stringifyMembers,
      Json.stringifyMember, Json.quote, Json.escaped, Json.escapeChar]
  have hopening : units "\x7b\"n\":".toList = 5 := by decide
  have hmiddle : units ",\"c\":".toList = 5 := by decide
  have hclosing : units "\x7d".toList = 1 := by decide
  rw [hshape, units_append, units_append, units_append,
    units_append, hcounter, hpayload, hopening, hmiddle, hclosing, hbody]
  unfold maxWireLineBytes at hlength
  omega

theorem line_ne_nil (frame : EncryptedFrame) : frame.line ≠ [] := by
  simp [EncryptedFrame.line, Json.stringify]

end Pairing
end Perpetual
