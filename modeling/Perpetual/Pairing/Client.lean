import Perpetual.Pairing.Host

/-!
# The joining device

`connectAddress` on the side of a device: the hello it sends and what it makes of
the messages of the host.  The function waits twice, for the hello of the host
and for the credential frame, and returns the credential.
-/

namespace Perpetual
namespace Pairing

open Foundation
open Base64url

/-- What the program relies on of the runtime: the cipher opens what it sealed,
and keys of 32 bytes that hash one text alike are the same. -/
structure Platform.Lawful (P : Platform) : Prop extends P.Sized where
  opens : forall key nonce aad plaintext,
    P.decrypt key nonce aad (P.encrypt key nonce aad plaintext).1
      (P.encrypt key nonce aad plaintext).2 = some plaintext
  hmac : forall key key' text : Bytes, key.length = 32 -> key'.length = 32 ->
    P.hmac key text = P.hmac key' text -> key = key'

/-- A call of `connectAddress`, with the nonce it has drawn. -/
structure Attempt where
  inviteId : Text
  secret : Text
  deviceId : Text
  nonce : Bytes
  deriving DecidableEq

def clientHello (P : Platform) (inviteId secret deviceId : Text) (nonce : Bytes) :
    ClientHello :=
  { type := "client_hello".toList,
    v := protocolVersion,
    inviteId := inviteId,
    deviceId := deviceId,
    nonce := encode nonce,
    mac := mac P secret (clientMacPayload inviteId deviceId (encode nonce)) }

namespace Attempt

def hello (P : Platform) (a : Attempt) : ClientHello :=
  clientHello P a.inviteId a.secret a.deviceId a.nonce

def keys (P : Platform) (a : Attempt) (serverNonce : Bytes) : SessionKeys :=
  deriveSessionKeys P a.secret a.nonce serverNonce a.deviceId

def readServerHello (P : Platform) (a : Attempt) (message : ServerHello) :
    Except String SessionKeys :=
  if message.type ≠ "server_hello".toList ∨ message.v ≠ protocolVersion then
    .error "host returned an incompatible handshake"
  else if verifyMac P a.secret
      (serverMacPayload a.inviteId a.deviceId (encode a.nonce) message.nonce)
      message.mac then
    match decodeFixed message.nonce 32 with
    | none => .error "invalid nonce"
    | some serverNonce => .ok (a.keys P serverNonce)
  else .error "collaboration authentication failed"

def readCredential (P : Platform) (keys : SessionKeys) (frame : EncryptedFrame) :
    Except String Text :=
  match decryptFrame P keys.serverToClient 1 .s2c
      (.object [("n".toList, .string frame.n), ("c".toList, .string frame.c)]) with
  | .error message => .error message
  | .ok text =>
      match Json.parse text with
      | none => .error "SyntaxError"
      | some payload =>
          match property payload "type".toList, property payload "credential".toList with
          | .ok (some (.string type)), .ok (some (.string credential)) =>
              if type = "device_credential".toList ∧ 40 ≤ Utf8.units credential then
                .ok credential
              else .error "host did not issue a valid device credential"
          | .error message, _ => .error message
          | _, .error message => .error message
          | _, _ => .error "host did not issue a valid device credential"

inductive Outcome where
  | waiting
  | failed (message : String)
  | connected (credential : Text)
  deriving DecidableEq

/-- `connectAddress` after it has read the messages. -/
def outcome (P : Platform) (a : Attempt) : List ServerMessage -> Outcome
  | [] => .waiting
  | .credential _ :: _ => .failed "host returned an incompatible handshake"
  | .hello message :: rest =>
      match a.readServerHello P message with
      | .error text => .failed text
      | .ok keys =>
          match rest with
          | [] => .waiting
          | .hello _ :: _ => .failed "out-of-order encrypted frame"
          | .credential frame :: _ =>
              match readCredential P keys frame with
              | .error text => .failed text
              | .ok credential => .connected credential

end Attempt

/-!
## Secrets
-/

/-- The text of a secret: 32 bytes. -/
def IsSecret (text : Text) : Prop :=
  exists bytes : Bytes, bytes.length = 32 ∧ text = encode bytes

theorem isSecret_encode {bytes : Bytes} (h : bytes.length = 32) :
    IsSecret (encode bytes) :=
  ⟨bytes, h, rfl⟩

theorem IsSecret.units {text : Text} (h : IsSecret text) : Utf8.units text = 43 := by
  rcases h with ⟨bytes, hlength, rfl⟩
  have hunits : Utf8.units (encode bytes) = (encode bytes).length := by
    apply Utf8.units_eq_length
    intro c hc
    have hrange := toNat_of_isUrlSafe (isUrlSafe_of_mem_encode hc)
    omega
  rw [hunits, length_encode, hlength]

theorem IsSecret.ne_nil {text : Text} (h : IsSecret text) : text ≠ [] := by
  intro hnil
  have hunits := h.units
  rw [hnil] at hunits
  cases hunits

variable {P : Platform}

theorem IsSecret.eq_of_verifyMac (hlawful : P.Lawful) {secret secret' payload : Text}
    (h : IsSecret secret) (h' : IsSecret secret')
    (hverify : verifyMac P secret' payload (mac P secret payload) = true) :
    secret = secret' := by
  rcases h with ⟨bytes, hlength, rfl⟩
  rcases h' with ⟨bytes', hlength', rfl⟩
  have hequal := of_decide_eq_true hverify
  unfold mac at hequal
  simp only [decode_encode] at hequal
  rw [hlawful.hmac bytes bytes' _ hlength hlength' hequal]

theorem verifyMac_mac (P : Platform) (secret payload : Text) :
    verifyMac P secret payload (mac P secret payload) = true :=
  decide_eq_true rfl

theorem decodeFixed_encode {bytes : Bytes} {n : Nat} (h : bytes.length = n) :
    decodeFixed (encode bytes) n = some bytes := by
  unfold decodeFixed
  rw [decode_encode, if_pos h]

/-!
## The messages of the host
-/

variable {serverNonce : Bytes}

theorem readServerHello_serverHello (P : Platform) (a : Attempt) (h : serverNonce.length = 32) :
    a.readServerHello P (Host.serverHello P a.secret (a.hello P) serverNonce) =
      .ok (a.keys P serverNonce) := by
  have hkind : ¬ ((Host.serverHello P a.secret (a.hello P) serverNonce).type ≠
        "server_hello".toList ∨
      (Host.serverHello P a.secret (a.hello P) serverNonce).v ≠ protocolVersion) := by
    intro hne
    rcases hne with hne | hne
    · exact hne rfl
    · exact hne rfl
  have hverify : verifyMac P a.secret
      (serverMacPayload a.inviteId a.deviceId (encode a.nonce)
        (Host.serverHello P a.secret (a.hello P) serverNonce).nonce)
      (Host.serverHello P a.secret (a.hello P) serverNonce).mac = true :=
    verifyMac_mac P a.secret _
  have hnonce : decodeFixed (Host.serverHello P a.secret (a.hello P) serverNonce).nonce 32 =
      some serverNonce :=
    decodeFixed_encode h
  unfold Attempt.readServerHello
  rw [if_neg hkind, if_pos hverify, hnonce]

variable {credential : Text}

theorem length_credentialPayload_le (h : IsSecret credential) :
    (Utf8.encode (Host.credentialPayload credential)).length + 16 ≤ maxWireLineBytes := by
  have hplain : (Json.quote credential).length = 45 := by
    rcases h with ⟨bytes, hlength, rfl⟩
    rw [Json.quote_of_isPlain (fun c hc =>
      isPlain_of_isUrlSafe (isUrlSafe_of_mem_encode hc))]
    simp [length_encode, hlength]
  have hshape : Host.credentialPayload credential =
      "\x7b\"type\":\"device_credential\",\"credential\":".toList ++
        (Json.quote credential ++ "\x7d".toList) := by
    simp [Host.credentialPayload, Json.stringify, Json.stringifyMembers,
      Json.stringifyMember, Json.quote, Json.escaped, Json.escapeChar]
  have hfront : "\x7b\"type\":\"device_credential\",\"credential\":".toList.length = 41 := by
    decide
  have hbytes := Utf8.length_encode_le (Host.credentialPayload credential)
  have hlength : (Host.credentialPayload credential).length = 87 := by
    rw [hshape, List.length_append, List.length_append, hplain, hfront]
    rfl
  unfold maxWireLineBytes
  omega

theorem readCredential_credentialPayload (hlawful : P.Lawful) {keys : SessionKeys}
    (hsecret : IsSecret credential) {frame : EncryptedFrame}
    (hframe : encryptFrame P keys.serverToClient 1 .s2c
      (Host.credentialPayload credential) = .ok frame) :
    Attempt.readCredential P keys frame = .ok credential := by
  have hdecrypt := decryptFrame_encryptFrame hlawful.toSized hframe
    (fun nonce _ => hlawful.opens _ nonce _ _) (length_credentialPayload_le hsecret)
  have hparse : Json.parse (Host.credentialPayload credential) =
      some (.object [("type".toList, .string "device_credential".toList),
        ("credential".toList, .string credential)]) :=
    Json.parse_stringify _ _
  have hunits := hsecret.units
  unfold Attempt.readCredential
  rw [hdecrypt]
  dsimp only
  rw [hparse]
  show (if "device_credential".toList = "device_credential".toList ∧
      40 ≤ Utf8.units credential then Except.ok credential else _) = _
  rw [if_pos ⟨rfl, by omega⟩]

theorem outcome_serverHello (P : Platform) (a : Attempt) (hnonce : serverNonce.length = 32) :
    a.outcome P [.hello (Host.serverHello P a.secret (a.hello P) serverNonce)] =
      .waiting := by
  unfold Attempt.outcome
  dsimp only
  rw [readServerHello_serverHello P a hnonce]

theorem outcome_credential (hlawful : P.Lawful) (a : Attempt) {frame : EncryptedFrame} (hnonce : serverNonce.length = 32)
    (hsecret : IsSecret credential)
    (hframe : encryptFrame P (a.keys P serverNonce).serverToClient 1 .s2c
      (Host.credentialPayload credential) = .ok frame) :
    a.outcome P [.hello (Host.serverHello P a.secret (a.hello P) serverNonce),
      .credential frame] = .connected credential := by
  unfold Attempt.outcome
  dsimp only
  rw [readServerHello_serverHello P a hnonce]
  dsimp only
  rw [readCredential_credentialPayload hlawful hsecret hframe]

theorem plainPlatform_lawful : plainPlatform.Lawful where
  toSized := plainPlatform_sized
  opens := plainPlatform_decrypt
  hmac := fun _ _ _ _ _ h => List.append_cancel_right h

end Pairing
end Perpetual
