import Perpetual.Foundation.Table
import Perpetual.Pairing.Frames

/-!
# The collaboration host

The host of a shared workspace: its invites, the credentials of the enrolled
devices, the sessions, and the calls of `accept` and `revokeDevice` in flight.
A step is the code between two scheduling points.  An `accept` waits for the
hello of its peer and, when it enrols a device, for the credentials to be saved;
a `revokeDevice` waits for the credentials to be saved.

Random bytes are inputs of the steps that draw them.
-/

namespace Perpetual
namespace Pairing

open Foundation
open Base64url

def protocolVersion : Nat := 1
def maxConnections : Nat := 32

structure Invite where
  inviteId : Text
  secret : Text
  expiresAt : Nat
  deriving DecidableEq

structure HostCredential where
  deviceId : Text
  secret : Text
  createdAt : Nat
  lastSeenAt : Nat
  deriving DecidableEq

structure ClientHello where
  type : Text
  v : Nat
  inviteId : Text
  deviceId : Text
  nonce : Text
  mac : Text
  deriving DecidableEq

structure ServerHello where
  type : Text
  v : Nat
  nonce : Text
  mac : Text
  deriving DecidableEq

/-- What the host writes to a socket during the handshake. -/
inductive ServerMessage where
  | hello (message : ServerHello)
  | credential (frame : EncryptedFrame)
  deriving DecidableEq

/-!
## Authentication
-/

def isIdentifierChar (c : Char) : Bool :=
  c.isAlphanum || c == '.' || c == '_' || c == ':' || c == '-'

def safeIdentifier (value : Text) (max : Nat) : Bool :=
  decide (8 ≤ value.length) && decide (value.length ≤ max) && value.all isIdentifierChar

def mac (P : Platform) (secret payload : Text) : Text :=
  encode (P.hmac (decode secret) (Utf8.encode payload))

def verifyMac (P : Platform) (secret payload value : Text) : Bool :=
  decide (decode value = decode (mac P secret payload))

def clientMacPayload (inviteId deviceId nonce : Text) : Text :=
  protocolLabel ++ ":client:".toList ++ inviteId ++ ':' :: deviceId ++ ':' :: nonce

def serverMacPayload (inviteId deviceId clientNonce serverNonce : Text) : Text :=
  protocolLabel ++ ":server:".toList ++ inviteId ++ ':' :: deviceId ++
    ':' :: clientNonce ++ ':' :: serverNonce

def decodeFixed (value : Text) (bytes : Nat) : Option Bytes :=
  if (decode value).length = bytes then some (decode value) else none

def deriveSessionKeys (P : Platform) (secret : Text) (clientNonce serverNonce : Bytes)
    (deviceId : Text) : SessionKeys :=
  let material := P.hkdf (decode secret) (clientNonce ++ serverNonce)
    (Utf8.encode (protocolLabel ++ ':' :: deviceId))
  { clientToServer := material.take 32,
    serverToClient := (material.drop 32).take 32 }

/-!
## The state of the host
-/

structure HostSession where
  connection : Nat
  deviceId : Text
  deriving DecidableEq

/-- An `accept` that has stored a new credential and waits for it to be saved. -/
structure Enrolling where
  connection : Nat
  deviceId : Text
  credential : Text
  keys : SessionKeys
  deriving DecidableEq

/-- A `revokeDevice` that waits for the credentials to be saved. -/
structure Revoking where
  call : Nat
  deviceId : Text
  deriving DecidableEq

structure Host where
  now : Nat
  disposed : Bool
  invites : List Invite
  credentials : List HostCredential
  sessions : List HostSession
  reading : List Nat
  enrolling : List Enrolling
  revoking : List Revoking
  connections : Nat
  calls : Nat

namespace Host

def started (credentials : List HostCredential) : Host :=
  { now := 0, disposed := false, invites := [], credentials := credentials,
    sessions := [], reading := [], enrolling := [], revoking := [],
    connections := 0, calls := 0 }

def credentialOf (h : Host) (deviceId : Text) : Option HostCredential :=
  h.credentials.find? (fun c => decide (c.deviceId = deviceId))

def inviteOf (h : Host) (inviteId : Text) : Option Invite :=
  h.invites.find? (fun i => decide (i.inviteId = inviteId))

variable {h : Host}

theorem credentialOf_some {deviceId : Text} {c : HostCredential}
    (hfind : h.credentialOf deviceId = some c) :
    c ∈ h.credentials ∧ c.deviceId = deviceId := by
  constructor
  · exact List.mem_of_find?_eq_some hfind
  · unfold credentialOf at hfind
    simpa using List.find?_some hfind

def secretOf (h : Host) (deviceId : Text) : Option Text :=
  (h.credentialOf deviceId).map HostCredential.secret

theorem inviteOf_some {inviteId : Text} {i : Invite} (hfind : h.inviteOf inviteId = some i) :
    i ∈ h.invites ∧ i.inviteId = inviteId := by
  constructor
  · exact List.mem_of_find?_eq_some hfind
  · unfold inviteOf at hfind
    simpa using List.find?_some hfind

/-!
## Invites
-/

def pruneInvites (h : Host) : Host :=
  { h with invites := Table.deleteWhere (fun i => decide (i.expiresAt < h.now)) h.invites }

def newInvite (h : Host) (ttl : Nat) (id secret : Bytes) : Invite :=
  { inviteId := encode id,
    secret := encode secret,
    expiresAt := h.now + max 60000 ttl }

def createInvite (h : Host) (ttl : Nat) (id secret : Bytes) : Host :=
  let invite := h.newInvite ttl id secret
  let pruned := h.pruneInvites
  { pruned with
    invites := Table.deleteWhere (fun i => decide (i.inviteId = invite.inviteId))
      pruned.invites ++ [invite] }

/-!
## Accepting a connection
-/

/-- What the host knows of a peer whose hello it has verified. -/
structure Authenticated where
  existing : Option HostCredential
  authSecret : Text
  clientNonce : Bytes

def authenticate (P : Platform) (h : Host) (hello : ClientHello) :
    Except String Authenticated :=
  if hello.type ≠ "client_hello".toList ∨ hello.v ≠ protocolVersion ∨
      safeIdentifier hello.deviceId 128 = false ∨
        safeIdentifier hello.inviteId 128 = false then
    .error "invalid collaboration hello"
  else
    let existing := h.credentialOf hello.deviceId
    let invite := h.inviteOf hello.inviteId
    match (existing.map HostCredential.secret).or (invite.map Invite.secret) with
    | none => .error "invite expired or device credential revoked"
    | some authSecret =>
        if authSecret = [] ∨ (existing = none ∧
            invite.all (fun i => decide (i.expiresAt < h.now)) = true) then
          .error "invite expired or device credential revoked"
        else
          match decodeFixed hello.nonce 32 with
          | none => .error "invalid nonce"
          | some clientNonce =>
              if verifyMac P authSecret
                  (clientMacPayload hello.inviteId hello.deviceId hello.nonce)
                  hello.mac then
                .ok { existing := existing, authSecret := authSecret,
                      clientNonce := clientNonce }
              else .error "collaboration authentication failed"

/-- The hello is that of a device the host does not know, and admits it. -/
def enrols (P : Platform) (h : Host) (hello : ClientHello) : Bool :=
  match h.authenticate P hello with
  | .error _ => false
  | .ok peer => peer.existing.isNone

def serverHello (P : Platform) (authSecret : Text) (hello : ClientHello)
    (serverNonce : Bytes) : ServerHello :=
  { type := "server_hello".toList,
    v := protocolVersion,
    nonce := encode serverNonce,
    mac := mac P authSecret (serverMacPayload hello.inviteId hello.deviceId hello.nonce
      (encode serverNonce)) }

def credentialPayload (credential : Text) : Text :=
  Json.stringify [("type".toList, "device_credential".toList),
    ("credential".toList, credential)]

/-- The end of `accept`: the credential frame is written and the session added. -/
def complete (P : Platform) (h : Host) (k : Nat) (deviceId credential : Text)
    (keys : SessionKeys) : Host × List ServerMessage :=
  match encryptFrame P keys.serverToClient 1 .s2c (credentialPayload credential) with
  | .error _ => (h, [])
  | .ok frame =>
      ({ h with sessions := h.sessions ++ [{ connection := k, deviceId := deviceId }] },
        [.credential frame])

/-- `accept` from the hello to its next scheduling point or its end. -/
def answerHello (P : Platform) (h : Host) (k : Nat) (hello : ClientHello)
    (serverNonce credential : Bytes) : Host × List ServerMessage :=
  let read := { h with reading := h.reading.erase k }
  match h.authenticate P hello with
  | .error _ => (read, [])
  | .ok peer =>
      let keys := deriveSessionKeys P peer.authSecret peer.clientNonce serverNonce
        hello.deviceId
      let answer := .hello (serverHello P peer.authSecret hello serverNonce)
      match peer.existing with
      | none =>
          ({ read with
              credentials := h.credentials ++
                [{ deviceId := hello.deviceId, secret := encode credential,
                   createdAt := h.now, lastSeenAt := h.now }],
              enrolling := h.enrolling ++
                [{ connection := k, deviceId := hello.deviceId,
                   credential := encode credential, keys := keys }] },
            [answer])
      | some existing =>
          let seen := { read with
            credentials := Table.updateWhere
              (fun c => decide (c.deviceId = hello.deviceId))
              (fun c => { c with lastSeenAt := h.now }) h.credentials }
          let completed := seen.complete P k hello.deviceId existing.secret keys
          (completed.1, answer :: completed.2)

/-!
## Revoking a device
-/

/-- `revokeDevice` up to its scheduling point. -/
def revokeDevice (h : Host) (deviceId : Text) : Host :=
  { h with
    credentials := Table.deleteWhere (fun c => decide (c.deviceId = deviceId))
      h.credentials,
    invites := [],
    revoking := h.revoking ++ [{ call := h.calls, deviceId := deviceId }],
    calls := h.calls + 1 }

def disposeSessions (h : Host) (deviceId : Text) : Host :=
  { h with
    sessions := Table.deleteWhere (fun s => decide (s.deviceId = deviceId)) h.sessions }

/-- A session that ends by itself: its stream failed, ended or was closed. -/
def closeSession (h : Host) (k : Nat) : Host :=
  { h with
    sessions := Table.deleteWhere (fun s => decide (s.connection = k)) h.sessions }

inductive Action where
  | connect
  | hello (connection : Nat) (hello : ClientHello) (serverNonce credential : Bytes)
  | readFails (connection : Nat)
  | saved (connection : Nat)
  | saveFails (connection : Nat)
  | closed (connection : Nat)
  | createInvite (ttl : Nat) (id secret : Bytes)
  | revoke (deviceId : Text)
  | revokeSaved (call : Nat)
  | revokeSaveFails (call : Nat)
  | dispose
  | tick (ms : Nat)

def enrollingOn (h : Host) (k : Nat) : Option Enrolling :=
  h.enrolling.find? (fun e => decide (e.connection = k))

def revokingBy (h : Host) (call : Nat) : Option Revoking :=
  h.revoking.find? (fun r => decide (r.call = call))

theorem enrollingOn_some {k : Nat} {e : Enrolling} (hfind : h.enrollingOn k = some e) :
    e ∈ h.enrolling ∧ e.connection = k := by
  constructor
  · exact List.mem_of_find?_eq_some hfind
  · unfold enrollingOn at hfind
    simpa using List.find?_some hfind

theorem revokingBy_some {call : Nat} {r : Revoking} (hfind : h.revokingBy call = some r) :
    r ∈ h.revoking ∧ r.call = call := by
  constructor
  · exact List.mem_of_find?_eq_some hfind
  · unfold revokingBy at hfind
    simpa using List.find?_some hfind

/-- The next state, and what was written to the connection of the step. -/
def step (P : Platform) (h : Host) : Action -> Option (Host × List ServerMessage)
  | .connect =>
      -- a full or disposed host destroys the socket at once
      if h.disposed = true ∨ maxConnections ≤ h.sessions.length then
        some ({ h with connections := h.connections + 1 }, [])
      else
        some ({ h with reading := h.reading ++ [h.connections],
                       connections := h.connections + 1 }, [])
  | .hello k hello serverNonce credential =>
      if k ∈ h.reading ∧ serverNonce.length = 32 ∧ credential.length = 32 then
        some (h.answerHello P k hello serverNonce credential)
      else none
  | .readFails k =>
      if k ∈ h.reading then some ({ h with reading := h.reading.erase k }, []) else none
  | .saved k =>
      match h.enrollingOn k with
      | none => none
      | some e =>
          some ({ h with enrolling := h.enrolling.erase e }.complete P k e.deviceId
            e.credential e.keys)
  | .saveFails k =>
      match h.enrollingOn k with
      | none => none
      | some e => some ({ h with enrolling := h.enrolling.erase e }, [])
  | .closed k =>
      some (h.closeSession k, [])
  | .createInvite ttl id secret =>
      if id.length = 16 ∧ secret.length = 32 then
        some (h.createInvite ttl id secret, [])
      else none
  | .revoke d => some (h.revokeDevice d, [])
  | .revokeSaved c =>
      match h.revokingBy c with
      | none => none
      | some r =>
          some ({ h with revoking := h.revoking.erase r }.disposeSessions r.deviceId, [])
  | .revokeSaveFails c =>
      match h.revokingBy c with
      | none => none
      | some r => some ({ h with revoking := h.revoking.erase r }, [])
  | .dispose => some ({ h with disposed := true, sessions := [], invites := [] }, [])
  | .tick ms => some ({ h with now := h.now + ms }, [])

/-!
## Whom the host admits
-/

variable {P : Platform} {hello : ClientHello} {peer : Authenticated}

theorem authenticate_ok (hauth : h.authenticate P hello = .ok peer) :
    peer.existing = h.credentialOf hello.deviceId ∧
      decodeFixed hello.nonce 32 = some peer.clientNonce ∧
        verifyMac P peer.authSecret
          (clientMacPayload hello.inviteId hello.deviceId hello.nonce) hello.mac = true ∧
          (peer.existing.map HostCredential.secret).or
            ((h.inviteOf hello.inviteId).map Invite.secret) = some peer.authSecret ∧
            (peer.existing = none ->
              (h.inviteOf hello.inviteId).all (fun i => decide (i.expiresAt < h.now)) =
                false) := by
  unfold authenticate at hauth
  split at hauth
  · cases hauth
  dsimp only at hauth
  split at hauth
  · cases hauth
  rename_i authSecret hsecret
  split at hauth
  · cases hauth
  rename_i hlive
  split at hauth
  · cases hauth
  rename_i clientNonce hnonce
  split at hauth
  · rename_i hverify
    cases hauth
    refine ⟨rfl, hnonce, hverify, hsecret, ?_⟩
    intro hnew
    rw [not_or] at hlive
    cases hall : (h.inviteOf hello.inviteId).all (fun i => decide (i.expiresAt < h.now)) with
    | false => rfl
    | true => exact absurd ⟨hnew, hall⟩ hlive.2
  · cases hauth

theorem authenticate_known {existing : HostCredential} (hauth : h.authenticate P hello = .ok peer)
    (hexisting : peer.existing = some existing) : peer.authSecret = existing.secret := by
  have hsecret := (authenticate_ok hauth).2.2.2.1
  rw [hexisting] at hsecret
  have hequal : existing.secret = peer.authSecret := by simpa using hsecret
  exact hequal.symm

theorem authenticate_invite
    (hauth : h.authenticate P hello = .ok peer) (hnew : peer.existing = none) :
    exists invite, h.inviteOf hello.inviteId = some invite ∧
      peer.authSecret = invite.secret ∧ h.now ≤ invite.expiresAt := by
  rcases authenticate_ok hauth with ⟨_, _, _, hsecret, hlive⟩
  have hfresh := hlive hnew
  rw [hnew] at hsecret
  cases hinvite : h.inviteOf hello.inviteId with
  | none =>
      rw [hinvite] at hsecret
      cases hsecret
  | some invite =>
      rw [hinvite] at hsecret hfresh
      have hequal : invite.secret = peer.authSecret := by simpa using hsecret
      have hnow : ¬ invite.expiresAt < h.now := by simpa using hfresh
      exact ⟨invite, rfl, hequal.symm, Nat.le_of_not_lt hnow⟩

theorem authenticate_of_secret {secret : Text} {nonce : Bytes}
    (htype : hello.type = "client_hello".toList) (hv : hello.v = protocolVersion)
    (hdevice : safeIdentifier hello.deviceId 128 = true)
    (hinvite : safeIdentifier hello.inviteId 128 = true)
    (hnonce : decodeFixed hello.nonce 32 = some nonce)
    (hsecret : ((h.credentialOf hello.deviceId).map HostCredential.secret).or
      ((h.inviteOf hello.inviteId).map Invite.secret) = some secret)
    (hne : secret ≠ [])
    (hlive : h.credentialOf hello.deviceId = none ->
      (h.inviteOf hello.inviteId).all (fun i => decide (i.expiresAt < h.now)) = false)
    (hmac : verifyMac P secret
      (clientMacPayload hello.inviteId hello.deviceId hello.nonce) hello.mac = true) :
    exists peer, h.authenticate P hello = .ok peer := by
  have hform : ¬ (hello.type ≠ "client_hello".toList ∨ hello.v ≠ protocolVersion ∨
      safeIdentifier hello.deviceId 128 = false ∨
        safeIdentifier hello.inviteId 128 = false) := by
    rw [hdevice, hinvite]
    simp [htype, hv]
  have hfresh : ¬ (secret = [] ∨ (h.credentialOf hello.deviceId = none ∧
      (h.inviteOf hello.inviteId).all (fun i => decide (i.expiresAt < h.now)) = true)) := by
    rintro (hempty | ⟨hnew, hall⟩)
    · exact hne hempty
    · rw [hlive hnew] at hall
      cases hall
  unfold authenticate
  rw [if_neg hform]
  dsimp only
  rw [hsecret]
  dsimp only
  rw [if_neg hfresh, hnonce]
  dsimp only
  rw [if_pos hmac]
  exact ⟨_, rfl⟩

/-!
## What `accept` does
-/

theorem encryptFrame_one (P : Platform) (key : Bytes) (direction : Direction)
    (text : Text) : exists frame, encryptFrame P key 1 direction text = .ok frame :=
  ⟨_, encryptFrame_ok_iff.mpr ⟨_, counterNonce_ok_iff.mpr ⟨by decide, rfl⟩, rfl⟩⟩

theorem complete_eq (P : Platform) (h : Host) (k : Nat) (deviceId credential : Text)
    (keys : SessionKeys) :
    exists frame,
      encryptFrame P keys.serverToClient 1 .s2c (credentialPayload credential) =
        .ok frame ∧
      h.complete P k deviceId credential keys =
        ({ h with
            sessions := h.sessions ++ [{ connection := k, deviceId := deviceId }] },
          [.credential frame]) := by
  rcases encryptFrame_one P keys.serverToClient .s2c (credentialPayload credential) with
    ⟨frame, hframe⟩
  refine ⟨frame, hframe, ?_⟩
  unfold complete
  rw [hframe]

/-- The ways in which `accept` goes on from a hello: it throws, it enrols the device,
or it adds the session of a device it knows. -/
inductive Answer (P : Platform) (h : Host) (k : Nat) (hello : ClientHello)
    (serverNonce credential : Bytes) : Host × List ServerMessage -> Prop where
  | refused (hnew : h.enrols P hello = false) :
      Answer P h k hello serverNonce credential
        ({ h with reading := h.reading.erase k }, [])
  | enrolled {peer : Authenticated} (hauth : h.authenticate P hello = .ok peer)
      (hnew : peer.existing = none) :
      Answer P h k hello serverNonce credential
        ({ h with
            reading := h.reading.erase k,
            credentials := h.credentials ++
              [{ deviceId := hello.deviceId, secret := encode credential,
                 createdAt := h.now, lastSeenAt := h.now }],
            enrolling := h.enrolling ++
              [{ connection := k, deviceId := hello.deviceId,
                 credential := encode credential,
                 keys := deriveSessionKeys P peer.authSecret peer.clientNonce serverNonce
                   hello.deviceId }] },
          [.hello (serverHello P peer.authSecret hello serverNonce)])
  | known {peer : Authenticated} {existing : HostCredential} {frame : EncryptedFrame}
      (hauth : h.authenticate P hello = .ok peer)
      (hexisting : peer.existing = some existing)
      (hframe : encryptFrame P
        (deriveSessionKeys P peer.authSecret peer.clientNonce serverNonce
          hello.deviceId).serverToClient 1 .s2c
        (credentialPayload existing.secret) = .ok frame) :
      Answer P h k hello serverNonce credential
        ({ h with
            reading := h.reading.erase k,
            credentials := Table.updateWhere
              (fun c => decide (c.deviceId = hello.deviceId))
              (fun c => { c with lastSeenAt := h.now }) h.credentials,
            sessions := h.sessions ++
              [{ connection := k, deviceId := hello.deviceId }] },
          [.hello (serverHello P peer.authSecret hello serverNonce), .credential frame])

theorem answerHello_cases (P : Platform) (h : Host) (k : Nat) (hello : ClientHello)
    (serverNonce credential : Bytes) :
    Answer P h k hello serverNonce credential
      (h.answerHello P k hello serverNonce credential) := by
  unfold answerHello
  cases hauth : h.authenticate P hello with
  | error message =>
      apply Answer.refused
      unfold enrols
      rw [hauth]
  | ok peer =>
      dsimp only
      cases hexisting : peer.existing with
      | none => exact .enrolled hauth hexisting
      | some existing =>
          dsimp only
          rcases complete_eq P
            { h with
              reading := h.reading.erase k,
              credentials := Table.updateWhere
                (fun c => decide (c.deviceId = hello.deviceId))
                (fun c => { c with lastSeenAt := h.now }) h.credentials }
            k hello.deviceId existing.secret
            (deriveSessionKeys P peer.authSecret peer.clientNonce serverNonce
              hello.deviceId) with ⟨frame, hframe, heq⟩
          rw [heq]
          exact .known hauth hexisting hframe

def Full (h : Host) : Prop :=
  h.disposed = true ∨ maxConnections ≤ h.sessions.length

instance (h : Host) : Decidable h.Full :=
  inferInstanceAs (Decidable (h.disposed = true ∨ maxConnections ≤ h.sessions.length))

inductive Effect (P : Platform) (h : Host) :
    Action -> Host -> List ServerMessage -> Prop where
  | refused (hfull : h.Full) :
      Effect P h .connect { h with connections := h.connections + 1 } []
  | connect (hroom : ¬ h.Full) :
      Effect P h .connect { h with reading := h.reading ++ [h.connections],
                                   connections := h.connections + 1 } []
  | hello {k : Nat} {hello : ClientHello} {serverNonce credential : Bytes}
      (hreading : k ∈ h.reading) (hnonce : serverNonce.length = 32)
      (hcredential : credential.length = 32) :
      Effect P h (.hello k hello serverNonce credential)
        (h.answerHello P k hello serverNonce credential).1
        (h.answerHello P k hello serverNonce credential).2
  | readFails {k : Nat} (hreading : k ∈ h.reading) :
      Effect P h (.readFails k) { h with reading := h.reading.erase k } []
  | saved {k : Nat} {e : Enrolling} (he : h.enrollingOn k = some e) :
      Effect P h (.saved k)
        ({ h with enrolling := h.enrolling.erase e }.complete P k e.deviceId
          e.credential e.keys).1
        ({ h with enrolling := h.enrolling.erase e }.complete P k e.deviceId
          e.credential e.keys).2
  | saveFails {k : Nat} {e : Enrolling} (he : h.enrollingOn k = some e) :
      Effect P h (.saveFails k) { h with enrolling := h.enrolling.erase e } []
  | closed (k : Nat) :
      Effect P h (.closed k) (h.closeSession k) []
  | createInvite {ttl : Nat} {id secret : Bytes} (hid : id.length = 16)
      (hsecret : secret.length = 32) :
      Effect P h (.createInvite ttl id secret) (h.createInvite ttl id secret) []
  | revoke (d : Text) : Effect P h (.revoke d) (h.revokeDevice d) []
  | revokeSaved {c : Nat} {r : Revoking} (hr : h.revokingBy c = some r) :
      Effect P h (.revokeSaved c)
        ({ h with revoking := h.revoking.erase r }.disposeSessions r.deviceId) []
  | revokeSaveFails {c : Nat} {r : Revoking} (hr : h.revokingBy c = some r) :
      Effect P h (.revokeSaveFails c) { h with revoking := h.revoking.erase r } []
  | dispose :
      Effect P h .dispose { h with disposed := true, sessions := [], invites := [] } []
  | tick (ms : Nat) : Effect P h (.tick ms) { h with now := h.now + ms } []

theorem effect_of_step {h' : Host} {a : Action} {messages : List ServerMessage}
    (hstep : h.step P a = some (h', messages)) : Effect P h a h' messages := by
  cases a with
  | connect =>
      simp only [step] at hstep
      split at hstep
      · rename_i hfull
        injection hstep with hstep
        injection hstep with hhost hmessages
        rw [← hhost, ← hmessages]
        exact .refused hfull
      · rename_i hroom
        injection hstep with hstep
        injection hstep with hhost hmessages
        rw [← hhost, ← hmessages]
        exact .connect hroom
  | hello k hello serverNonce credential =>
      simp only [step] at hstep
      split at hstep
      · rename_i hguard
        injection hstep with hstep
        have heffect : Effect P h (.hello k hello serverNonce credential)
            (h.answerHello P k hello serverNonce credential).1
            (h.answerHello P k hello serverNonce credential).2 :=
          .hello hguard.1 hguard.2.1 hguard.2.2
        rw [hstep] at heffect
        exact heffect
      · cases hstep
  | readFails k =>
      simp only [step] at hstep
      split at hstep
      · rename_i hreading
        injection hstep with hstep
        injection hstep with hhost hmessages
        rw [← hhost, ← hmessages]
        exact .readFails hreading
      · cases hstep
  | saved k =>
      simp only [step] at hstep
      split at hstep
      · cases hstep
      · rename_i e he
        injection hstep with hstep
        have heffect := Effect.saved (P := P) he
        rw [hstep] at heffect
        exact heffect
  | saveFails k =>
      simp only [step] at hstep
      split at hstep
      · cases hstep
      · rename_i e he
        injection hstep with hstep
        injection hstep with hhost hmessages
        rw [← hhost, ← hmessages]
        exact .saveFails he
  | closed k =>
      simp only [step] at hstep
      injection hstep with hstep
      injection hstep with hhost hmessages
      rw [← hhost, ← hmessages]
      exact .closed k
  | createInvite ttl id secret =>
      simp only [step] at hstep
      split at hstep
      · rename_i hguard
        injection hstep with hstep
        injection hstep with hhost hmessages
        rw [← hhost, ← hmessages]
        exact .createInvite hguard.1 hguard.2
      · cases hstep
  | revoke d =>
      simp only [step] at hstep
      injection hstep with hstep
      injection hstep with hhost hmessages
      rw [← hhost, ← hmessages]
      exact .revoke d
  | revokeSaved c =>
      simp only [step] at hstep
      split at hstep
      · cases hstep
      · rename_i r hr
        injection hstep with hstep
        injection hstep with hhost hmessages
        rw [← hhost, ← hmessages]
        exact .revokeSaved hr
  | revokeSaveFails c =>
      simp only [step] at hstep
      split at hstep
      · cases hstep
      · rename_i r hr
        injection hstep with hstep
        injection hstep with hhost hmessages
        rw [← hhost, ← hmessages]
        exact .revokeSaveFails hr
  | dispose =>
      simp only [step] at hstep
      injection hstep with hstep
      injection hstep with hhost hmessages
      rw [← hhost, ← hmessages]
      exact .dispose
  | tick ms =>
      simp only [step] at hstep
      injection hstep with hstep
      injection hstep with hhost hmessages
      rw [← hhost, ← hmessages]
      exact .tick ms

end Host
end Pairing
end Perpetual
