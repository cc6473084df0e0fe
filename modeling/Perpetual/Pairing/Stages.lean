import Perpetual.Pairing.Records
import Perpetual.Pairing.Enrolment

/-!
# The stages of an enrolment

The invariant of the runs in which no connection is lost while the host owes a
credential on it.  A waiting attempt is at one of three stages of its handshake,
and each stage says what the host has written to it; the credential the host
admits a device with is held by the device or owed to one of its attempts.  The
steps of the host keep the invariant.
-/

namespace Perpetual
namespace Pairing

open Foundation

namespace Enrolment

/-!
## The stages of a handshake
-/

/-- What the host admits on this connection, and what it has written to it. -/
inductive Stage (P : Platform) (h : Host) (k : Nat) (l : Link) : Prop where
  | opened (hreceived : l.received = []) (hinbox : l.inbox = [])
      (hnone : h.enrollingOn k = none)
  | enrolling {serverNonce : Bytes} {e : Enrolling}
      (hnonce : serverNonce.length = 32)
      (he : h.enrollingOn k = some e)
      (hdevice : e.deviceId = l.attempt.deviceId)
      (hkeys : e.keys = l.attempt.keys P serverNonce)
      (hmessages : l.received ++ l.inbox =
        [.hello (Host.serverHello P l.attempt.secret (l.attempt.hello P) serverNonce)])
      (hread : k ∉ h.reading)
      (hsecret : h.secretOf l.attempt.deviceId = some e.credential)
      (howed : l.owed = true)
  | answered {serverNonce : Bytes} {credential : Text} {frame : EncryptedFrame}
      (hnonce : serverNonce.length = 32)
      (hframe : encryptFrame P (l.attempt.keys P serverNonce).serverToClient 1 .s2c
        (Host.credentialPayload credential) = .ok frame)
      (hmessages : l.received ++ l.inbox =
        [.hello (Host.serverHello P l.attempt.secret (l.attempt.hello P) serverNonce),
          .credential frame])
      (hinbox : l.inbox ≠ [])
      (hread : k ∉ h.reading)
      (hnone : h.enrollingOn k = none)
      (hsecret : h.secretOf l.attempt.deviceId = some credential)

variable {P : Platform} {k : Nat} {l : Link}

variable {h : Host}

theorem Stage.of_host {h' : Host} (hstage : Stage P h k l)
    (henrolling : h'.enrollingOn k = h.enrollingOn k) (hreading : k ∈ h'.reading -> k ∈ h.reading)
    (hsecret : forall secret, h.secretOf l.attempt.deviceId = some secret ->
      h'.secretOf l.attempt.deviceId = some secret) :
    Stage P h' k l := by
  cases hstage with
  | opened hreceived hinbox hnone =>
      exact .opened hreceived hinbox (henrolling.trans hnone)
  | enrolling hnonce he hdevice hkeys hmessages hread hold howed =>
      exact .enrolling hnonce (henrolling.trans he) hdevice hkeys hmessages
        (fun hk => hread (hreading hk)) (hsecret _ hold) howed
  | answered hnonce hframe hmessages hinbox hread hnone hold =>
      exact .answered hnonce hframe hmessages hinbox (fun hk => hread (hreading hk))
        (henrolling.trans hnone) (hsecret _ hold)

def Origin (w : World) (a : Attempt) : Prop :=
  (exists i, i ∈ w.issued ∧ i.inviteId = a.inviteId ∧ i.secret = a.secret) ∨
    exists s, w.held a.deviceId = some s ∧ s.credential = a.secret

/-- The attempt is in progress, and its device was not revoked. -/
def Live (w : World) (l : Link) : Prop :=
  l.waiting = true ∧ l.attempt.deviceId ∉ w.revoked

structure Inv (P : Platform) (w : World) : Prop where
  tidy : w.host.Tidy
  count : w.host.connections = w.links.length
  unique : (w.issued.map Invite.inviteId).Nodup
  invitation : forall i, i ∈ w.issued ->
    IsSecret i.secret ∧ safeIdentifier i.inviteId 128 = true
  invites : forall i, i ∈ w.host.invites -> i ∈ w.issued
  current : forall i, i ∈ w.current ->
    i ∈ w.issued ∧ (w.host.now ≤ i.expiresAt -> i ∈ w.host.invites)
  secrets : forall c, c ∈ w.host.credentials -> IsSecret c.secret
  held : forall d s, d ∉ w.revoked -> w.held d = some s ->
    w.host.secretOf d = some s.credential ∧ safeIdentifier s.inviteId 128 = true
  owned : forall d secret, d ∉ w.revoked -> w.host.secretOf d = some secret ->
    (exists s, w.held d = some s ∧ s.credential = secret) ∨
      exists (k : Nat) (l : Link), w.links[k]? = some l ∧ l.waiting = true ∧
        l.owed = true ∧ l.attempt.deviceId = d
  origin : forall (k : Nat) (l : Link), w.links[k]? = some l -> Live w l ->
    Origin w l.attempt ∧ safeIdentifier l.attempt.inviteId 128 = true ∧
      l.attempt.nonce.length = 32
  stage : forall (k : Nat) (l : Link), w.links[k]? = some l -> Live w l -> Stage P w.host k l

variable {w : World}

theorem secretOf_isSecret (h : Inv P w) {d secret : Text}
    (hsecret : w.host.secretOf d = some secret) : IsSecret secret := by
  unfold Host.secretOf at hsecret
  cases hc : w.host.credentialOf d with
  | none =>
      rw [hc] at hsecret
      cases hsecret
  | some c =>
      rw [hc] at hsecret
      cases hsecret
      exact h.secrets c (Host.credentialOf_some hc).1

theorem attempt_isSecret (h : Inv P w) (hl : w.links[k]? = some l) (hlive : Live w l) :
    IsSecret l.attempt.secret := by
  rcases (h.origin k l hl hlive).1 with ⟨i, hi, _, hsecret⟩ | ⟨s, hs, hsecret⟩
  · rw [← hsecret]
    exact (h.invitation i hi).1
  · rw [← hsecret]
    exact secretOf_isSecret h (h.held _ s hlive.2 hs).1

/-!
## Steps of the host outside a handshake
-/

variable {host : Host}

theorem Inv.of_host (h : Inv P w) {current : List Invite} (htidy : host.Tidy)
    (hcount : host.connections = w.host.connections)
    (hinvites : forall i, i ∈ host.invites -> i ∈ w.issued)
    (hcurrent : forall i, i ∈ current ->
      i ∈ w.issued ∧ (host.now ≤ i.expiresAt -> i ∈ host.invites))
    (hcredentials : host.credentials = w.host.credentials)
    (henrolling : host.enrolling = w.host.enrolling)
    (hreading : forall k, k ∈ host.reading -> k ∈ w.host.reading) :
    Inv P { w with host := host, current := current } := by
  have hsecret := Host.secretOf_of_credentials hcredentials
  refine ⟨htidy, hcount.trans h.count, h.unique, h.invitation, hinvites, hcurrent,
    ?_, ?_, ?_, h.origin, ?_⟩
  · intro c hc
    exact h.secrets c (hcredentials ▸ hc)
  · intro d s hd hs
    rw [hsecret]
    exact h.held d s hd hs
  · intro d secret hd hs
    rw [hsecret] at hs
    exact h.owned d secret hd hs
  · intro k l hl hlive
    apply (h.stage k l hl hlive).of_host
    · unfold Host.enrollingOn
      rw [henrolling]
    · exact hreading k
    · intro secret hs
      rw [hsecret]
      exact hs

theorem Inv.tick (h : Inv P w) {ms : Nat}
    (htidy : ({ w.host with now := w.host.now + ms } : Host).Tidy) :
    Inv P { w with host := { w.host with now := w.host.now + ms } } := by
  apply h.of_host htidy rfl h.invites ?_ rfl rfl (fun _ hk => hk)
  intro i hi
  rcases h.current i hi with ⟨hissued, hlive⟩
  refine ⟨hissued, ?_⟩
  intro hnow
  exact hlive (Nat.le_trans (Nat.le_add_right _ _) hnow)

theorem safeIdentifier_encode {bytes : Bytes} (h : bytes.length = 16) :
    safeIdentifier (Base64url.encode bytes) 128 = true := by
  have hlength := Base64url.length_encode bytes
  rw [h] at hlength
  have hdigit : forall v, v < 64 -> isIdentifierChar (Base64url.digit v) = true := by
    decide
  have hall : (Base64url.encode bytes).all isIdentifierChar = true := by
    rw [List.all_eq_true]
    intro c hc
    rcases List.mem_map.mp hc with ⟨v, hv, rfl⟩
    exact hdigit v (Base64url.sextets_lt bytes v hv)
  unfold safeIdentifier
  rw [hlength, hall]
  rfl

theorem Inv.createInvite (h : Inv P w) {ttl : Nat} {id secret : Bytes} (hid : id.length = 16)
    (hsecret : secret.length = 32) (hnew : Base64url.encode id ∉ w.issued.map Invite.inviteId)
    (htidy : (w.host.createInvite ttl id secret).Tidy) :
    Inv P { w with
      host := w.host.createInvite ttl id secret,
      issued := w.issued ++ [w.host.newInvite ttl id secret],
      current := w.current ++ [w.host.newInvite ttl id secret] } := by
  refine ⟨htidy, h.count, ?_, ?_, ?_, ?_, h.secrets, h.held, h.owned, ?_, ?_⟩
  · exact Table.UniqueKey.concat h.unique hnew
  · intro i hi
    rcases List.mem_append.mp hi with hi | hi
    · exact h.invitation i hi
    · rw [List.mem_singleton.mp hi]
      exact ⟨isSecret_encode hsecret, safeIdentifier_encode hid⟩
  · intro i hi
    rcases List.mem_append.mp hi with hi | hi
    · have hold := (Table.mem_deleteWhere.mp (Table.mem_deleteWhere.mp hi).1).1
      exact List.mem_append_left _ (h.invites i hold)
    · exact List.mem_append_right _ hi
  · intro i hi
    rcases List.mem_append.mp hi with hi | hi
    · rcases h.current i hi with ⟨hissued, hlive⟩
      refine ⟨List.mem_append_left _ hissued, ?_⟩
      intro hnow
      apply List.mem_append_left
      apply Table.mem_deleteWhere.mpr
      constructor
      · apply Table.mem_deleteWhere.mpr
        exact ⟨hlive hnow, decide_eq_false (Nat.not_lt.mpr hnow)⟩
      · apply decide_eq_false
        intro heq
        apply hnew
        rw [List.mem_map]
        exact ⟨i, hissued, heq⟩
    · exact ⟨List.mem_append_right _ hi, fun _ => List.mem_append_right _ hi⟩
  · intro k l hl hlive
    rcases h.origin k l hl hlive with ⟨horigin, hrest⟩
    refine ⟨?_, hrest⟩
    rcases horigin with ⟨i, hi, hfields⟩ | hheld
    · exact .inl ⟨i, List.mem_append_left _ hi, hfields⟩
    · exact .inr hheld
  · intro k l hl hlive
    exact (h.stage k l hl hlive).of_host rfl (fun hk => hk) (fun _ hs => hs)

theorem Inv.revoke (h : Inv P w) (d0 : Text) (htidy : (w.host.revokeDevice d0).Tidy) :
    Inv P { w with
      host := w.host.revokeDevice d0,
      revoked := w.revoked ++ [d0],
      current := [] } := by
  have hsplit : forall d, d ∉ w.revoked ++ [d0] -> d ∉ w.revoked ∧ d ≠ d0 := by
    intro d hd
    constructor
    · intro hmem
      exact hd (List.mem_append_left _ hmem)
    · intro heq
      exact hd (List.mem_append_right _ (List.mem_singleton.mpr heq))
  have hlive : forall l, Live { w with
      host := w.host.revokeDevice d0,
      revoked := w.revoked ++ [d0],
      current := [] } l -> Live w l ∧ l.attempt.deviceId ≠ d0 := by
    intro l hl
    rcases hsplit _ hl.2 with ⟨hold, hne⟩
    exact ⟨⟨hl.1, hold⟩, hne⟩
  refine ⟨htidy, h.count, h.unique, h.invitation, ?_, ?_, ?_, ?_, ?_, ?_, ?_⟩
  · intro i hi
    cases hi
  · intro i hi
    cases hi
  · intro c hc
    exact h.secrets c (Table.mem_deleteWhere.mp hc).1
  · intro d s hd hs
    rcases hsplit d hd with ⟨hold, hne⟩
    rw [Host.secretOf_revoked_other hne]
    exact h.held d s hold hs
  · intro d secret hd hs
    rcases hsplit d hd with ⟨hold, hne⟩
    have hs' : (w.host.revokeDevice d0).secretOf d = some secret := hs
    rw [Host.secretOf_revoked_other hne] at hs'
    exact h.owned d secret hold hs'
  · intro k l hl hl'
    exact h.origin k l hl (hlive l hl').1
  · intro k l hl hl'
    rcases hlive l hl' with ⟨hold, hne⟩
    have hsecret : forall secret, w.host.secretOf l.attempt.deviceId = some secret ->
        (w.host.revokeDevice d0).secretOf l.attempt.deviceId = some secret := by
      intro secret hs
      rw [Host.secretOf_revoked_other hne]
      exact hs
    exact (h.stage k l hl hold).of_host rfl (fun hk => hk) hsecret

/-!
## The hello of an attempt
-/

variable {links : List Link}

theorem getElem?_modify_cases {j : Nat} {f : Link -> Link} {l' : Link}
    (h : (links.modify k f)[j]? = some l') :
    (j = k ∧ exists l, links[k]? = some l ∧ l' = f l) ∨
      (j ≠ k ∧ links[j]? = some l') := by
  rw [List.getElem?_modify] at h
  by_cases hj : j = k
  · apply Or.inl
    rw [hj] at h
    cases hl : links[k]? with
    | none =>
        rw [hl] at h
        cases h
    | some l =>
        rw [hl] at h
        have heq : f l = l' := by simpa using h
        exact ⟨hj, l, rfl, heq.symm⟩
  · apply Or.inr
    cases hl : links[j]? with
    | none =>
        rw [hl] at h
        cases h
    | some l =>
        rw [hl] at h
        have heq : l = l' := by simpa [Ne.symm hj] using h
        rw [heq]
        exact ⟨hj, rfl⟩

theorem getElem?_modify_self (f : Link -> Link) (h : links[k]? = some l) :
    (links.modify k f)[k]? = some (f l) := by
  rw [List.getElem?_modify, h]
  simp

theorem getElem?_modify_other {j : Nat} (f : Link -> Link) (hj : j ≠ k) :
    (links.modify k f)[j]? = links[j]? := by
  rw [List.getElem?_modify]
  cases links[j]? with
  | none => rfl
  | some l => simp [Ne.symm hj]

theorem deliver_nil (l : Link) : Link.deliver [] false l = l := by
  simp [Link.deliver]

theorem modify_deliver_nil (links : List Link) (k : Nat) :
    links.modify k (Link.deliver [] false) = links := by
  apply List.ext_getElem?
  intro j
  rw [List.getElem?_modify]
  cases links[j]? with
  | none => rfl
  | some l =>
      by_cases hj : k = j
      · simp [hj, deliver_nil]
      · simp [hj]

theorem Stage.of_reading (hstage : Stage P h k l) (hk : k ∈ h.reading) :
    l.received = [] ∧ l.inbox = [] := by
  cases hstage with
  | opened hreceived hinbox _ => exact ⟨hreceived, hinbox⟩
  | enrolling _ _ _ _ _ hread _ _ => exact absurd hk hread
  | answered _ _ _ _ hread _ _ => exact absurd hk hread

variable {peer : Host.Authenticated}

theorem keys_of_hello {a : Attempt} (hauth : h.authenticate P (a.hello P) = .ok peer)
    (hnonce : a.nonce.length = 32) (hsecret : peer.authSecret = a.secret) (serverNonce : Bytes) :
    deriveSessionKeys P peer.authSecret peer.clientNonce serverNonce a.deviceId =
      a.keys P serverNonce := by
  have hclient := (Host.authenticate_ok hauth).2.1
  have hfixed : decodeFixed (a.hello P).nonce 32 = some a.nonce :=
    decodeFixed_encode hnonce
  rw [hfixed] at hclient
  injection hclient with hclient
  rw [← hclient, hsecret]
  rfl

theorem authSecret_of_enrolled (h : Inv P w) (hl : w.links[k]? = some l) (hlive : Live w l)
    (hauth : w.host.authenticate P (l.attempt.hello P) = .ok peer) (hnew : peer.existing = none) :
    peer.authSecret = l.attempt.secret := by
  have hexisting := (Host.authenticate_ok hauth).1
  rw [hnew] at hexisting
  rcases Host.authenticate_invite hauth hnew with ⟨invite, hfind, hsecret, _⟩
  rcases Host.inviteOf_some hfind with ⟨hmem, hid⟩
  rcases (h.origin k l hl hlive).1 with ⟨i, hi, hiid, hisecret⟩ | ⟨s, hs, _⟩
  · have hsame : i = invite := by
      apply Table.UniqueKey.eq_of_key h.unique hi (h.invites invite hmem)
      rw [hiid, hid]
      rfl
    rw [hsecret, ← hsame, hisecret]
  · -- a device that holds a credential is known to the host
    have hknown := (h.held _ s hlive.2 hs).1
    have hnone : w.host.credentialOf l.attempt.deviceId = none := hexisting.symm
    unfold Host.secretOf at hknown
    rw [hnone] at hknown
    cases hknown

theorem authSecret_of_known (hlawful : P.Lawful) (h : Inv P w) (hl : w.links[k]? = some l)
    (hlive : Live w l) {existing : HostCredential}
    (hauth : w.host.authenticate P (l.attempt.hello P) = .ok peer)
    (hexisting : peer.existing = some existing) : peer.authSecret = l.attempt.secret := by
  have hsecret := Host.authenticate_known hauth hexisting
  rcases Host.authenticate_ok hauth with ⟨hfound, _, hverify, _, _⟩
  rw [hexisting] at hfound
  have hstored := h.secrets existing (Host.credentialOf_some hfound.symm).1
  rw [← hsecret] at hstored
  exact ((attempt_isSecret h hl hlive).eq_of_verifyMac hlawful hstored hverify).symm

theorem Inv.deliver (h : Inv P w) {messages : List ServerMessage} {owed : Bool}
    (hl : w.links[k]? = some l) (htidy : host.Tidy) (hcount : host.connections = w.host.connections)
    (hnow : host.now = w.host.now) (hinvites : host.invites = w.host.invites)
    (hsecrets : forall c, c ∈ host.credentials -> IsSecret c.secret)
    (hkept : forall d secret, w.host.secretOf d = some secret -> host.secretOf d = some secret)
    (hnew : forall d secret, host.secretOf d = some secret ->
      w.host.secretOf d = some secret ∨
        (l.waiting = true ∧ owed = true ∧ l.attempt.deviceId = d))
    (henrolling : forall j, j ≠ k -> host.enrollingOn j = w.host.enrollingOn j)
    (hreading : forall j, j ∈ host.reading -> j ∈ w.host.reading)
    (hstage : Live w l -> Stage P host k (l.deliver messages owed)) :
    Inv P { w with
      host := host,
      links := w.links.modify k (Link.deliver messages owed) } := by
  refine ⟨htidy, ?_, h.unique, h.invitation, ?_, ?_, hsecrets, ?_, ?_, ?_, ?_⟩
  · show host.connections = (w.links.modify k _).length
    rw [hcount, h.count, List.length_modify]
  · intro i hi
    exact h.invites i (hinvites ▸ hi)
  · intro i hi
    show i ∈ w.issued ∧ (host.now ≤ i.expiresAt -> i ∈ host.invites)
    rw [hnow, hinvites]
    exact h.current i hi
  · intro d s hd hs
    rcases h.held d s hd hs with ⟨hsecret, hid⟩
    exact ⟨hkept d s.credential hsecret, hid⟩
  · intro d secret hd hsecret
    rcases hnew d secret hsecret with hold | ⟨hwaiting, howed, hdevice⟩
    · rcases h.owned d secret hd hold with hheld | ⟨j, lj, hlj, hwaiting, howed, hdevice⟩
      · exact Or.inl hheld
      · apply Or.inr
        by_cases hj : j = k
        · rw [hj] at hlj
          refine ⟨k, _, getElem?_modify_self _ hlj, hwaiting, ?_, hdevice⟩
          show (lj.owed || owed) = true
          rw [howed, Bool.true_or]
        · exact ⟨j, lj, (getElem?_modify_other _ hj).trans hlj, hwaiting, howed, hdevice⟩
    · refine Or.inr ⟨k, _, getElem?_modify_self _ hl, hwaiting, ?_, hdevice⟩
      show (l.owed || owed) = true
      rw [howed, Bool.or_true]
  · intro j lj hlj hlive
    rcases getElem?_modify_cases hlj with ⟨_, l', hl', rfl⟩ | ⟨_, hold⟩
    · exact h.origin k l' hl' hlive
    · exact h.origin j lj hold hlive
  · intro j lj hlj hlive
    rcases getElem?_modify_cases hlj with ⟨rfl, l', hl', rfl⟩ | ⟨hj, hold⟩
    · rw [hl] at hl'
      cases hl'
      exact hstage hlive
    · exact (h.stage j lj hold hlive).of_host (henrolling j hj) (hreading j) (hkept _)

variable {serverNonce : Bytes}

theorem Inv.enrolled (h : Inv P w) {credential : Bytes} (hl : w.links[k]? = some l)
    (hk : k ∈ w.host.reading) (hnonce : serverNonce.length = 32) (hlength : credential.length = 32)
    (hwaits : l.waiting = true) (hauth : w.host.authenticate P (l.attempt.hello P) = .ok peer)
    (hnew : peer.existing = none)
    (hhost : host = { w.host with
      reading := w.host.reading.erase k,
      credentials := w.host.credentials ++
        [{ deviceId := l.attempt.deviceId, secret := Base64url.encode credential,
           createdAt := w.host.now, lastSeenAt := w.host.now }],
      enrolling := w.host.enrolling ++
        [{ connection := k, deviceId := l.attempt.deviceId,
           credential := Base64url.encode credential,
           keys := deriveSessionKeys P peer.authSecret peer.clientNonce serverNonce
             l.attempt.deviceId }] }) (htidy : host.Tidy) :
    Inv P { w with
      host := host,
      links := w.links.modify k (Link.deliver
        [.hello (Host.serverHello P peer.authSecret (l.attempt.hello P) serverNonce)]
        true) } := by
  have hnone := h.tidy.enrollingOn_reading hk
  have hunknown : w.host.credentialOf l.attempt.deviceId = none := by
    have hexisting := (Host.authenticate_ok hauth).1
    rw [hnew] at hexisting
    exact hexisting.symm
  rw [hhost] at htidy ⊢
  apply h.deliver hl htidy rfl rfl rfl
  · intro c hc
    rcases List.mem_append.mp hc with hc | hc
    · exact h.secrets c hc
    · rw [List.mem_singleton.mp hc]
      exact isSecret_encode hlength
  · intro d secret hs
    exact Host.secretOf_enrolled_of_some _ hs
  · intro d secret hs
    by_cases hd : l.attempt.deviceId = d
    · exact Or.inr ⟨hwaits, rfl, hd⟩
    · apply Or.inl
      rw [← hs]
      exact (Host.secretOf_enrolled_other hd).symm
  · intro j hj
    exact (Host.enrollingOn_append j hnone).trans (if_neg hj)
  · intro j hj
    exact List.mem_of_mem_erase hj
  · intro hlive
    rcases (h.stage k l hl hlive).of_reading hk with ⟨hreceived, hinbox⟩
    have hsecret := authSecret_of_enrolled h hl hlive hauth hnew
    have hkeys := keys_of_hello hauth (h.origin k l hl hlive).2.2 hsecret serverNonce
    have hmessages : l.received ++ (l.inbox ++ [ServerMessage.hello
        (Host.serverHello P peer.authSecret (l.attempt.hello P) serverNonce)]) =
        [.hello (Host.serverHello P l.attempt.secret (l.attempt.hello P) serverNonce)] := by
      rw [hreceived, hinbox, hsecret]
      rfl
    have hgone : k ∉ w.host.reading.erase k := h.tidy.reading.not_mem_erase
    have hstored := Host.secretOf_enrolled_self (h := w.host)
      (c := ⟨l.attempt.deviceId, Base64url.encode credential, w.host.now,
        w.host.now⟩) hunknown
    exact .enrolling hnonce ((Host.enrollingOn_append k hnone).trans (if_pos rfl))
      rfl hkeys hmessages hgone hstored (Bool.or_true _)

theorem Inv.known (hlawful : P.Lawful) (h : Inv P w)
    {existing : HostCredential} {frame : EncryptedFrame} (hl : w.links[k]? = some l)
    (hk : k ∈ w.host.reading) (hnonce : serverNonce.length = 32)
    (hauth : w.host.authenticate P (l.attempt.hello P) = .ok peer)
    (hexisting : peer.existing = some existing)
    (hframe : encryptFrame P
      (deriveSessionKeys P peer.authSecret peer.clientNonce serverNonce
        l.attempt.deviceId).serverToClient 1 .s2c
      (Host.credentialPayload existing.secret) = .ok frame)
    (hhost : host = { w.host with
      reading := w.host.reading.erase k,
      credentials := Table.updateWhere (fun c => decide (c.deviceId = l.attempt.deviceId))
        (fun c => { c with lastSeenAt := w.host.now }) w.host.credentials,
      sessions := w.host.sessions ++
        [{ connection := k, deviceId := l.attempt.deviceId }] }) (htidy : host.Tidy) :
    Inv P { w with
      host := host,
      links := w.links.modify k (Link.deliver
        [.hello (Host.serverHello P peer.authSecret (l.attempt.hello P) serverNonce),
          .credential frame] false) } := by
  have hseen := Host.secretOf_seen w.host w.host.now l.attempt.deviceId
  rw [hhost] at htidy ⊢
  apply h.deliver hl htidy rfl rfl rfl
  · intro c hc
    rcases Table.mem_updateWhere hc with ⟨c', hc', ⟨_, rfl⟩ | ⟨_, rfl⟩⟩
    · exact h.secrets c' hc'
    · exact h.secrets _ hc'
  · intro d secret hs
    exact (hseen d).trans hs
  · intro d secret hs
    exact Or.inl ((hseen d).symm.trans hs)
  · intro j _
    rfl
  · intro j hj
    exact List.mem_of_mem_erase hj
  · intro hlive
    rcases (h.stage k l hl hlive).of_reading hk with ⟨hreceived, hinbox⟩
    have hsecret := authSecret_of_known hlawful h hl hlive hauth hexisting
    have hkeys := keys_of_hello hauth (h.origin k l hl hlive).2.2 hsecret serverNonce
    have hfound := (Host.authenticate_ok hauth).1
    rw [hexisting] at hfound
    have hstored : w.host.secretOf l.attempt.deviceId = some existing.secret := by
      show (w.host.credentialOf (l.attempt.hello P).deviceId).map _ = _
      rw [← hfound]
      rfl
    apply Stage.answered hnonce (hkeys ▸ hframe)
    · show l.received ++ (l.inbox ++ _) = _
      rw [hreceived, hinbox, hsecret]
      rfl
    · show l.inbox ++ _ ≠ []
      exact List.append_ne_nil_of_right_ne_nil _ (List.cons_ne_nil _ _)
    · exact h.tidy.reading.not_mem_erase
    · exact h.tidy.enrollingOn_reading hk
    · exact (hseen _).trans hstored

theorem Inv.hello (hlawful : P.Lawful) (h : Inv P w) {credential : Bytes}
    {next : Host × List ServerMessage} (hl : w.links[k]? = some l) (hk : k ∈ w.host.reading)
    (hnonce : serverNonce.length = 32) (hlength : credential.length = 32)
    (hwaits : w.host.enrols P (l.attempt.hello P) = true -> l.waiting = true)
    (hanswer : Host.Answer P w.host k (l.attempt.hello P) serverNonce credential next) :
    Inv P { w with
      host := next.1,
      links := w.links.modify k
        (Link.deliver next.2 (w.host.enrols P (l.attempt.hello P))) } := by
  have htidy := h.tidy.answer hk hanswer
  cases hanswer with
  | refused hnew =>
      have hless : forall j, j ∈ w.host.reading.erase k -> j ∈ w.host.reading :=
        fun j hj => List.mem_of_mem_erase hj
      rw [hnew]
      apply h.deliver hl htidy rfl rfl rfl h.secrets (fun _ _ hs => hs)
        (fun _ _ hs => .inl hs) (fun _ _ => rfl) hless
      intro hlive
      rw [deliver_nil]
      exact (h.stage k l hl hlive).of_host rfl (hless k) (fun _ hs => hs)
  | enrolled hauth hnew =>
      have henrols := Host.enrols_of_unknown hauth hnew
      rw [henrols] at hwaits ⊢
      exact h.enrolled hl hk hnonce hlength (hwaits rfl) hauth hnew rfl htidy
  | known hauth hexisting hframe =>
      rw [Host.enrols_of_known hauth hexisting]
      exact h.known hlawful hl hk hnonce hauth hexisting hframe rfl htidy

/-!
## The save of a credential
-/

variable {e : Enrolling}

theorem Inv.link_of_enrolling (h : Inv P w) (he : w.host.enrollingOn k = some e) :
    exists l, w.links[k]? = some l := by
  rcases Host.enrollingOn_some he with ⟨hmem, hk⟩
  have hbelow := h.tidy.enrollingBelow e hmem
  rw [hk, h.count] at hbelow
  exact ⟨_, List.getElem?_eq_getElem hbelow⟩

theorem Inv.saved (h : Inv P w) {frame : EncryptedFrame} (he : w.host.enrollingOn k = some e)
    (hframe : encryptFrame P e.keys.serverToClient 1 .s2c
      (Host.credentialPayload e.credential) = .ok frame) {sessions : List HostSession}
    (htidy : ({ w.host with
      enrolling := w.host.enrolling.erase e, sessions := sessions } : Host).Tidy) :
    Inv P { w with
      host := { w.host with
        enrolling := w.host.enrolling.erase e, sessions := sessions },
      links := w.links.modify k (Link.deliver [.credential frame] false) } := by
  rcases Host.enrollingOn_some he with ⟨hmem, hk⟩
  rcases h.link_of_enrolling he with ⟨l, hl⟩
  apply h.deliver hl htidy rfl rfl rfl h.secrets (fun _ _ hs => hs) (fun _ _ hs => .inl hs)
  · intro j hj
    rw [← hk] at hj
    exact (Host.enrollingOn_erase h.tidy hmem j).trans (if_neg hj)
  · intro j hj
    exact hj
  · intro hlive
    have hnone : ({ w.host with enrolling := w.host.enrolling.erase e } :
        Host).enrollingOn k = none := by
      rw [Host.enrollingOn_erase h.tidy hmem k, if_pos hk.symm]
    cases h.stage k l hl hlive with
    | opened _ _ hold =>
        rw [he] at hold
        cases hold
    | answered _ _ _ _ _ hold _ =>
        rw [he] at hold
        cases hold
    | @enrolling serverNonce e' hnonce he' hdevice hkeys hmessages hread hsecret _ =>
        rw [he] at he'
        cases he'
        rw [hkeys] at hframe
        have hboth : l.received ++ (l.inbox ++ [.credential frame]) =
            [.hello (Host.serverHello P l.attempt.secret (l.attempt.hello P) serverNonce),
              .credential frame] := by
          rw [← List.append_assoc, hmessages]
          rfl
        exact .answered hnonce hframe hboth
          (List.append_ne_nil_of_right_ne_nil _ (List.cons_ne_nil _ _)) hread hnone hsecret

theorem Inv.saveFails (h : Inv P w) (he : w.host.enrollingOn k = some e)
    (hpaid : (w.links[k]?).any Link.owed = false)
    (htidy : ({ w.host with enrolling := w.host.enrolling.erase e } : Host).Tidy) :
    Inv P { w with host := { w.host with enrolling := w.host.enrolling.erase e } } := by
  rcases Host.enrollingOn_some he with ⟨hmem, hk⟩
  rcases h.link_of_enrolling he with ⟨l, hl⟩
  rw [hl] at hpaid
  rw [← modify_deliver_nil w.links k]
  apply h.deliver hl htidy rfl rfl rfl h.secrets (fun _ _ hs => hs) (fun _ _ hs => .inl hs)
  · intro j hj
    rw [← hk] at hj
    exact (Host.enrollingOn_erase h.tidy hmem j).trans (if_neg hj)
  · intro j hj
    exact hj
  · intro hlive
    -- a live attempt whose credential is being saved is owed it
    cases h.stage k l hl hlive with
    | opened _ _ hold =>
        rw [he] at hold
        cases hold
    | answered _ _ _ _ _ hold _ =>
        rw [he] at hold
        cases hold
    | enrolling _ _ _ _ _ _ _ howed =>
        have hnot : l.owed = false := hpaid
        rw [howed] at hnot
        cases hnot

end Enrolment
end Pairing
end Perpetual
