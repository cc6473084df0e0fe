import Perpetual.Foundation.Machine
import Perpetual.Pairing.Client

/-!
# Revocation

A revocation deletes the credential and every invite, saves, and then disposes
the sessions it finds.  An `accept` that stored a credential before it adds its
session whenever its own save is done, and an invite made while the revocation
saves admits the device again.  In every run without these two, a completed
revocation leaves nothing of the device until it enrols with an invite made
after it.
-/

namespace Perpetual
namespace Pairing

open Foundation

namespace Revocation

/-- The host, with a record of the invites in the order they were made, of those
made while a revocation was saving, and of the completed revocations: `barred d`
is the number of invites made before the last one of `d`, until `d` enrols with
an invite made after it. -/
structure World where
  host : Host
  issued : List Invite
  suspects : List (Text × Invite)
  barred : Text -> Option Nat

def enrolledBy (P : Platform) (h : Host) (hello : ClientHello) : Option Invite :=
  match h.authenticate P hello with
  | .error _ => none
  | .ok peer =>
      match peer.existing with
      | none => h.inviteOf hello.inviteId
      | some _ => none

def lift (issued : List Invite) (invite : Invite) (bar : Option Nat) : Option Nat :=
  bar.filter (fun n => decide (invite ∉ issued.drop n))

def record (P : Platform) (w : World) (host : Host) : Host.Action -> World
  | .hello _ hello _ _ =>
      match enrolledBy P w.host hello with
      | none => { w with host := host }
      | some invite =>
          { w with
            host := host,
            barred := fun d =>
              if d = hello.deviceId then lift w.issued invite (w.barred d)
              else w.barred d }
  | .createInvite ttl id secret =>
      let invite := w.host.newInvite ttl id secret
      { w with
        host := host,
        issued := w.issued ++ [invite],
        suspects := w.suspects ++
          w.host.revoking.map (fun r => (r.deviceId, invite)) }
  | .revokeSaved c =>
      match w.host.revokingBy c with
      | none => { w with host := host }
      | some r =>
          { w with
            host := host,
            barred := fun d => if d = r.deviceId then some w.issued.length else w.barred d }
  | _ => { w with host := host }

def machine (P : Platform) : Machine World Host.Action where
  start := fun w => exists credentials,
    w = { host := Host.started credentials, issued := [], suspects := [],
          barred := fun _ => none }
  step := fun w a =>
    match w.host.step P a with
    | none => none
    | some (host, _) => some (record P w host a)

/-- A revocation completes while no `accept` of its device waits for its save, and
no device enrols with an invite made while its own revocation was saving. -/
def Settled (P : Platform) (w : World) : Host.Action -> Prop
  | .hello _ hello _ _ =>
      forall invite, invite ∈ enrolledBy P w.host hello ->
        (hello.deviceId, invite) ∉ w.suspects
  | .revokeSaved c =>
      forall r, r ∈ w.host.revokingBy c ->
        forall e, e ∈ w.host.enrolling -> e.deviceId ≠ r.deviceId
  | _ => True

def NoCredential (h : Host) (d : Text) : Prop :=
  forall c, c ∈ h.credentials -> c.deviceId ≠ d

def NoSession (h : Host) (d : Text) : Prop :=
  forall s, s ∈ h.sessions -> s.deviceId ≠ d

/-- Nothing of the device is left, and the invites that could admit it were made
after its revocation or while one was saving. -/
structure Barred (w : World) (d : Text) (n : Nat) : Prop where
  made : n ≤ w.issued.length
  credential : NoCredential w.host d
  session : NoSession w.host d
  enrolling : forall e, e ∈ w.host.enrolling -> e.deviceId ≠ d
  invites : forall i, i ∈ w.host.invites -> i ∈ w.issued.drop n ∨ (d, i) ∈ w.suspects

/-- A revocation that is saving has deleted the credential and every invite. -/
structure Deleted (w : World) (d : Text) : Prop where
  credential : NoCredential w.host d
  invites : forall i, i ∈ w.host.invites -> (d, i) ∈ w.suspects

structure Inv (w : World) : Prop where
  barred : forall d n, w.barred d = some n -> Barred w d n
  revoking : forall r, r ∈ w.host.revoking -> Deleted w r.deviceId

structure Shrinks (h h' : Host) : Prop where
  credentials : forall c, c ∈ h'.credentials ->
    exists c', c' ∈ h.credentials ∧ c'.deviceId = c.deviceId
  sessions : forall s, s ∈ h'.sessions -> s ∈ h.sessions
  enrolling : forall e, e ∈ h'.enrolling -> e ∈ h.enrolling
  invites : forall i, i ∈ h'.invites -> i ∈ h.invites
  revoking : forall r, r ∈ h'.revoking -> r ∈ h.revoking

theorem Shrinks.same {h h' : Host} (hcredentials : h'.credentials = h.credentials)
    (hsessions : h'.sessions = h.sessions) (henrolling : h'.enrolling = h.enrolling)
    (hinvites : h'.invites = h.invites) (hrevoking : h'.revoking = h.revoking) :
    Shrinks h h' := by
  constructor
  · intro c hc
    rw [hcredentials] at hc
    exact ⟨c, hc, rfl⟩
  · rw [hsessions]
    exact fun _ hs => hs
  · rw [henrolling]
    exact fun _ he => he
  · rw [hinvites]
    exact fun _ hi => hi
  · rw [hrevoking]
    exact fun _ hr => hr

variable {d : Text}

theorem Shrinks.noCredential {h h' : Host} (hshrinks : Shrinks h h') (hd : NoCredential h d) :
    NoCredential h' d := by
  intro c hc
  rcases hshrinks.credentials c hc with ⟨c', hc', hid⟩
  rw [← hid]
  exact hd c' hc'

variable {w : World} {host : Host}

theorem Barred.shrinks {n : Nat} (h : Barred w d n) (hshrinks : Shrinks w.host host) :
    Barred { w with host := host } d n :=
  ⟨h.made, hshrinks.noCredential h.credential,
    fun s hs => h.session s (hshrinks.sessions s hs),
    fun e he => h.enrolling e (hshrinks.enrolling e he),
    fun i hi => h.invites i (hshrinks.invites i hi)⟩

theorem Deleted.shrinks (h : Deleted w d) (hshrinks : Shrinks w.host host) :
    Deleted { w with host := host } d :=
  ⟨hshrinks.noCredential h.credential, fun i hi => h.invites i (hshrinks.invites i hi)⟩

theorem Inv.shrinks (h : Inv w) (hshrinks : Shrinks w.host host) : Inv { w with host := host } :=
  ⟨fun d n hd => (h.barred d n hd).shrinks hshrinks,
    fun r hr => (h.revoking r (hshrinks.revoking r hr)).shrinks hshrinks⟩

/-!
## A new session

A session is added for a device with a credential, or with an `accept` that has
stored one.
-/

theorem Inv.complete (h : Inv w) (P : Platform) (k : Nat) (credential : Text) (keys : SessionKeys)
    (hfree : w.barred d = none) (hshrinks : Shrinks w.host host) :
    Inv { w with host := (host.complete P k d credential keys).1 } := by
  unfold Host.complete
  split
  · exact h.shrinks hshrinks
  · constructor
    · intro d' n hd'
      have hbarred := (h.barred d' n hd').shrinks hshrinks
      refine ⟨hbarred.made, hbarred.credential, ?_, hbarred.enrolling, hbarred.invites⟩
      intro s hs
      rcases List.mem_append.mp hs with hs | hs
      · exact hbarred.session s hs
      · rw [List.mem_singleton.mp hs]
        intro heq
        have hd : d = d' := heq
        rw [hd] at hfree
        rw [hfree] at hd'
        cases hd'
    · intro r hr
      have hdeleted := (h.revoking r (hshrinks.revoking r hr)).shrinks hshrinks
      exact ⟨hdeleted.credential, hdeleted.invites⟩

theorem not_barred_of_credential (h : Inv w) {c : HostCredential} (hc : c ∈ w.host.credentials)
    (hd : c.deviceId = d) : w.barred d = none := by
  cases hbar : w.barred d with
  | none => rfl
  | some n => exact absurd hd ((h.barred d n hbar).credential c hc)

/-!
## The steps of the handshake
-/

theorem shrinks_seen (h : Host) (k : Nat) (d : Text) :
    Shrinks h { h with
      reading := h.reading.erase k,
      credentials := Table.updateWhere (fun c => decide (c.deviceId = d))
        (fun c => { c with lastSeenAt := h.now }) h.credentials } := by
  refine ⟨?_, fun _ hs => hs, fun _ he => he, fun _ hi => hi, fun _ hr => hr⟩
  intro c hc
  rcases Table.mem_updateWhere hc with ⟨c', hc', hcase⟩
  refine ⟨c', hc', ?_⟩
  rcases hcase with ⟨_, heq⟩ | ⟨_, heq⟩
  · rw [heq]
  · rw [heq]

theorem Inv.enrol (h : Inv w) {invite : Invite} (hinvite : invite ∈ w.host.invites)
    (hclean : (d, invite) ∉ w.suspects) (reading : List Nat) (credential : HostCredential)
    (e : Enrolling) (hcredential : credential.deviceId = d) (he : e.deviceId = d) :
    Inv { w with
      host := { w.host with
        reading := reading,
        credentials := w.host.credentials ++ [credential],
        enrolling := w.host.enrolling ++ [e] },
      barred := fun d' =>
        if d' = d then lift w.issued invite (w.barred d') else w.barred d' } := by
  constructor
  · intro d' n hbar
    dsimp only at hbar
    by_cases hd : d' = d
    · -- an unsuspected invite was made after the revocation, so the bar is lifted
      rw [if_pos hd] at hbar
      rcases Option.filter_eq_some_iff.mp hbar with ⟨hold, hlift⟩
      rcases (h.barred d' n hold).invites invite hinvite with hafter | hsuspect
      · exact absurd hafter (of_decide_eq_true hlift)
      · rw [hd] at hsuspect
        exact absurd hsuspect hclean
    · rw [if_neg hd] at hbar
      have hbarred := h.barred d' n hbar
      refine ⟨hbarred.made, ?_, hbarred.session, ?_, hbarred.invites⟩
      · intro c hc
        rcases List.mem_append.mp hc with hc | hc
        · exact hbarred.credential c hc
        · rw [List.mem_singleton.mp hc, hcredential]
          exact fun heq => hd heq.symm
      · intro e' he'
        rcases List.mem_append.mp he' with he' | he'
        · exact hbarred.enrolling e' he'
        · rw [List.mem_singleton.mp he', he]
          exact fun heq => hd heq.symm
  · intro r hr
    have hdeleted := h.revoking r hr
    refine ⟨?_, hdeleted.invites⟩
    intro c hc
    rcases List.mem_append.mp hc with hc | hc
    · exact hdeleted.credential c hc
    · rw [List.mem_singleton.mp hc, hcredential]
      intro heq
      rw [heq] at hclean
      exact hclean (hdeleted.invites invite hinvite)

variable {P : Platform}

theorem Inv.hello (h : Inv w) {k : Nat} {hello : ClientHello} {serverNonce credential : Bytes}
    (hsettled : Settled P w (.hello k hello serverNonce credential)) :
    Inv (record P w (w.host.answerHello P k hello serverNonce credential).1
      (.hello k hello serverNonce credential)) := by
  unfold record enrolledBy Host.answerHello
  unfold Settled enrolledBy at hsettled
  dsimp only at hsettled ⊢
  cases hauth : w.host.authenticate P hello with
  | error message => exact h.shrinks (Shrinks.same rfl rfl rfl rfl rfl)
  | ok peer =>
      rw [hauth] at hsettled
      dsimp only at hsettled ⊢
      cases hexisting : peer.existing with
      | none =>
          rcases Host.authenticate_invite hauth hexisting with ⟨invite, hfind, _, _⟩
          rw [hexisting, hfind] at hsettled
          rw [hfind]
          exact h.enrol (Host.inviteOf_some hfind).1 (hsettled invite rfl) _ _ _ rfl rfl
      | some existing =>
          have hfound := (Host.authenticate_ok hauth).1
          rw [hexisting] at hfound
          rcases Host.credentialOf_some hfound.symm with ⟨hmem, hdevice⟩
          exact h.complete P k existing.secret
            (deriveSessionKeys P peer.authSecret peer.clientNonce serverNonce
              hello.deviceId)
            (not_barred_of_credential h hmem hdevice)
            (shrinks_seen w.host k hello.deviceId)

/-!
## The other steps
-/

theorem Inv.saved (h : Inv w) {k : Nat} {e : Enrolling} (he : w.host.enrollingOn k = some e) :
    Inv { w with host := ({ w.host with
      enrolling := w.host.enrolling.erase e }.complete P k e.deviceId e.credential
        e.keys).1 } := by
  have hmem := (Host.enrollingOn_some he).1
  apply h.complete
  · cases hbar : w.barred e.deviceId with
    | none => rfl
    | some n => exact absurd rfl ((h.barred _ n hbar).enrolling e hmem)
  · exact ⟨fun c hc => ⟨c, hc, rfl⟩, fun _ hs => hs, fun _ => List.mem_of_mem_erase,
      fun _ hi => hi, fun _ hr => hr⟩

theorem Inv.createInvite (h : Inv w) (ttl : Nat) (id secret : Bytes) :
    Inv (record P w (w.host.createInvite ttl id secret)
      (.createInvite ttl id secret)) := by
  -- an invite of the host is the new one or was there before
  have hinvites : forall i, i ∈ (w.host.createInvite ttl id secret).invites ->
      i ∈ w.host.invites ∨ i = w.host.newInvite ttl id secret := by
    intro i hi
    rcases List.mem_append.mp hi with hi | hi
    · exact Or.inl (Table.mem_deleteWhere.mp (Table.mem_deleteWhere.mp hi).1).1
    · exact Or.inr (List.mem_singleton.mp hi)
  constructor
  · intro d n hbar
    have hbarred := h.barred d n hbar
    have hdrop : (w.issued ++ [w.host.newInvite ttl id secret]).drop n =
        w.issued.drop n ++ [w.host.newInvite ttl id secret] :=
      List.drop_append_of_le_length hbarred.made
    refine ⟨?_, hbarred.credential, hbarred.session, hbarred.enrolling, ?_⟩
    · show n ≤ (w.issued ++ [_]).length
      rw [List.length_append]
      exact Nat.le_trans hbarred.made (Nat.le_add_right _ _)
    · intro i hi
      show i ∈ (w.issued ++ [w.host.newInvite ttl id secret]).drop n ∨ _
      rw [hdrop]
      rcases hinvites i hi with hi | hi
      · rcases hbarred.invites i hi with hafter | hsuspect
        · exact Or.inl (List.mem_append_left _ hafter)
        · exact Or.inr (List.mem_append_left _ hsuspect)
      · rw [hi]
        exact Or.inl List.mem_concat_self
  · intro r hr
    have hdeleted := h.revoking r hr
    refine ⟨hdeleted.credential, ?_⟩
    intro i hi
    rcases hinvites i hi with hi | hi
    · exact List.mem_append_left _ (hdeleted.invites i hi)
    · apply List.mem_append_right
      rw [hi]
      exact List.mem_map_of_mem (f := fun r => (r.deviceId, _)) hr

theorem Inv.revoke (h : Inv w) (d : Text) : Inv { w with host := w.host.revokeDevice d } := by
  have hcredential : forall d', NoCredential w.host d' ->
      NoCredential (w.host.revokeDevice d) d' := by
    intro d' hd' c hc
    exact hd' c (Table.mem_deleteWhere.mp hc).1
  constructor
  · intro d' n hbar
    have hbarred := h.barred d' n hbar
    refine ⟨hbarred.made, hcredential d' hbarred.credential, hbarred.session, hbarred.enrolling, ?_⟩
    intro i hi
    cases hi
  · intro r hr
    refine ⟨?_, ?_⟩
    · rcases List.mem_append.mp hr with hr | hr
      · exact hcredential _ (h.revoking r hr).credential
      · rw [List.mem_singleton.mp hr]
        intro c hc
        exact of_decide_eq_false (Table.mem_deleteWhere.mp hc).2
    · intro i hi
      cases hi

theorem Inv.revokeSaved (h : Inv w) {c : Nat} {r : Revoking} (hr : w.host.revokingBy c = some r)
    (henrolling : forall e, e ∈ w.host.enrolling -> e.deviceId ≠ r.deviceId) :
    Inv { w with
      host := { w.host with
        revoking := w.host.revoking.erase r }.disposeSessions r.deviceId,
      barred := fun d =>
        if d = r.deviceId then some w.issued.length else w.barred d } := by
  have hshrinks : Shrinks w.host ({ w.host with
      revoking := w.host.revoking.erase r }.disposeSessions r.deviceId) :=
    ⟨fun c hc => ⟨c, hc, rfl⟩, fun s hs => (Table.mem_deleteWhere.mp hs).1,
      fun _ he => he, fun _ hi => hi, fun _ => List.mem_of_mem_erase⟩
  have hdeleted := h.revoking r (Host.revokingBy_some hr).1
  constructor
  · intro d n hbar
    dsimp only at hbar
    by_cases hd : d = r.deviceId
    · rw [if_pos hd] at hbar
      injection hbar with hn
      rw [hd, ← hn]
      refine ⟨Nat.le_refl _, hdeleted.credential, ?_, henrolling, ?_⟩
      · intro s hs
        exact of_decide_eq_false (Table.mem_deleteWhere.mp hs).2
      · intro i hi
        exact Or.inr (hdeleted.invites i hi)
    · rw [if_neg hd] at hbar
      have hbarred := (h.barred d n hbar).shrinks hshrinks
      exact ⟨hbarred.made, hbarred.credential, hbarred.session, hbarred.enrolling, hbarred.invites⟩
  · intro r' hr'
    have hdeleted' := h.revoking r' (hshrinks.revoking r' hr')
    exact ⟨hdeleted'.credential, hdeleted'.invites⟩

theorem Inv.step {w' : World} {a : Host.Action} (h : Inv w) (hsettled : Settled P w a)
    (hstep : (machine P).step w a = some w') : Inv w' := by
  unfold machine at hstep
  dsimp only at hstep
  cases hhost : w.host.step P a with
  | none =>
      rw [hhost] at hstep
      cases hstep
  | some next =>
      obtain ⟨host, messages⟩ := next
      rw [hhost] at hstep
      cases hstep
      have heffect := Host.effect_of_step hhost
      cases heffect with
      | refused _ => exact h.shrinks (Shrinks.same rfl rfl rfl rfl rfl)
      | connect _ => exact h.shrinks (Shrinks.same rfl rfl rfl rfl rfl)
      | hello _ _ _ => exact h.hello hsettled
      | readFails _ => exact h.shrinks (Shrinks.same rfl rfl rfl rfl rfl)
      | saved he => exact h.saved he
      | saveFails _ =>
          apply h.shrinks
          exact ⟨fun c hc => ⟨c, hc, rfl⟩, fun _ hs => hs,
            fun _ => List.mem_of_mem_erase, fun _ hi => hi, fun _ hr => hr⟩
      | closed _ =>
          apply h.shrinks
          exact ⟨fun c hc => ⟨c, hc, rfl⟩, fun _ hs => (Table.mem_deleteWhere.mp hs).1,
            fun _ he => he, fun _ hi => hi, fun _ hr => hr⟩
      | createInvite _ _ => exact h.createInvite _ _ _
      | revoke d => exact h.revoke d
      | revokeSaved hr =>
          unfold record
          dsimp only
          rw [hr]
          exact h.revokeSaved hr (hsettled _ hr)
      | revokeSaveFails _ =>
          apply h.shrinks
          exact ⟨fun c hc => ⟨c, hc, rfl⟩, fun _ hs => hs, fun _ he => he,
            fun _ hi => hi, fun _ => List.mem_of_mem_erase⟩
      | dispose =>
          apply h.shrinks
          refine ⟨fun c hc => ⟨c, hc, rfl⟩, ?_, fun _ he => he, ?_, fun _ hr => hr⟩
          · intro s hs
            cases hs
          · intro i hi
            cases hi
      | tick _ => exact h.shrinks (Shrinks.same rfl rfl rfl rfl rfl)

theorem inv_of_reachable (h : (machine P).ReachableUnder (Settled P) w) : Inv w := by
  refine Machine.ReachableUnder.invariant (P := Inv) ?_ ?_ h
  · rintro w0 ⟨credentials, rfl⟩
    constructor
    · intro d n hbar
      cases hbar
    · intro r hr
      cases hr
  · intro w0 a w1 hinv hsettled hstep
    exact hinv.step hsettled hstep

/-!
## Revocation is immediate
-/

/-- After a completed revocation, and until the device enrols with an invite made
after it, the host has no session and no credential of the device. -/
theorem revoked_device_is_gone
    {P : Platform} {w : World} (h : (machine P).ReachableUnder (Settled P) w)
    {d : Text} {n : Nat} (hbarred : w.barred d = some n) :
    NoSession w.host d ∧ NoCredential w.host d := by
  have hd := (inv_of_reachable h).barred d n hbarred
  exact ⟨hd.session, hd.credential⟩

instance (P : Platform) (w : World) (a : Host.Action) : Decidable (Settled P w a) := by
  unfold Settled
  split <;> infer_instance

def firstWorld : World :=
  { host := Host.started [], issued := [], suspects := [], barred := fun _ => none }

theorem firstWorld_start (P : Platform) : (machine P).start firstWorld :=
  ⟨[], rfl⟩

def device : Text := "device-1".toList

def inviteBytes : Bytes := List.replicate 16 1
def secretBytes : Bytes := List.replicate 32 2
def credentialBytes : Bytes := List.replicate 32 3

def joinHello : ClientHello :=
  clientHello plainPlatform (Base64url.encode inviteBytes) (Base64url.encode secretBytes)
    device (List.replicate 32 4)

def enrolledThenRevoked : List Host.Action :=
  [.createInvite 0 inviteBytes secretBytes, .connect,
    .hello 0 joinHello (List.replicate 32 5) credentialBytes, .saved 0,
    .revoke device, .revokeSaved 0]

/-- The revocation completes while the enrolment is being saved. -/
def revokedWhileEnrolling : List Host.Action :=
  [.createInvite 0 inviteBytes secretBytes, .connect,
    .hello 0 joinHello (List.replicate 32 5) credentialBytes,
    .revoke device, .revokeSaved 0, .saved 0]

theorem revoked_device_is_gone_afterEnrolment :
    exists w, (machine plainPlatform).ReachableUnder (Settled plainPlatform) w ∧
      w.barred device = some 1 ∧ NoSession w.host device ∧
        NoCredential w.host device := by
  have hrun : Option.any (fun w => decide (w.barred device = some 1))
      ((machine plainPlatform).runUnder (Settled plainPlatform) firstWorld
        enrolledThenRevoked) = true := by
    decide +kernel
  rcases Machine.exists_reachable_of_runUnder _ (firstWorld_start _) hrun with ⟨w, hw, hbarred⟩
  have hone := of_decide_eq_true hbarred
  exact ⟨w, hw, hone, revoked_device_is_gone hw hone⟩

theorem session_added_behind_the_revocation :
    ¬ (forall (P : Platform) (w : World) (d : Text) (n : Nat),
        (machine P).Reachable w -> w.barred d = some n ->
          NoSession w.host d ∧ NoCredential w.host d) := by
  intro hclaim
  have hrun : Option.any (fun w => decide (w.barred device = some 1 ∧
      { connection := 0, deviceId := device } ∈ w.host.sessions))
      ((machine plainPlatform).runFrom firstWorld revokedWhileEnrolling) = true := by
    decide +kernel
  rcases Machine.exists_reachable_of_runFrom _ (firstWorld_start _) hrun with ⟨w, hw, hstate⟩
  rcases of_decide_eq_true hstate with ⟨hbarred, hsession⟩
  exact (hclaim plainPlatform w device 1 hw hbarred).1 _ hsession rfl

end Revocation
end Pairing
end Perpetual
