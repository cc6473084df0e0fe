import Perpetual.Foundation.Machine
import Perpetual.Pairing.Client

/-!
# Enrolment

Devices that join a host, with the connections between them.  A device is
admitted with the secret of an invite until the host has stored a credential for
it, and from then on with the credential only; the credential reaches the device
in a frame after it was stored.  A connection that is lost in between locks the
device out.  In every run without such a loss, a device is admitted with the
secret it holds.
-/

namespace Perpetual
namespace Pairing

open Foundation

namespace Enrolment

structure Saved where
  inviteId : Text
  credential : Text
  deriving DecidableEq

/-- A connection, with the attempt that opened it: what the attempt has read, what
the host has written and the attempt not read, whether the attempt is still
waiting, and whether the host has stored a new credential that the attempt has
not received. -/
structure Link where
  attempt : Attempt
  received : List ServerMessage
  inbox : List ServerMessage
  waiting : Bool
  owed : Bool

/-- The host, the connections in the order they were opened, the invites made,
those made since the host last dropped its invites, the devices that were
revoked, and what each device holds. -/
structure World where
  host : Host
  links : List Link
  issued : List Invite
  current : List Invite
  revoked : List Text
  held : Text -> Option Saved

/-- Whom a device connects to: with an invite, or as a saved peer. -/
inductive Peer where
  | invite (invite : Invite)
  | saved

inductive Action where
  | host (action : Host.Action)
  | connect (deviceId : Text) (peer : Peer) (nonce : Bytes)
  | receive (connection : Nat)
  | giveUp (connection : Nat)

/-- The attempt of `connectCollaborationPeer` at one address. -/
def World.attempt (w : World) (deviceId : Text) (nonce : Bytes) : Peer -> Option Attempt
  | .invite invite =>
      if invite ∈ w.issued ∧ w.host.now ≤ invite.expiresAt then
        some { inviteId := invite.inviteId, secret := invite.secret,
               deviceId := deviceId, nonce := nonce }
      else none
  | .saved =>
      (w.held deviceId).map (fun s =>
        { inviteId := s.inviteId, secret := s.credential,
          deviceId := deviceId, nonce := nonce })

def Link.deliver (messages : List ServerMessage) (owed : Bool) (l : Link) : Link :=
  { l with inbox := l.inbox ++ messages, owed := l.owed || owed }

def World.record (P : Platform) (w : World) (host : Host)
    (messages : List ServerMessage) : Host.Action -> World
  | .hello k hello _ _ =>
      { w with host := host,
               links := w.links.modify k (Link.deliver messages (w.host.enrols P hello)) }
  | .saved k =>
      { w with host := host, links := w.links.modify k (Link.deliver messages false) }
  | .createInvite ttl id secret =>
      { w with host := host,
               issued := w.issued ++ [w.host.newInvite ttl id secret],
               current := w.current ++ [w.host.newInvite ttl id secret] }
  | .revoke d => { w with host := host, revoked := w.revoked ++ [d], current := [] }
  | .dispose => { w with host := host, current := [] }
  | _ => { w with host := host }

/-- The host reads the hello its peer sent; only attempts open connections; and
the random identifier of an invite is new. -/
def Permitted (P : Platform) (w : World) : Host.Action -> Bool
  | .connect => false
  | .hello k hello _ _ =>
      (w.links[k]?).any (fun l => decide (hello = l.attempt.hello P))
  | .createInvite _ id _ =>
      decide (Base64url.encode id ∉ w.issued.map Invite.inviteId)
  | _ => true

def World.read (P : Platform) (w : World) (k : Nat) (l : Link) (message : ServerMessage)
    (rest : List ServerMessage) : World :=
  let received := l.received ++ [message]
  let read := { l with received := received, inbox := rest }
  match l.attempt.outcome P received with
  | .waiting => { w with links := w.links.set k read }
  | .failed _ => { w with links := w.links.set k { read with waiting := false } }
  | .connected credential =>
      { w with
        links := w.links.set k { read with waiting := false, owed := false },
        held := fun d =>
          if d = l.attempt.deviceId then
            some { inviteId := l.attempt.inviteId, credential := credential }
          else w.held d }

def step (P : Platform) (w : World) : Action -> Option World
  | .host a =>
      if Permitted P w a then
        match w.host.step P a with
        | none => none
        | some (host, messages) => some (w.record P host messages a)
      else none
  | .connect deviceId peer nonce =>
      if nonce.length = 32 then
        match w.attempt deviceId nonce peer, w.host.step P .connect with
        | some attempt, some (host, _) =>
            some { w with
              host := host,
              links := w.links ++ [{ attempt := attempt, received := [], inbox := [],
                                     waiting := true, owed := false }] }
        | _, _ => none
      else none
  | .receive k =>
      match w.links[k]? with
      | none => none
      | some l =>
          match l.waiting, l.inbox with
          | true, message :: rest => some (w.read P k l message rest)
          | _, _ => none
  | .giveUp k =>
      match w.links[k]? with
      | none => none
      | some l =>
          if l.waiting then
            some { w with links := w.links.set k { l with waiting := false } }
          else none

/-- A host that has loaded the credentials.  Each device it has a credential of
holds it. -/
structure Started (w : World) : Prop where
  host : exists credentials, w.host = Host.started credentials
  links : w.links = []
  issued : w.issued = []
  current : w.current = []
  secrets : forall c, c ∈ w.host.credentials -> IsSecret c.secret
  held : forall d s, w.held d = some s ->
    w.host.secretOf d = some s.credential ∧ safeIdentifier s.inviteId 128 = true
  owned : forall d secret, w.host.secretOf d = some secret ->
    exists s, w.held d = some s ∧ s.credential = secret

def machine (P : Platform) : Machine World Action where
  start := Started
  step := step P

/-- No connection is lost while the host owes a new credential on it: the device
waits when the host stores it, the save does not fail, and the device does not
give up before it has the credential. -/
def Unbroken (P : Platform) (w : World) : Action -> Prop
  | .host (.hello k hello _ _) =>
      w.host.enrols P hello = true -> (w.links[k]?).any Link.waiting = true
  | .host (.saveFails k) => (w.links[k]?).any Link.owed = false
  | .giveUp k => (w.links[k]?).any Link.owed = false
  | _ => True

instance (P : Platform) (w : World) (a : Action) : Decidable (Unbroken P w a) := by
  unfold Unbroken
  split <;> infer_instance

/-!
## The secret a device holds
-/

/-- The attempt of a device with the secret it holds: the credential it received,
or else the secret of the invite. -/
def World.holding (w : World) (deviceId : Text) (invite : Invite) (nonce : Bytes) :
    Attempt :=
  match w.held deviceId with
  | some s => { inviteId := s.inviteId, secret := s.credential,
                deviceId := deviceId, nonce := nonce }
  | none => { inviteId := invite.inviteId, secret := invite.secret,
              deviceId := deviceId, nonce := nonce }

/-- An attempt of the device waits for a credential the host has stored. -/
def World.Owes (w : World) (d : Text) : Prop :=
  exists l, l ∈ w.links ∧ l.waiting = true ∧ l.owed = true ∧ l.attempt.deviceId = d

/-- The host reads from a connection that is opened now, unless it is full, and
answers the hello. -/
structure Accepts (P : Platform) (h : Host) (hello : ClientHello) : Prop where
  reads : ¬ h.Full -> exists taken, h.step P .connect = some (taken, []) ∧
    h.connections ∈ taken.reading
  answers : forall (k : Nat) (serverNonce credential : Bytes),
    exists answer rest,
      (h.answerHello P k hello serverNonce credential).2 = .hello answer :: rest

end Enrolment
end Pairing
end Perpetual
