import Perpetual.Foundation.Cells
import Perpetual.Pairing.Stages

/-!
# Recovery

The steps of a device keep the invariant too, so it holds in every run in which no
connection is lost while the host owes a credential on it.  In these runs a device
is accepted with the secret it holds.
-/

namespace Perpetual
namespace Pairing

open Foundation

namespace Enrolment

/-!
## The steps of a device
-/

variable {P : Platform} {w : World}

theorem Inv.origin_of_attempt (h : Inv P w) {deviceId : Text} {peer : Peer} {nonce : Bytes}
    {attempt : Attempt} (hnonce : nonce.length = 32)
    (hattempt : w.attempt deviceId nonce peer = some attempt)
    (hlive : attempt.deviceId ∉ w.revoked) :
    Origin w attempt ∧ safeIdentifier attempt.inviteId 128 = true ∧
      attempt.nonce.length = 32 := by
  cases peer with
  | invite i =>
      simp only [World.attempt] at hattempt
      split at hattempt
      · rename_i hissued
        cases hattempt
        exact ⟨Or.inl ⟨i, hissued.1, rfl, rfl⟩, (h.invitation i hissued.1).2, hnonce⟩
      · cases hattempt
  | saved =>
      simp only [World.attempt] at hattempt
      rcases Option.map_eq_some_iff.mp hattempt with ⟨s, hs, heq⟩
      rw [← heq] at hlive ⊢
      exact ⟨Or.inr ⟨s, hs, rfl⟩, (h.held deviceId s hlive hs).2, hnonce⟩

theorem Inv.connect (h : Inv P w) {host : Host} {deviceId : Text} {peer : Peer} {nonce : Bytes}
    {attempt : Attempt} (hnonce : nonce.length = 32)
    (hattempt : w.attempt deviceId nonce peer = some attempt) (htidy : host.Tidy)
    (hcount : host.connections = w.host.connections + 1) (hnow : host.now = w.host.now)
    (hinvites : host.invites = w.host.invites)
    (hcredentials : host.credentials = w.host.credentials)
    (henrolling : host.enrolling = w.host.enrolling)
    (hreading : forall k, k ∈ host.reading -> k ∈ w.host.reading ∨ k = w.host.connections) :
    Inv P { w with
      host := host,
      links := w.links ++ [{ attempt := attempt, received := [], inbox := [],
                             waiting := true, owed := false }] } := by
  have hsecret := Host.secretOf_of_credentials hcredentials
  have hsame : forall k, host.enrollingOn k = w.host.enrollingOn k := by
    intro k
    unfold Host.enrollingOn
    rw [henrolling]
  refine ⟨htidy, ?_, h.unique, h.invitation, ?_, ?_, ?_, ?_, ?_, ?_, ?_⟩
  · rw [hcount, h.count, List.length_append, List.length_singleton]
  · intro i hi
    exact h.invites i (hinvites ▸ hi)
  · intro i hi
    rw [hnow, hinvites]
    exact h.current i hi
  · intro c hc
    exact h.secrets c (hcredentials ▸ hc)
  · intro d s hd hs
    rw [hsecret]
    exact h.held d s hd hs
  · intro d secret hd hs
    rw [hsecret] at hs
    rcases h.owned d secret hd hs with hheld | ⟨k, l, hl, hfields⟩
    · exact Or.inl hheld
    · exact Or.inr ⟨k, l, Cells.getElem?_concat_of_some hl _, hfields⟩
  · intro k l hl hlive
    rcases Cells.getElem?_concat_cases hl with hold | ⟨_, rfl⟩
    · exact h.origin k l hold hlive
    · exact h.origin_of_attempt hnonce hattempt hlive.2
  · intro k l hl hlive
    rcases Cells.getElem?_concat_cases hl with hold | ⟨hk, rfl⟩
    · have hbelow := (List.getElem?_eq_some_iff.mp hold).1
      apply (h.stage k l hold hlive).of_host (hsame k)
      · intro hmem
        rcases hreading k hmem with hmem | heq
        · exact hmem
        · rw [h.count] at heq
          omega
      · intro secret hs
        rw [hsecret]
        exact hs
    · apply Stage.opened rfl rfl
      rw [hsame, Host.enrollingOn_eq_none_iff]
      intro e he heq
      have hbelow := h.tidy.enrollingBelow e he
      rw [h.count] at hbelow
      omega

variable {k : Nat} {l : Link}

theorem Inv.relink (h : Inv P w) {l' : Link} (hl : w.links[k]? = some l)
    (hattempt : l'.attempt = l.attempt) (hwaiting : l'.waiting = true -> l.waiting = true)
    (howed : Live w l -> l.owed = true -> l'.waiting = true ∧ l'.owed = true)
    (hstage : Live w l -> l'.waiting = true -> Stage P w.host k l') :
    Inv P { w with links := w.links.set k l' } := by
  have hold : Live w l' -> Live w l := by
    intro hlive
    exact ⟨hwaiting hlive.1, hattempt ▸ hlive.2⟩
  refine ⟨h.tidy, ?_, h.unique, h.invitation, h.invites, h.current, h.secrets, h.held, ?_, ?_, ?_⟩
  · rw [List.length_set]
    exact h.count
  · intro d secret hd hs
    rcases h.owned d secret hd hs with hheld | ⟨j, lj, hlj, hwaits, howes, hdevice⟩
    · exact Or.inl hheld
    · apply Or.inr
      by_cases hj : j = k
      · rw [hj, hl] at hlj
        cases hlj
        have hlive : Live w l := ⟨hwaits, hdevice ▸ hd⟩
        rcases howed hlive howes with ⟨hwaits', howes'⟩
        exact ⟨k, l', Cells.getElem?_set_of_some hl l', hwaits', howes', hattempt ▸ hdevice⟩
      · exact ⟨j, lj, (List.getElem?_set_ne (Ne.symm hj)).trans hlj, hwaits, howes, hdevice⟩
  · intro j lj hlj hlive
    rcases Cells.getElem?_set_cases hlj with ⟨_, rfl⟩ | ⟨_, hsame⟩
    · rw [hattempt]
      exact h.origin k l hl (hold hlive)
    · exact h.origin j lj hsame hlive
  · intro j lj hlj hlive
    rcases Cells.getElem?_set_cases hlj with ⟨rfl, rfl⟩ | ⟨_, hsame⟩
    · exact hstage (hold hlive) hlive.1
    · exact h.stage j lj hsame hlive

theorem Inv.connected (h : Inv P w) {l' : Link} {credential : Text} (hl : w.links[k]? = some l)
    (hattempt : l'.attempt = l.attempt) (hends : l'.waiting = false)
    (hid : l.attempt.deviceId ∉ w.revoked -> safeIdentifier l.attempt.inviteId 128 = true)
    (hsecret : l.attempt.deviceId ∉ w.revoked ->
      w.host.secretOf l.attempt.deviceId = some credential) :
    Inv P { w with
      links := w.links.set k l',
      held := fun d =>
        if d = l.attempt.deviceId then
          some { inviteId := l.attempt.inviteId, credential := credential }
        else w.held d } := by
  have hother : forall (j : Nat) (lj : Link), (w.links.set k l')[j]? = some lj ->
      Live w lj -> w.links[j]? = some lj := by
    intro j lj hlj hlive
    rcases Cells.getElem?_set_cases hlj with ⟨_, rfl⟩ | ⟨_, hsame⟩
    · have hwaits := hlive.1
      rw [hends] at hwaits
      cases hwaits
    · exact hsame
  refine ⟨h.tidy, ?_, h.unique, h.invitation, h.invites, h.current, h.secrets, ?_, ?_, ?_, ?_⟩
  · rw [List.length_set]
    exact h.count
  · intro d s hd hs
    dsimp only at hs
    split at hs
    · rename_i heq
      cases hs
      rw [heq]
      rw [heq] at hd
      exact ⟨hsecret hd, hid hd⟩
    · exact h.held d s hd hs
  · intro d secret hd hs
    by_cases heq : d = l.attempt.deviceId
    · have hstored := hsecret (heq ▸ hd)
      rw [← heq] at hstored
      have hequal : credential = secret := by
        rw [hstored] at hs
        injection hs
      exact Or.inl ⟨_, if_pos heq, hequal⟩
    · rcases h.owned d secret hd hs with ⟨s, hheld, hcredential⟩ |
        ⟨j, lj, hlj, hwaits, howes, hdevice⟩
      · exact Or.inl ⟨s, (if_neg heq).trans hheld, hcredential⟩
      · apply Or.inr
        have hj : j ≠ k := by
          intro hj
          rw [hj, hl] at hlj
          cases hlj
          exact heq hdevice.symm
        exact ⟨j, lj, (List.getElem?_set_ne (Ne.symm hj)).trans hlj, hwaits, howes, hdevice⟩
  · intro j lj hlj hlive
    have hsame := hother j lj hlj hlive
    rcases h.origin j lj hsame hlive with ⟨horigin, hrest⟩
    refine ⟨?_, hrest⟩
    rcases horigin with hinvite | ⟨s, hs, hcredential⟩
    · exact Or.inl hinvite
    · apply Or.inr
      by_cases heq : lj.attempt.deviceId = l.attempt.deviceId
      · -- the device held the same credential before
        have hstored := hsecret (heq ▸ hlive.2)
        have hbefore := (h.held _ s hlive.2 hs).1
        rw [heq, hstored] at hbefore
        injection hbefore with hbefore
        exact ⟨_, if_pos heq, hbefore.trans hcredential⟩
      · exact ⟨s, (if_neg heq).trans hs, hcredential⟩
  · intro j lj hlj hlive
    exact h.stage j lj (hother j lj hlj hlive) hlive

theorem Inv.receive_revoked (h : Inv P w) {message : ServerMessage} {rest : List ServerMessage}
    (hl : w.links[k]? = some l) (hrevoked : l.attempt.deviceId ∈ w.revoked) :
    Inv P (w.read P k l message rest) := by
  have hdead : ¬ Live w l := fun hlive => hlive.2 hrevoked
  unfold World.read
  dsimp only
  split
  · apply h.relink hl
    · rfl
    · exact fun hwaits => hwaits
    · exact fun hlive => absurd hlive hdead
    · exact fun hlive => absurd hlive hdead
  · apply h.relink hl
    · rfl
    · intro hwaits
      cases hwaits
    · exact fun hlive => absurd hlive hdead
    · exact fun hlive => absurd hlive hdead
  · exact h.connected hl rfl rfl (fun hlive => absurd hrevoked hlive)
      (fun hlive => absurd hrevoked hlive)

theorem Inv.receive (hlawful : P.Lawful) (h : Inv P w) {message : ServerMessage}
    {rest : List ServerMessage} (hl : w.links[k]? = some l) (hwaits : l.waiting = true)
    (hinbox : l.inbox = message :: rest) : Inv P (w.read P k l message rest) := by
  by_cases hrevoked : l.attempt.deviceId ∈ w.revoked
  · exact h.receive_revoked hl hrevoked
  have hlive : Live w l := ⟨hwaits, hrevoked⟩
  cases h.stage k l hl hlive with
  | opened _ hempty _ =>
      rw [hempty] at hinbox
      cases hinbox
  | enrolling hnonce he hdevice hkeys hmessages hread hsecret howed =>
      have hall : l.received ++ [message] ++ rest = _ :=
        (List.append_cons l.received message rest).symm.trans (hinbox ▸ hmessages)
      rcases List.append_eq_singleton_iff.mp hall with ⟨hnil, _⟩ | ⟨hone, hrest⟩
      · exact absurd hnil (List.append_ne_nil_of_right_ne_nil _ (List.cons_ne_nil _ _))
      have houtcome := outcome_serverHello P l.attempt hnonce
      rw [← hone] at houtcome
      unfold World.read
      dsimp only
      rw [houtcome]
      apply h.relink hl
      · rfl
      · exact fun _ => hwaits
      · exact fun _ howes => ⟨hwaits, howes⟩
      intro _ _
      exact .enrolling hnonce he hdevice hkeys hall hread hsecret howed
  | @answered serverNonce _ _ hnonce hframe hmessages _ hread hnone hsecret =>
      have hall : l.received ++ [message] ++ rest = _ :=
        (List.append_cons l.received message rest).symm.trans (hinbox ▸ hmessages)
      cases rest with
      | nil =>
          have houtcome := outcome_credential hlawful l.attempt hnonce
            (secretOf_isSecret h hsecret) hframe
          rw [List.append_nil] at hall
          rw [← hall] at houtcome
          unfold World.read
          dsimp only
          rw [houtcome]
          exact h.connected hl rfl rfl (fun _ => (h.origin k l hl hlive).2.1) (fun _ => hsecret)
      | cons next more =>
          have hfirst : l.received ++ [message] =
              [.hello (Host.serverHello P l.attempt.secret (l.attempt.hello P)
                serverNonce)] := by
            have hlength := congrArg List.length hall
            simp only [List.length_append, List.length_cons, List.length_nil] at hlength
            have htake := congrArg (List.take (l.received.length + 1)) hall
            rw [List.take_left' (by simp)] at htake
            have hzero : l.received.length = 0 := by omega
            rw [hzero] at htake
            exact htake
          have houtcome := outcome_serverHello P l.attempt hnonce
          rw [← hfirst] at houtcome
          unfold World.read
          dsimp only
          rw [houtcome]
          apply h.relink hl
          · rfl
          · exact fun _ => hwaits
          · exact fun _ howes => ⟨hwaits, howes⟩
          intro _ _
          exact .answered hnonce hframe hall (List.cons_ne_nil _ _) hread hnone hsecret

theorem Inv.giveUp (h : Inv P w) (hl : w.links[k]? = some l) (hpaid : l.owed = false) :
    Inv P { w with links := w.links.set k { l with waiting := false } } := by
  apply h.relink hl
  · rfl
  · intro hwaits
    cases hwaits
  · intro _ howes
    rw [hpaid] at howes
    cases howes
  · intro _ hwaits
    cases hwaits

/-!
## Every run without a loss
-/

theorem Inv.host (hlawful : P.Lawful) (h : Inv P w) {a : Host.Action} {host : Host}
    {messages : List ServerMessage} (hpermitted : Permitted P w a = true)
    (hunbroken : Unbroken P w (.host a)) (heffect : Host.Effect P w.host a host messages) :
    Inv P (w.record P host messages a) := by
  have htidy := h.tidy.effect heffect
  cases heffect with
  | refused _ => cases hpermitted
  | connect _ => cases hpermitted
  | @hello k hello serverNonce credential hk hnonce hlength =>
      cases hl : w.links[k]? with
      | none =>
          simp only [Permitted, hl] at hpermitted
          cases hpermitted
      | some l =>
          simp only [Permitted, hl] at hpermitted
          have hhello : hello = l.attempt.hello P := of_decide_eq_true hpermitted
          simp only [Unbroken, hl] at hunbroken
          rw [hhello] at hunbroken ⊢
          exact h.hello hlawful hl hk hnonce hlength hunbroken
            (Host.answerHello_cases P w.host k _ serverNonce credential)
  | readFails _ =>
      exact h.of_host htidy rfl h.invites h.current rfl rfl (fun _ hk => List.mem_of_mem_erase hk)
  | @saved k e he =>
      rcases Host.complete_eq P { w.host with enrolling := w.host.enrolling.erase e } k
        e.deviceId e.credential e.keys with ⟨frame, hframe, heq⟩
      rw [heq] at htidy ⊢
      exact h.saved he hframe htidy
  | saveFails he => exact h.saveFails he hunbroken htidy
  | closed _ =>
      exact h.of_host htidy rfl h.invites h.current rfl rfl (fun _ hk => hk)
  | createInvite hid hsecret =>
      exact h.createInvite hid hsecret (of_decide_eq_true hpermitted) htidy
  | revoke d => exact h.revoke d htidy
  | revokeSaved _ =>
      exact h.of_host htidy rfl h.invites h.current rfl rfl (fun _ hk => hk)
  | revokeSaveFails _ =>
      exact h.of_host htidy rfl h.invites h.current rfl rfl (fun _ hk => hk)
  | dispose =>
      apply h.of_host htidy rfl _ _ rfl rfl (fun _ hk => hk)
      · intro i hi
        cases hi
      · intro i hi
        cases hi
  | tick ms => exact h.tick htidy

theorem Inv.step (hlawful : P.Lawful) {w' : World} {a : Action} (h : Inv P w)
    (hunbroken : Unbroken P w a) (hstep : step P w a = some w') : Inv P w' := by
  cases a with
  | host a =>
      simp only [Enrolment.step] at hstep
      split at hstep
      · rename_i hpermitted
        split at hstep
        · cases hstep
        · rename_i host messages hhost
          cases hstep
          exact h.host hlawful hpermitted hunbroken (Host.effect_of_step hhost)
      · cases hstep
  | connect deviceId peer nonce =>
      simp only [Enrolment.step] at hstep
      split at hstep
      · rename_i hnonce
        split at hstep
        · rename_i attempt host _ hattempt hhost
          cases hstep
          have heffect := Host.effect_of_step hhost
          have htidy := h.tidy.effect heffect
          cases heffect with
          | refused _ =>
              exact h.connect hnonce hattempt htidy rfl rfl rfl rfl rfl (fun _ hk => Or.inl hk)
          | connect _ =>
              apply h.connect hnonce hattempt htidy rfl rfl rfl rfl rfl
              intro k hk
              rcases List.mem_append.mp hk with hk | hk
              · exact Or.inl hk
              · exact Or.inr (List.mem_singleton.mp hk)
        · cases hstep
      · cases hstep
  | receive k =>
      simp only [Enrolment.step] at hstep
      split at hstep
      · cases hstep
      · rename_i l hl
        split at hstep
        · rename_i message rest hwaits hinbox
          cases hstep
          exact h.receive hlawful hl hwaits hinbox
        · cases hstep
  | giveUp k =>
      simp only [Enrolment.step] at hstep
      split at hstep
      · cases hstep
      · rename_i l hl
        split at hstep
        · cases hstep
          simp only [Unbroken, hl] at hunbroken
          exact h.giveUp hl hunbroken
        · cases hstep

theorem inv_of_started (h : Started w) : Inv P w := by
  rcases h.host with ⟨credentials, hhost⟩
  have hreading : w.host.reading = [] := by rw [hhost]; rfl
  have henrolling : w.host.enrolling = [] := by rw [hhost]; rfl
  have hinvites : w.host.invites = [] := by rw [hhost]; rfl
  have hlinks : forall k : Nat, w.links[k]? = none := by
    intro k
    rw [h.links]
    rfl
  constructor
  · constructor
    · rw [hreading]
      exact List.nodup_nil
    · intro k hk
      rw [hreading] at hk
      cases hk
    · rw [henrolling]
      exact List.nodup_nil
    · intro e he
      rw [henrolling] at he
      cases he
    · intro e he
      rw [henrolling] at he
      cases he
  · rw [hhost, h.links]
    rfl
  · rw [h.issued]
    exact List.nodup_nil
  · intro i hi
    rw [h.issued] at hi
    cases hi
  · intro i hi
    rw [hinvites] at hi
    cases hi
  · intro i hi
    rw [h.current] at hi
    cases hi
  · exact h.secrets
  · intro d s _ hs
    exact h.held d s hs
  · intro d secret _ hs
    exact Or.inl (h.owned d secret hs)
  · intro k l hl
    rw [hlinks] at hl
    cases hl
  · intro k l hl
    rw [hlinks] at hl
    cases hl

theorem inv_of_reachable (hlawful : P.Lawful) (h : (machine P).ReachableUnder (Unbroken P) w) :
    Inv P w := by
  apply Machine.ReachableUnder.invariant (P := Inv P) _ _ h
  · intro w hstart
    exact inv_of_started hstart
  · intro w a w' hinv hunbroken hstep
    exact hinv.step hlawful hunbroken hstep

/-!
## Enrolment is recoverable
-/

theorem accepts_of_authenticate {h : Host} {hello : ClientHello} {peer : Host.Authenticated}
    (hauth : h.authenticate P hello = .ok peer) : Accepts P h hello := by
  constructor
  · intro hroom
    have hstep : h.step P .connect =
        some ({ h with reading := h.reading ++ [h.connections],
                       connections := h.connections + 1 }, []) :=
      if_neg hroom
    exact ⟨_, hstep, List.mem_concat_self⟩
  · intro k serverNonce credential
    unfold Host.answerHello
    rw [hauth]
    dsimp only
    cases peer.existing with
    | none => exact ⟨_, _, rfl⟩
    | some existing => exact ⟨_, _, rfl⟩

theorem accepts_attempt {h : Host} {a : Attempt} (hdevice : safeIdentifier a.deviceId 128 = true)
    (hinvite : safeIdentifier a.inviteId 128 = true) (hnonce : a.nonce.length = 32)
    (hsecret : IsSecret a.secret)
    (hlookup : (h.secretOf a.deviceId).or ((h.inviteOf a.inviteId).map Invite.secret) =
      some a.secret)
    (hfresh : h.credentialOf a.deviceId = none ->
      (h.inviteOf a.inviteId).all (fun i => decide (i.expiresAt < h.now)) = false) :
    Accepts P h (a.hello P) := by
  have hadmitted : exists peer, h.authenticate P (a.hello P) = .ok peer :=
    Host.authenticate_of_secret rfl rfl hdevice hinvite (decodeFixed_encode hnonce) hlookup
      hsecret.ne_nil hfresh (verifyMac_mac P a.secret _)
  rcases hadmitted with ⟨peer, hauth⟩
  exact accepts_of_authenticate hauth

theorem Inv.inviteOf (h : Inv P w) {i : Invite} (hi : i ∈ w.host.invites) :
    w.host.inviteOf i.inviteId = some i := by
  cases hfind : w.host.inviteOf i.inviteId with
  | none =>
      unfold Host.inviteOf at hfind
      exact absurd (decide_eq_true rfl) (List.find?_eq_none.mp hfind i hi)
  | some i' =>
      rcases Host.inviteOf_some hfind with ⟨hi', hid⟩
      rw [Table.UniqueKey.eq_of_key h.unique (h.invites i' hi') (h.invites i hi) hid]

theorem Inv.secretOf_eq_none (h : Inv P w) {d : Text} (hd : d ∉ w.revoked) (howes : ¬ w.Owes d)
    (hheld : w.held d = none) : w.host.secretOf d = none := by
  cases hsecret : w.host.secretOf d with
  | none => rfl
  | some secret =>
      rcases h.owned d secret hd hsecret with ⟨s, hs, _⟩ | ⟨k, l, hl, hfields⟩
      · rw [hheld] at hs
        cases hs
      · exact absurd ⟨l, List.mem_of_getElem? hl, hfields⟩ howes

/-- In every run in which no connection is lost while the host owes a credential
on it, a device is accepted with the secret it holds. -/
theorem device_accepted_with_secret_it_holds {P : Platform} (hlawful : P.Lawful) {w : World}
    (hreach : (machine P).ReachableUnder (Unbroken P) w) {d : Text} {i : Invite} {nonce : Bytes}
    (hdevice : safeIdentifier d 128 = true) (hnonce : nonce.length = 32) (hd : d ∉ w.revoked)
    (howes : ¬ w.Owes d) (hinvite : w.held d = none -> i ∈ w.current ∧ w.host.now ≤ i.expiresAt) :
    Accepts P w.host ((w.holding d i nonce).hello P) := by
  have h := inv_of_reachable hlawful hreach
  unfold World.holding
  cases hheld : w.held d with
  | some s =>
      rcases h.held d s hd hheld with ⟨hsecret, hid⟩
      apply accepts_attempt hdevice hid hnonce (secretOf_isSecret h hsecret)
      · rw [hsecret]
        rfl
      · intro hnone
        have hunknown : w.host.credentialOf d = none := hnone
        unfold Host.secretOf at hsecret
        rw [hunknown] at hsecret
        cases hsecret
  | none =>
      rcases hinvite hheld with ⟨hcurrent, hnow⟩
      rcases h.current i hcurrent with ⟨hissued, hlive⟩
      have hfind := h.inviteOf (hlive hnow)
      have hunknown := h.secretOf_eq_none hd howes hheld
      apply accepts_attempt hdevice (h.invitation i hissued).2 hnonce (h.invitation i hissued).1
      · rw [hunknown, hfind]
        rfl
      · intro _
        rw [hfind]
        exact decide_eq_false (Nat.not_lt.mpr hnow)

def emptyWorld : World :=
  { host := Host.started [], links := [], issued := [], current := [], revoked := [],
    held := fun _ => none }

theorem emptyWorld_started : Started emptyWorld where
  host := ⟨[], rfl⟩
  links := rfl
  issued := rfl
  current := rfl
  secrets := fun _ hc => (nomatch hc)
  held := fun _ _ hs => (nomatch hs)
  owned := fun _ _ hs => (nomatch hs)

def device : Text := "device-1".toList

def firstInvite : Invite :=
  (Host.started []).newInvite 600000 (List.replicate 16 1) (List.replicate 32 2)

def firstAttempt : Attempt :=
  { inviteId := firstInvite.inviteId, secret := firstInvite.secret, deviceId := device,
    nonce := List.replicate 32 4 }

/-- The connection is lost before the host has read the hello, and the next one
enrols the device. -/
def lostBeforeHello : List Action :=
  [.host (.createInvite 600000 (List.replicate 16 1) (List.replicate 32 2)),
    .connect device (.invite firstInvite) (List.replicate 32 4), .giveUp 0,
    .host (.readFails 0),
    .connect device (.invite firstInvite) (List.replicate 32 4),
    .host (.hello 1 (firstAttempt.hello plainPlatform) (List.replicate 32 5)
      (List.replicate 32 3)),
    .host (.saved 1), .receive 1, .receive 1]

/-- The connection is lost after the host has stored the credential. -/
def lostAfterHello : List Action :=
  [.host (.createInvite 600000 (List.replicate 16 1) (List.replicate 32 2)),
    .connect device (.invite firstInvite) (List.replicate 32 4),
    .host (.hello 0 (firstAttempt.hello plainPlatform) (List.replicate 32 5)
      (List.replicate 32 3)),
    .giveUp 0, .host (.saved 0), .host (.closed 0)]

instance (w : World) (d : Text) : Decidable (w.Owes d) :=
  inferInstanceAs (Decidable (exists l, l ∈ w.links ∧ l.waiting = true ∧ l.owed = true ∧
    l.attempt.deviceId = d))

theorem device_accepted_with_secret_it_holds_afterLoss :
    exists w, (machine plainPlatform).ReachableUnder (Unbroken plainPlatform) w ∧
      (w.held device).isSome = true ∧
        Accepts plainPlatform w.host
          ((w.holding device firstInvite (List.replicate 32 6)).hello plainPlatform) := by
  have hrun : Option.any (fun w => decide ((w.held device).isSome = true ∧
      device ∉ w.revoked ∧ ¬ w.Owes device))
      ((machine plainPlatform).runUnder (Unbroken plainPlatform) emptyWorld
        lostBeforeHello) = true := by
    decide +kernel
  rcases Machine.exists_reachable_of_runUnder _ emptyWorld_started hrun with
    ⟨w, hw, hstate⟩
  rcases of_decide_eq_true hstate with ⟨hheld, hrevoked, howes⟩
  refine ⟨w, hw, hheld, ?_⟩
  apply device_accepted_with_secret_it_holds plainPlatform_lawful hw (by decide) rfl hrevoked howes
  intro hnone
  rw [hnone] at hheld
  cases hheld

theorem device_locked_out_after_loss :
    ¬ (forall (P : Platform) (w : World) (d : Text) (i : Invite) (nonce : Bytes),
        P.Lawful -> (machine P).Reachable w -> safeIdentifier d 128 = true ->
        nonce.length = 32 -> ¬ w.host.Full -> d ∉ w.revoked ->
        (forall l, l ∈ w.links -> l.waiting = true -> l.attempt.deviceId ≠ d) ->
        i ∈ w.current -> w.host.now ≤ i.expiresAt ->
          Accepts P w.host ((w.holding d i nonce).hello P)) := by
  intro hclaim
  have hrun : Option.any (fun w => decide (
      ¬ w.host.Full ∧ device ∉ w.revoked ∧
      (forall l, l ∈ w.links -> l.waiting = true -> l.attempt.deviceId ≠ device) ∧
      firstInvite ∈ w.current ∧ w.host.now ≤ firstInvite.expiresAt ∧
      (w.host.answerHello plainPlatform 1
        ((w.holding device firstInvite (List.replicate 32 6)).hello plainPlatform)
        (List.replicate 32 5) (List.replicate 32 3)).2 = []))
      ((machine plainPlatform).runFrom emptyWorld lostAfterHello) = true := by
    decide +kernel
  rcases Machine.exists_reachable_of_runFrom _ emptyWorld_started hrun with
    ⟨w, hw, hstate⟩
  rcases of_decide_eq_true hstate with ⟨hroom, hrevoked, hidle, hcurrent, hnow, hsilent⟩
  have haccepts := hclaim plainPlatform w device firstInvite (List.replicate 32 6)
    plainPlatform_lawful hw (by decide) rfl hroom hrevoked hidle hcurrent hnow
  rcases haccepts.answers 1 (List.replicate 32 5) (List.replicate 32 3) with
    ⟨answer, rest, hanswer⟩
  rw [hsilent] at hanswer
  cases hanswer

end Enrolment
end Pairing
end Perpetual
