import Perpetual.Pairing.Host

/-!
# The records of the host

What the steps of the host do to the secret it admits a device with, and to the
connections it reads from or saves a credential for.
-/

namespace Perpetual
namespace Pairing

open Foundation

namespace Host

/-!
## The secret of a device
-/

variable {h h' : Host}

theorem secretOf_of_credentials (hsame : h'.credentials = h.credentials) (d : Text) :
    h'.secretOf d = h.secretOf d := by
  unfold secretOf credentialOf
  rw [hsame]

theorem secretOf_enrolled_self {c : HostCredential} (hnone : h.credentialOf c.deviceId = none) :
    ({ h with credentials := h.credentials ++ [c] } : Host).secretOf c.deviceId =
      some c.secret := by
  unfold secretOf
  show ((h.credentials ++ [c]).find? _).map _ = _
  unfold credentialOf at hnone
  rw [List.find?_append, hnone]
  simp

variable {d : Text}

theorem secretOf_enrolled_of_some {secret : Text} (c : HostCredential) (hs : h.secretOf d = some secret) :
    ({ h with credentials := h.credentials ++ [c] } : Host).secretOf d =
      some secret := by
  unfold secretOf credentialOf at hs ⊢
  rw [List.find?_append]
  cases hfind : h.credentials.find? (fun c => decide (c.deviceId = d)) with
  | none =>
      rw [hfind] at hs
      cases hs
  | some found =>
      rw [hfind] at hs
      exact hs

theorem secretOf_enrolled_other {c : HostCredential} (hd : c.deviceId ≠ d) :
    ({ h with credentials := h.credentials ++ [c] } : Host).secretOf d =
      h.secretOf d := by
  unfold secretOf credentialOf
  rw [List.find?_append]
  simp [hd]

theorem secretOf_seen (h : Host) (now : Nat) (d0 d : Text) :
    ({ h with
        credentials := Table.updateWhere (fun c => decide (c.deviceId = d0))
          (fun c => { c with lastSeenAt := now }) h.credentials } : Host).secretOf d =
      h.secretOf d := by
  unfold secretOf credentialOf Table.updateWhere
  show ((h.credentials.map _).find? _).map _ = _
  induction h.credentials with
  | nil => rfl
  | cons c rest ih =>
      rw [List.map_cons, List.find?_cons, List.find?_cons]
      have hid : (if decide (c.deviceId = d0) = true then
          ({ c with lastSeenAt := now } : HostCredential) else c).deviceId =
            c.deviceId := by
        split
        · rfl
        · rfl
      rw [hid]
      cases hc : decide (c.deviceId = d) with
      | true =>
          show some _ = some _
          congr 1
          split
          · rfl
          · rfl
      | false => exact ih

theorem secretOf_revoked_other {d0 : Text} (hd : d ≠ d0) :
    (h.revokeDevice d0).secretOf d = h.secretOf d := by
  unfold secretOf credentialOf revokeDevice Table.deleteWhere
  induction h.credentials with
  | nil => rfl
  | cons c rest ih =>
      by_cases hc : c.deviceId = d0
      · have hout : decide (c.deviceId = d) = false :=
          decide_eq_false (fun heq => hd (heq.symm.trans hc))
        rw [List.filter_cons_of_neg (by simp [hc]), List.find?_cons, hout]
        exact ih
      · rw [List.filter_cons_of_pos (by simp [hc]), List.find?_cons, List.find?_cons]
        cases hin : decide (c.deviceId = d) with
        | true => rfl
        | false => exact ih

variable {P : Platform} {hello : ClientHello}

theorem enrols_of_unknown {peer : Authenticated}
    (hauth : h.authenticate P hello = .ok peer) (hnew : peer.existing = none) :
    h.enrols P hello = true := by
  unfold enrols
  rw [hauth]
  dsimp only
  rw [hnew]
  rfl

theorem enrols_of_known {peer : Authenticated}
    {existing : HostCredential} (hauth : h.authenticate P hello = .ok peer)
    (hexisting : peer.existing = some existing) : h.enrols P hello = false := by
  unfold enrols
  rw [hauth]
  dsimp only
  rw [hexisting]
  rfl

/-!
## The connections of the host
-/

/-- A connection waits for its hello or for a save, once. -/
structure Tidy (h : Host) : Prop where
  reading : h.reading.Nodup
  readingBelow : forall k, k ∈ h.reading -> k < h.connections
  enrolling : (h.enrolling.map Enrolling.connection).Nodup
  enrollingBelow : forall e, e ∈ h.enrolling -> e.connection < h.connections
  apart : forall e, e ∈ h.enrolling -> e.connection ∉ h.reading

theorem Tidy.shrink (ht : Tidy h) (hconnections : h'.connections = h.connections)
    (hreading : h'.reading.Sublist h.reading) (henrolling : h'.enrolling.Sublist h.enrolling) :
    Tidy h' := by
  refine ⟨ht.reading.sublist hreading, ?_, ht.enrolling.sublist (henrolling.map _), ?_, ?_⟩
  · intro k hk
    rw [hconnections]
    exact ht.readingBelow k (hreading.subset hk)
  · intro e he
    rw [hconnections]
    exact ht.enrollingBelow e (henrolling.subset he)
  · intro e he hk
    exact ht.apart e (henrolling.subset he) (hreading.subset hk)

variable {k : Nat}

theorem Tidy.answer {serverNonce credential : Bytes} {next : Host × List ServerMessage}
    (ht : Tidy h) (hk : k ∈ h.reading)
    (hanswer : Answer P h k hello serverNonce credential next) : Tidy next.1 := by
  cases hanswer with
  | refused _ => exact ht.shrink rfl (List.erase_sublist (l := h.reading)) (List.Sublist.refl _)
  | known _ _ _ => exact ht.shrink rfl (List.erase_sublist (l := h.reading)) (List.Sublist.refl _)
  | enrolled _ _ =>
      refine ⟨ht.reading.sublist (List.erase_sublist (l := h.reading)), ?_, ?_, ?_, ?_⟩
      · intro k' hk'
        exact ht.readingBelow k' (List.mem_of_mem_erase hk')
      · rw [List.map_append]
        apply List.Nodup.append ht.enrolling (List.nodup_singleton _)
        intro k' hk' hlast
        rcases List.mem_map.mp hk' with ⟨e, he, hconnection⟩
        have hkk : k' = k := List.mem_singleton.mp hlast
        rw [hkk] at hconnection
        exact ht.apart e he (hconnection ▸ hk)
      · intro e he
        rcases List.mem_append.mp he with he | he
        · exact ht.enrollingBelow e he
        · rw [List.mem_singleton.mp he]
          exact ht.readingBelow k hk
      · intro e he
        rcases List.mem_append.mp he with he | he
        · intro hmem
          exact ht.apart e he (List.mem_of_mem_erase hmem)
        · rw [List.mem_singleton.mp he]
          exact ht.reading.not_mem_erase

theorem Tidy.effect {a : Action} {messages : List ServerMessage}
    (ht : Tidy h) (heffect : Effect P h a h' messages) : Tidy h' := by
  cases heffect with
  | refused _ =>
      exact ⟨ht.reading, fun k hk => Nat.lt_succ_of_lt (ht.readingBelow k hk),
        ht.enrolling, fun e he => Nat.lt_succ_of_lt (ht.enrollingBelow e he), ht.apart⟩
  | connect _ =>
      refine ⟨?_, ?_, ht.enrolling, ?_, ?_⟩
      · apply List.Nodup.append ht.reading (List.nodup_singleton _)
        intro k hk hlast
        have hbelow := ht.readingBelow k hk
        have hkk : k = h.connections := List.mem_singleton.mp hlast
        omega
      · intro k hk
        rcases List.mem_append.mp hk with hk | hk
        · exact Nat.lt_succ_of_lt (ht.readingBelow k hk)
        · rw [List.mem_singleton.mp hk]
          exact Nat.lt_succ_self _
      · intro e he
        exact Nat.lt_succ_of_lt (ht.enrollingBelow e he)
      · intro e he hmem
        rcases List.mem_append.mp hmem with hmem | hmem
        · exact ht.apart e he hmem
        · have hbelow := ht.enrollingBelow e he
          have hkk : e.connection = h.connections := List.mem_singleton.mp hmem
          omega
  | hello hk _ _ => exact ht.answer hk (answerHello_cases P h _ _ _ _)
  | readFails _ => exact ht.shrink rfl (List.erase_sublist (l := h.reading)) (List.Sublist.refl _)
  | @saved k e _ =>
      rcases complete_eq P { h with enrolling := h.enrolling.erase e } k e.deviceId
        e.credential e.keys with ⟨frame, _, heq⟩
      rw [heq]
      exact ht.shrink rfl (List.Sublist.refl _) (List.erase_sublist (l := h.enrolling))
  | saveFails _ => exact ht.shrink rfl (List.Sublist.refl _) (List.erase_sublist (l := h.enrolling))
  | closed _ => exact ht.shrink rfl (List.Sublist.refl _) (List.Sublist.refl _)
  | createInvite _ _ => exact ht.shrink rfl (List.Sublist.refl _) (List.Sublist.refl _)
  | revoke _ => exact ht.shrink rfl (List.Sublist.refl _) (List.Sublist.refl _)
  | revokeSaved _ => exact ht.shrink rfl (List.Sublist.refl _) (List.Sublist.refl _)
  | revokeSaveFails _ => exact ht.shrink rfl (List.Sublist.refl _) (List.Sublist.refl _)
  | dispose => exact ht.shrink rfl (List.Sublist.refl _) (List.Sublist.refl _)
  | tick _ => exact ht.shrink rfl (List.Sublist.refl _) (List.Sublist.refl _)

theorem enrollingOn_eq_none_iff :
    h.enrollingOn k = none ↔ forall e, e ∈ h.enrolling -> e.connection ≠ k := by
  unfold enrollingOn
  rw [List.find?_eq_none]
  constructor
  · intro hnone e he heq
    exact hnone e he (decide_eq_true heq)
  · intro hne e he heq
    exact hne e he (of_decide_eq_true heq)

theorem Tidy.enrollingOn_reading (ht : Tidy h) (hk : k ∈ h.reading) : h.enrollingOn k = none := by
  rw [enrollingOn_eq_none_iff]
  intro e he heq
  exact ht.apart e he (heq ▸ hk)

variable {e : Enrolling}

theorem enrollingOn_append (k : Nat) (hnone : h.enrollingOn e.connection = none) :
    ({ h with enrolling := h.enrolling ++ [e] } : Host).enrollingOn k =
      if k = e.connection then some e else h.enrollingOn k := by
  unfold enrollingOn at hnone ⊢
  rw [List.find?_append]
  by_cases hk : k = e.connection
  · rw [if_pos hk, hk, hnone]
    simp
  · rw [if_neg hk]
    have hlast : [e].find? (fun e => decide (e.connection = k)) = none := by
      simp [Ne.symm hk]
    rw [hlast, Option.or_none]

theorem find?_erase_other {rows : List Enrolling} (hk : e.connection ≠ k) :
    (rows.erase e).find? (fun r => decide (r.connection = k)) =
      rows.find? (fun r => decide (r.connection = k)) := by
  induction rows with
  | nil => rfl
  | cons r rest ih =>
      by_cases hr : r = e
      · rw [hr, List.erase_cons_head, List.find?_cons, decide_eq_false hk]
      · rw [List.erase_cons_tail (by simpa using hr), List.find?_cons, List.find?_cons]
        cases decide (r.connection = k) with
        | true => rfl
        | false => exact ih

theorem enrollingOn_erase (ht : Tidy h) (he : e ∈ h.enrolling) (k : Nat) :
    ({ h with enrolling := h.enrolling.erase e } : Host).enrollingOn k =
      if k = e.connection then none else h.enrollingOn k := by
  by_cases hk : k = e.connection
  · rw [if_pos hk, enrollingOn_eq_none_iff]
    intro e' he' hconnection
    have hmem := List.mem_of_mem_erase he'
    have hsame : e' = e :=
      List.inj_on_of_nodup_map ht.enrolling hmem he (hconnection.trans hk)
    have hnodup : h.enrolling.Nodup := List.Nodup.of_map _ ht.enrolling
    rw [hsame] at he'
    exact hnodup.not_mem_erase he'
  · rw [if_neg hk]
    exact find?_erase_other (fun heq => hk heq.symm)

end Host
end Pairing
end Perpetual
