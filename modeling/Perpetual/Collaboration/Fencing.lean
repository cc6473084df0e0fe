import Perpetual.Collaboration.Coordinator

/-!
# Lease fencing

A claim moves an assignment from queued to running and installs the hash of its
token.  Nothing moves an assignment back to queued, and whatever moves it out of
running clears the hash.  The invariant of this module says so for the stored
rows and the successful claims; it needs no assumption on the clock readings.
That a rejected token stays rejected is about the clock: it holds in the runs in
which every statement reads the clock when it runs.
-/

namespace Perpetual
namespace Collaboration

open Foundation
open Table

structure Fenced (hash : String -> String) (st : Store)
    (claims : List (String × String)) : Prop where
  ids : Table.UniqueKey Assignment.id st.assignments
  deviceIds : Table.UniqueKey Device.id st.devices
  deviceKnown : forall a, a ∈ st.assignments ->
    exists d, d ∈ st.devices ∧ d.id = a.deviceId
  hashRunning : forall a, a ∈ st.assignments ->
    (a.leaseTokenHash.isSome = true ↔ a.status = .running)
  revokedIdle : forall d, d ∈ st.devices -> d.revokedAt.isSome = true ->
    forall a, a ∈ st.assignments -> a.deviceId = d.id ->
      a.status ≠ .running
  claimedOnce : (claims.map Prod.fst).Nodup
  claimedRow : forall id token, (id, token) ∈ claims ->
    exists a, a ∈ st.assignments ∧ a.id = id ∧
      a.status ≠ .queued ∧
      (a.status = .running ->
        a.leaseTokenHash = some (hash token))
  runningClaimed : forall a, a ∈ st.assignments ->
    a.status = .running -> exists token, (a.id, token) ∈ claims

variable {hash : String -> String} {st st' : Store}
variable {claims : List (String × String)}

theorem fenced_empty (hash : String -> String) : Fenced hash Store.empty [] := by
  constructor <;> simp [Store.empty, Table.UniqueKey]

/-!
## Statements that claim nothing

Such a statement updates some rows.  A row it updates keeps its status and its
hash, and its expiry moves only while the lease is running and unexpired; or the
row leaves the queued and running statuses and has no hash afterwards unless it
had one while it was not running.
-/

def unexpired (now : Nat) (a : Assignment) : Bool :=
  a.leaseExpiresAt.any (fun expires => decide (now < expires))

def Settles (now : Nat) (a a' : Assignment) : Prop :=
  (a'.status = a.status ∧ a'.leaseTokenHash = a.leaseTokenHash ∧
    a.status = .running ∧ unexpired now a = true) ∨
  (a'.status ≠ .queued ∧ a'.status ≠ .running ∧
    (a'.status.isActive = true -> a.status.isActive = true) ∧
    (a'.leaseTokenHash = none ∨
      a'.leaseTokenHash = a.leaseTokenHash ∧ a.status ≠ .running))

variable {now i : Nat} {a : Assignment}

variable {a' : Assignment}

theorem settles_ended (hended : a'.status.isActive = false) (hhash : a'.leaseTokenHash = none ∨
      a'.leaseTokenHash = a.leaseTokenHash ∧ a.status ≠ .running) : Settles now a a' := by
  refine .inr ⟨?_, ?_, ?_, hhash⟩
  · intro hqueued
    rw [hqueued] at hended
    cases hended
  · intro hrunning
    rw [hrunning] at hended
    cases hended
  · intro hactive
    rw [hended] at hactive
    cases hactive

def SameIdentity (a a' : Assignment) : Prop :=
  a'.id = a.id ∧ a'.deviceId = a.deviceId ∧ a'.repoIds = a.repoIds ∧ a'.threadId = a.threadId

structure Transition (now : Nat) (st st' : Store) : Prop where
  devices : st'.devices = st.devices
  rows : exists p f,
    st'.assignments = updateWhere p f st.assignments ∧
      (forall a, SameIdentity a (f a)) ∧
      forall a, a ∈ st.assignments -> p a = true -> Settles now a (f a)

theorem transition_of_update {p : Assignment -> Bool} {f : Assignment -> Assignment}
    (hrows : st'.assignments = updateWhere p f st.assignments)
    (hdevices : st'.devices = st.devices) (hsame : forall a, SameIdentity a (f a))
    (hsettles : forall a, a ∈ st.assignments -> p a = true -> Settles now a (f a)) :
    Transition now st st' :=
  ⟨hdevices, p, f, hrows, hsame, hsettles⟩

theorem Transition.back (h : Transition now st st') (ha' : a' ∈ st'.assignments) :
    exists a, a ∈ st.assignments ∧ SameIdentity a a' ∧
      (a' = a ∨ Settles now a a') := by
  rcases h.rows with ⟨p, f, hrows, hsame, hsettles⟩
  rw [hrows] at ha'
  rcases mem_updateWhere ha' with ⟨a, ha, ⟨hp, heq⟩ | ⟨_, heq⟩⟩
  · rw [heq]
    exact ⟨a, ha, hsame a, .inr (hsettles a ha hp)⟩
  · rw [heq]
    exact ⟨a, ha, ⟨rfl, rfl, rfl, rfl⟩, .inl rfl⟩

theorem Transition.forth (h : Transition now st st') (ha : a ∈ st.assignments) :
    exists a', a' ∈ st'.assignments ∧ SameIdentity a a' ∧
      (a' = a ∨ Settles now a a') := by
  rcases h.rows with ⟨p, f, hrows, hsame, hsettles⟩
  rw [hrows]
  cases hp : p a with
  | false =>
      exact ⟨a, mem_updateWhere_of_neg f ha hp, ⟨rfl, rfl, rfl, rfl⟩, .inl rfl⟩
  | true =>
      exact ⟨f a, mem_updateWhere_of_pos f ha hp, hsame a, .inr (hsettles a ha hp)⟩

theorem Transition.ids (h : Transition now st st') :
    st'.assignments.map Assignment.id = st.assignments.map Assignment.id := by
  rcases h.rows with ⟨p, f, hrows, hsame, _⟩
  rw [hrows]
  exact map_updateWhere (fun a => (hsame a).left) _

variable {id tokenHash : String} {expires : Nat}

theorem renewLease_transition
    (h : st.renewLease id tokenHash expires now = some st') : Transition now st st' := by
  unfold Store.renewLease at h
  split at h
  · cases h
    refine transition_of_update rfl rfl (fun _ => ⟨rfl, rfl, rfl, rfl⟩) ?_
    intro a _ hp
    simp only [Store.leaseHeld, Bool.and_eq_true, beq_iff_eq] at hp
    exact .inl ⟨rfl, rfl, hp.left.right, hp.right⟩
  · cases h

theorem finishAssignment_transition {status : AssignmentStatus}
    {error : Option String} (hqueued : status ≠ .queued)
    (hrunning : status ≠ .running)
    (h : st.finishAssignment id tokenHash status error now = some st') : Transition now st st' := by
  unfold Store.finishAssignment at h
  split at h
  · injection h with h
    have hsettles : forall a, a ∈ st.assignments ->
        Store.leaseHeld id tokenHash now a = true ->
        Settles now a (Store.finishedRow status error now a) := by
      intro a _ hp
      simp only [Store.leaseHeld, Bool.and_eq_true, beq_iff_eq] at hp
      exact .inr ⟨hqueued, hrunning, fun _ => by rw [hp.left.right]; rfl, .inl rfl⟩
    rw [← h]
    split
    · exact transition_of_update rfl rfl (fun _ => ⟨rfl, rfl, rfl, rfl⟩) hsettles
    · exact transition_of_update rfl rfl (fun _ => ⟨rfl, rfl, rfl, rfl⟩) hsettles
  · cases h

theorem cancelAssignment_transition (h : st.cancelAssignment id now = some st') :
    Transition now st st' := by
  unfold Store.cancelAssignment at h
  split at h
  · cases h
    refine transition_of_update rfl rfl (fun _ => ⟨rfl, rfl, rfl, rfl⟩) ?_
    exact fun a _ _ => settles_ended rfl (.inl rfl)
  · cases h

theorem completeAssignmentReview_transition (now : Nat)
    (h : st.completeAssignmentReview id = some st') : Transition now st st' := by
  unfold Store.completeAssignmentReview at h
  split at h
  · cases h
    refine transition_of_update rfl rfl (fun _ => ⟨rfl, rfl, rfl, rfl⟩) ?_
    intro a _ hp
    have hnot : a.status ≠ .running := by
      simp only [Store.reviewable, Bool.and_eq_true, beq_iff_eq] at hp
      rw [hp.left.right]
      decide
    exact settles_ended rfl (.inr ⟨rfl, hnot⟩)
  · cases h

theorem expireOne_transition (st : Store) (id : String) (now : Nat) :
    Transition now st (st.expireOne id now) := by
  refine transition_of_update rfl rfl (fun _ => ⟨rfl, rfl, rfl, rfl⟩) ?_
  exact fun a _ _ => settles_ended rfl (.inl rfl)

theorem failOne_transition (st : Store) (id : String) (now : Nat) :
    Transition now st (st.failOne id now) := by
  refine transition_of_update rfl rfl (fun _ => ⟨rfl, rfl, rfl, rfl⟩) ?_
  intro a _ hp
  have hnot : a.status ≠ .running := by
    simp only [Bool.and_eq_true, beq_iff_eq] at hp
    rw [hp.right]
    decide
  exact settles_ended rfl (.inr ⟨rfl, hnot⟩)

/-- The assignments' part of a revocation. -/
def revokedRows (st : Store) (id : String) (now : Nat) : Store :=
  { st with
    assignments :=
      updateWhere
        (fun a => a.deviceId == id &&
          (a.status == .queued ||
            a.status == .running))
        (Store.revokedRow now) st.assignments }

theorem revokedRows_transition (st : Store) (id : String) (now : Nat) :
    Transition now st (revokedRows st id now) := by
  refine transition_of_update rfl rfl (fun _ => ⟨rfl, rfl, rfl, rfl⟩) ?_
  exact fun a _ _ => settles_ended rfl (.inl rfl)

/-!
## The invariant across a transition
-/

theorem running_of_settled (h : a' = a ∨ Settles now a a')
    (hrun : a'.status = .running) : a.status = .running := by
  rcases h with heq | ⟨_, _, hold, _⟩ | ⟨_, hnot, _⟩
  · rw [← heq]
    exact hrun
  · exact hold
  · exact absurd hrun hnot

theorem Fenced.not_running_hash (h : Fenced hash st claims) (ha : a ∈ st.assignments)
    (hnot : a.status ≠ .running) : a.leaseTokenHash = none := by
  cases hhash : a.leaseTokenHash with
  | none => rfl
  | some value =>
      have hsome : a.leaseTokenHash.isSome = true := by
        rw [hhash]
        rfl
      exact absurd ((h.hashRunning a ha).mp hsome) hnot

theorem Fenced.transition (h : Fenced hash st claims) (ht : Transition now st st') :
    Fenced hash st' claims := by
  constructor
  · unfold Table.UniqueKey
    rw [ht.ids]
    exact h.ids
  · rw [ht.devices]
    exact h.deviceIds
  · intro a' ha'
    rcases ht.back ha' with ⟨a, ha, ⟨_, hdevice, _⟩, _⟩
    rw [ht.devices, hdevice]
    exact h.deviceKnown a ha
  · intro a' ha'
    rcases ht.back ha' with ⟨a, ha, _, heq | hkeeps | ⟨_, hnot, _, hhash⟩⟩
    · rw [heq]
      exact h.hashRunning a ha
    · rw [hkeeps.left, hkeeps.right.left]
      exact h.hashRunning a ha
    · have hnone : a'.leaseTokenHash = none := by
        rcases hhash with hnone | ⟨hsame, hold⟩
        · exact hnone
        · rw [hsame]
          exact h.not_running_hash ha hold
      rw [hnone]
      constructor
      · intro hfalse
        cases hfalse
      · intro hrun
        exact absurd hrun hnot
  · intro d hd hrevoked a' ha' hdevice' hrun
    rw [ht.devices] at hd
    rcases ht.back ha' with ⟨a, ha, ⟨_, hdevice, _⟩, hcase⟩
    exact h.revokedIdle d hd hrevoked a ha (hdevice.symm.trans hdevice')
      (running_of_settled hcase hrun)
  · exact h.claimedOnce
  · intro id token hclaim
    rcases h.claimedRow id token hclaim with ⟨a, ha, haid, hqueued, hhash⟩
    rcases ht.forth ha with ⟨a', ha', ⟨hid, _⟩, hcase⟩
    refine ⟨a', ha', hid.trans haid, ?_, ?_⟩
    · rcases hcase with heq | hkeeps | ⟨hnot, _⟩
      · rw [heq]
        exact hqueued
      · rw [hkeeps.left]
        exact hqueued
      · exact hnot
    · intro hrun
      have hold := hhash (running_of_settled hcase hrun)
      rcases hcase with heq | hkeeps | ⟨_, hnot, _⟩
      · rw [heq]
        exact hold
      · rw [hkeeps.right.left]
        exact hold
      · exact absurd hrun hnot
  · intro a' ha' hrun
    rcases ht.back ha' with ⟨a, ha, ⟨hid, _⟩, hcase⟩
    rw [hid]
    exact h.runningClaimed a ha (running_of_settled hcase hrun)

theorem Fenced.congr (h : Fenced hash st claims)
    (hdevices : st'.devices = st.devices)
    (hrows : st'.assignments = st.assignments) : Fenced hash st' claims := by
  rcases h with ⟨h1, h2, h3, h4, h5, h6, h7, h8⟩
  rw [← hdevices] at h2 h3 h5
  rw [← hrows] at h1 h3 h4 h5 h7 h8
  exact ⟨h1, h2, h3, h4, h5, h6, h7, h8⟩

theorem Fenced.getD (h : Fenced hash st claims) {answer : Option Store}
    (hanswer : forall st', answer = some st' -> Transition now st st') :
    Fenced hash (answer.getD st) claims := by
  cases answer with
  | none => exact h
  | some st' => exact h.transition (hanswer st' rfl)

theorem Fenced.updateDevices (h : Fenced hash st claims)
    {p : Device -> Bool} {f : Device -> Device}
    (hdevices : st'.devices = updateWhere p f st.devices)
    (hrows : st'.assignments = st.assignments)
    (hid : forall d, (f d).id = d.id)
    (hrevoked : forall d, d ∈ st.devices -> p d = true ->
      (f d).revokedAt.isSome = true ->
      d.revokedAt.isSome = true ∨
        forall a, a ∈ st.assignments -> a.deviceId = d.id ->
          a.status ≠ .running) : Fenced hash st' claims := by
  constructor
  · rw [hrows]
    exact h.ids
  · rw [hdevices]
    exact h.deviceIds.updateWhere hid
  · intro a ha
    rw [hrows] at ha
    rcases h.deviceKnown a ha with ⟨d, hd, hda⟩
    rw [hdevices]
    cases hp : p d with
    | false => exact ⟨d, mem_updateWhere_of_neg f hd hp, hda⟩
    | true =>
        exact ⟨f d, mem_updateWhere_of_pos f hd hp, (hid d).trans hda⟩
  · rw [hrows]
    exact h.hashRunning
  · intro d' hd' hrev a ha hda
    rw [hrows] at ha
    rw [hdevices] at hd'
    rcases mem_updateWhere hd' with ⟨d, hd, hcase⟩
    rcases hcase with ⟨hp, heq⟩ | ⟨_, heq⟩
    · rw [heq, hid d] at hda
      rw [heq] at hrev
      rcases hrevoked d hd hp hrev with hold | hidle
      · exact h.revokedIdle d hd hold a ha hda
      · exact hidle a ha hda
    · rw [heq] at hrev hda
      exact h.revokedIdle d hd hrev a ha hda
  · exact h.claimedOnce
  · rw [hrows]
    exact h.claimedRow
  · rw [hrows]
    exact h.runningClaimed

theorem Fenced.upsertDevice (h : Fenced hash st claims) (id name : String)
    (capabilities : List AgentCapability) (reactivate : Bool) (now : Nat) :
    Fenced hash (st.upsertDevice id name capabilities reactivate now) claims := by
  unfold Store.upsertDevice
  split
  · refine h.updateDevices rfl rfl (fun _ => rfl) ?_
    intro d _ _ hrev
    apply Or.inl
    cases reactivate with
    | true =>
        cases hrev
    | false =>
        exact hrev
  · rename_i hnew
    have hfresh : id ∉ st.devices.map Device.id := by
      intro hmem
      rcases List.mem_map.mp hmem with ⟨d, hd, hdid⟩
      apply hnew
      apply List.any_eq_true.mpr
      exact ⟨d, hd, by simp [hdid]⟩
    constructor
    · exact h.ids
    · exact h.deviceIds.concat hfresh
    · intro a ha
      rcases h.deviceKnown a ha with ⟨d, hd, hda⟩
      exact ⟨d, List.mem_append_left _ hd, hda⟩
    · exact h.hashRunning
    · intro d hd hrev a ha hda
      rcases List.mem_append.mp hd with hd | hd
      · exact h.revokedIdle d hd hrev a ha hda
      · rw [List.mem_singleton] at hd
        rw [hd] at hrev
        cases hrev
    · exact h.claimedOnce
    · exact h.claimedRow
    · exact h.runningClaimed

theorem Fenced.revokeDevice (h : Fenced hash st claims) (id : String)
    (now : Nat) : Fenced hash (st.revokeDevice id now) claims := by
  -- first the assignments leave the running status, then the device is marked
  have hcancelled := h.transition (revokedRows_transition st id now)
  refine hcancelled.updateDevices rfl rfl (fun _ => rfl) ?_
  intro d _ hp _
  apply Or.inr
  intro a' ha' hda hrun
  have hdid : d.id = id := by simpa using hp
  rcases mem_updateWhere ha' with ⟨a, _, ⟨_, heq⟩ | ⟨hneg, heq⟩⟩
  · rw [heq] at hrun
    cases hrun
  · rw [heq] at hrun hda
    simp [hda, hdid, hrun] at hneg

/-!
## Insertion and claim
-/

theorem Fenced.insertAssignment (h : Fenced hash st claims)
    (hqueued : a.status = .queued) (hnone : a.leaseTokenHash = none)
    (hst : st.insertAssignment a now = .ok st') : Fenced hash st' claims := by
  rcases insertAssignment_spec hst with ⟨hnew, hrows, _, _, hdevices, hdevice⟩
  have hfresh : a.id ∉ st.assignments.map Assignment.id := by
    intro hmem
    rcases List.mem_map.mp hmem with ⟨b, hb, hbid⟩
    exact hnew b hb hbid
  have hinserted : Fenced hash { st with assignments := st.assignments ++ [a] } claims := by
    constructor
    · exact h.ids.concat hfresh
    · exact h.deviceIds
    · intro b hb
      rcases List.mem_append.mp hb with hb | hb
      · exact h.deviceKnown b hb
      · rw [List.mem_singleton] at hb
        rw [hb]
        exact hdevice
    · intro b hb
      rcases List.mem_append.mp hb with hb | hb
      · exact h.hashRunning b hb
      · rw [List.mem_singleton] at hb
        rw [hb, hqueued, hnone]
        simp
    · intro d hd hrev b hb hbd
      rcases List.mem_append.mp hb with hb | hb
      · exact h.revokedIdle d hd hrev b hb hbd
      · rw [List.mem_singleton] at hb
        rw [hb, hqueued]
        decide
    · exact h.claimedOnce
    · intro id token hclaim
      rcases h.claimedRow id token hclaim with ⟨b, hb, hrest⟩
      exact ⟨b, List.mem_append_left _ hb, hrest⟩
    · intro b hb hrun
      rcases List.mem_append.mp hb with hb | hb
      · exact h.runningClaimed b hb hrun
      · rw [List.mem_singleton] at hb
        rw [hb, hqueued] at hrun
        cases hrun
  exact hinserted.congr hdevices hrows

variable {token : String}

theorem Fenced.claimAssignment (h : Fenced hash st claims) {deviceId : String}
    (hst : st.claimAssignment id deviceId (hash token) expires now = some st') :
    Fenced hash st' (claims ++ [(id, token)]) := by
  unfold Store.claimAssignment at hst
  split at hst
  · rename_i haffected
    injection hst with hst
    have hclaimable : forall a, st.claimable id deviceId a = true ->
        a.id = id ∧ a.deviceId = deviceId ∧
          a.status = .queued ∧
          st.deviceAllowed deviceId = true := by
      intro a ha
      simpa [Store.claimable, and_assoc] using ha
    rcases affected_iff.mp haffected with ⟨b, hb, hbp⟩
    rcases hclaimable b hbp with ⟨hbid, hbdevice, hbqueued, hallowed⟩
    have hunclaimed : id ∉ claims.map Prod.fst := by
      intro hmem
      rcases List.mem_map.mp hmem with ⟨⟨id', token'⟩, hclaim, hid'⟩
      rcases h.claimedRow id' token' hclaim with ⟨a, ha, haid, hnot, _⟩
      have hab : a = b := h.ids.eq_of_key ha hb (haid.trans (hid'.trans hbid.symm))
      rw [hab] at hnot
      exact hnot hbqueued
    have hnotRevoked : forall d, d ∈ st.devices -> d.id = deviceId ->
        d.revokedAt.isSome = false := by
      intro d hd hdid
      rcases List.any_eq_true.mp hallowed with ⟨e, he, hep⟩
      simp only [Bool.and_eq_true, beq_iff_eq] at hep
      have hde : d = e := h.deviceIds.eq_of_key hd he (hdid.trans hep.left.symm)
      rw [hde]
      simpa using hep.right
    rw [← hst]
    constructor
    · exact h.ids.updateWhere (fun _ => rfl)
    · exact h.deviceIds
    · intro a' ha'
      rcases mem_updateWhere ha' with ⟨a, ha, hcase⟩
      rcases hcase with ⟨_, heq⟩ | ⟨_, heq⟩
      · rw [heq]
        exact h.deviceKnown a ha
      · rw [heq]
        exact h.deviceKnown a ha
    · intro a' ha'
      rcases mem_updateWhere ha' with ⟨a, ha, hcase⟩
      rcases hcase with ⟨_, heq⟩ | ⟨_, heq⟩
      · rw [heq]
        simp [Store.claimedRow]
      · rw [heq]
        exact h.hashRunning a ha
    · intro d hd hrev a' ha' hda hrun
      rcases mem_updateWhere ha' with ⟨a, ha, hcase⟩
      rcases hcase with ⟨hp, heq⟩ | ⟨_, heq⟩
      · rcases hclaimable a hp with ⟨_, hadevice, _, _⟩
        rw [heq] at hda
        have hdid : d.id = deviceId := hda.symm.trans hadevice
        rw [hnotRevoked d hd hdid] at hrev
        cases hrev
      · rw [heq] at hda hrun
        exact h.revokedIdle d hd hrev a ha hda hrun
    · rw [List.map_append]
      apply List.Nodup.append h.claimedOnce (List.nodup_singleton _)
      intro x hx hx'
      rw [List.mem_singleton] at hx'
      rw [hx'] at hx
      exact hunclaimed hx
    · intro id' token' hclaim
      rcases List.mem_append.mp hclaim with hclaim | hclaim
      · rcases h.claimedRow id' token' hclaim with ⟨a, ha, haid, hnot, hhash⟩
        have hp : st.claimable id deviceId a = false := by
          cases hp : st.claimable id deviceId a with
          | false => rfl
          | true => exact absurd (hclaimable a hp).right.right.left hnot
        exact ⟨a, mem_updateWhere_of_neg _ ha hp, haid, hnot, hhash⟩
      · rw [List.mem_singleton] at hclaim
        injection hclaim with hid' htoken'
        rw [hid', htoken']
        refine ⟨_, mem_updateWhere_of_pos _ hb hbp, hbid, ?_, ?_⟩
        · simp [Store.claimedRow]
        · intro _
          rfl
    · intro a' ha' hrun
      rcases mem_updateWhere ha' with ⟨a, ha, hcase⟩
      rcases hcase with ⟨hp, heq⟩ | ⟨_, heq⟩
      · rw [heq]
        refine ⟨token, List.mem_append_right _ ?_⟩
        rw [List.mem_singleton]
        exact Prod.ext (hclaimable a hp).left rfl
      · rw [heq] at hrun
        rcases h.runningClaimed a ha hrun with ⟨token', htoken'⟩
        rw [heq]
        exact ⟨token', List.mem_append_left _ htoken'⟩
  · cases hst

variable {w w' : World}

theorem perform_of_step {a : Action} (h : step hash w a = some w') :
    perform hash w a = some w' ∧
      forall now, a.reading = some now -> now ≤ w.clock := by
  unfold step at h
  split at h
  · cases h
  · rename_i hreading
    refine ⟨h, ?_⟩
    intro now hnow
    rw [hnow] at hreading
    simpa using hreading

theorem advanceCreate_cases {localRun : Bool} (hw : w.advanceCreate i localRun now = some w') :
    w'.clock = w.clock ∧ w'.claims = w.claims ∧ w'.sweeps = w.sweeps ∧
      (w'.store = w.store ∨ exists c, w.creates[i]? = some c ∧ c.stage = .insert ∧
        w.store.insertAssignment (newRow c.input now) now = .ok w'.store) := by
  unfold World.advanceCreate at hw
  split at hw
  · cases hw
  · rename_i c hc
    split at hw
    · split at hw
      · cases hw
        exact ⟨rfl, rfl, rfl, .inl rfl⟩
      · cases hw
        exact ⟨rfl, rfl, rfl, .inl rfl⟩
    · split at hw
      · cases hw
        exact ⟨rfl, rfl, rfl, .inl rfl⟩
      · cases hw
        exact ⟨rfl, rfl, rfl, .inl rfl⟩
    · rename_i hstage
      split at hw
      · cases hw
        exact ⟨rfl, rfl, rfl, .inl rfl⟩
      · rename_i st hst
        cases hw
        exact ⟨rfl, rfl, rfl, .inr ⟨c, hc, hstage, hst⟩⟩
    · cases hw

theorem advanceSweep_cases (hw : w.advanceSweep i now = some w') :
    w'.clock = w.clock ∧ w'.claims = w.claims ∧
      (w'.store = w.store ∨ (exists id, w'.store = w.store.expireOne id now) ∨
        exists id, w'.store = w.store.failOne id now) := by
  unfold World.advanceSweep at hw
  split at hw
  · cases hw
    exact ⟨rfl, rfl, .inr (.inl ⟨_, rfl⟩)⟩
  · cases hw
    exact ⟨rfl, rfl, .inl rfl⟩
  · cases hw
    exact ⟨rfl, rfl, .inr (.inr ⟨_, rfl⟩)⟩
  · cases hw
    exact ⟨rfl, rfl, .inl rfl⟩
  · cases hw

theorem Fenced.advanceCreate (h : Fenced hash w.store w.claims) {localRun : Bool}
    (hw : w.advanceCreate i localRun now = some w') : Fenced hash w'.store w'.claims := by
  rcases advanceCreate_cases hw with ⟨_, hclaims, _, hsame | ⟨c, _, _, hst⟩⟩
  · rw [hclaims, hsame]
    exact h
  · rw [hclaims]
    exact h.insertAssignment rfl rfl hst

theorem Fenced.advanceSweep (h : Fenced hash w.store w.claims)
    (hw : w.advanceSweep i now = some w') : Fenced hash w'.store w'.claims := by
  rcases advanceSweep_cases hw with ⟨_, hclaims, hsame | ⟨id, hst⟩ | ⟨id, hst⟩⟩
  · rw [hclaims, hsame]
    exact h
  · rw [hclaims, hst]
    exact h.transition (expireOne_transition w.store id now)
  · rw [hclaims, hst]
    exact h.transition (failOne_transition w.store id now)

theorem finishStatus_leaves {state : SessionState} {status : AssignmentStatus}
    (h : finishStatus state = .ok status) :
    status ≠ .queued ∧ status ≠ .running := by
  cases state with
  | completed =>
      cases h
      decide
  | interrupted =>
      cases h
      decide
  | failed =>
      cases h
      decide
  | running => cases h

/-- What an action does to the rows: nothing, the transition of a statement that binds this
reading, an insertion, or a claim. -/
theorem perform_rows {a : Action} (hstep : perform hash w a = some w')
    (hnow : forall reading, reading ∈ a.reading -> reading = now) :
    w.clock ≤ w'.clock ∧
      (w'.store.assignments = w.store.assignments ∨
        (exists st', Transition now w.store st' ∧
          w'.store.assignments = st'.assignments) ∨
        (exists i localRun reading c, a = .advanceCreate i localRun reading ∧
          w.creates[i]? = some c ∧ c.stage = .insert ∧
          w.store.insertAssignment (newRow c.input reading) reading = .ok w'.store) ∨
        exists id deviceId token expires reading, a = .claim id deviceId token expires reading ∧
          w.store.claimAssignment id deviceId (hash token) expires reading = some w'.store) := by
  have hgetD : forall answer : Option Store,
      (forall st', answer = some st' -> Transition now w.store st') ->
      (answer.getD w.store).assignments = w.store.assignments ∨
        exists st', Transition now w.store st' ∧
          (answer.getD w.store).assignments = st'.assignments := by
    intro answer hanswer
    cases answer with
    | none => exact .inl rfl
    | some st' => exact .inr ⟨st', hanswer st' rfl, rfl⟩
  cases a with
  | tick elapsed =>
      cases hstep
      exact ⟨Nat.le_add_right _ _, .inl rfl⟩
  | upsertDevice id name capabilities reactivate reading =>
      cases hstep
      exact ⟨le_rfl, .inl (upsertDevice_tables w.store id name capabilities reactivate _).left⟩
  | revokeDevice id reading =>
      cases hstep
      rw [hnow reading rfl]
      exact ⟨le_rfl, .inr (.inl ⟨_, revokedRows_transition w.store id now, rfl⟩)⟩
  | create input =>
      cases hstep
      exact ⟨le_rfl, .inl rfl⟩
  | advanceCreate i localRun reading =>
      rcases advanceCreate_cases hstep with ⟨hclock, _, _, hsame | ⟨c, hc, hstage, hst⟩⟩
      · exact ⟨hclock.ge, .inl (by rw [hsame])⟩
      · exact ⟨hclock.ge, .inr (.inr (.inl ⟨i, localRun, reading, c, rfl, hc, hstage, hst⟩))⟩
  | claim id deviceId token expires reading =>
      cases hstep
      unfold World.claim
      cases hst : w.store.claimAssignment id deviceId (hash token) expires reading with
      | none => exact ⟨le_rfl, .inl rfl⟩
      | some st' =>
          exact ⟨le_rfl, .inr (.inr (.inr ⟨id, deviceId, token, expires, reading, rfl, hst⟩))⟩
  | renew id token expires reading =>
      cases hstep
      rw [hnow reading rfl]
      have hrows := hgetD (w.store.renewLease id (hash token) expires now)
        (fun _ hst' => renewLease_transition hst')
      exact ⟨le_rfl, hrows.imp_right .inl⟩
  | finish id token state error reading =>
      cases hstep
      rw [hnow reading rfl]
      unfold World.finish
      cases hstatus : finishStatus state with
      | error e => exact ⟨le_rfl, .inl rfl⟩
      | ok status =>
          have hleaves := finishStatus_leaves hstatus
          have hrows := hgetD (w.store.finishAssignment id (hash token) status error now)
            (fun _ hst' => finishAssignment_transition hleaves.left hleaves.right hst')
          exact ⟨le_rfl, hrows.imp_right .inl⟩
  | completeReview id =>
      cases hstep
      have hrows := hgetD (w.store.completeAssignmentReview id)
        (fun _ hst' => completeAssignmentReview_transition now hst')
      exact ⟨le_rfl, hrows.imp_right .inl⟩
  | cancel id reading =>
      cases hstep
      rw [hnow reading rfl]
      have hrows := hgetD (w.store.cancelAssignment id now)
        (fun _ hst' => cancelAssignment_transition hst')
      exact ⟨le_rfl, hrows.imp_right .inl⟩
  | insertChangeSet change =>
      cases hstep
      exact ⟨le_rfl, .inl rfl⟩
  | updateChangeStatus id status =>
      cases hstep
      exact ⟨le_rfl, .inl rfl⟩
  | beginSweep reading =>
      cases hstep
      unfold World.beginSweep
      split
      · exact ⟨le_rfl, .inl rfl⟩
      · exact ⟨le_rfl, .inl rfl⟩
  | advanceSweep i reading =>
      rw [hnow reading rfl] at hstep
      rcases advanceSweep_cases hstep with ⟨hclock, _, hsame | ⟨id, hst⟩ | ⟨id, hst⟩⟩
      · exact ⟨hclock.ge, .inl (by rw [hsame])⟩
      · exact ⟨hclock.ge, .inr (.inl ⟨_, expireOne_transition w.store id now, by rw [hst]⟩)⟩
      · exact ⟨hclock.ge, .inr (.inl ⟨_, failOne_transition w.store id now, by rw [hst]⟩)⟩

theorem Fenced.finish (h : Fenced hash w.store w.claims) (id token : String) (state : SessionState)
    (error : Option String) (now : Nat) :
    Fenced hash (w.finish hash id token state error now).store
      (w.finish hash id token state error now).claims := by
  unfold World.finish
  split
  · exact h
  · rename_i status hstatus
    have hleaves := finishStatus_leaves hstatus
    apply h.getD
    intro st' hst'
    exact finishAssignment_transition hleaves.left hleaves.right hst'

theorem Fenced.claim (h : Fenced hash w.store w.claims) (id deviceId token : String)
    (expires now : Nat) :
    Fenced hash (w.claim hash id deviceId token expires now).store
      (w.claim hash id deviceId token expires now).claims := by
  unfold World.claim
  split
  · exact h
  · rename_i st' hst'
    exact h.claimAssignment hst'

theorem perform_fenced {a : Action} (h : Fenced hash w.store w.claims)
    (hstep : perform hash w a = some w') : Fenced hash w'.store w'.claims := by
  cases a with
  | tick elapsed =>
      cases hstep
      exact h
  | upsertDevice id name capabilities reactivate now =>
      cases hstep
      exact h.upsertDevice id name capabilities reactivate now
  | revokeDevice id now =>
      cases hstep
      exact h.revokeDevice id now
  | create input =>
      cases hstep
      exact h
  | advanceCreate i localRun now => exact h.advanceCreate hstep
  | claim id deviceId token expires now =>
      cases hstep
      exact h.claim id deviceId token expires now
  | renew id token expires now =>
      cases hstep
      exact h.getD (fun _ hst' => renewLease_transition hst')
  | finish id token state error now =>
      cases hstep
      exact h.finish id token state error now
  | completeReview id =>
      cases hstep
      exact h.getD (fun _ hst' => completeAssignmentReview_transition 0 hst')
  | cancel id now =>
      cases hstep
      exact h.getD (fun _ hst' => cancelAssignment_transition hst')
  | insertChangeSet change =>
      cases hstep
      exact h.congr rfl rfl
  | updateChangeStatus id status =>
      cases hstep
      exact h.congr rfl rfl
  | beginSweep now =>
      cases hstep
      unfold World.beginSweep
      split
      · exact h
      · exact h
  | advanceSweep i now => exact h.advanceSweep hstep

theorem reachable_fenced {ok : World -> Action -> Prop} (h : (machine hash).ReachableUnder ok w) :
    Fenced hash w.store w.claims := by
  refine Machine.ReachableUnder.invariant (P := fun w => Fenced hash w.store w.claims) ?_ ?_ h
  · intro w0 hw0
    have hw0' : w0 = World.new := hw0
    rw [hw0']
    exact fenced_empty hash
  · intro w a w' hw _ hstep
    exact perform_fenced hw (perform_of_step hstep).left

/-!
## A lapsed lease stays lapsed
-/

def Lapses (now : Nat) (a : Assignment) : Prop :=
  a.status ≠ .queued ∧
    (a.status = .running -> unexpired now a = false)

structure Lapsed (now : Nat) (st : Store) (id : String) : Prop where
  known : exists a, a ∈ st.assignments ∧ a.id = id
  rows : forall a, a ∈ st.assignments -> a.id = id -> Lapses now a

variable {later : Nat}

theorem lapses_later (hle : now ≤ later) (h : Lapses now a) : Lapses later a := by
  refine ⟨h.left, ?_⟩
  intro hrun
  have hnow := h.right hrun
  unfold unexpired at hnow ⊢
  cases hexpires : a.leaseExpiresAt with
  | none => rfl
  | some expires =>
      rw [hexpires] at hnow
      simp only [Option.any_some, decide_eq_false_iff_not] at hnow ⊢
      omega

theorem Lapsed.congr (h : Lapsed now st id)
    (hrows : st'.assignments = st.assignments) : Lapsed now st' id := by
  constructor
  · rw [hrows]
    exact h.known
  · rw [hrows]
    exact h.rows

theorem Lapsed.transition (h : Lapsed now st id) (ht : Transition now st st') :
    Lapsed now st' id := by
  constructor
  · rcases h.known with ⟨a, ha, haid⟩
    rcases ht.forth ha with ⟨a', ha', ⟨hid, _⟩, _⟩
    exact ⟨a', ha', hid.trans haid⟩
  · intro a' ha' haid'
    rcases ht.back ha' with ⟨a, ha, ⟨hid, _⟩, hcase⟩
    have hold := h.rows a ha (hid.symm.trans haid')
    rcases hcase with heq | ⟨_, _, hrun, hunexpired⟩ | ⟨hqueued, hrunning, _⟩
    · rw [heq]
      exact hold
    · rw [hold.right hrun] at hunexpired
      cases hunexpired
    · exact ⟨hqueued, fun hrun => absurd hrun hrunning⟩

theorem Lapsed.insertAssignment (h : Lapsed now st id)
    (hst : st.insertAssignment a later = .ok st') : Lapsed now st' id := by
  rcases insertAssignment_spec hst with ⟨hnew, hrows, _⟩
  rcases h.known with ⟨b, hb, hbid⟩
  constructor
  · rw [hrows]
    exact ⟨b, List.mem_append_left _ hb, hbid⟩
  · intro c hc hcid
    rw [hrows] at hc
    rcases List.mem_append.mp hc with hc | hc
    · exact h.rows c hc hcid
    · rw [List.mem_singleton] at hc
      rw [hc] at hcid
      exact absurd (hbid.trans hcid.symm) (hnew b hb)

theorem Lapsed.claimAssignment {id' deviceId : String} (h : Lapsed now st id)
    (hst : st.claimAssignment id' deviceId tokenHash expires later = some st') :
    Lapsed now st' id := by
  unfold Store.claimAssignment at hst
  split at hst
  · cases hst
    have hkept : forall a, a ∈ st.assignments -> a.id = id ->
        st.claimable id' deviceId a = false := by
      intro a ha haid
      have hnot := (h.rows a ha haid).left
      simp [Store.claimable, hnot]
    constructor
    · rcases h.known with ⟨a, ha, haid⟩
      exact ⟨a, mem_updateWhere_of_neg _ ha (hkept a ha haid), haid⟩
    · intro a' ha' haid'
      rcases mem_updateWhere ha' with ⟨a, ha, ⟨hp, heq⟩ | ⟨_, heq⟩⟩
      · rw [heq] at haid'
        rw [hkept a ha haid'] at hp
        cases hp
      · rw [heq] at haid' ⊢
        exact h.rows a ha haid'
  · cases hst

/-- Every statement reads the clock when it runs. -/
def AtomicClock (w : World) (a : Action) : Prop :=
  forall now, now ∈ a.reading -> now = w.clock

instance (w : World) (a : Action) : Decidable (AtomicClock w a) :=
  inferInstanceAs (Decidable (forall now, now ∈ a.reading -> now = w.clock))

theorem perform_lapsed {a : Action} (h : Lapsed w.clock w.store id)
    (hclock : AtomicClock w a) (hstep : perform hash w a = some w') :
    Lapsed w'.clock w'.store id := by
  rcases perform_rows hstep hclock with ⟨hle, hrows⟩
  have hstays : Lapsed w.clock w'.store id := by
    rcases hrows with hsame | ⟨st', ht, hst'⟩ | ⟨_, _, _, _, _, _, _, hst⟩ | ⟨_, _, _, _, _, _, hst⟩
    · exact h.congr hsame
    · exact (h.transition ht).congr hst'
    · exact h.insertAssignment hst
    · exact h.claimAssignment hst
  exact ⟨hstays.known, fun a ha haid => lapses_later hle (hstays.rows a ha haid)⟩

/-!
## The fenced calls
-/

inductive LeaseCall where
  | validate
  | renew (expires : Nat)
  | finish (status : AssignmentStatus) (error : Option String)
deriving DecidableEq, Repr

/-- The store accepts the call when it arrives now. -/
def accepts (hash : String -> String) (w : World) (call : LeaseCall)
    (id token : String) : Bool :=
  match call with
  | .validate =>
      (w.store.validateLease id (hash token) w.clock).isSome
  | .renew expires =>
      (w.store.renewLease id (hash token) expires w.clock).isSome
  | .finish status error =>
      (w.store.finishAssignment id (hash token) status error w.clock).isSome

theorem leaseHeld_of_accepts {call : LeaseCall} (h : accepts hash w call id token = true) :
    exists a, a ∈ w.store.assignments ∧
      Store.leaseHeld id (hash token) w.clock a = true := by
  cases call with
  | validate =>
      rcases Option.isSome_iff_exists.mp h with ⟨a, hfind⟩
      have hp := List.find?_some hfind
      simp only [Bool.and_eq_true] at hp
      exact ⟨a, List.mem_of_find?_eq_some hfind, hp.left⟩
  | renew expires =>
      apply affected_iff.mp
      simp only [accepts, Store.renewLease] at h
      split at h
      · assumption
      · cases h
  | finish status error =>
      apply affected_iff.mp
      simp only [accepts, Store.finishAssignment] at h
      split at h
      · assumption
      · cases h

theorem accepts_of_leaseHeld (hw : Fenced hash w.store w.claims) (ha : a ∈ w.store.assignments) (hheld : Store.leaseHeld id (hash token) w.clock a = true) (call : LeaseCall) :
    accepts hash w call id token = true := by
  have haffected : affected (Store.leaseHeld id (hash token) w.clock)
      w.store.assignments = true :=
    affected_iff.mpr ⟨a, ha, hheld⟩
  cases call with
  | validate =>
      have hallowed : w.store.deviceAllowed a.deviceId = true := by
        rcases hw.deviceKnown a ha with ⟨d, hd, hda⟩
        have hrun : a.status = .running := by
          simp only [Store.leaseHeld, Bool.and_eq_true, beq_iff_eq] at hheld
          exact hheld.left.right
        apply List.any_eq_true.mpr
        refine ⟨d, hd, ?_⟩
        cases hrevoked : d.revokedAt with
        | none => simp [hda]
        | some at' =>
            have hidle := hw.revokedIdle d hd (by rw [hrevoked]; rfl) a ha hda.symm
            exact absurd hrun hidle
      show (w.store.validateLease id (hash token) w.clock).isSome = true
      unfold Store.validateLease
      rw [List.find?_isSome]
      exact ⟨a, ha, by simp [hheld, hallowed]⟩
  | renew expires =>
      simp [accepts, Store.renewLease, haffected]
  | finish status error =>
      simp [accepts, Store.finishAssignment, haffected]

theorem lapsed_of_rejected (hw : Fenced hash w.store w.claims)
    (hclaim : (id, token) ∈ w.claims) {call : LeaseCall}
    (hrejected : accepts hash w call id token = false) : Lapsed w.clock w.store id := by
  rcases hw.claimedRow id token hclaim with ⟨a, ha, haid, hqueued, hhash⟩
  constructor
  · exact ⟨a, ha, haid⟩
  · intro b hb hbid
    have hab : b = a := hw.ids.eq_of_key hb ha (hbid.trans haid.symm)
    rw [hab]
    refine ⟨hqueued, ?_⟩
    intro hrun
    cases hunexpired : unexpired w.clock a with
    | false => rfl
    | true =>
        have hheld : Store.leaseHeld id (hash token) w.clock a = true := by
          unfold unexpired at hunexpired
          simp [Store.leaseHeld, haid, hhash hrun, hrun, hunexpired]
        rw [accepts_of_leaseHeld hw ha hheld call] at hrejected
        cases hrejected

theorem rejects_of_lapsed (h : Lapsed w.clock w.store id) (call : LeaseCall)
    (token : String) : accepts hash w call id token = false := by
  cases haccepts : accepts hash w call id token with
  | false => rfl
  | true =>
      rcases leaseHeld_of_accepts haccepts with ⟨a, ha, hheld⟩
      simp only [Store.leaseHeld, Bool.and_eq_true, beq_iff_eq] at hheld
      rcases hheld with ⟨⟨⟨haid, _⟩, hrun⟩, hunexpired⟩
      have hlapsed : unexpired w.clock a = false :=
        (h.rows a ha haid).right hrun
      unfold unexpired at hlapsed
      rw [hlapsed] at hunexpired
      cases hunexpired

/-- Lease fencing, over every run in which the statements read the clock as they
run. -/
theorem lease_fencing (hinjective : Function.Injective hash) {w : World}
    (h : (machine hash).ReachableUnder AtomicClock w) :
    (w.claims.map Prod.fst).Nodup ∧
      (forall a, a ∈ w.store.assignments ->
        (a.leaseTokenHash.isSome = true ↔
          a.status = AssignmentStatus.running)) ∧
      (forall call id token, accepts hash w call id token = true ->
        (id, token) ∈ w.claims ∧
          exists a expires, a ∈ w.store.assignments ∧ a.id = id ∧
            a.leaseExpiresAt = some expires ∧ w.clock < expires) ∧
      (forall call id token, (id, token) ∈ w.claims ->
        accepts hash w call id token = false ->
        forall w', (machine hash).Steps AtomicClock w w' ->
          forall call', accepts hash w' call' id token = false) ∧
      forall d, d ∈ w.store.devices -> d.revokedAt.isSome = true ->
        forall a, a ∈ w.store.assignments -> a.deviceId = d.id ->
          a.status ≠ AssignmentStatus.running := by
  have hw := reachable_fenced h
  refine ⟨hw.claimedOnce, hw.hashRunning, ?_, ?_, hw.revokedIdle⟩
  · intro call id token haccepts
    rcases leaseHeld_of_accepts haccepts with ⟨a, ha, hheld⟩
    simp only [Store.leaseHeld, Bool.and_eq_true, beq_iff_eq] at hheld
    rcases hheld with ⟨⟨⟨haid, hhash⟩, hrun⟩, hunexpired⟩
    rcases hw.runningClaimed a ha hrun with ⟨token', hclaim⟩
    rcases hw.claimedRow a.id token' hclaim with ⟨b, hb, hbid, _, hbhash⟩
    have hba : b = a := hw.ids.eq_of_key hb ha hbid
    rw [hba] at hbhash
    have htoken : token' = token := by
      apply hinjective
      exact Option.some.inj ((hbhash hrun).symm.trans hhash)
    rw [haid, htoken] at hclaim
    refine ⟨hclaim, a, ?_⟩
    cases hexpires : a.leaseExpiresAt with
    | none =>
        rw [hexpires] at hunexpired
        cases hunexpired
    | some expires =>
        rw [hexpires] at hunexpired
        exact ⟨expires, ha, haid, rfl, by simpa using hunexpired⟩
  · intro call id token hclaim hrejected w' hsteps call'
    have hlapsed : Lapsed w'.clock w'.store id := by
      refine Machine.Steps.invariant
        (P := fun w => Lapsed w.clock w.store id) ?_ hsteps
        (lapsed_of_rejected hw hclaim hrejected)
      intro s a t hs hclock hstep
      exact perform_lapsed hs hclock (perform_of_step hstep).left
    exact rejects_of_lapsed hlapsed call' token

def sampleToken : String :=
  "6f1d0c3a9b5e4f7788aa21c4d5e6f70811aa22bb33cc44dd55ee66ff77008899"

def sampleDigest : String :=
  "9c349622b6b8c0f059ed61c0d18b50df71a60990148f5e4bda0b3b89c638b375"

def sampleHash : String -> String :=
  Equiv.swap sampleToken sampleDigest

def codexReady : List AgentCapability :=
  [{ agent := .codex, installed := true, authenticated := true }]

def sampleInput (id thread device : String) (repos : List String) :
    NewAssignment :=
  { id := id
    threadId := thread
    deviceId := device
    agent := .codex
    permission := "workspace_write"
    executionBackend := .host
    threadRepoIds := repos }

def createAt (index now : Nat) : List Action :=
  [.advanceCreate index false now, .advanceCreate index false now,
    .advanceCreate index false now]

/-- An assignment is created and claimed, its lease is renewed once and then
runs out. -/
def lapsedLease : List Action :=
  [.upsertDevice "d1" "laptop" codexReady true 0,
    .create (sampleInput "a1" "t1" "d1" ["r1"])] ++ createAt 0 0 ++
    [.claim "a1" "d1" sampleToken 45000 0, .tick 30000,
      .renew "a1" sampleToken 75000 30000, .tick 50000]

theorem lease_fencing_lapsedLease :
    exists w, (machine sampleHash).ReachableUnder AtomicClock w ∧
      w.claims = [("a1", sampleToken)] ∧
      accepts sampleHash w LeaseCall.validate "a1" sampleToken = false ∧
      forall w', (machine sampleHash).Steps AtomicClock w w' ->
        forall call, accepts sampleHash w' call "a1" sampleToken = false := by
  have hrun : Option.any
      (fun w => decide (w.claims = [("a1", sampleToken)] ∧
        accepts sampleHash w LeaseCall.validate "a1" sampleToken = false))
      ((machine sampleHash).runUnder AtomicClock World.new lapsedLease) = true := by
    decide +kernel
  rcases (machine sampleHash).exists_reachable_of_runUnder rfl hrun with ⟨w, hreach, hcheck⟩
  rcases of_decide_eq_true hcheck with ⟨hclaims, hrejected⟩
  have hinjective : Function.Injective sampleHash :=
    (Equiv.swap sampleToken sampleDigest).injective
  rcases lease_fencing hinjective hreach with ⟨_, _, _, hfenced, _⟩
  have hclaim : ("a1", sampleToken) ∈ w.claims := by
    rw [hclaims]
    exact List.mem_singleton.mpr rfl
  exact ⟨w, hreach, hclaims, hrejected,
    hfenced LeaseCall.validate "a1" sampleToken hclaim hrejected⟩

end Collaboration
end Perpetual
