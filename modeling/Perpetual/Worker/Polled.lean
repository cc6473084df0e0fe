import Perpetual.Worker.Steps

/-!
# The poll and its claims

What each operation on the whole worker does.  A claim is under way only while a
poll waits for it, and an assignment that a poll is about to claim has not been
given away.
-/

namespace Perpetual
namespace Worker

open Foundation

/-!
## Steps of the worker
-/

variable {w w' : World}

theorem pollStarts_cases (h : w.pollStarts = some w') :
    w.disposed = false ∧ w.poll = .idle ∧
      w' = { w with poll := .listing } := by
  unfold World.pollStarts at h
  split at h
  · cases h
  · rename_i hdisposed
    split at h
    · rename_i hpoll
      cases h
      exact ⟨Bool.eq_false_iff.mpr hdisposed, hpoll, rfl⟩
    · cases h

theorem pollListed_cases {assignments : List Listed} (h : w.pollListed assignments = some w') :
    w.poll = .listing ∧
      (forall a, a ∈ assignments -> a.queued = true -> (w.jobs a.id).taken = false) ∧
      exists left, w' = { w with poll := .stopping assignments left } := by
  unfold World.pollListed at h
  split at h
  · rename_i hpoll
    split at h
    · rename_i hlisted
      cases h
      exact ⟨hpoll, hlisted.right, _, rfl⟩
    · cases h
  · cases h

theorem pollListFails_cases (h : w.pollListFails = some w') :
    w.poll = .listing ∧ w' = { w with poll := .idle } := by
  unfold World.pollListFails at h
  split at h
  · rename_i hpoll
    cases h
    exact ⟨hpoll, rfl⟩
  · cases h

theorem pollStopped_cases (h : w.pollStopped = some w') :
    exists assignments stopped left,
      w.poll = .stopping assignments (stopped :: left) ∧
      w' = { w with poll := .stopping assignments left } := by
  unfold World.pollStopped at h
  split at h
  · rename_i assignments stopped left hpoll
    cases h
    exact ⟨assignments, stopped, left, hpoll, rfl⟩
  · cases h

theorem pollClaims_cases (h : w.pollClaims = some w') :
    exists assignments, w.poll = .stopping assignments [] ∧
      w' =
        { w with
          poll := .claiming (w.toClaim assignments)
          jobs := fun id =>
            if id ∈ w.toClaim assignments ∧ ¬ id ∈ w.active ∧ w.disposed = false then
              { w.jobs id with claim := .claiming }
            else w.jobs id } := by
  unfold World.pollClaims at h
  split at h
  · rename_i assignments hpoll
    cases h
    exact ⟨assignments, hpoll, rfl⟩
  · cases h

theorem pollSyncs_cases (h : w.pollSyncs = some w') :
    exists children runs, w.poll = .claiming children ∧
      (forall id, id ∈ children -> (w.jobs id).claim = .idle) ∧
      w' =
        { w with
          poll := .syncing runs
          jobs := fun id =>
            if id ∈ w.active then (w.jobs id).syncInstructions w.disposed
            else w.jobs id } := by
  unfold World.pollSyncs at h
  split at h
  · rename_i children hpoll
    split at h
    · rename_i hidle
      cases h
      exact ⟨children, _, hpoll, hidle, rfl⟩
    · cases h
  · cases h

theorem approvalsEnd_cases {n : Nat} {succeeds : Bool} (h : w.approvalsEnd n succeeds = some w') :
    exists runs runs', w.poll = .syncing runs ∧
      w' = { w with poll := .syncing runs' } := by
  unfold World.approvalsEnd at h
  split at h
  · rename_i runs hpoll
    split at h
    · cases h
    · split at h
      · cases h
        exact ⟨runs, _, hpoll, rfl⟩
      · cases h
  · cases h

theorem pollEnds_cases (h : w.pollEnds = some w') :
    exists runs, w.poll = .syncing runs ∧
      w' = { w with poll := .idle } := by
  unfold World.pollEnds at h
  split at h
  · rename_i runs hpoll
    split at h
    · cases h
      exact ⟨runs, hpoll, rfl⟩
    · cases h
  · cases h

variable {id : String}

theorem prepared_cases (h : w.prepared id = some w') : (w.jobs id).claim = .preparing ∧
      w' =
        { w.setJob id (w.jobs id).prepared with
          active := w.active.insert id
          localThreadToAssignment := w.localThreadToAssignment.insert id } := by
  unfold World.prepared at h
  split at h
  · rename_i hclaim
    cases h
    exact ⟨hclaim, rfl⟩
  · cases h

theorem World.closes_cases {succeeds : Bool} (h : w.closes id succeeds = some w') :
    exists j, (w.jobs id).closes succeeds = some j ∧
      w' =
        { w.setJob id j with
          active := w.active.filter (fun i => i != id)
          localThreadToAssignment :=
            w.localThreadToAssignment.filter (fun i => i != id) } := by
  unfold World.closes at h
  split at h
  · cases h
  · rename_i j hj
    cases h
    exact ⟨j, hj, rfl⟩

theorem dispose_cases (h : w.dispose = some w') :
    w.disposed = false ∧
      w' =
        { w with
          disposed := true
          jobs := fun id =>
            if id ∈ w.active then
              { w.jobs id with
                run :=
                  { (w.jobs id).run with renewTimer := false, flushTimer := false } }
            else w.jobs id
          active := []
          localThreadToAssignment := [] } := by
  unfold World.dispose at h
  split at h
  · cases h
  · rename_i hdisposed
    cases h
    exact ⟨Bool.eq_false_iff.mpr hdisposed, rfl⟩

theorem job_cases {a : Job.Action} (h : w.step (.job id a) = some w') :
    exists j, (w.jobs id).step (w.context id) a = some j ∧ w' = w.setJob id j := by
  rcases Option.map_eq_some_iff.mp h with ⟨j, hj, hw⟩
  exact ⟨j, hj, hw.symm⟩

/-!
## Claims under way
-/

/-- What the poll and the claims know of each other. -/
structure Polled (w : World) : Prop where
  awaited : forall id, (w.jobs id).claim ≠ .idle ->
    exists children, w.poll = .claiming children ∧ id ∈ children
  free : forall assignments left, w.poll = .stopping assignments left ->
    forall a, a ∈ assignments -> a.queued = true -> (w.jobs a.id).taken = false

theorem Polled.idle {p : PollStage} (h : Polled w) (hpoll : w.poll = p)
    (hp : forall children, p ≠ .claiming children) (id : String) :
    (w.jobs id).claim = .idle := by
  by_contra hclaim
  rcases h.awaited id hclaim with ⟨children, hclaiming, _⟩
  exact hp children (hpoll.symm.trans hclaiming)

theorem polled_new : Polled World.new where
  awaited := fun _ hclaim => absurd rfl hclaim
  free := by
    intro assignments left hpoll
    cases hpoll

theorem polled_of_idle (hidle : forall id, (w.jobs id).claim = .idle)
    (hfree : forall assignments left, w.poll = .stopping assignments left ->
      forall a, a ∈ assignments -> a.queued = true -> (w.jobs a.id).taken = false) :
    Polled w where
  awaited := fun id hclaim => absurd (hidle id) hclaim
  free := hfree

theorem jobs_setJob (w : World) (id id' : String) (j : Job) :
    (w.setJob id j).jobs id' = if id' = id then j else w.jobs id' :=
  Function.update_apply w.jobs id j id'

theorem Polled.setJob (h : Polled w) (id : String) (j : Job) (hpoll : w'.poll = w.poll)
    (hjobs : w'.jobs = (w.setJob id j).jobs)
    (hclaim : j.claim ≠ .idle -> (w.jobs id).claim ≠ .idle)
    (htaken : (w.jobs id).claim = .idle -> j.taken = (w.jobs id).taken) :
    Polled w' where
  awaited := by
    intro id' hid'
    rw [hjobs, jobs_setJob] at hid'
    rw [hpoll]
    split at hid'
    · rename_i heq
      rw [heq]
      exact h.awaited id (hclaim hid')
    · exact h.awaited id' hid'
  free := by
    intro assignments left hstopping a ha hqueued
    rw [hpoll] at hstopping
    have hidle : (w.jobs id).claim = .idle := by
      apply h.idle hstopping
      intro children hclaiming
      cases hclaiming
    rw [hjobs, jobs_setJob]
    split
    · rename_i heq
      rw [htaken hidle, ← heq]
      exact h.free assignments left hstopping a ha hqueued
    · exact h.free assignments left hstopping a ha hqueued

theorem Polled.poll {p p' : PollStage} (h : Polled w) (hpoll : w.poll = p)
    (hp : forall children, p ≠ .claiming children)
    (hp' : forall assignments left, p' ≠ .stopping assignments left) :
    Polled { w with poll := p' } :=
  polled_of_idle (h.idle hpoll hp)
    (fun assignments left hstopping => absurd hstopping (hp' assignments left))

theorem Polled.pollClaims (h : Polled w) (hstep : w.pollClaims = some w') : Polled w' := by
  rcases pollClaims_cases hstep with ⟨assignments, hpoll, hw⟩
  have hidle : forall id, (w.jobs id).claim = .idle := by
    apply h.idle hpoll
    intro children hclaiming
    cases hclaiming
  rw [hw]
  constructor
  · intro id hclaim
    refine ⟨_, rfl, ?_⟩
    simp only at hclaim
    split at hclaim
    · rename_i hchild
      exact hchild.left
    · exact absurd (hidle id) hclaim
  · intro assignments' left hstopping
    cases hstopping

theorem Polled.pollSyncs (h : Polled w) (hstep : w.pollSyncs = some w') : Polled w' := by
  rcases pollSyncs_cases hstep with ⟨children, runs, hpoll, hidle, hw⟩
  have hall : forall id, (w.jobs id).claim = .idle := by
    intro id
    by_contra hclaim
    rcases h.awaited id hclaim with ⟨children', hclaiming, hchild⟩
    rw [hpoll] at hclaiming
    cases hclaiming
    exact hclaim (hidle id hchild)
  rw [hw]
  apply polled_of_idle
  · intro id
    simp only
    split
    · exact hall id
    · exact hall id
  · intro assignments left hstopping
    cases hstopping

theorem Polled.dispose (h : Polled w) (hstep : w.dispose = some w') : Polled w' := by
  rcases dispose_cases hstep with ⟨_, hw⟩
  have hjobs : forall id, (w'.jobs id).claim = (w.jobs id).claim ∧
      (w'.jobs id).taken = (w.jobs id).taken := by
    intro id
    rw [hw]
    simp only
    split
    · exact ⟨rfl, rfl⟩
    · exact ⟨rfl, rfl⟩
  have hpoll : w'.poll = w.poll := by rw [hw]
  constructor
  · intro id hclaim
    rw [(hjobs id).left] at hclaim
    rw [hpoll]
    exact h.awaited id hclaim
  · intro assignments left hstopping a ha hqueued
    rw [hpoll] at hstopping
    rw [(hjobs a.id).right]
    exact h.free assignments left hstopping a ha hqueued

theorem polled_step {a : Action} (h : Polled w) (hstep : w.step a = some w') : Polled w' := by
  cases a with
  | pollStarts =>
      rcases pollStarts_cases hstep with ⟨_, hpoll, hw⟩
      rw [hw]
      apply h.poll hpoll
      · intro children hclaiming
        cases hclaiming
      · intro assignments left hstopping
        cases hstopping
  | pollListed assignments =>
      rcases pollListed_cases hstep with ⟨hpoll, hfree, left, hw⟩
      rw [hw]
      apply polled_of_idle
      · apply h.idle hpoll
        intro children hclaiming
        cases hclaiming
      · intro assignments' left' hstopping
        cases hstopping
        exact hfree
  | pollListFails =>
      rcases pollListFails_cases hstep with ⟨hpoll, hw⟩
      rw [hw]
      apply h.poll hpoll
      · intro children hclaiming
        cases hclaiming
      · intro assignments left hstopping
        cases hstopping
  | pollStopped =>
      rcases pollStopped_cases hstep with ⟨assignments, stopped, left, hpoll, hw⟩
      rw [hw]
      apply polled_of_idle
      · apply h.idle hpoll
        intro children hclaiming
        cases hclaiming
      · intro assignments' left' hstopping
        cases hstopping
        exact h.free assignments _ hpoll
  | pollClaims =>
      exact h.pollClaims hstep
  | pollSyncs =>
      exact h.pollSyncs hstep
  | approvalsEnd n succeeds =>
      rcases approvalsEnd_cases hstep with ⟨runs, runs', hpoll, hw⟩
      rw [hw]
      apply h.poll hpoll
      · intro children hclaiming
        cases hclaiming
      · intro assignments left hstopping
        cases hstopping
  | pollEnds =>
      rcases pollEnds_cases hstep with ⟨runs, hpoll, hw⟩
      rw [hw]
      apply h.poll hpoll
      · intro children hclaiming
        cases hclaiming
      · intro assignments left hstopping
        cases hstopping
  | prepared id =>
      rcases prepared_cases hstep with ⟨hclaim, hw⟩
      apply h.setJob id (w.jobs id).prepared
      · rw [hw]
        rfl
      · rw [hw]
      · intro _ hidle
        rw [hclaim] at hidle
        cases hidle
      · intro hidle
        rw [hclaim] at hidle
        cases hidle
  | closes id succeeds =>
      rcases World.closes_cases hstep with ⟨j, hcloses, hw⟩
      rcases Worker.closes_cases hcloses with ⟨_, hj⟩
      apply h.setJob id j
      · rw [hw]
        rfl
      · rw [hw]
      · rw [hj]
        exact fun hclaim => hclaim
      · rw [hj]
        exact fun _ => rfl
  | dispose =>
      exact h.dispose hstep
  | job id b =>
      rcases job_cases hstep with ⟨j, hj, hw⟩
      apply h.setJob id j
      · rw [hw]
        rfl
      · rw [hw]
      · intro hclaim hidle
        exact hclaim (idle_of_step hj hidle).left
      · intro hidle
        exact (idle_of_step hj hidle).right

end Worker
end Perpetual
