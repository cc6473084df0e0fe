import Perpetual.Collaboration.Calls

/-!
# Steps of the coordinator's calls

What the statements do to the rows of the assignments, and what a step of a call
does to the change sets and the checkout.  The results about the calls use these
instead of the definitions of the statements and of the steps.
-/

namespace Perpetual
namespace Collaboration

open Foundation

/-!
## Statements on assignments
-/

/-- The statement changes the status of some assignments that meet the condition,
and no change set.  Ids and threads stay. -/
structure Rewrites (st st' : Store) (p : Assignment -> Prop)
    (s : AssignmentStatus -> AssignmentStatus) : Prop where
  rows : exists q f, st'.assignments = Table.updateWhere q f st.assignments ∧
    (forall a, q a = true -> p a) ∧
    forall a, (f a).id = a.id ∧ (f a).threadId = a.threadId ∧
      (f a).status = s a.status
  changeSets : st'.changeSets = st.changeSets

theorem Rewrites.mem {st st' : Store} {p : Assignment -> Prop}
    {s : AssignmentStatus -> AssignmentStatus} (h : Rewrites st st' p s)
    {a' : Assignment} (ha' : a' ∈ st'.assignments) :
    exists a, a ∈ st.assignments ∧ a'.id = a.id ∧ a'.threadId = a.threadId ∧
      (a'.status = a.status ∨ p a ∧ a'.status = s a.status) := by
  rcases h.rows with ⟨q, f, hrows, hq, hf⟩
  rw [hrows] at ha'
  rcases Table.mem_updateWhere ha' with ⟨a, ha, ⟨hp, heq⟩ | ⟨_, heq⟩⟩
  · rw [heq]
    rcases hf a with ⟨hid, hthread, hstatus⟩
    exact ⟨a, ha, hid, hthread, .inr ⟨hq a hp, hstatus⟩⟩
  · rw [heq]
    exact ⟨a, ha, rfl, rfl, .inl rfl⟩

theorem Rewrites.mem_of_mem {st st' : Store} {p : Assignment -> Prop}
    {s : AssignmentStatus -> AssignmentStatus} (h : Rewrites st st' p s)
    {a : Assignment} (ha : a ∈ st.assignments) :
    exists a', a' ∈ st'.assignments ∧ a'.id = a.id ∧ a'.threadId = a.threadId ∧
      (a'.status = a.status ∨ p a ∧ a'.status = s a.status) := by
  rcases h.rows with ⟨q, f, hrows, hq, hf⟩
  cases hp : q a with
  | true =>
      rcases hf a with ⟨hid, hthread, hstatus⟩
      refine ⟨f a, ?_, hid, hthread, .inr ⟨hq a hp, hstatus⟩⟩
      rw [hrows]
      exact Table.mem_updateWhere_of_pos f ha hp
  | false =>
      refine ⟨a, ?_, rfl, rfl, .inl rfl⟩
      rw [hrows]
      exact Table.mem_updateWhere_of_neg f ha hp

variable {st st' : Store} {id : String}

variable {hash : String} {now : Nat}

theorem claimAssignment_rewrites {deviceId : String} {expires : Nat}
    (h : st.claimAssignment id deviceId hash expires now = some st') :
    Rewrites st st' (fun a => a.id = id ∧ a.status = .queued)
      (fun _ => .running) := by
  unfold Store.claimAssignment at h
  split at h
  · cases h
    constructor
    · refine ⟨_, _, rfl, ?_, fun _ => ⟨rfl, rfl, rfl⟩⟩
      intro a hp
      simp only [Store.claimable, Bool.and_eq_true, beq_iff_eq] at hp
      exact ⟨hp.left.left.left, hp.left.right⟩
    · rfl
  · cases h

theorem leaseHeld_id {a : Assignment} (h : Store.leaseHeld id hash now a = true) :
    a.id = id ∧ a.status = .running := by
  simp only [Store.leaseHeld, Bool.and_eq_true, beq_iff_eq] at h
  exact ⟨h.left.left.left, h.left.right⟩

theorem renewLease_rewrites {expires : Nat} (h : st.renewLease id hash expires now = some st') :
    Rewrites st st' (fun a => a.id = id ∧ a.status = .running)
      (fun s => s) := by
  unfold Store.renewLease at h
  split at h
  · cases h
    constructor
    · exact ⟨_, _, rfl, fun a hp => leaseHeld_id hp, fun _ => ⟨rfl, rfl, rfl⟩⟩
    · rfl
  · cases h

theorem renewLease_getD (st : Store) (id hash : String) (expires now : Nat) :
    (exists p, Rewrites st ((st.renewLease id hash expires now).getD st) p
      (fun s => s)) ∧
    ((st.renewLease id hash expires now).getD st).changeSets = st.changeSets := by
  cases hrenew : st.renewLease id hash expires now with
  | none =>
      refine ⟨⟨fun _ => True, ?_⟩, rfl⟩
      constructor
      · refine ⟨fun _ => false, fun a => a, ?_, fun _ _ => trivial, fun _ => ⟨rfl, rfl, rfl⟩⟩
        exact (List.map_id _).symm
      · rfl
  | some st' =>
      have hrewrites := renewLease_rewrites hrenew
      exact ⟨⟨_, hrewrites⟩, hrewrites.changeSets⟩

theorem finishAssignment_rewrites {status : AssignmentStatus} {error : Option String}
    (h : st.finishAssignment id hash status error now = some st') :
    Rewrites st st' (fun a => a.id = id ∧ a.status = .running)
      (fun _ => status) := by
  unfold Store.finishAssignment at h
  split at h
  · cases h
    constructor
    · refine ⟨Store.leaseHeld id hash now, Store.finishedRow status error now, ?_,
        fun a hp => leaseHeld_id hp, fun _ => ⟨rfl, rfl, rfl⟩⟩
      split
      · rfl
      · rfl
    · split
      · rfl
      · rfl
  · cases h

theorem completeAssignmentReview_rewrites (h : st.completeAssignmentReview id = some st') :
    Rewrites st st'
      (fun a => a.id = id ∧ a.status = .review ∧
        st.unsettled id = false)
      (fun _ => .completed) := by
  unfold Store.completeAssignmentReview at h
  split at h
  · cases h
    constructor
    · refine ⟨_, _, rfl, ?_, fun _ => ⟨rfl, rfl, rfl⟩⟩
      intro a hp
      simp only [Store.reviewable, Bool.and_eq_true, beq_iff_eq, Bool.not_eq_true'] at hp
      exact ⟨hp.left.left, hp.left.right, hp.right⟩
    · rfl
  · cases h

theorem cancelAssignment_rewrites (h : st.cancelAssignment id now = some st') :
    Rewrites st st'
      (fun a => a.id = id ∧ a.status ≠ .completed)
      (fun _ => .cancelled) := by
  unfold Store.cancelAssignment at h
  split at h
  · cases h
    constructor
    · refine ⟨_, _, rfl, ?_, fun _ => ⟨rfl, rfl, rfl⟩⟩
      intro a hp
      simp only [Store.cancellable, Bool.and_eq_true, beq_iff_eq] at hp
      constructor
      · exact hp.left
      · intro hcompleted
        rw [hcompleted] at hp
        cases hp.right
    · rfl
  · cases h

theorem revokeDevice_rewrites (st : Store) (deviceId : String) (now : Nat) :
    Rewrites st (st.revokeDevice deviceId now)
      (fun a => a.deviceId = deviceId ∧
        (a.status = .queued ∨ a.status = .running))
      (fun _ => .cancelled) := by
  constructor
  · refine ⟨_, Store.revokedRow now, rfl, ?_, fun _ => ⟨rfl, rfl, rfl⟩⟩
    intro a hp
    simp only [Bool.and_eq_true, Bool.or_eq_true, beq_iff_eq] at hp
    exact hp
  · rfl

theorem expireOne_rewrites (st : Store) (id : String) (now : Nat) :
    Rewrites st (st.expireOne id now)
      (fun a => a.id = id ∧ a.status = .running)
      (fun _ => .leaseExpired) := by
  constructor
  · refine ⟨_, Store.expiredRow now, rfl, ?_, fun _ => ⟨rfl, rfl, rfl⟩⟩
    intro a hp
    simp only [Bool.and_eq_true, beq_iff_eq] at hp
    exact hp
  · rfl

theorem failOne_rewrites (st : Store) (id : String) (now : Nat) :
    Rewrites st (st.failOne id now)
      (fun a => a.id = id ∧ a.status = .queued)
      (fun _ => .failed) := by
  constructor
  · refine ⟨_, Store.offlineRow now, rfl, ?_, fun _ => ⟨rfl, rfl, rfl⟩⟩
    intro a hp
    simp only [Bool.and_eq_true, beq_iff_eq] at hp
    exact hp
  · rfl

namespace Calls

/-!
## Change sets and the checkout
-/

/-- The call has written this change set and not updated its status yet. -/
def Call.hasWritten (id : String) : Call -> Bool
  | .applyActivity change => change.id == id
  | .applyUpdate change _ => change.id == id
  | _ => false

def Call.Clean (call : Call) : Prop :=
  forall id, call.hasWritten id = false

/-- The step leaves the change sets and the checkout alone. -/
structure Untouched (w w' : World) : Prop where
  changeSets : w'.store.changeSets = w.store.changeSets
  writes : w'.writes = w.writes
  resolutions : w'.resolutions = w.resolutions

theorem Untouched.refl (w : World) : Untouched w w := ⟨rfl, rfl, rfl⟩

def reported (sha256 : String -> String) (change : ChangeSet) : ChangeSet :=
  { change with
    files := change.files.take 2000
    patchSha256 := sha256 change.patch
    status := .pending }

inductive ChangeStep (sha256 : String -> String) (w : World) :
    Call -> Input -> World -> Call -> Prop where
  | failed (call : Call) : ChangeStep sha256 w call .fault w .returned
  | elsewhere {call next : Call} {input : Input} {w' : World} (hcall : call.Clean)
      (hnext : next.Clean) (hsame : Untouched w w') :
      ChangeStep sha256 w call input w' next
  | inserted (change : ChangeSet) (now : Nat)
      (hfresh : w.getChangeSet change.id = none) :
      ChangeStep sha256 w (.reportInsert change) (.tick now)
        (w.insertChangeSet (reported sha256 change)) .returned
  | conflict (change : ChangeSet) (now : Nat) :
      ChangeStep sha256 w (.applyConflict change) (.tick now)
        (w.updateChangeStatus change.id .conflict) .returned
  | wrote (change : ChangeSet) (overwrite : Bool) (outcome : GitOutcome) :
      ChangeStep sha256 w (.applyWrite change overwrite) (.git outcome)
        (writePatch w change overwrite outcome) (afterWrite change overwrite outcome)
  | activity (change : ChangeSet) (now : Nat) :
      ChangeStep sha256 w (.applyActivity change) (.tick now) w
        (.applyUpdate change .appliedWithOverwrite)
  | updated (change : ChangeSet) (status : ChangeStatus) (now : Nat) :
      ChangeStep sha256 w (.applyUpdate change status) (.tick now)
        (w.updateChangeStatus change.id status)
        (.completeReview change.assignmentId)
  | rejected (change : ChangeSet) (now : Nat) :
      ChangeStep sha256 w (.rejectUpdate change) (.tick now)
        (w.updateChangeStatus change.id .rejected)
        (.completeReview change.assignmentId)

theorem clean_afterDirty (change : ChangeSet) (overwrite dirty : Bool) :
    (afterDirty change overwrite dirty).Clean := by
  intro id
  unfold afterDirty
  split
  · rfl
  · split
    · split
      · rfl
      · rfl
    · rfl

theorem clean_afterFinish (id threadId : String) (state : SessionState) :
    (afterFinish id threadId state).Clean := by
  intro id'
  unfold afterFinish
  split
  · rfl
  · rfl

/-!
## Rows, turns and threads
-/

/-- The assignments whose turn the call has still to finish. -/
def Call.owedTurns : Call -> List String
  | .finishReview id _ => [id]
  | .settleTurn id _ _ _ => [id]
  | .sweepExpire _ ended => ended.map Prod.fst
  | .sweepOffline ended => ended.map Prod.fst
  | .sweepFail _ ended => ended.map Prod.fst
  | .sweepTurn ended => ended.map Prod.fst
  | .sweepThread _ rest => rest.map Prod.fst
  | _ => []

/-- The threads the call has still to take out of queued and running. -/
def Call.owedThreads : Call -> List String
  | .finishReview _ threadId => [threadId]
  | .settleTurn _ threadId _ _ => [threadId]
  | .settleThread threadId _ => [threadId]
  | .sweepExpire _ ended => ended.map Prod.snd
  | .sweepOffline ended => ended.map Prod.snd
  | .sweepFail _ ended => ended.map Prod.snd
  | .sweepTurn ended => ended.map Prod.snd
  | .sweepThread threadId rest => threadId :: rest.map Prod.snd
  | _ => []

/-- The call neither settles an assignment next nor inserts one. -/
def Call.plain : Call -> Bool
  | .finishReview _ _ => false
  | .settleTurn _ _ _ _ => false
  | .settleThread _ _ => false
  | .createInsert _ => false
  | _ => true

/-- What a step does to the assignments, the turns and the threads. -/
inductive RowStep (w : World) : Call -> Input -> World -> Call -> Prop where
  | failed (call : Call) : RowStep w call .fault w .returned
  | elsewhere {call next : Call} {input : Input} {w' : World}
      (hrows : w'.store.assignments = w.store.assignments)
      (hturns : w'.turns = w.turns) (hthreads : w'.threads = w.threads)
      (howes : next.owedTurns = call.owedTurns ∧ next.owedThreads = call.owedThreads)
      (hnext : next.plain = true) : RowStep w call input w' next
  | turn (input : NewAssignment) (now : Nat)
      (hfresh : forall t, t ∈ w.turns -> t.assignmentId ≠ input.id) :
      RowStep w (.createTurn input) (.tick now)
        { w with
          turns :=
            w.turns ++ [{ assignmentId := input.id, status := .running }] }
        (.createInsert input)
  | inserted (input : NewAssignment) (now : Nat) (st : Store)
      (h : w.store.insertAssignment (newRow input now) now = .ok st) :
      RowStep w (.createInsert input) (.tick now) (w.withStore st)
        (.createThread input.threadId)
  | queued (threadId : String) (now : Nat) :
      RowStep w (.createThread threadId) (.tick now)
        (w.saveThread threadId .queued) .returned
  | claimed (id deviceId hash : String) (expires now : Nat) (st : Store)
      (threadId : String)
      (h : w.store.claimAssignment id deviceId hash expires now = some st) :
      RowStep w (.claim id deviceId hash expires) (.tick now) (w.withStore st)
        (.claimThread threadId)
  | running (threadId : String) (now : Nat) :
      RowStep w (.claimThread threadId) (.tick now)
        (w.saveThread threadId .running) .returned
  | renewed (id hash : String) (expires now : Nat) :
      RowStep w (.renew id hash expires) (.tick now)
        (w.withStore ((w.store.renewLease id hash expires now).getD w.store))
        .returned
  | finished (id hash : String) (state : SessionState) (error : Option String)
      (now : Nat) (status : AssignmentStatus) (st : Store) (a : Assignment)
      (hstatus : finishStatus state = .ok status)
      (h : w.store.finishAssignment id hash status error now = some st)
      (ha : w.getAssignment id = some a) :
      RowStep w (.finish id hash state error) (.tick now) (w.withStore st)
        (afterFinish id a.threadId state)
  | reviewed (id threadId : String) (now : Nat) (st : Store)
      (h : w.store.completeAssignmentReview id = some st) :
      RowStep w (.finishReview id threadId) (.tick now) (w.withStore st)
        (.settleTurn id threadId .completed
          (finishedThreadStatus .completed true))
  | unreviewed (id threadId : String) (now : Nat) :
      RowStep w (.finishReview id threadId) (.tick now) w
        (.settleTurn id threadId .completed
          (finishedThreadStatus .completed false))
  | settledTurn (id threadId : String) (state : SessionState) (status : TaskStatus)
      (now : Nat) :
      RowStep w (.settleTurn id threadId state status) (.tick now)
        (w.finishTurn id state) (.settleThread threadId status)
  | settledThread (threadId : String) (status : TaskStatus) (now : Nat) :
      RowStep w (.settleThread threadId status) (.tick now)
        (w.saveThread threadId status) .returned
  | completed (id : String) (now : Nat) (st : Store) (a : Assignment)
      (h : w.store.completeAssignmentReview id = some st)
      (ha : w.getAssignment id = some a) :
      RowStep w (.completeReview id) (.tick now) (w.withStore st)
        (.settleThread a.threadId .done)
  | cancelled (id : String) (now : Nat) (st : Store) (a : Assignment)
      (h : w.store.cancelAssignment id now = some st)
      (ha : w.getAssignment id = some a) :
      RowStep w (.cancel id) (.tick now) (w.withStore st)
        (.settleTurn id a.threadId .interrupted .paused)
  | revoked (deviceId : String) (now : Nat) :
      RowStep w (.revoke deviceId) (.tick now)
        (w.withStore (w.store.revokeDevice deviceId now)) .returned
  | expired (id : String) (ids : List String) (ended : List (String × String))
      (now : Nat) :
      RowStep w (.sweepExpire (id :: ids) ended) (.tick now)
        (w.withStore (w.store.expireOne id now))
        (.sweepExpire ids (ended ++ w.endedRow id))
  | offline (id : String) (ids : List String) (ended : List (String × String))
      (now : Nat) :
      RowStep w (.sweepFail (id :: ids) ended) (.tick now)
        (w.withStore (w.store.failOne id now))
        (.sweepFail ids (ended ++ w.endedRow id))
  | sweptTurn (id threadId : String) (rest : List (String × String)) (now : Nat) :
      RowStep w (.sweepTurn ((id, threadId) :: rest)) (.tick now)
        (w.finishTurn id .interrupted) (.sweepThread threadId rest)
  | sweptThread (threadId : String) (rest : List (String × String)) (now : Nat) :
      RowStep w (.sweepThread threadId rest) (.tick now)
        (w.saveThread threadId .waitingForNetwork) (.sweepTurn rest)

theorem owes_afterDirty (change : ChangeSet) (overwrite dirty : Bool) :
    (afterDirty change overwrite dirty).owedTurns = [] ∧
      (afterDirty change overwrite dirty).owedThreads = [] ∧
      (afterDirty change overwrite dirty).plain = true := by
  unfold afterDirty
  split
  · exact ⟨rfl, rfl, rfl⟩
  · split
    · split
      · exact ⟨rfl, rfl, rfl⟩
      · exact ⟨rfl, rfl, rfl⟩
    · exact ⟨rfl, rfl, rfl⟩

theorem owes_afterWrite (change : ChangeSet) (overwrite : Bool) (outcome : GitOutcome) :
    (afterWrite change overwrite outcome).owedTurns = [] ∧
      (afterWrite change overwrite outcome).owedThreads = [] ∧
      (afterWrite change overwrite outcome).plain = true := by
  cases outcome with
  | done =>
      cases overwrite with
      | false => exact ⟨rfl, rfl, rfl⟩
      | true => exact ⟨rfl, rfl, rfl⟩
  | failed changed => exact ⟨rfl, rfl, rfl⟩

theorem writePatch_rows (w : World) (change : ChangeSet) (overwrite : Bool) (outcome : GitOutcome) :
    (writePatch w change overwrite outcome).store = w.store ∧
      (writePatch w change overwrite outcome).turns = w.turns ∧
      (writePatch w change overwrite outcome).threads = w.threads := by
  cases outcome with
  | done =>
      cases hnothing : writesNothing change overwrite with
      | false => simp [writePatch, hnothing, World.write]
      | true => simp [writePatch, hnothing]
  | failed changed =>
      cases changed with
      | false => exact ⟨rfl, rfl, rfl⟩
      | true => exact ⟨rfl, rfl, rfl⟩

/-!
## A step of a call
-/

variable {sha256 : String -> String} {w w' : World} {call next : Call} {input : Input}

theorem Call.step_cases (h : call.step sha256 w input = some (w', next)) :
    RowStep w call input w' next ∧ ChangeStep sha256 w call input w' next := by
  have hstayed : forall {call next : Call}, call.Clean -> next.Clean ->
      next.owedTurns = call.owedTurns ∧ next.owedThreads = call.owedThreads ->
      next.plain = true ->
      RowStep w call input w next ∧ ChangeStep sha256 w call input w next := by
    intro call next hcall hnext howes hplain
    exact ⟨.elsewhere rfl rfl rfl howes hplain, .elsewhere hcall hnext (Untouched.refl w)⟩
  have helsewhere : forall {call next : Call} {w' : World}, call.Clean -> next.Clean ->
      w'.store.changeSets = w.store.changeSets -> w'.writes = w.writes ->
      w'.resolutions = w.resolutions -> ChangeStep sha256 w call input w' next :=
    fun hcall hnext hsets hwrites hresolutions =>
      .elsewhere hcall hnext ⟨hsets, hwrites, hresolutions⟩
  unfold Call.step at h
  split at h
  -- returned, and any failing step
  next => cases h
  next =>
    cases h
    exact ⟨.failed _, .failed _⟩
  -- create
  next =>
    split at h
    next =>
      cases h
      exact hstayed (fun _ => rfl) (fun _ => rfl) ⟨rfl, rfl⟩ rfl
    next =>
      cases h
      exact hstayed (fun _ => rfl) (fun _ => rfl) ⟨rfl, rfl⟩ rfl
  next =>
    split at h
    next =>
      cases h
      exact hstayed (fun _ => rfl) (fun _ => rfl) ⟨rfl, rfl⟩ rfl
    next =>
      cases h
      exact hstayed (fun _ => rfl) (fun _ => rfl) ⟨rfl, rfl⟩ rfl
  next input now =>
    split at h
    next => cases h
    next hany =>
      cases h
      refine ⟨.turn input now ?_, helsewhere (fun _ => rfl) (fun _ => rfl) rfl rfl rfl⟩
      intro t ht hid
      apply hany
      rw [List.any_eq_true]
      exact ⟨t, ht, beq_iff_eq.mpr hid⟩
  next input now =>
    split at h
    next =>
      cases h
      exact hstayed (fun _ => rfl) (fun _ => rfl) ⟨rfl, rfl⟩ rfl
    next st hinsert =>
      cases h
      exact ⟨.inserted input now st hinsert,
        helsewhere (fun _ => rfl) (fun _ => rfl)
          (insertAssignment_spec hinsert).right.right.right.left rfl rfl⟩
  next threadId now =>
    cases h
    exact ⟨.queued threadId now, helsewhere (fun _ => rfl) (fun _ => rfl) rfl rfl rfl⟩
  -- claim and renew
  next id deviceId hash expires now =>
    split at h
    next st a hclaim _ =>
      cases h
      exact ⟨.claimed id deviceId hash expires now st a.threadId hclaim,
        helsewhere (fun _ => rfl) (fun _ => rfl)
          (claimAssignment_rewrites hclaim).changeSets rfl rfl⟩
    next =>
      cases h
      exact hstayed (fun _ => rfl) (fun _ => rfl) ⟨rfl, rfl⟩ rfl
  next threadId now =>
    cases h
    exact ⟨.running threadId now, helsewhere (fun _ => rfl) (fun _ => rfl) rfl rfl rfl⟩
  next id hash expires now =>
    cases h
    exact ⟨.renewed id hash expires now,
      helsewhere (fun _ => rfl) (fun _ => rfl)
        (renewLease_getD w.store id hash expires now).right rfl rfl⟩
  -- report
  next =>
    split at h
    next =>
      cases h
      exact hstayed (fun _ => rfl) (fun _ => rfl) ⟨rfl, rfl⟩ rfl
    next =>
      cases h
      exact hstayed (fun _ => rfl) (fun _ => rfl) ⟨rfl, rfl⟩ rfl
  next change now =>
    split at h
    next =>
      cases h
      exact hstayed (fun _ => rfl) (fun _ => rfl) ⟨rfl, rfl⟩ rfl
    next hfresh =>
      cases h
      exact ⟨.elsewhere rfl rfl rfl ⟨rfl, rfl⟩ rfl, .inserted change now hfresh⟩
  -- finish
  next id hash state error now =>
    split at h
    next =>
      cases h
      exact hstayed (fun _ => rfl) (fun _ => rfl) ⟨rfl, rfl⟩ rfl
    next status hstatus =>
      split at h
      next st a hfinish ha =>
        cases h
        exact ⟨.finished id hash state error now status st a hstatus hfinish ha,
          helsewhere (fun _ => rfl) (clean_afterFinish _ _ _)
            (finishAssignment_rewrites hfinish).changeSets rfl rfl⟩
      next =>
        cases h
        exact hstayed (fun _ => rfl) (fun _ => rfl) ⟨rfl, rfl⟩ rfl
  next id threadId now =>
    split at h
    next st hcomplete =>
      cases h
      exact ⟨.reviewed id threadId now st hcomplete,
        helsewhere (fun _ => rfl) (fun _ => rfl)
          (completeAssignmentReview_rewrites hcomplete).changeSets rfl rfl⟩
    next =>
      cases h
      exact ⟨.unreviewed id threadId now, helsewhere (fun _ => rfl) (fun _ => rfl) rfl rfl rfl⟩
  next id threadId state status now =>
    cases h
    exact ⟨.settledTurn id threadId state status now,
      helsewhere (fun _ => rfl) (fun _ => rfl) rfl rfl rfl⟩
  next threadId status now =>
    cases h
    exact ⟨.settledThread threadId status now, helsewhere (fun _ => rfl) (fun _ => rfl) rfl rfl rfl⟩
  -- apply
  next =>
    split at h
    next =>
      cases h
      exact hstayed (fun _ => rfl) (fun _ => rfl) ⟨rfl, rfl⟩ rfl
    next =>
      split at h
      next =>
        cases h
        exact hstayed (fun _ => rfl) (fun _ => rfl) ⟨rfl, rfl⟩ rfl
      next =>
        cases h
        exact hstayed (fun _ => rfl) (fun _ => rfl) ⟨rfl, rfl⟩ rfl
  next change overwrite dirty =>
    cases h
    rcases owes_afterDirty change overwrite dirty with ⟨hturns, hthreads, hplain⟩
    exact hstayed (fun _ => rfl) (clean_afterDirty _ _ _) ⟨hturns, hthreads⟩ hplain
  next change now =>
    cases h
    exact ⟨.elsewhere rfl rfl rfl ⟨rfl, rfl⟩ rfl, .conflict change now⟩
  next =>
    split at h
    next =>
      cases h
      exact hstayed (fun _ => rfl) (fun _ => rfl) ⟨rfl, rfl⟩ rfl
    next =>
      cases h
      exact hstayed (fun _ => rfl) (fun _ => rfl) ⟨rfl, rfl⟩ rfl
  next change overwrite outcome =>
    cases h
    rcases owes_afterWrite change overwrite outcome with ⟨hturns, hthreads, hplain⟩
    rcases writePatch_rows w change overwrite outcome with ⟨hstore, hturns', hthreads'⟩
    exact ⟨.elsewhere (by rw [hstore]) hturns' hthreads' ⟨hturns, hthreads⟩ hplain,
      .wrote change overwrite outcome⟩
  next change now =>
    cases h
    exact ⟨.elsewhere rfl rfl rfl ⟨rfl, rfl⟩ rfl, .activity change now⟩
  next change status now =>
    cases h
    exact ⟨.elsewhere rfl rfl rfl ⟨rfl, rfl⟩ rfl, .updated change status now⟩
  -- reject
  next =>
    split at h
    next =>
      cases h
      exact hstayed (fun _ => rfl) (fun _ => rfl) ⟨rfl, rfl⟩ rfl
    next =>
      split at h
      next =>
        cases h
        exact hstayed (fun _ => rfl) (fun _ => rfl) ⟨rfl, rfl⟩ rfl
      next =>
        cases h
        exact hstayed (fun _ => rfl) (fun _ => rfl) ⟨rfl, rfl⟩ rfl
  next change now =>
    cases h
    exact ⟨.elsewhere rfl rfl rfl ⟨rfl, rfl⟩ rfl, .rejected change now⟩
  next id now =>
    split at h
    next st a hcomplete ha =>
      cases h
      exact ⟨.completed id now st a hcomplete ha,
        helsewhere (fun _ => rfl) (fun _ => rfl)
          (completeAssignmentReview_rewrites hcomplete).changeSets rfl rfl⟩
    next =>
      cases h
      exact hstayed (fun _ => rfl) (fun _ => rfl) ⟨rfl, rfl⟩ rfl
  -- cancel, revoke and register
  next id now =>
    split at h
    next st a hcancel ha =>
      cases h
      exact ⟨.cancelled id now st a hcancel ha,
        helsewhere (fun _ => rfl) (fun _ => rfl)
          (cancelAssignment_rewrites hcancel).changeSets rfl rfl⟩
    next =>
      cases h
      exact hstayed (fun _ => rfl) (fun _ => rfl) ⟨rfl, rfl⟩ rfl
  next deviceId now =>
    split at h
    next =>
      cases h
      exact hstayed (fun _ => rfl) (fun _ => rfl) ⟨rfl, rfl⟩ rfl
    next =>
      cases h
      exact ⟨.revoked deviceId now, helsewhere (fun _ => rfl) (fun _ => rfl) rfl rfl rfl⟩
  next =>
    cases h
    exact ⟨.elsewhere (upsertDevice_tables _ _ _ _ _ _).left rfl rfl ⟨rfl, rfl⟩ rfl,
      helsewhere (fun _ => rfl) (fun _ => rfl)
        (upsertDevice_tables _ _ _ _ _ _).right.left rfl rfl⟩
  -- the sweep
  next =>
    split at h
    next =>
      cases h
      exact hstayed (fun _ => rfl) (fun _ => rfl) ⟨rfl, rfl⟩ rfl
    next =>
      cases h
      exact hstayed (fun _ => rfl) (fun _ => rfl) ⟨rfl, rfl⟩ rfl
  next =>
    cases h
    exact hstayed (fun _ => rfl) (fun _ => rfl) ⟨rfl, rfl⟩ rfl
  next id ids ended now =>
    cases h
    exact ⟨.expired id ids ended now, helsewhere (fun _ => rfl) (fun _ => rfl) rfl rfl rfl⟩
  next =>
    cases h
    exact hstayed (fun _ => rfl) (fun _ => rfl) ⟨rfl, rfl⟩ rfl
  next =>
    cases h
    exact hstayed (fun _ => rfl) (fun _ => rfl) ⟨rfl, rfl⟩ rfl
  next id ids ended now =>
    cases h
    exact ⟨.offline id ids ended now, helsewhere (fun _ => rfl) (fun _ => rfl) rfl rfl rfl⟩
  next =>
    cases h
    exact hstayed (fun _ => rfl) (fun _ => rfl) ⟨rfl, rfl⟩ rfl
  next id threadId rest now =>
    cases h
    exact ⟨.sweptTurn id threadId rest now, helsewhere (fun _ => rfl) (fun _ => rfl) rfl rfl rfl⟩
  next threadId rest now =>
    cases h
    exact ⟨.sweptThread threadId rest now, helsewhere (fun _ => rfl) (fun _ => rfl) rfl rfl rfl⟩
  next => cases h

theorem Call.step_rows
    (h : call.step sha256 w input = some (w', next)) : RowStep w call input w' next :=
  (Call.step_cases h).left

theorem Call.step_changes (h : call.step sha256 w input = some (w', next)) :
    ChangeStep sha256 w call input w' next :=
  (Call.step_cases h).right

def World.advance (w w' : World) (i : Nat) (next : Call) : World :=
  { w' with calls := w.calls.set i next }

inductive ActionStep (sha256 : String -> String) (w : World) :
    Action -> World -> Prop where
  | called (request : Request) :
      ActionStep sha256 w (.call request)
        { w with calls := w.calls ++ [request.call] }
  | stepped (i : Nat) (input : Input) {call next : Call} {w' : World}
      (hcall : w.calls[i]? = some call)
      (hstep : call.step sha256 w input = some (w', next)) :
      ActionStep sha256 w (.step i input) (w.advance w' i next)

theorem step_cases {action : Action}
    (h : step sha256 w action = some w') : ActionStep sha256 w action w' := by
  cases action with
  | call request =>
      cases h
      exact .called request
  | step i input =>
      simp only [Calls.step] at h
      cases hcall : w.calls[i]? with
      | none =>
          rw [hcall] at h
          cases h
      | some call =>
          rw [hcall] at h
          dsimp only at h
          cases hstep : call.step sha256 w input with
          | none =>
              rw [hstep] at h
              cases h
          | some answer =>
              rw [hstep] at h
              cases h
              exact .stepped i input hcall hstep

end Calls
end Collaboration
end Perpetual
