import Perpetual.Foundation.Cells
import Perpetual.Worker.Registration

/-!
# The slots of the worker

The worker never holds more runs than its limit.  A run leaves the maps and its
timers are cleared when nothing of it is under way, in every run of the worker in
which no local start fails, `finishRun` waits for a continuation only while the
local thread is live, no text is streamed once `finishRun` has decided to finish,
and nothing is registered after the disposal.
-/

namespace Perpetual
namespace Worker

open Foundation

/-!
## The number of runs

The claims that a poll waits for and that have no run yet fit into the slots that
were free when the poll made them.
-/

def isUnregistered : ClaimStage -> Bool
  | .claiming => true
  | .claimed => true
  | .preparing => true
  | _ => false

def World.underWay (w : World) : Nat :=
  match w.poll with
  | .claiming children =>
      children.countP (fun id => isUnregistered (w.jobs id).claim)
  | _ => 0

def Bounded (w : World) : Prop :=
  w.active.length + w.underWay ≤ maxParallelAssignments

variable {w w' : World}

theorem Bounded.of_le (h : Bounded w)
    (hactive : w'.active.length ≤ w.active.length) (hpoll : w'.poll = w.poll)
    (hclaims : forall id, isUnregistered (w'.jobs id).claim = true ->
      isUnregistered (w.jobs id).claim = true) : Bounded w' := by
  have hcount : w'.underWay ≤ w.underWay := by
    unfold World.underWay
    rw [hpoll]
    split
    · exact List.countP_mono_left (fun id _ => hclaims id)
    · exact Nat.le_refl 0
  exact Nat.le_trans (Nat.add_le_add hactive hcount) h

theorem Bounded.poll (h : Bounded w) (hactive : w'.active = w.active)
    (hcount : w'.underWay = 0) : Bounded w' := by
  unfold Bounded at h ⊢
  rw [hactive, hcount]
  omega

variable {c : Context} {j j' : Job}

theorem isUnregistered_of_step {a : Job.Action}
    (h : j.step c a = some j') (hunregistered : isUnregistered j'.claim = true) :
    isUnregistered j.claim = true := by
  rcases step_claim h with ⟨hclaim, _⟩ | ⟨event, hmove⟩
  · rw [← hclaim]
    exact hunregistered
  · cases hmove with
    | taken hclaim _ =>
        rw [hclaim]
        rfl
    | answered hclaim =>
        rw [hclaim]
        rfl
    | _ => cases hunregistered

theorem toClaim_length (w : World) (assignments : List Listed) :
    (w.toClaim assignments).length ≤ w.available := by
  unfold World.toClaim
  rw [List.length_map]
  exact List.length_take_le _ _

theorem Bounded.prepared {id : String} (hpolled : Polled w)
    (h : Bounded w) (hstep : w.prepared id = some w') : Bounded w' := by
  rcases prepared_cases hstep with ⟨hclaim, hw⟩
  have hne : (w.jobs id).claim ≠ .idle := by
    rw [hclaim]
    simp
  rcases hpolled.awaited id hne with ⟨children, hpoll, hchild⟩
  have hlt : w'.underWay < w.underWay := by
    unfold World.underWay
    rw [hw]
    simp only [World.setJob, hpoll]
    apply Cells.countP_lt_of_imp (x := id)
    · intro id' _ hunregistered
      by_cases heq : id' = id
      · rw [heq, hclaim]
        rfl
      · rw [Function.update_of_ne heq] at hunregistered
        exact hunregistered
    · exact hchild
    · rw [Function.update_self]
      rfl
    · rw [hclaim]
      rfl
  have hlength : w'.active.length ≤ w.active.length + 1 := by
    rw [hw]
    simp only [List.insert]
    split
    · exact Nat.le_succ _
    · exact Nat.le_refl _
  unfold Bounded at h ⊢
  omega

theorem bounded_step {a : Action} (hpolled : Polled w) (h : Bounded w)
    (hstep : w.step a = some w') : Bounded w' := by
  cases a with
  | pollStarts =>
      rcases pollStarts_cases hstep with ⟨_, _, hw⟩
      rw [hw]
      exact h.poll rfl rfl
  | pollListed assignments =>
      rcases pollListed_cases hstep with ⟨_, _, left, hw⟩
      rw [hw]
      exact h.poll rfl rfl
  | pollListFails =>
      rcases pollListFails_cases hstep with ⟨_, hw⟩
      rw [hw]
      exact h.poll rfl rfl
  | pollStopped =>
      rcases pollStopped_cases hstep with ⟨assignments, stopped, left, _, hw⟩
      rw [hw]
      exact h.poll rfl rfl
  | pollClaims =>
      rcases pollClaims_cases hstep with ⟨assignments, hpoll, hw⟩
      have hcount : w'.underWay ≤ w.available := by
        rw [hw]
        exact Nat.le_trans List.countP_le_length (toClaim_length w assignments)
      have hactive : w'.active = w.active := by rw [hw]
      unfold Bounded at h ⊢
      unfold World.available at hcount
      rw [hactive]
      omega
  | pollSyncs =>
      rcases pollSyncs_cases hstep with ⟨children, runs, _, _, hw⟩
      rw [hw]
      exact h.poll rfl rfl
  | approvalsEnd n succeeds =>
      rcases approvalsEnd_cases hstep with ⟨runs, runs', _, hw⟩
      rw [hw]
      exact h.poll rfl rfl
  | pollEnds =>
      rcases pollEnds_cases hstep with ⟨runs, _, hw⟩
      rw [hw]
      exact h.poll rfl rfl
  | prepared id =>
      exact h.prepared hpolled hstep
  | closes id succeeds =>
      rcases World.closes_cases hstep with ⟨j, hcloses, hw⟩
      rcases Worker.closes_cases hcloses with ⟨_, hj⟩
      apply h.of_le
      · rw [hw]
        exact List.length_filter_le _ _
      · rw [hw]
        rfl
      · intro id' hunregistered
        rw [hw] at hunregistered
        have hjob : ((w.setJob id j).jobs id').claim = (w.jobs id').claim := by
          rw [jobs_setJob]
          split
          · rename_i heq
            rw [hj, heq]
          · rfl
        rw [← hjob]
        exact hunregistered
  | dispose =>
      rcases dispose_cases hstep with ⟨_, hw⟩
      apply h.of_le
      · rw [hw]
        exact Nat.zero_le _
      · rw [hw]
      · intro id hunregistered
        rw [hw] at hunregistered
        simp only at hunregistered
        split at hunregistered
        · exact hunregistered
        · exact hunregistered
  | job id b =>
      rcases job_cases hstep with ⟨j, hj, hw⟩
      apply h.of_le
      · rw [hw]
        exact Nat.le_refl _
      · rw [hw]
        rfl
      · intro id' hunregistered
        rw [hw, jobs_setJob] at hunregistered
        split at hunregistered
        · rename_i heq
          rw [heq]
          exact isUnregistered_of_step hj hunregistered
        · exact hunregistered

theorem bounded_of_reachable {ok : World -> Action -> Prop}
    (h : machine.ReachableUnder ok w) : Bounded w := by
  have hboth : Polled w ∧ Bounded w := by
    refine Machine.ReachableUnder.invariant (P := fun v => Polled v ∧ Bounded v) ?_ ?_ h
    · intro s hs
      rw [hs]
      exact ⟨polled_new, by simp [Bounded, World.underWay, World.new]⟩
    · intro s a t hP _ hstep
      exact ⟨polled_step hP.left hstep, bounded_step hP.left hP.right hstep⟩
  exact hboth.right

theorem active_length_of_reachable {ok : World -> Action -> Prop}
    (h : machine.ReachableUnder ok w) : w.active.length ≤ maxParallelAssignments :=
  Nat.le_trans (Nat.le_add_right _ _) (bounded_of_reachable h)

/-- Runs are watched, and no text is streamed once `finishRun` has decided. -/
def NoLeak (c : Context) (j : Job) (a : Job.Action) : Prop :=
  Watches c j a ∧
    (a = .streams -> c.registered = true -> j.finish.decided = false)

instance (c : Context) (j : Job) (a : Job.Action) : Decidable (NoLeak c j a) :=
  inferInstanceAs (Decidable (_ ∧ _))

structure Timers (c : Context) (j : Job) : Prop where
  unregistered : c.inActive = false ->
    j.run.renewTimer = false ∧ j.run.flushTimer = false
  decided : j.finish.decided = true ->
    j.run.renewTimer = false ∧ j.run.flushTimer = false

theorem Timers.kept (h : Timers c j) (hrenew : j'.run.renewTimer = j.run.renewTimer)
    (hflush : j'.run.flushTimer = j.run.flushTimer)
    (hdecided : j'.finish.decided = true -> j.finish.decided = true) : Timers c j' where
  unregistered := by
    rw [hrenew, hflush]
    exact h.unregistered
  decided := by
    rw [hrenew, hflush]
    exact fun hdecided' => h.decided (hdecided hdecided')

theorem Timers.undecided (h : Timers c j) (hrenew : j'.run.renewTimer = j.run.renewTimer)
    (hflush : j'.run.flushTimer = j.run.flushTimer)
    (hundecided : j'.finish.decided = false) : Timers c j' := by
  apply h.kept hrenew hflush
  intro hdecided
  rw [hundecided] at hdecided
  cases hdecided

theorem timers_of_cleared
    (h : j.run.renewTimer = false ∧ j.run.flushTimer = false) : Timers c j where
  unregistered := fun _ => h
  decided := fun _ => h

theorem Timers.step {a : Job.Action}
    (h : Timers c j) (hok : NoLeak c j a) (hstep : j.step c a = some j') :
    Timers c j' := by
  cases a with
  | claim event => cases claimStep_cases hstep <;> exact h.kept rfl rfl (fun hd => hd)
  | sync k event =>
      have hframe := (syncStep_cases hstep).frame
      apply h.kept hframe.renewTimer hframe.flushTimer
      rw [hframe.finish]
      exact fun hdecided => hdecided
  | finishResumes =>
      rcases finishResumes_cases hstep with
        ⟨k, status, stage, _, _, ⟨_, hj⟩ | ⟨_, _, hj⟩ | ⟨_, _, hj⟩⟩
      · rw [hj]
        exact h.undecided rfl rfl rfl
      · rw [hj]
        exact h.undecided rfl rfl rfl
      · rw [hj]
        exact timers_of_cleared ⟨rfl, rfl⟩
  | finishProceeds succeeds =>
      rcases finishProceeds_cases hstep with ⟨stage, hdecided, _, hj⟩
      rw [hj]
      exact h.kept rfl rfl (fun _ => hdecided)
  | threadDeleted succeeds =>
      rcases threadDeleted_cases hstep with ⟨_, hj | ⟨thread, _, hj⟩⟩
      · rw [hj]
        exact h.undecided rfl rfl rfl
      · rw [hj]
        exact h.undecided rfl rfl rfl
  | retryFires n =>
      rcases retryFires_cases hstep with ⟨status, _, ⟨_, hj⟩ | ⟨_, _, _, hj⟩⟩
      · rw [hj]
        exact h.kept rfl rfl (fun hdecided => hdecided)
      · rw [hj]
        exact h.undecided rfl rfl rfl
  | statusArrives =>
      rcases statusArrives_cases hstep with
        ⟨status, rest, _, _, ⟨_, hj⟩ | ⟨_, _, _, hj⟩ | ⟨_, _, _, _, hj⟩⟩
      · rw [hj]
        exact h.kept rfl rfl (fun hdecided => hdecided)
      · rw [hj]
        exact h.undecided rfl rfl rfl
      · rw [hj]
        exact h.kept rfl rfl (fun hdecided => hdecided)
  | streams =>
      rcases streams_cases hstep with ⟨_, _, hj | ⟨hregistered, hj⟩⟩
      · rw [hj]
        exact h
      · rw [hj]
        constructor
        · intro hinactive
          rw [Context.registered, hinactive] at hregistered
          cases hregistered
        · intro hdecided
          have hundecided := hok.right rfl hregistered
          have hdecided' : j.finish.decided = true := hdecided
          rw [hundecided] at hdecided'
          cases hdecided'
  | flushFires =>
      rw [flushFires_cases hstep]
      constructor
      · exact fun hinactive => ⟨(h.unregistered hinactive).left, rfl⟩
      · exact fun hdecided => ⟨(h.decided hdecided).left, rfl⟩
  | turnStarts =>
      rcases turnStarts_cases hstep with ⟨thread, _, hj⟩
      rw [hj]
      exact h.kept rfl rfl (fun hdecided => hdecided)
  | turnEnds status =>
      rcases turnEnds_cases hstep with ⟨thread, _, hj⟩
      rw [hj]
      exact h.kept rfl rfl (fun hdecided => hdecided)
  | enqueues instruction =>
      rw [enqueues_cases hstep]
      exact h.kept rfl rfl (fun hdecided => hdecided)

theorem Timers.move {c' : Context} (hfresh : Fresh c j) (h : Timers c j)
    (hmove : Move NoLeak Listening c j c' j') : Timers c' j' := by
  cases hmove with
  | stays => exact h
  | acts a j' hok hstep => exact h.step hok hstep
  | claims hclaim htaken hactive => exact h.kept rfl rfl (fun hdecided => hdecided)
  | syncs hactive => exact h.kept rfl rfl (fun hdecided => hdecided)
  | registers hok hclaim =>
      constructor
      · intro hinactive
        cases hinactive
      · intro hdecided
        have hidle := (hfresh.untouched (.inr (.inr hclaim))).finish
        have hdecided' : j.finish.decided = true := hdecided
        rw [hidle] at hdecided'
        cases hdecided'
  | closes hfinish => exact timers_of_cleared (h.decided hfinish)
  | disposes hactive => exact timers_of_cleared ⟨rfl, rfl⟩
  | bystands hactive => exact timers_of_cleared (h.unregistered hactive)

/-- Neither `claimAndRun` nor `finishRun` is under way or scheduled, and the local
thread is not live. -/
def Quiet (j : Job) : Prop :=
  j.claim = .idle ∧ j.finish = .idle ∧ j.retries = [] ∧
    j.thread.live = false

instance (j : Job) : Decidable (Quiet j) := inferInstanceAs (Decidable (_ ∧ _))

def Released (w : World) (id : String) : Prop :=
  ¬ id ∈ w.active ∧ ¬ id ∈ w.localThreadToAssignment ∧
    (w.jobs id).run.renewTimer = false ∧ (w.jobs id).run.flushTimer = false ∧
    (w.jobs id).preparationRenewTimer = false

instance (w : World) (id : String) : Decidable (Released w id) :=
  inferInstanceAs (Decidable (_ ∧ _))

structure SlotView (c : Context) (j : Job) : Prop where
  onCourse : OnCourse c j
  timers : Timers c j

theorem slotView_of_reachable
    (h : machine.ReachableUnder (Under NoLeak Listening) w) (id : String) :
    SlotView (w.context id) (w.jobs id) := by
  refine invariant_of_moves (P := SlotView) ?_ ?_ h id
  · exact ⟨onCourse_new, timers_of_cleared ⟨rfl, rfl⟩⟩
  · intro c j c' j' hview hmove
    exact ⟨hview.onCourse.move (fun _ _ _ hok => hok.left) hmove,
      hview.timers.move hview.onCourse.fresh hmove⟩

theorem inactive_of_quiet (h : Watched c j) (hquiet : Quiet j) : c.inActive = false := by
  rcases hquiet with ⟨hclaim, hfinish, hretries, hlive⟩
  by_contra hactive
  rcases h.watched (Bool.not_eq_false _ ▸ hactive) with h' | h' | h' | h'
  · rw [hclaim] at h'
    cases h'
  · exact h' hfinish
  · exact h' hretries
  · rw [hlive] at h'
    cases h'

theorem SlotView.released {id : String}
    (h : SlotView (w.context id) (w.jobs id)) (hquiet : Quiet (w.jobs id)) :
    Released w id := by
  have hinactive := inactive_of_quiet h.onCourse.watched hquiet
  have hunmapped : (w.context id).inThreads = false :=
    h.onCourse.course.maps.trans hinactive
  have htimers := h.timers.unregistered hinactive
  refine ⟨of_decide_eq_false hinactive, of_decide_eq_false hunmapped, htimers.left,
    htimers.right, ?_⟩
  by_contra htimer
  have hpreparing :=
    h.onCourse.course.preparing (Bool.not_eq_false _ ▸ htimer)
  rw [hquiet.left] at hpreparing
  cases hpreparing

/-- The slots of the worker: the limit holds in every run; under the condition every
quiet assignment is released, and all slots are free when all are quiet. -/
theorem slots_released {w : World} (h : machine.Reachable w) :
    w.active.length ≤ maxParallelAssignments ∧
      (machine.ReachableUnder (Under NoLeak Listening) w ->
        (forall id, Quiet (w.jobs id) -> Released w id) ∧
          ((forall id, Quiet (w.jobs id)) -> w.available = maxParallelAssignments)) := by
  refine ⟨active_length_of_reachable h, ?_⟩
  intro hkept
  have hreleased : forall id, Quiet (w.jobs id) -> Released w id :=
    fun id hquiet => (slotView_of_reachable hkept id).released hquiet
  refine ⟨hreleased, ?_⟩
  intro hquiet
  have hempty : w.active = [] := by
    rw [List.eq_nil_iff_forall_not_mem]
    exact fun id => (hreleased id (hquiet id)).left
  unfold World.available
  rw [hempty]
  rfl

def fourClaims : List Action :=
  [.pollStarts,
    .pollListed
      [{ id := "a", queued := true }, { id := "b", queued := true },
        { id := "c", queued := true }, { id := "d", queued := true }],
    .pollClaims]

/-- The claim of an assignment up to the request for the local start. -/
def claimed (id : String) : List Action :=
  [.job id (.claim .serves),
    .job id (.claim .answers), .prepared id]

/-- The local start fails, the local thread is deleted and the failure is reported. -/
def startFailed (id : String) : List Action :=
  [.job id (.claim .fails),
    .job id (.claim .serves),
    .job id (.claim .answers)]

/-- The local start succeeds and its turn runs to a review, which is handled. -/
def ranToReview (id : String) : List Action :=
  [.job id (.claim .serves),
    .job id (.claim .answers),
    .job id .turnStarts, .job id .statusArrives,
    .job id .streams,
    .job id (.turnEnds .review),
    .job id .statusArrives]

/-- The sync of the review finds no follow-up, and the run is finished. -/
def finished (id : String) : List Action :=
  [.job id (.sync 0 .serves),
    .job id (.sync 0 .answers),
    .job id .finishResumes,
    .job id (.finishProceeds true),
    .job id (.finishProceeds true), .closes id true,
    .job id (.threadDeleted true)]

theorem slots_released_finished :
    exists w, machine.ReachableUnder (Under NoLeak Listening) w ∧
      (w.jobs "a").taken = true ∧ Quiet (w.jobs "a") ∧ Released w "a" := by
  have hrun : Option.any
      (fun w => decide ((w.jobs "a").taken = true ∧ Quiet (w.jobs "a")))
      (machine.runUnder (Under NoLeak Listening) World.new
        (fourClaims ++ claimed "a" ++ ranToReview "a" ++ finished "a")) = true := by
    decide +kernel
  rcases Machine.exists_reachable_of_runUnder _ rfl hrun with ⟨w, hw, hquiet⟩
  have hp := of_decide_eq_true hquiet
  have hreachable : machine.Reachable w := hw.mono (fun _ _ _ => trivial)
  exact ⟨w, hw, hp.left, hp.right, ((slots_released hreachable).right hw).left "a" hp.right⟩

/-- Four failed starts use up the worker although nothing runs. -/
theorem failed_starts_keep_their_slots :
    exists w, machine.Reachable w ∧ w.available = 0 ∧
      forall id, id ∈ w.active -> Quiet (w.jobs id) ∧ ¬ Released w id := by
  have hrun : Option.any
      (fun w => decide (w.available = 0 ∧
        forall id, id ∈ w.active -> Quiet (w.jobs id) ∧ ¬ Released w id))
      (machine.runFrom World.new
        (fourClaims ++ ["a", "b", "c", "d"].flatMap (fun id =>
          claimed id ++ startFailed id))) = true := by
    decide +kernel
  rcases Machine.exists_reachable_of_runFrom _ rfl hrun with ⟨w, hw, hfull⟩
  exact ⟨w, hw, of_decide_eq_true hfull⟩

end Worker
end Perpetual
