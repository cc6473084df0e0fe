import Perpetual.Worker.Polled

/-!
# Moves of one assignment

A step of the worker seen from one assignment is a step of its job, a claim or a
sync that the poll starts, a change of the maps, or nothing.  A property that
these moves keep holds of every assignment in every run.
-/

namespace Perpetual
namespace Worker

open Foundation

/-- The steps that meet a condition on the acting job and on the registration. -/
def Under (allowed : Context -> Job -> Job.Action -> Prop)
    (mayRegister : Context -> Prop) (w : World) : Action -> Prop
  | .job id a => allowed (w.context id) (w.jobs id) a
  | .prepared id => mayRegister (w.context id)
  | _ => True

instance (allowed : Context -> Job -> Job.Action -> Prop) (mayRegister : Context -> Prop)
    [forall c j a, Decidable (allowed c j a)] [forall c, Decidable (mayRegister c)]
    (w : World) (a : Action) : Decidable (Under allowed mayRegister w a) := by
  unfold Under
  split
  · infer_instance
  · infer_instance
  · infer_instance

inductive Move (allowed : Context -> Job -> Job.Action -> Prop)
    (mayRegister : Context -> Prop) (c : Context) (j : Job) :
    Context -> Job -> Prop where
  | stays : Move allowed mayRegister c j c j
  | acts (a : Job.Action) (j' : Job) (hok : allowed c j a)
      (h : j.step c a = some j') : Move allowed mayRegister c j c j'
  | claims (hclaim : j.claim = .idle) (htaken : j.taken = false)
      (hactive : c.inActive = false) :
      Move allowed mayRegister c j c { j with claim := .claiming }
  | syncs (hactive : c.inActive = true) :
      Move allowed mayRegister c j c (j.syncInstructions c.disposed)
  | registers (hok : mayRegister c) (hclaim : j.claim = .preparing) :
      Move allowed mayRegister c j { c with inActive := true, inThreads := true }
        j.prepared
  | closes (hfinish : j.finish.decided = true) :
      Move allowed mayRegister c j { c with inActive := false, inThreads := false }
        { j with finish := .deletingThread }
  | disposes (hactive : c.inActive = true) :
      Move allowed mayRegister c j
        { disposed := true, inActive := false, inThreads := false }
        { j with run := { j.run with renewTimer := false, flushTimer := false } }
  | bystands (hactive : c.inActive = false) :
      Move allowed mayRegister c j
        { disposed := true, inActive := false, inThreads := false } j

variable {w w' : World} {id' : String}

section

variable {allowed : Context -> Job -> Job.Action -> Prop} {mayRegister : Context -> Prop}

theorem move_of_other {id : String} {j : Job} (hne : id' ≠ id)
    (hdisposed : w'.disposed = w.disposed) (hjobs : w'.jobs = (w.setJob id j).jobs)
    (hactive : id' ∈ w'.active <-> id' ∈ w.active)
    (hthreads : id' ∈ w'.localThreadToAssignment <-> id' ∈ w.localThreadToAssignment) :
    Move allowed mayRegister (w.context id') (w.jobs id') (w'.context id')
      (w'.jobs id') := by
  have hjob : w'.jobs id' = w.jobs id' := by
    rw [hjobs, jobs_setJob, if_neg hne]
  have hcontext : w'.context id' = w.context id' := by
    unfold World.context
    rw [hdisposed, decide_eq_decide.mpr hactive, decide_eq_decide.mpr hthreads]
  rw [hjob, hcontext]
  exact .stays

theorem move_of_prepared (hok : mayRegister (w.context id'))
    (hstep : w.prepared id' = some w') (id : String) :
    Move allowed mayRegister (w.context id) (w.jobs id) (w'.context id)
      (w'.jobs id) := by
  rcases prepared_cases hstep with ⟨hclaim, hw⟩
  by_cases heq : id = id'
  · rw [← heq] at hclaim hw hok
    have hjob : w'.jobs id = (w.jobs id).prepared := by
      rw [hw]
      exact (jobs_setJob w id id _).trans (if_pos rfl)
    have hcontext : w'.context id =
        { w.context id with inActive := true, inThreads := true } := by
      rw [hw]
      simp [World.context, World.setJob]
    rw [hjob, hcontext]
    exact .registers hok hclaim
  · apply move_of_other heq
    · rw [hw]
      rfl
    · rw [hw]
    · rw [hw]
      simp [heq]
    · rw [hw]
      simp [heq]

theorem move_of_closes {succeeds : Bool} (hstep : w.closes id' succeeds = some w') (id : String) :
    Move allowed mayRegister (w.context id) (w.jobs id) (w'.context id)
      (w'.jobs id) := by
  rcases World.closes_cases hstep with ⟨j, hcloses, hw⟩
  rcases Worker.closes_cases hcloses with ⟨hfinish, hj⟩
  by_cases heq : id = id'
  · rw [← heq] at hfinish hj hw
    have hjob : w'.jobs id =
        { w.jobs id with finish := .deletingThread } := by
      rw [hw, ← hj]
      exact (jobs_setJob w id id _).trans (if_pos rfl)
    have hcontext : w'.context id =
        { w.context id with inActive := false, inThreads := false } := by
      rw [hw]
      simp [World.context, World.setJob]
    rw [hjob, hcontext]
    exact .closes hfinish
  · apply move_of_other heq
    · rw [hw]
      rfl
    · rw [hw]
    · rw [hw]
      simp [heq]
    · rw [hw]
      simp [heq]

theorem move_of_step {a : Action} (h : Polled w)
    (hok : Under allowed mayRegister w a) (hstep : w.step a = some w') (id : String) :
    Move allowed mayRegister (w.context id) (w.jobs id) (w'.context id)
      (w'.jobs id) := by
  cases a with
  | pollStarts =>
      rcases pollStarts_cases hstep with ⟨_, _, hw⟩
      rw [hw]
      exact .stays
  | pollListed assignments =>
      rcases pollListed_cases hstep with ⟨_, _, left, hw⟩
      rw [hw]
      exact .stays
  | pollListFails =>
      rcases pollListFails_cases hstep with ⟨_, hw⟩
      rw [hw]
      exact .stays
  | pollStopped =>
      rcases pollStopped_cases hstep with ⟨assignments, stopped, left, _, hw⟩
      rw [hw]
      exact .stays
  | pollClaims =>
      rcases pollClaims_cases hstep with ⟨assignments, hpoll, hw⟩
      rw [hw]
      by_cases hchild : id ∈ w.toClaim assignments ∧ ¬ id ∈ w.active ∧
          w.disposed = false
      · have hidle : (w.jobs id).claim = .idle := by
          apply h.idle hpoll
          intro children hclaiming
          cases hclaiming
        have htaken : (w.jobs id).taken = false := by
          rcases List.mem_map.mp hchild.left with ⟨b, hb, hid⟩
          rcases List.mem_filter.mp (List.mem_of_mem_take hb) with ⟨hmem, hqueued⟩
          rw [← hid]
          exact h.free assignments [] hpoll b hmem hqueued
        simp only [if_pos hchild]
        exact .claims hidle htaken (decide_eq_false hchild.right.left)
      · simp only [if_neg hchild]
        exact .stays
  | pollSyncs =>
      rcases pollSyncs_cases hstep with ⟨children, runs, _, _, hw⟩
      rw [hw]
      by_cases hactive : id ∈ w.active
      · simp only [if_pos hactive]
        exact .syncs (decide_eq_true hactive)
      · simp only [if_neg hactive]
        exact .stays
  | approvalsEnd n succeeds =>
      rcases approvalsEnd_cases hstep with ⟨runs, runs', _, hw⟩
      rw [hw]
      exact .stays
  | pollEnds =>
      rcases pollEnds_cases hstep with ⟨runs, _, hw⟩
      rw [hw]
      exact .stays
  | prepared id' =>
      exact move_of_prepared hok hstep id
  | closes id' succeeds =>
      exact move_of_closes hstep id
  | dispose =>
      rcases dispose_cases hstep with ⟨_, hw⟩
      have hcontext : w'.context id =
          { disposed := true, inActive := false, inThreads := false } := by
        rw [hw]
        simp [World.context]
      rw [hcontext, hw]
      by_cases hactive : id ∈ w.active
      · simp only [if_pos hactive]
        exact .disposes (decide_eq_true hactive)
      · simp only [if_neg hactive]
        exact .bystands (decide_eq_false hactive)
  | job id' b =>
      rcases job_cases hstep with ⟨j, hj, hw⟩
      by_cases heq : id = id'
      · rw [← heq] at hj hw hok
        have hjob : w'.jobs id = j := by
          rw [hw]
          exact (jobs_setJob w id id _).trans (if_pos rfl)
        have hcontext : w'.context id = w.context id := by
          rw [hw]
          rfl
        rw [hjob, hcontext]
        exact .acts b j hok hj
      · apply move_of_other heq
        · rw [hw]
          rfl
        · rw [hw]
        · rw [hw]
          rfl
        · rw [hw]
          rfl

theorem invariant_of_moves {P : Context -> Job -> Prop} (hnew : P Context.new Job.new)
    (hmove : forall c j c' j', P c j -> Move allowed mayRegister c j c' j' -> P c' j') (h : machine.ReachableUnder (Under allowed mayRegister) w)
    (id : String) : P (w.context id) (w.jobs id) := by
  have hboth : Polled w ∧ forall id, P (w.context id) (w.jobs id) := by
    refine Machine.ReachableUnder.invariant
      (P := fun v => Polled v ∧ forall id, P (v.context id) (v.jobs id)) ?_ ?_ h
    · intro s hs
      rw [hs]
      exact ⟨polled_new, fun _ => hnew⟩
    · intro s a t hP hok hstep
      exact ⟨polled_step hP.left hstep,
        fun id => hmove _ _ _ _ (hP.right id) (move_of_step hP.left hok hstep id)⟩
  exact hboth.right id

end

end Worker
end Perpetual
