import Perpetual.Collaboration.Resolution

/-!
# Completed assignments

An assignment is completed by a statement that finds none of its change sets
pending or in conflict.  A change set becomes one of these in two other
statements: the insertion, which comes after the statement that validates the
lease, and the update to conflict.  The result says when a completed assignment
has nothing left to review.
-/

namespace Perpetual
namespace Collaboration
namespace Calls

open Foundation

variable {sha256 : String -> String}

def World.Completed (w : World) (assignmentId : String) : Prop :=
  exists a, a ∈ w.store.assignments ∧ a.id = assignmentId ∧
    a.status = .completed

instance (w : World) (assignmentId : String) : Decidable (w.Completed assignmentId) := by
  unfold World.Completed
  infer_instance

/-- No completed assignment owns a change set that is pending or in conflict. -/
def NothingToReview (w : World) : Prop :=
  forall c, c ∈ w.store.changeSets -> isOpen c.status = true ->
    ¬ w.Completed c.assignmentId

/-- A change set is inserted, and set to conflict, while its assignment is not
completed. -/
def StepBeforeCompletion (w : World) : Call -> Input -> Prop
  | .reportInsert change, .tick _ =>
      w.getChangeSet change.id = none -> ¬ w.Completed change.assignmentId
  | .applyConflict change, .tick _ =>
      forall c, c ∈ w.store.changeSets -> c.id = change.id ->
        ¬ w.Completed c.assignmentId
  | _, _ => True

instance (w : World) (call : Call) (input : Input) :
    Decidable (StepBeforeCompletion w call input) := by
  induction input using Input.casesOn <;> induction call using Call.casesOn <;>
    dsimp only [StepBeforeCompletion] <;> infer_instance

def BeforeCompletion (w : World) : Action -> Prop
  | .call _ => True
  | .step i input =>
      forall call, call ∈ w.calls[i]? -> StepBeforeCompletion w call input

instance (w : World) (action : Action) : Decidable (BeforeCompletion w action) := by
  induction action using Action.casesOn <;> dsimp only [BeforeCompletion] <;> infer_instance

/-!
## What a step completes
-/

/-- An assignment with this id was completed before, or has nothing open and the
change sets are the same. -/
def CompletedFrom (w w' : World) (assignmentId : String) : Prop :=
  w.Completed assignmentId ∨
    w.store.unsettled assignmentId = false ∧
      w'.store.changeSets = w.store.changeSets

variable {w : World} {st : Store} {id : String}

theorem completedFrom_of_rewrites {p : Assignment -> Prop}
    {s : AssignmentStatus -> AssignmentStatus} (h : Rewrites w.store st p s)
    (hnot : forall status, s status = .completed ->
      status = .completed) (hcompleted : (w.withStore st).Completed id) : w.Completed id := by
  rcases hcompleted with ⟨a', ha', hid, hstatus⟩
  rcases h.mem ha' with ⟨a, ha, hsame, _, hkept | ⟨_, hset⟩⟩
  · exact ⟨a, ha, hsame.symm.trans hid, hkept.symm.trans hstatus⟩
  · exact ⟨a, ha, hsame.symm.trans hid, hnot a.status (hset.symm.trans hstatus)⟩

theorem completedFrom_review {reviewed : String}
    (h : w.store.completeAssignmentReview reviewed = some st)
    (hcompleted : (w.withStore st).Completed id) :
    CompletedFrom w (w.withStore st) id := by
  have hrewrites := completeAssignmentReview_rewrites h
  rcases hcompleted with ⟨a', ha', hid, hstatus⟩
  rcases hrewrites.mem ha' with ⟨a, ha, hsame, _, hkept | ⟨⟨hreviewed, _, hsettled⟩, _⟩⟩
  · exact Or.inl ⟨a, ha, hsame.symm.trans hid, hkept.symm.trans hstatus⟩
  · apply Or.inr
    have heq : id = reviewed := by
      rw [← hid, hsame]
      exact hreviewed
    rw [heq]
    exact ⟨hsettled, hrewrites.changeSets⟩

theorem finishStatus_ne_completed {state : SessionState} {status : AssignmentStatus}
    (h : finishStatus state = .ok status) : status ≠ .completed := by
  intro hcompleted
  rw [hcompleted] at h
  cases state with
  | running => cases h
  | completed => cases h
  | interrupted => cases h
  | failed => cases h

variable {w' : World}

theorem RowStep.completed_from {call next : Call} {input : Input}
    (h : RowStep w call input w' next) (hcompleted : w'.Completed id) :
    CompletedFrom w w' id := by
  cases h with
  | failed _ => exact Or.inl hcompleted
  | elsewhere hrows _ _ _ _ =>
      apply Or.inl
      unfold World.Completed at hcompleted
      rw [hrows] at hcompleted
      exact hcompleted
  | turn _ _ _ => exact Or.inl hcompleted
  | inserted input now st hinsert =>
      rcases hcompleted with ⟨a, ha, hid, hstatus⟩
      have hrows := (insertAssignment_spec hinsert).right.left
      have hmem : a ∈ st.assignments := ha
      rw [hrows] at hmem
      rcases List.mem_append.mp hmem with hold | hnew
      · exact Or.inl ⟨a, hold, hid, hstatus⟩
      · rw [List.mem_singleton.mp hnew] at hstatus
        cases hstatus
  | queued _ _ => exact Or.inl hcompleted
  | claimed id deviceId hash expires now st threadId hclaim =>
      apply Or.inl
      exact completedFrom_of_rewrites (claimAssignment_rewrites hclaim)
        (fun _ heq => by cases heq) hcompleted
  | running _ _ => exact Or.inl hcompleted
  | renewed id hash expires now =>
      rcases (renewLease_getD w.store id hash expires now).left with ⟨p, hrenew⟩
      exact Or.inl (completedFrom_of_rewrites hrenew (fun _ heq => heq) hcompleted)
  | finished id hash state error now status st a hstatus hfinish ha =>
      apply Or.inl
      exact completedFrom_of_rewrites (finishAssignment_rewrites hfinish)
        (fun _ heq => absurd heq (finishStatus_ne_completed hstatus)) hcompleted
  | reviewed id threadId now st hcomplete => exact completedFrom_review hcomplete hcompleted
  | unreviewed _ _ _ => exact Or.inl hcompleted
  | settledTurn _ _ _ _ _ => exact Or.inl hcompleted
  | settledThread _ _ _ => exact Or.inl hcompleted
  | completed id now st a hcomplete ha => exact completedFrom_review hcomplete hcompleted
  | cancelled id now st a hcancel ha =>
      apply Or.inl
      exact completedFrom_of_rewrites (cancelAssignment_rewrites hcancel)
        (fun _ heq => by cases heq) hcompleted
  | revoked deviceId now =>
      apply Or.inl
      exact completedFrom_of_rewrites (revokeDevice_rewrites w.store deviceId now)
        (fun _ heq => by cases heq) hcompleted
  | expired id ids ended now =>
      apply Or.inl
      exact completedFrom_of_rewrites (expireOne_rewrites w.store id now)
        (fun _ heq => by cases heq) hcompleted
  | offline id ids ended now =>
      apply Or.inl
      exact completedFrom_of_rewrites (failOne_rewrites w.store id now)
        (fun _ heq => by cases heq) hcompleted
  | sweptTurn _ _ _ _ => exact Or.inl hcompleted
  | sweptThread _ _ _ => exact Or.inl hcompleted

/-!
## What a step opens
-/

/-- The change set was open before, or its assignment is not completed. -/
def OpenedFrom (w : World) (c : ChangeSet) : Prop :=
  (exists c0, c0 ∈ w.store.changeSets ∧ c0.assignmentId = c.assignmentId ∧
    isOpen c0.status = true) ∨
  ¬ w.Completed c.assignmentId

variable {c : ChangeSet}

theorem openedFrom_mem (hc : c ∈ w.store.changeSets)
    (hopen : isOpen c.status = true) : OpenedFrom w c :=
  .inl ⟨c, hc, rfl, hopen⟩

theorem mem_updateChangeStatus {status : ChangeStatus} (hc : c ∈ (w.updateChangeStatus id status).store.changeSets) :
    c ∈ w.store.changeSets ∨
      c.status = status ∧
        exists c0, c0 ∈ w.store.changeSets ∧ c0.id = id ∧
          c0.assignmentId = c.assignmentId := by
  rcases Table.mem_updateWhere hc with ⟨c0, hc0, ⟨hid, heq⟩ | ⟨_, heq⟩⟩
  · apply Or.inr
    rw [heq]
    exact ⟨rfl, c0, hc0, beq_iff_eq.mp hid, rfl⟩
  · rw [heq]
    exact Or.inl hc0

theorem openedFrom_resolved {status : ChangeStatus} (hresolved : isOpen status = false)
    (hc : c ∈ (w.updateChangeStatus id status).store.changeSets)
    (hopen : isOpen c.status = true) : OpenedFrom w c := by
  rcases mem_updateChangeStatus hc with hold | ⟨hset, _⟩
  · exact openedFrom_mem hold hopen
  · rw [hset, hresolved] at hopen
    cases hopen

theorem ChangeStep.opened_from {call next : Call} {input : Input}
    (h : ChangeStep sha256 w call input w' next)
    (happlied : forall change status, call = Call.applyUpdate change status -> IsApplied status)
    (hok : StepBeforeCompletion w call input) (hc : c ∈ w'.store.changeSets)
    (hopen : isOpen c.status = true) :
    OpenedFrom w c := by
  cases h with
  | failed _ => exact openedFrom_mem hc hopen
  | elsewhere _ _ hsame =>
      rw [hsame.changeSets] at hc
      exact openedFrom_mem hc hopen
  | inserted change now hfresh =>
      have hmem : c ∈ w.store.changeSets ++ [reported sha256 change] := hc
      rcases List.mem_append.mp hmem with hold | hnew
      · exact openedFrom_mem hold hopen
      · apply Or.inr
        rw [List.mem_singleton.mp hnew]
        exact hok hfresh
  | conflict change now =>
      rcases mem_updateChangeStatus hc with hold | ⟨_, c0, hc0, hid, howner⟩
      · exact openedFrom_mem hold hopen
      · apply Or.inr
        rw [← howner]
        exact hok c0 hc0 hid
  | wrote change overwrite outcome =>
      rw [(writePatch_rows w change overwrite outcome).left] at hc
      exact openedFrom_mem hc hopen
  | activity _ _ => exact openedFrom_mem hc hopen
  | updated change status now =>
      have hresolved := not_open_of_isApplied (happlied change status rfl)
      exact openedFrom_resolved hresolved hc hopen
  | rejected change now => exact openedFrom_resolved rfl hc hopen

theorem not_open_of_settled (h : st.unsettled id = false) (hc : c ∈ st.changeSets) (howner : c.assignmentId = id) :
    isOpen c.status = false := by
  have hnot := List.any_eq_false.mp h c hc
  rw [howner, beq_self_eq_true, Bool.true_and, Bool.not_eq_true] at hnot
  exact hnot

theorem NothingToReview.step {action : Action} (h : NothingToReview w)
    (hupdates : UpdatesApplied w) (hok : BeforeCompletion w action)
    (hstep : step sha256 w action = some w') : NothingToReview w' := by
  cases step_cases hstep with
  | called request => exact h
  | stepped i input hcall hnext =>
      have hchanges := Call.step_changes hnext
      have hrows := Call.step_rows hnext
      intro c hc hopen hcompleted
      have hopened := hchanges.opened_from
        (fun change status heq =>
          hupdates change status (heq ▸ List.mem_of_getElem? hcall))
        (hok _ hcall) hc hopen
      rcases hrows.completed_from hcompleted with hbefore | ⟨hsettled, hsame⟩
      · rcases hopened with ⟨c0, hc0, howner, hopen0⟩ | hnot
        · apply h c0 hc0 hopen0
          rw [howner]
          exact hbefore
        · exact hnot hbefore
      · have hold : c ∈ w.store.changeSets := by
          rw [← hsame]
          exact hc
        cases hopen.symm.trans (not_open_of_settled hsettled hold rfl)

theorem nothingToReview_start (h : (machine sha256).start w) : NothingToReview w := by
  intro c hc
  rw [h.left] at hc
  cases hc

/-- In every run whose change sets are inserted, and set to conflict, only while
their assignment is not completed, a completed assignment has nothing left to
review. -/
theorem completed_assignment_has_nothing_to_review {w : World}
    (h : (machine sha256).ReachableUnder BeforeCompletion w) {a : Assignment}
    (ha : a ∈ w.store.assignments) (hcompleted : a.status = AssignmentStatus.completed)
    {c : ChangeSet} (hc : c ∈ w.store.changeSets) (howner : c.assignmentId = a.id) :
    c.status ≠ ChangeStatus.pending ∧ c.status ≠ ChangeStatus.conflict := by
  have hboth : UpdatesApplied w ∧ NothingToReview w := by
    apply h.invariant (P := fun w => UpdatesApplied w ∧ NothingToReview w)
    · intro w hstart
      exact ⟨updatesApplied_start hstart, nothingToReview_start hstart⟩
    · intro w action w' hw hok hstep
      exact ⟨hw.left.step hstep, hw.right.step hw.left hok hstep⟩
  have hclosed : isOpen c.status ≠ true := fun hopen =>
    hboth.right c hc hopen ⟨a, ha, howner.symm, hcompleted⟩
  constructor
  · intro hpending
    rw [hpending] at hclosed
    exact hclosed rfl
  · intro hconflict
    rw [hconflict] at hclosed
    exact hclosed rfl

/-- The change set of a review is applied, which completes the assignment. -/
theorem completed_assignment_has_nothing_to_review_applied :
    exists w a c, (machine onePatchDigest).ReachableUnder BeforeCompletion w ∧
      a ∈ w.store.assignments ∧ a.status = AssignmentStatus.completed ∧
      c ∈ w.store.changeSets ∧ c.assignmentId = a.id ∧
      c.status ≠ ChangeStatus.pending ∧ c.status ≠ ChangeStatus.conflict := by
  have hrun : Option.any
      (fun w => w.store.assignments.any (fun a =>
        w.store.changeSets.any (fun c =>
          decide (a.status = AssignmentStatus.completed ∧ c.assignmentId = a.id))))
      ((machine onePatchDigest).runUnder BeforeCompletion oneThread
        (upToReview ++ [Action.call (Request.apply "c" false)] ++ applyOnce 5)) = true := by
    decide +kernel
  rcases (machine onePatchDigest).exists_reachable_of_runUnder
    ⟨rfl, rfl, rfl, rfl, rfl⟩ hrun with ⟨w, hw, hp⟩
  rcases List.any_eq_true.mp hp with ⟨a, ha, hp⟩
  rcases List.any_eq_true.mp hp with ⟨c, hc, hp⟩
  rcases of_decide_eq_true hp with ⟨hcompleted, howner⟩
  exact ⟨w, a, c, hw, ha, hcompleted, hc, howner,
    completed_assignment_has_nothing_to_review hw ha hcompleted hc howner⟩

/-- A report whose lease was valid inserts its change set after the finish of the
same assignment has found nothing to review and completed it. -/
theorem late_report_of_completed_assignment :
    ¬ forall w a c, (machine onePatchDigest).Reachable w ->
      a ∈ w.store.assignments -> a.status = AssignmentStatus.completed ->
      c ∈ w.store.changeSets -> c.assignmentId = a.id ->
        c.status ≠ ChangeStatus.pending ∧ c.status ≠ ChangeStatus.conflict := by
  intro hall
  have hrun : Option.any
      (fun w => w.store.assignments.any (fun a =>
        w.store.changeSets.any (fun c =>
          decide (a.status = AssignmentStatus.completed ∧ c.assignmentId = a.id ∧
            c.status = ChangeStatus.pending))))
      ((machine onePatchDigest).runFrom oneThread
        (upToClaim ++
          [Action.call (Request.report "h" oneChange), Action.step 3 (Input.tick 1),
            Action.call (Request.finish "a" "h" SessionState.completed none),
            Action.step 4 (Input.tick 2), Action.step 4 (Input.tick 2),
            Action.step 4 (Input.tick 2), Action.step 4 (Input.tick 2),
            Action.step 3 (Input.tick 3)])) = true := by
    decide +kernel
  rcases (machine onePatchDigest).exists_reachable_of_runFrom
    ⟨rfl, rfl, rfl, rfl, rfl⟩ hrun with ⟨w, hw, hp⟩
  rcases List.any_eq_true.mp hp with ⟨a, ha, hp⟩
  rcases List.any_eq_true.mp hp with ⟨c, hc, hp⟩
  rcases of_decide_eq_true hp with ⟨hcompleted, howner, hpending⟩
  exact (hall w a c hw ha hcompleted hc howner).left hpending

end Calls
end Collaboration
end Perpetual
