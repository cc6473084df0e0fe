import Perpetual.Worker.Registration

/-!
# Follow-ups and the end of a run

A sent follow-up sets one flag, the first running status clears it, and a run whose
flag is clear is reported as finished at the next settled status.  In every run of
the worker whose steps meet the condition below, the turn of every deleted follow-up
has ended when the assignment is reported, and no settled run is left without a
status or a timer that hands it to `finishRun`.
-/

namespace Perpetual
namespace Worker

open Foundation

def Job.Executed (j : Job) (i : String) : Prop := .instruction i ∈ j.thread.ended

instance (j : Job) (i : String) : Decidable (j.Executed i) :=
  inferInstanceAs (Decidable (_ ∈ _))

def Job.clears (c : Context) (j : Job) : Bool :=
  c.registered && !j.run.finishing && j.run.continuationExpected &&
    j.thread.undelivered.head? == some .running

def Job.deletes (j : Job) (k : Nat) : Option String :=
  match j.syncs[k]? with
  | some (.deleting i _) => some i
  | _ => none

/-- The flag is cleared only when every marked follow-up has been executed, or runs
and nothing has been published since its start; a follow-up that `finishRun` has not
waited for is deleted only after its turn; a timer hands over a run with a clear flag
only while no follow-up runs. -/
def WaitsFor (c : Context) (j : Job) : Job.Action -> Prop
  | .statusArrives =>
      j.clears c = true ->
        forall i, i ∈ j.run.deliveredInstructions ->
          j.Executed i ∨
            (j.thread.current = some (.instruction i) ∧
              j.thread.undelivered.tail = [])
  | .sync k .serves =>
      j.finish.decided = true -> forall i, i ∈ j.deletes k -> j.Executed i
  | .retryFires _ =>
      c.disposed = false -> c.inActive = true -> j.run.finishing = false ->
        j.run.continuationExpected = false -> forall i, i ∈ j.run.deliveredInstructions ->
          j.thread.current ≠ some (.instruction i)
  | _ => True

instance (c : Context) (j : Job) (a : Job.Action) : Decidable (WaitsFor c j a) := by
  unfold WaitsFor
  split
  · infer_instance
  · infer_instance
  · infer_instance
  · infer_instance

/-- Runs are watched, and follow-ups are waited for. -/
def Follows (c : Context) (j : Job) (a : Job.Action) : Prop :=
  Watches c j a ∧ WaitsFor c j a

instance (c : Context) (j : Job) (a : Job.Action) : Decidable (Follows c j a) :=
  inferInstanceAs (Decidable (_ ∧ _))

/-!
## Follow-ups that have been executed
-/

structure Followed (j : Job) : Prop where
  acknowledged : forall i, i ∈ j.acknowledged -> i ∈ j.run.deliveredInstructions
  deleting : forall i rest, .deleting i rest ∈ j.syncs ->
    i ∈ j.run.deliveredInstructions
  finishing : j.run.finishing = true -> j.run.continuationExpected = false ->
    forall i, i ∈ j.run.deliveredInstructions -> j.Executed i
  awaiting : j.run.finishing = false -> j.run.continuationExpected = false ->
    forall i, i ∈ j.run.deliveredInstructions ->
      j.Executed i ∨
        (j.thread.current = some (.instruction i) ∧
          forall status, status ∈ j.thread.undelivered -> isSettled status = false)
  decided : j.finish.decided = true -> forall i, i ∈ j.acknowledged -> j.Executed i

/-- What a step may change without touching the follow-ups. -/
structure FollowFrame (j j' : Job) : Prop where
  run : j'.run.deliveredInstructions = j.run.deliveredInstructions
  flag : j'.run.continuationExpected = j.run.continuationExpected
  acknowledged : j'.acknowledged = j.acknowledged
  syncs : forall i rest, .deleting i rest ∈ j'.syncs ->
    .deleting i rest ∈ j.syncs
  ended : j'.thread.ended = j.thread.ended
  current : j'.thread.current = j.thread.current
  undelivered : forall status, status ∈ j'.thread.undelivered ->
    status ∈ j.thread.undelivered

variable {j j' : Job} {i : String}

theorem FollowFrame.awaits (hframe : FollowFrame j j')
    (h : j.Executed i ∨
      (j.thread.current = some (.instruction i) ∧
        forall status, status ∈ j.thread.undelivered -> isSettled status = false)) :
    j'.Executed i ∨
      (j'.thread.current = some (.instruction i) ∧
        forall status, status ∈ j'.thread.undelivered -> isSettled status = false) := by
  unfold Job.Executed
  rw [hframe.ended, hframe.current]
  rcases h with hexecuted | ⟨hcurrent, hunsettled⟩
  · exact .inl hexecuted
  · exact .inr ⟨hcurrent, fun status hmem => hunsettled status (hframe.undelivered status hmem)⟩

theorem Followed.frame (h : Followed j) (hframe : FollowFrame j j')
    (hfinishing : j'.run.finishing = j.run.finishing)
    (hdecided : j'.finish.decided = true -> j.finish.decided = true) : Followed j' where
  acknowledged := by
    rw [hframe.acknowledged, hframe.run]
    exact h.acknowledged
  deleting := by
    intro i rest hmem
    rw [hframe.run]
    exact h.deleting i rest (hframe.syncs i rest hmem)
  finishing := by
    unfold Job.Executed
    rw [hfinishing, hframe.flag, hframe.run, hframe.ended]
    exact h.finishing
  awaiting := by
    rw [hfinishing, hframe.flag, hframe.run]
    exact fun hf hflag i hi => hframe.awaits (h.awaiting hf hflag i hi)
  decided := by
    unfold Job.Executed
    rw [hframe.acknowledged, hframe.ended]
    exact fun hd => h.decided (hdecided hd)

theorem Followed.finishRun {status : TaskStatus} (h : Followed j) (hframe : FollowFrame j j')
    (hexecuted : j.run.continuationExpected = false ->
      forall i, i ∈ j.run.deliveredInstructions -> j.Executed i) :
    Followed (Job.finishRun false status j') where
  acknowledged := by
    show forall i, i ∈ j'.acknowledged -> i ∈ j'.run.deliveredInstructions
    rw [hframe.acknowledged, hframe.run]
    exact h.acknowledged
  deleting := by
    intro i rest hmem
    show i ∈ j'.run.deliveredInstructions
    rw [hframe.run]
    rcases List.mem_append.mp hmem with hold | hnew
    · exact h.deleting i rest (hframe.syncs i rest hold)
    · cases List.mem_singleton.mp hnew
  finishing := by
    intro _
    show j'.run.continuationExpected = false ->
      forall i, i ∈ j'.run.deliveredInstructions -> .instruction i ∈ j'.thread.ended
    rw [hframe.flag, hframe.run, hframe.ended]
    exact hexecuted
  awaiting := by
    intro hawaiting
    cases hawaiting
  decided := by
    intro hdecided
    cases hdecided

variable {k : Nat}

theorem mem_of_mem_set {l : List SyncStage} {stage stage' : SyncStage} (h : stage ∈ l.set k stage')
    (hne : stage ≠ stage') : stage ∈ l := by
  rcases List.mem_or_eq_of_mem_set h with hmem | heq
  · exact hmem
  · exact absurd heq hne

theorem followFrame_setSync (j : Job) (k : Nat) (stage : SyncStage)
    (hstage : forall i rest, stage ≠ .deleting i rest) :
    FollowFrame j (j.setSync k stage) :=
  ⟨rfl, rfl, rfl,
    fun i rest hmem => mem_of_mem_set hmem (fun heq => hstage i rest heq.symm),
    rfl, rfl, fun _ h => h⟩

variable {rest : List String}

theorem Followed.skipped (h : Followed j) (hmem : i ∈ j.run.deliveredInstructions) :
    Followed (j.setSync k (.deleting i rest)) where
  acknowledged := h.acknowledged
  deleting := by
    intro i' rest' hmem'
    rcases List.mem_or_eq_of_mem_set hmem' with hold | hnew
    · exact h.deleting i' rest' hold
    · cases hnew
      exact hmem
  finishing := h.finishing
  awaiting := h.awaiting
  decided := h.decided

theorem Followed.marked (h : Followed j) :
    Followed
      { j.setSync k (.deleting i rest) with
        run :=
          { j.run with
            deliveredInstructions := j.run.deliveredInstructions ++ [i]
            continuationExpected := true } } where
  acknowledged := fun i' hi' => List.mem_append_left _ (h.acknowledged i' hi')
  deleting := by
    intro i' rest' hmem
    rcases List.mem_or_eq_of_mem_set hmem with hold | hnew
    · exact List.mem_append_left _ (h.deleting i' rest' hold)
    · cases hnew
      exact List.mem_append_cons_self
  finishing := by
    intro _ hflag
    cases hflag
  awaiting := by
    intro _ hflag
    cases hflag
  decided := h.decided

theorem Followed.deleted {queue : List String} (h : Followed j)
    (hstage : j.syncs[k]? = some (.deleting i rest))
    (hexecuted : j.finish.decided = true -> j.Executed i) :
    Followed
      { j.setSync k (.listed rest) with
        queue := queue
        acknowledged := j.acknowledged ++ [i] } where
  acknowledged := by
    intro i' hi'
    rcases List.mem_append.mp hi' with hold | hnew
    · exact h.acknowledged i' hold
    · rw [List.mem_singleton.mp hnew]
      exact h.deleting i rest (List.mem_of_getElem? hstage)
  deleting := by
    intro i' rest' hmem
    exact h.deleting i' rest' (mem_of_mem_set hmem (fun heq => nomatch heq))
  finishing := h.finishing
  awaiting := h.awaiting
  decided := by
    intro hdecided i' hi'
    rcases List.mem_append.mp hi' with hold | hnew
    · exact h.decided hdecided i' hold
    · rw [List.mem_singleton.mp hnew]
      exact hexecuted hdecided

variable {c : Context}

theorem Followed.sync {event : Job.SyncEvent} (h : Followed j)
    (hok : WaitsFor c j (.sync k event)) (hmove : SyncMove j k event j') :
    Followed j' := by
  cases hmove with
  | skipped i rest hstage hmem => exact h.skipped hmem
  | marked i rest hstage => exact h.marked
  | deleted i rest hstage =>
      have hdeletes : j.deletes k = some i := by
        unfold Job.deletes
        rw [hstage]
      exact h.deleted hstage (fun hdecided => hok hdecided i hdeletes)
  | sent i rest hstage =>
      have hset := followFrame_setSync j k (.sent i rest) (fun _ _ heq => nomatch heq)
      exact h.frame ⟨rfl, rfl, rfl, hset.syncs, rfl, rfl, fun _ h => h⟩ rfl
        (fun hdecided => hdecided)
  | listed hstage =>
      exact h.frame (followFrame_setSync j k _ (fun _ _ heq => nomatch heq)) rfl
        (fun hdecided => hdecided)
  | ended hstage =>
      exact h.frame (followFrame_setSync j k _ (fun _ _ heq => nomatch heq)) rfl
        (fun hdecided => hdecided)
  | takenUp i rest hstage hnew =>
      exact h.frame (followFrame_setSync j k _ (fun _ _ heq => nomatch heq)) rfl
        (fun hdecided => hdecided)
  | reported i rest hstage =>
      exact h.frame (followFrame_setSync j k _ (fun _ _ heq => nomatch heq)) rfl
        (fun hdecided => hdecided)
  | failed stage hstage hfailed hother =>
      exact h.frame (followFrame_setSync j k _ (fun _ _ heq => nomatch heq)) rfl
        (fun hdecided => hdecided)
  | answerLost i rest hstage =>
      exact h.frame (followFrame_setSync j k _ (fun _ _ heq => nomatch heq)) rfl
        (fun hdecided => hdecided)

theorem Followed.finishResumes (hcourse : Course c j) (h : Followed j)
    (hstep : j.finishResumes = some j') : Followed j' := by
  rcases finishResumes_cases hstep with
    ⟨k, status, stage, hfinish, _, ⟨_, hj⟩ | ⟨_, hflag, hj⟩ | ⟨_, hflag, hj⟩⟩
  · have hbusy : j.run.finishing = true := hcourse.busy (by simp [hfinish])
    rw [hj]
    refine ⟨h.acknowledged, h.deleting, ?_, ?_, ?_⟩
    · intro hfinishing
      cases hfinishing
    · intro _ hflag i hi
      exact .inl (h.finishing hbusy hflag i hi)
    · intro hdecided
      cases hdecided
  · rw [hj]
    refine ⟨h.acknowledged, h.deleting, ?_, ?_, ?_⟩
    · intro hfinishing
      cases hfinishing
    · intro _ hflag'
      have hflag'' : j.run.continuationExpected = false := hflag'
      rw [hflag] at hflag''
      cases hflag''
    · intro hdecided
      cases hdecided
  · have hbusy : j.run.finishing = true := hcourse.busy (by simp [hfinish])
    rw [hj]
    refine ⟨h.acknowledged, h.deleting, h.finishing, h.awaiting, ?_⟩
    intro _ i hi
    exact h.finishing hbusy hflag i (h.acknowledged i hi)

theorem Followed.statusArrives (h : Followed j) (hok : WaitsFor c j .statusArrives)
    (hstep : j.statusArrives c = some j') : Followed j' := by
  rcases statusArrives_cases hstep with
    ⟨status, rest, hundelivered, _,
      ⟨_, hj⟩ | ⟨_, hfinishing, hsettled, hj⟩ |
        ⟨hregistered, hfinishing, hrunning, hflag, hj⟩⟩
  · rw [hj]
    refine h.frame ⟨rfl, rfl, rfl, fun _ _ hmem => hmem, rfl, rfl, ?_⟩ rfl
      (fun hdecided => hdecided)
    intro status' hmem
    rw [hundelivered]
    exact List.mem_cons_of_mem _ hmem
  · rw [hj]
    refine h.finishRun ⟨rfl, rfl, rfl, fun _ _ hmem => hmem, rfl, rfl, ?_⟩ ?_
    · intro status' hmem
      rw [hundelivered]
      exact List.mem_cons_of_mem _ hmem
    · intro hflag i hi
      rcases h.awaiting hfinishing hflag i hi with hexecuted | ⟨_, hunsettled⟩
      · exact hexecuted
      · have hhead := hunsettled status (by rw [hundelivered]; exact List.mem_cons_self)
        rw [hsettled] at hhead
        cases hhead
  · have hclears : j.clears c = true := by
      unfold Job.clears
      rw [hregistered, hfinishing, hflag, hundelivered, hrunning]
      rfl
    rw [hj]
    refine ⟨h.acknowledged, h.deleting, ?_, ?_, h.decided⟩
    · intro hfinishing'
      have hfinishing'' : j.run.finishing = true := hfinishing'
      rw [hfinishing] at hfinishing''
      cases hfinishing''
    · intro _ _ i hi
      rcases hok hclears i hi with hexecuted | ⟨hcurrent, htail⟩
      · exact .inl hexecuted
      · refine .inr ⟨hcurrent, ?_⟩
        intro status' hmem
        rw [hundelivered] at htail
        have hrest : rest = [] := htail
        have hmem' : status' ∈ rest := hmem
        rw [hrest] at hmem'
        cases hmem'

theorem Followed.retryFires {n : Nat} (h : Followed j)
    (hok : WaitsFor c j (.retryFires n)) (hstep : j.retryFires c n = some j') :
    Followed j' := by
  rcases retryFires_cases hstep with
    ⟨status, _, ⟨_, hj⟩ | ⟨hdisposed, hactive, hfinishing, hj⟩⟩
  · rw [hj]
    exact ⟨h.acknowledged, h.deleting, h.finishing, h.awaiting, h.decided⟩
  · rw [hj]
    refine h.finishRun ⟨rfl, rfl, rfl, fun _ _ hmem => hmem, rfl, rfl, fun _ h => h⟩ ?_
    intro hflag i hi
    rcases h.awaiting hfinishing hflag i hi with hexecuted | ⟨hcurrent, _⟩
    · exact hexecuted
    · exact absurd hcurrent (hok hdisposed hactive hfinishing hflag i hi)

theorem Followed.turnStarts {thread : LocalThread} (h : Followed j)
    (hthread : j.thread.startTurn = some thread) : Followed { j with thread := thread } := by
  rcases startTurn_cases hthread with ⟨turn, rest, hcurrent, _, ht⟩
  rw [ht]
  refine ⟨h.acknowledged, h.deleting, h.finishing, ?_, h.decided⟩
  intro hfinishing hflag i hi
  rcases h.awaiting hfinishing hflag i hi with hexecuted | ⟨hcurrent', _⟩
  · exact .inl hexecuted
  · rw [hcurrent] at hcurrent'
    cases hcurrent'

theorem Followed.turnEnds {thread : LocalThread} {status : TaskStatus} (h : Followed j)
    (hthread : j.thread.endTurn status = some thread) : Followed { j with thread := thread } := by
  rcases endTurn_cases hthread with ⟨turn, hcurrent, _, ht⟩
  have hkept : forall i, j.Executed i -> .instruction i ∈ j.thread.ended ++ [turn] :=
    fun i hexecuted => List.mem_append_left _ hexecuted
  rw [ht]
  refine ⟨h.acknowledged, h.deleting, ?_, ?_, ?_⟩
  · intro hfinishing hflag i hi
    exact hkept i (h.finishing hfinishing hflag i hi)
  · intro hfinishing hflag i hi
    rcases h.awaiting hfinishing hflag i hi with hexecuted | ⟨hcurrent', _⟩
    · exact .inl (hkept i hexecuted)
    · rw [hcurrent] at hcurrent'
      apply Or.inl
      rw [Option.some.inj hcurrent']
      exact List.mem_append_cons_self
  · intro hdecided i hi
    exact hkept i (h.decided hdecided i hi)

theorem Followed.claim {event : Job.ClaimEvent} (h : Followed j) (hmove : ClaimMove j event j') :
    Followed j' := by
  cases hmove with
  | deleted thread hclaim hthread =>
      rcases delete_cases hthread with ⟨_, ht⟩
      rw [ht]
      exact ⟨h.acknowledged, h.deleting, h.finishing, h.awaiting, h.decided⟩
  | _ => exact ⟨h.acknowledged, h.deleting, h.finishing, h.awaiting, h.decided⟩

theorem Followed.step {a : Job.Action} (hcourse : Course c j) (h : Followed j)
    (hok : WaitsFor c j a) (hstep : j.step c a = some j') : Followed j' := by
  cases a with
  | claim event => exact h.claim (claimStep_cases hstep)
  | sync k event => exact h.sync hok (syncStep_cases hstep)
  | finishResumes => exact h.finishResumes hcourse hstep
  | finishProceeds succeeds =>
      rcases finishProceeds_cases hstep with ⟨stage, hdecided, _, hj⟩
      rw [hj]
      exact ⟨h.acknowledged, h.deleting, h.finishing, h.awaiting, fun _ => h.decided hdecided⟩
  | threadDeleted succeeds =>
      rcases threadDeleted_cases hstep with ⟨_, hj | ⟨thread, hthread, hj⟩⟩
      · rw [hj]
        refine ⟨h.acknowledged, h.deleting, h.finishing, h.awaiting, ?_⟩
        intro hdecided
        cases hdecided
      · rcases delete_cases hthread with ⟨_, ht⟩
        rw [hj, ht]
        refine ⟨h.acknowledged, h.deleting, h.finishing, h.awaiting, ?_⟩
        intro hdecided
        cases hdecided
  | retryFires n => exact h.retryFires hok hstep
  | statusArrives => exact h.statusArrives hok hstep
  | streams =>
      rcases streams_cases hstep with ⟨_, _, hj | ⟨_, hj⟩⟩
      · rw [hj]
        exact h
      · rw [hj]
        exact ⟨h.acknowledged, h.deleting, h.finishing, h.awaiting, h.decided⟩
  | flushFires =>
      rw [flushFires_cases hstep]
      exact ⟨h.acknowledged, h.deleting, h.finishing, h.awaiting, h.decided⟩
  | turnStarts =>
      rcases turnStarts_cases hstep with ⟨thread, hthread, hj⟩
      rw [hj]
      exact h.turnStarts hthread
  | turnEnds status =>
      rcases turnEnds_cases hstep with ⟨thread, hthread, hj⟩
      rw [hj]
      exact h.turnEnds hthread
  | enqueues instruction =>
      rw [enqueues_cases hstep]
      exact ⟨h.acknowledged, h.deleting, h.finishing, h.awaiting, h.decided⟩

/-!
## Assignments that fail before their run
-/

/-- A failure that `claimAndRun` reports is one of the preparation. -/
def Unstarted (c : Context) (j : Job) : Prop :=
  j.claim = .reporting -> Untouched j ∧ c.inActive = false

theorem unstarted_claim {event : Job.ClaimEvent} (hfresh : Fresh c j) (hwatched : Watched c j)
    (hmove : ClaimMove j event j') : Unstarted c j' := by
  intro hreporting
  cases hmove with
  | unprepared hclaim =>
      have hunmade : Unmade j := .inr (.inr hclaim)
      exact ⟨(hfresh.untouched hunmade).claim _ _ _, hfresh.unregistered hunmade⟩
  | deleted thread hclaim hthread => exact absurd hclaim hwatched.unfailed
  | undeleted hclaim => exact absurd hclaim hwatched.unfailed
  | _ => cases hreporting

theorem unstarted_move {allowed : Context -> Job -> Job.Action -> Prop} {c' : Context}
    (hview : OnCourse c j) (h : Unstarted c j) (hmove : Move allowed Listening c j c' j') :
    Unstarted c' j' := by
  cases hmove with
  | stays => exact h
  | acts a j' hok hstep =>
      rcases step_claim hstep with ⟨hclaim, _⟩ | ⟨event, hclaims⟩
      · intro hreporting
        rcases h (hclaim.symm.trans hreporting) with ⟨huntouched, hinactive⟩
        rcases huntouched.step hstep with ⟨event, ha⟩ | ⟨queue, hj⟩
        · rw [ha] at hstep
          exact unstarted_claim hview.fresh hview.watched (claimStep_cases hstep) hreporting
        · rw [hj]
          rcases huntouched with
            ⟨hrun, hfinish, hretries, hsyncs, hthread, hsends, hacknowledged⟩
          exact ⟨⟨hrun, hfinish, hretries, hsyncs, hthread, hsends, hacknowledged⟩, hinactive⟩
      · exact unstarted_claim hview.fresh hview.watched hclaims
  | claims hclaim htaken hactive =>
      intro hreporting
      cases hreporting
  | syncs hactive =>
      intro hreporting
      have hinactive := (h hreporting).right
      rw [hactive] at hinactive
      cases hinactive
  | registers hok hclaim =>
      intro hreporting
      cases hreporting
  | closes hfinish =>
      intro hreporting
      rw [(h hreporting).left.finish] at hfinish
      cases hfinish
  | disposes hactive =>
      intro hreporting
      have hinactive := (h hreporting).right
      rw [hactive] at hinactive
      cases hinactive
  | bystands hactive => exact fun hreporting => ⟨(h hreporting).left, rfl⟩

structure FollowView (c : Context) (j : Job) : Prop where
  onCourse : OnCourse c j
  unstarted : Unstarted c j
  followed : Followed j

theorem followed_registers (hfresh : Fresh c j) (hclaim : j.claim = .preparing) :
    Followed j.prepared := by
  have huntouched := hfresh.untouched (.inr (.inr hclaim))
  constructor
  · intro i hi
    have hi' : i ∈ j.acknowledged := hi
    rw [huntouched.acknowledged] at hi'
    cases hi'
  · intro i rest hmem
    have hmem' : .deleting i rest ∈ j.syncs := hmem
    rw [huntouched.syncs] at hmem'
    cases hmem'
  · intro hfinishing
    cases hfinishing
  · intro _ _ i hi
    cases hi
  · intro hdecided
    have hdecided' : j.finish.decided = true := hdecided
    rw [huntouched.finish] at hdecided'
    cases hdecided'

theorem FollowView.move {c' : Context} (h : FollowView c j)
    (hmove : Move Follows Listening c j c' j') : FollowView c' j' := by
  refine ⟨h.onCourse.move (fun _ _ _ hok => hok.left) hmove,
    unstarted_move h.onCourse h.unstarted hmove, ?_⟩
  have hfollowed := h.followed
  cases hmove with
  | stays => exact hfollowed
  | acts a j' hok hstep => exact hfollowed.step h.onCourse.course hok.right hstep
  | claims hclaim htaken hactive =>
      exact ⟨hfollowed.acknowledged, hfollowed.deleting, hfollowed.finishing,
        hfollowed.awaiting, hfollowed.decided⟩
  | syncs hactive =>
      refine hfollowed.frame ⟨rfl, rfl, rfl, ?_, rfl, rfl, fun _ h => h⟩ rfl
        (fun hdecided => hdecided)
      intro i rest hmem
      rcases List.mem_append.mp hmem with hold | hnew
      · exact hold
      · have hstage := List.mem_singleton.mp hnew
        split at hstage
        · cases hstage
        · cases hstage
  | registers hok hclaim => exact followed_registers h.onCourse.fresh hclaim
  | closes hfinish =>
      refine ⟨hfollowed.acknowledged, hfollowed.deleting, hfollowed.finishing,
        hfollowed.awaiting, ?_⟩
      intro hdecided
      cases hdecided
  | disposes hactive =>
      exact ⟨hfollowed.acknowledged, hfollowed.deleting, hfollowed.finishing,
        hfollowed.awaiting, hfollowed.decided⟩
  | bystands hactive => exact hfollowed

theorem followView_new : FollowView Context.new Job.new where
  onCourse := onCourse_new
  unstarted := by
    intro hreporting
    cases hreporting
  followed := by
    constructor
    · intro i hi
      cases hi
    · intro i rest hmem
      cases hmem
    · intro hfinishing
      cases hfinishing
    · intro _ _ i hi
      cases hi
    · intro hdecided
      cases hdecided

/-- The worker is reporting the assignment as finished. -/
def Job.Reports (j : Job) : Prop :=
  j.claim = .reporting ∨ j.finish = .reporting ∨
    j.finish = .reportingFailure

instance (j : Job) : Decidable j.Reports := inferInstanceAs (Decidable (_ ∨ _))

/-- The local thread was asked to run and has no turn left. -/
def Job.HasSettled (j : Job) : Prop :=
  j.claim ≠ .starting ∧ j.thread.waiting = [] ∧ j.thread.current = none

instance (j : Job) : Decidable j.HasSettled := inferInstanceAs (Decidable (_ ∧ _))

/-- A status or a timer is still to hand the run to `finishRun`. -/
def Job.Scheduled (j : Job) : Prop :=
  (exists status, status ∈ j.thread.undelivered ∧ isSettled status = true) ∨
    j.retries ≠ []

theorem FollowView.executed (h : FollowView c j) (hreports : j.Reports) (i : String)
    (hi : i ∈ j.acknowledged) : j.Executed i := by
  rcases hreports with hclaim | hfinish | hfinish
  · rw [(h.unstarted hclaim).left.acknowledged] at hi
    cases hi
  · exact h.followed.decided (by rw [hfinish]; rfl) i hi
  · exact h.followed.decided (by rw [hfinish]; rfl) i hi

theorem OnCourse.scheduled (h : OnCourse c j) (hactive : c.inActive = true)
    (hfinishing : j.run.finishing = false) (hsettled : j.HasSettled) : j.Scheduled := by
  rcases hsettled with ⟨hclaim, hwaiting, hcurrent⟩
  rcases h.watched.watched hactive with hstarting | hfinish | hretries | hlive
  · exact absurd hstarting hclaim
  · have hbusy := h.course.busy hfinish
    rw [hfinishing] at hbusy
    cases hbusy
  · exact .inr hretries
  · rw [live_iff] at hlive
    rcases hlive with hlive | hlive | hlive
    · exact absurd hwaiting hlive
    · exact absurd hcurrent hlive
    · -- the last status that is still to arrive is that of the end of a turn
      have hlast := List.getLast?_eq_some_getLast hlive
      exact .inl ⟨_, List.getLast_mem hlive, h.course.ordered hcurrent _ hlast⟩

/-- Acknowledged follow-ups are executed before the assignment is reported, and no
settled run is left alone. -/
theorem follow_ups_executed {w : World}
    (h : machine.ReachableUnder (Under Follows Listening) w) (id : String) :
    ((w.jobs id).Reports ->
      forall i, i ∈ (w.jobs id).acknowledged -> (w.jobs id).Executed i) ∧
    (id ∈ w.active -> (w.jobs id).run.finishing = false -> (w.jobs id).HasSettled ->
      (w.jobs id).Scheduled) := by
  have hview : FollowView (w.context id) (w.jobs id) :=
    invariant_of_moves (P := FollowView) followView_new
      (fun _ _ _ _ h hmove => h.move hmove) h id
  constructor
  · exact hview.executed
  · intro hactive hfinishing hsettled
    exact hview.onCourse.scheduled (decide_eq_true hactive) hfinishing hsettled

def handled (k : Nat) : List Action :=
  [syncAnswers k, syncAnswers k, syncServes k, syncAnswers k, syncServes k]

/-- The running turn ends in a review, the worker hears of it, and the sync of
`finishRun` gets the list of follow-ups. -/
def reviewed (k : Nat) : List Action :=
  [.job "a" (.turnEnds .review),
    .job "a" .statusArrives, syncServes k]

/-- The sync of `finishRun` has handled everything, and `finishRun` goes on. -/
def resumed (k : Nat) : List Action := [syncAnswers k, .job "a" .finishResumes]

def nextTurn : List Action :=
  [.job "a" .turnStarts, .job "a" .statusArrives]

/-- `finishRun` publishes the changes and reports. -/
def reported : List Action :=
  [.job "a" (.finishProceeds true),
    .job "a" (.finishProceeds true)]

/-- A poll delivers the given follow-ups while the turn of the assignment runs. -/
def deliveredByPoll (instructions : List String) : List Action :=
  instructions.map (fun i => .job "a" (.enqueues i)) ++
    [.pollSyncs, syncServes 0] ++ instructions.flatMap (fun _ => handled 0) ++
    [syncAnswers 0]

theorem follow_ups_executed_reported :
    exists w, machine.ReachableUnder (Under Follows Listening) w ∧
      (w.jobs "a").Reports ∧ (w.jobs "a").acknowledged = ["m"] ∧
      (w.jobs "a").Executed "m" := by
  have hrun : Option.any
      (fun w => decide ((w.jobs "a").Reports ∧ (w.jobs "a").acknowledged = ["m"]))
      (machine.runUnder (Under Follows Listening) World.new
        (startedRun ++ deliveredByPoll ["m"] ++ reviewed 1 ++ resumed 1 ++ nextTurn ++
          reviewed 2 ++ resumed 2 ++ reported)) = true := by
    decide +kernel
  rcases Machine.exists_reachable_of_runUnder _ rfl hrun with ⟨w, hw, hreports⟩
  have hp := of_decide_eq_true hreports
  refine ⟨w, hw, hp.left, hp.right, ?_⟩
  apply (follow_ups_executed hw "a").left hp.left
  rw [hp.right]
  exact List.mem_cons_self

/-- The first running status stands for both of two follow-ups, so the run is reported
before the second one; and the running status of a follow-up that is sent while
`finishRun` is under way is dropped, so the run is never reported. -/
theorem follow_up_lost_and_run_stuck :
    (exists w, machine.Reachable w ∧ (w.jobs "a").Reports ∧
      (w.jobs "a").acknowledged = ["m", "n"] ∧ ¬ (w.jobs "a").Executed "n") ∧
    exists w, machine.Reachable w ∧ "a" ∈ w.active ∧
      (w.jobs "a").run.finishing = false ∧ (w.jobs "a").HasSettled ∧
      (w.jobs "a").queue = [] ∧ (w.jobs "a").thread.undelivered = [] ∧
      (w.jobs "a").retries = [] := by
  have hlost : Option.any
      (fun w => decide ((w.jobs "a").Reports ∧
        (w.jobs "a").acknowledged = ["m", "n"] ∧ ¬ (w.jobs "a").Executed "n"))
      (machine.runFrom World.new
        (startedRun ++ deliveredByPoll ["m", "n"] ++ reviewed 1 ++ resumed 1 ++
          nextTurn ++ reviewed 2 ++ resumed 2 ++ reported)) = true := by
    decide +kernel
  have hstuck : Option.any
      (fun w => decide ("a" ∈ w.active ∧ (w.jobs "a").run.finishing = false ∧
        (w.jobs "a").HasSettled ∧ (w.jobs "a").queue = [] ∧
        (w.jobs "a").thread.undelivered = [] ∧ (w.jobs "a").retries = []))
      (machine.runFrom World.new
        (startedRun ++ [Action.job "a" (Job.Action.enqueues "m")] ++ reviewed 0 ++
          [syncAnswers 0, syncAnswers 0, syncServes 0] ++ nextTurn ++
          [syncAnswers 0, syncServes 0] ++ resumed 0 ++ reviewed 1 ++ resumed 1)) =
        true := by
    decide +kernel
  rcases Machine.exists_reachable_of_runFrom _ rfl hlost with ⟨w, hw, hp⟩
  rcases Machine.exists_reachable_of_runFrom _ rfl hstuck with ⟨w', hw', hp'⟩
  exact ⟨⟨w, hw, of_decide_eq_true hp⟩, ⟨w', hw', of_decide_eq_true hp'⟩⟩

end Worker
end Perpetual
