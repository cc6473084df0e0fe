import Perpetual.Worker.Poll

/-!
# Steps of the worker

What each operation on a job does: one relation for the claim, one for a sync, and
one lemma for each of the others.
-/

namespace Perpetual
namespace Worker

open Foundation

/-!
## Operations on a job
-/

inductive ClaimMove (j : Job) : Job.ClaimEvent -> Job -> Prop where
  | taken (h : j.claim = .claiming) (hfree : j.taken = false) :
      ClaimMove j .serves
        { j with claim := .claimed, taken := true }
  | answered (h : j.claim = .claimed) :
      ClaimMove j .answers
        { j with claim := .preparing, preparationRenewTimer := true }
  | givenUp (event : Job.ClaimEvent)
      (h : j.claim = .claiming ∨ j.claim = .claimed ∨
        j.claim = .reporting) :
      ClaimMove j event { j with claim := .idle }
  | unprepared (h : j.claim = .preparing) :
      ClaimMove j .fails
        { j with claim := .reporting, preparationRenewTimer := false }
  | started (h : j.claim = .starting) :
      ClaimMove j .serves
        { j with
          claim := .started
          thread := j.thread.accept .assignment }
  | startAnswered (h : j.claim = .started) :
      ClaimMove j .answers { j with claim := .idle }
  | startFailed (h : j.claim = .starting ∨ j.claim = .started) :
      ClaimMove j .fails { j with claim := .deleting }
  | deleted (thread : LocalThread) (h : j.claim = .deleting)
      (hthread : j.thread.delete = some thread) :
      ClaimMove j .serves
        { j with claim := .reporting, thread := thread }
  | undeleted (h : j.claim = .deleting) :
      ClaimMove j .fails { j with claim := .reporting }

variable {j j' : Job}

theorem claimStep_cases {event : Job.ClaimEvent} (h : j.claimStep event = some j') :
    ClaimMove j event j' := by
  cases event with
  | serves =>
      have hserves : j.claimServes j.claim = some j' := h
      cases hclaim : j.claim with
      | claiming =>
          rw [hclaim] at hserves
          simp only [Job.claimServes] at hserves
          split at hserves
          · cases hserves
          · rename_i hfree
            cases hserves
            exact .taken hclaim (Bool.eq_false_iff.mpr hfree)
      | starting =>
          rw [hclaim] at hserves
          cases hserves
          exact .started hclaim
      | deleting =>
          rw [hclaim] at hserves
          rcases Option.map_eq_some_iff.mp hserves with ⟨thread, hthread, hj⟩
          rw [← hj]
          exact .deleted thread hclaim hthread
      | _ =>
          rw [hclaim] at hserves
          cases hserves
  | answers =>
      have hanswers : j.claimAnswers j.claim = some j' := h
      cases hclaim : j.claim with
      | claimed =>
          rw [hclaim] at hanswers
          cases hanswers
          exact .answered hclaim
      | started =>
          rw [hclaim] at hanswers
          cases hanswers
          exact .startAnswered hclaim
      | reporting =>
          rw [hclaim] at hanswers
          cases hanswers
          exact .givenUp _ (.inr (.inr hclaim))
      | _ =>
          rw [hclaim] at hanswers
          cases hanswers
  | fails =>
      have hfails : j.claimFails j.claim = some j' := h
      cases hclaim : j.claim with
      | idle =>
          rw [hclaim] at hfails
          cases hfails
      | claiming =>
          rw [hclaim] at hfails
          cases hfails
          exact .givenUp _ (.inl hclaim)
      | claimed =>
          rw [hclaim] at hfails
          cases hfails
          exact .givenUp _ (.inr (.inl hclaim))
      | preparing =>
          rw [hclaim] at hfails
          cases hfails
          exact .unprepared hclaim
      | starting =>
          rw [hclaim] at hfails
          cases hfails
          exact .startFailed (.inl hclaim)
      | started =>
          rw [hclaim] at hfails
          cases hfails
          exact .startFailed (.inr hclaim)
      | deleting =>
          rw [hclaim] at hfails
          cases hfails
          exact .undeleted hclaim
      | reporting =>
          rw [hclaim] at hfails
          cases hfails
          exact .givenUp _ (.inr (.inr hclaim))

inductive SyncMove (j : Job) (k : Nat) : Job.SyncEvent -> Job -> Prop where
  | listed (h : j.syncs[k]? = some .listing) :
      SyncMove j k .serves (j.setSync k (.listed j.queue))
  | ended (h : j.syncs[k]? = some (.listed [])) :
      SyncMove j k .answers (j.setSync k .finished)
  | skipped (i : String) (rest : List String)
      (h : j.syncs[k]? = some (.listed (i :: rest)))
      (hmem : i ∈ j.run.deliveredInstructions) :
      SyncMove j k .answers (j.setSync k (.deleting i rest))
  | takenUp (i : String) (rest : List String)
      (h : j.syncs[k]? = some (.listed (i :: rest)))
      (hnew : ¬ i ∈ j.run.deliveredInstructions) :
      SyncMove j k .answers (j.setSync k (.reporting i rest))
  | reported (i : String) (rest : List String)
      (h : j.syncs[k]? = some (.reporting i rest)) :
      SyncMove j k .answers (j.setSync k (.sending i rest))
  | sent (i : String) (rest : List String)
      (h : j.syncs[k]? = some (.sending i rest)) :
      SyncMove j k .serves
        { j.setSync k (.sent i rest) with
          thread := j.thread.accept (.instruction i)
          sends := j.sends ++ [i] }
  | marked (i : String) (rest : List String)
      (h : j.syncs[k]? = some (.sent i rest)) :
      SyncMove j k .answers
        { j.setSync k (.deleting i rest) with
          run :=
            { j.run with
              deliveredInstructions := j.run.deliveredInstructions ++ [i]
              continuationExpected := true } }
  | deleted (i : String) (rest : List String)
      (h : j.syncs[k]? = some (.deleting i rest)) :
      SyncMove j k .serves
        { j.setSync k (.listed rest) with
          queue := j.queue.filter (fun i' => i' != i)
          acknowledged := j.acknowledged ++ [i] }
  | failed (stage : SyncStage) (h : j.syncs[k]? = some stage)
      (hfailed : stage.hasFailed = false)
      (hstage : forall i rest, stage ≠ .sent i rest) :
      SyncMove j k .fails (j.setSync k .failed)
  | answerLost (i : String) (rest : List String)
      (h : j.syncs[k]? = some (.sent i rest)) :
      SyncMove j k .fails (j.setSync k (.unanswered i))

theorem syncStep_cases {k : Nat} {event : Job.SyncEvent} (h : j.syncStep k event = some j') :
    SyncMove j k event j' := by
  unfold Job.syncStep at h
  split at h
  · cases h
  · rename_i stage hstage
    cases event with
    | serves =>
        cases stage with
        | listing =>
            cases h
            exact SyncMove.listed hstage
        | sending i rest =>
            have hsent : (if j.thread.deleted then none else _) = some j' := h
            split at hsent
            · cases hsent
            · cases hsent
              exact SyncMove.sent i rest hstage
        | deleting i rest =>
            cases h
            exact SyncMove.deleted i rest hstage
        | _ => cases h
    | answers =>
        cases stage with
        | listed rest =>
            cases rest with
            | nil =>
                cases h
                exact SyncMove.ended hstage
            | cons i rest =>
                have hlisted : (if i ∈ j.run.deliveredInstructions then _ else _) = some j' := h
                split at hlisted
                · rename_i hmem
                  cases hlisted
                  exact SyncMove.skipped i rest hstage hmem
                · rename_i hnew
                  cases hlisted
                  exact SyncMove.takenUp i rest hstage hnew
        | reporting i rest =>
            cases h
            exact SyncMove.reported i rest hstage
        | sent i rest =>
            cases h
            exact SyncMove.marked i rest hstage
        | _ => cases h
    | fails =>
        cases stage with
        | sent i rest =>
            cases h
            exact SyncMove.answerLost i rest hstage
        | finished => cases h
        | failed => cases h
        | unanswered i => cases h
        | _ =>
            cases h
            apply SyncMove.failed _ hstage rfl
            intro i rest heq
            cases heq

/-- What a sync leaves alone: everything but its own list, the marks of the run and
the turns that wait. -/
structure SyncFrame (j j' : Job) : Prop where
  claim : j'.claim = j.claim
  taken : j'.taken = j.taken
  preparationRenewTimer : j'.preparationRenewTimer = j.preparationRenewTimer
  finish : j'.finish = j.finish
  retries : j'.retries = j.retries
  renewTimer : j'.run.renewTimer = j.run.renewTimer
  finishing : j'.run.finishing = j.run.finishing
  flushTimer : j'.run.flushTimer = j.run.flushTimer
  current : j'.thread.current = j.thread.current
  ended : j'.thread.ended = j.thread.ended
  undelivered : j'.thread.undelivered = j.thread.undelivered
  waiting : exists turns, j'.thread.waiting = j.thread.waiting ++ turns

theorem SyncMove.frame {k : Nat} {event : Job.SyncEvent} (h : SyncMove j k event j') :
    SyncFrame j j' := by
  have hkept : exists turns, j.thread.waiting = j.thread.waiting ++ turns :=
    ⟨[], (List.append_nil _).symm⟩
  cases h with
  | sent i rest h =>
      exact ⟨rfl, rfl, rfl, rfl, rfl, rfl, rfl, rfl, rfl, rfl, rfl, ⟨[.instruction i], rfl⟩⟩
  | _ => exact ⟨rfl, rfl, rfl, rfl, rfl, rfl, rfl, rfl, rfl, rfl, rfl, hkept⟩

theorem finishResumes_cases (h : j.finishResumes = some j') :
    exists k status stage, j.finish = .syncing k status ∧
      j.syncs[k]? = some stage ∧
      ((stage.hasFailed = true ∧
          j' =
            { j with
              finish := .idle
              run := { j.run with finishing := false }
              retries := j.retries ++ [status] }) ∨
        (stage = .finished ∧ j.run.continuationExpected = true ∧
          j' =
            { j with
              finish := .idle
              run := { j.run with finishing := false } }) ∨
        (stage = .finished ∧ j.run.continuationExpected = false ∧
          j' =
            { j with
              finish := .flushing status
              run := { j.run with renewTimer := false, flushTimer := false } })) := by
  unfold Job.finishResumes at h
  split at h
  · rename_i k status hfinish
    split at h
    · cases h
    · rename_i stage hstage
      refine ⟨k, status, stage, hfinish, hstage, ?_⟩
      split at h
      · rename_i hfailed
        cases h
        exact .inl ⟨hfailed, rfl⟩
      · split at h
        · rename_i hfinished
          split at h
          · rename_i hflag
            cases h
            exact .inr (.inl ⟨hfinished, hflag, rfl⟩)
          · rename_i hflag
            cases h
            exact .inr (.inr ⟨hfinished, Bool.eq_false_iff.mpr hflag, rfl⟩)
        · cases h
  · cases h

/-- `finishRun` is past its check for follow-ups and before its `finally`. -/
def FinishStage.decided : FinishStage -> Bool
  | .flushing _ => true
  | .publishing => true
  | .reporting => true
  | .reportingFailure => true
  | _ => false

variable {succeeds : Bool}

theorem finishProceeds_cases (h : j.finishProceeds succeeds = some j') :
    exists stage, j.finish.decided = true ∧ stage.decided = true ∧
      j' = { j with finish := stage } := by
  unfold Job.finishProceeds at h
  split at h
  · rename_i hfinish
    split at h <;> cases h <;> exact ⟨_, by rw [hfinish]; rfl, rfl, rfl⟩
  · rename_i hfinish
    split at h <;> cases h <;> exact ⟨_, by rw [hfinish]; rfl, rfl, rfl⟩
  · rename_i hfinish
    split at h
    · cases h
    · cases h
      exact ⟨_, by rw [hfinish]; rfl, rfl, rfl⟩
  · cases h

theorem closes_cases (h : j.closes succeeds = some j') :
    j.finish.decided = true ∧ j' = { j with finish := .deletingThread } := by
  unfold Job.closes at h
  split at h
  · rename_i hfinish
    split at h
    · cases h
      exact ⟨by rw [hfinish]; rfl, rfl⟩
    · cases h
  · rename_i hfinish
    cases h
    exact ⟨by rw [hfinish]; rfl, rfl⟩
  · cases h

theorem threadDeleted_cases (h : j.threadDeleted succeeds = some j') :
    j.finish = .deletingThread ∧
      (j' = { j with finish := .idle } ∨
        exists thread, j.thread.delete = some thread ∧
          j' = { j with finish := .idle, thread := thread }) := by
  unfold Job.threadDeleted at h
  split at h
  · rename_i hfinish
    refine ⟨hfinish, ?_⟩
    split at h
    · rcases Option.map_eq_some_iff.mp h with ⟨thread, hthread, hj⟩
      exact .inr ⟨thread, hthread, hj.symm⟩
    · cases h
      exact .inl rfl
  · cases h

variable {c : Context}

theorem retryFires_cases {n : Nat} (h : j.retryFires c n = some j') :
    exists status, j.retries[n]? = some status ∧
      (((c.disposed = true ∨ c.inActive = false ∨ j.run.finishing = true) ∧
          j' = { j with retries := j.retries.eraseIdx n }) ∨
        (c.disposed = false ∧ c.inActive = true ∧ j.run.finishing = false ∧
          j' = Job.finishRun false status { j with retries := j.retries.eraseIdx n })) := by
  unfold Job.retryFires at h
  split at h
  · cases h
  · rename_i status hstatus
    refine ⟨status, hstatus, ?_⟩
    split at h
    · rename_i hdropped
      cases h
      simp only [Bool.or_eq_true, Bool.not_eq_true'] at hdropped
      exact .inl ⟨or_assoc.mp hdropped, rfl⟩
    · rename_i hfires
      simp only [Bool.or_eq_true, Bool.not_eq_true', not_or, Bool.not_eq_false,
        Bool.not_eq_true] at hfires
      cases h
      rcases hfires with ⟨⟨hdisposed, hactive⟩, hfinishing⟩
      rw [hdisposed]
      exact .inr ⟨rfl, hactive, hfinishing, rfl⟩

theorem statusArrives_cases (h : j.statusArrives c = some j') :
    exists status rest, j.thread.undelivered = status :: rest ∧ c.disposed = false ∧
      (((c.registered = false ∨ j.run.finishing = true ∨
            (isSettled status = false ∧
              (status ≠ .running ∨ j.run.continuationExpected = false))) ∧
          j' = { j with thread := { j.thread with undelivered := rest } }) ∨
        (c.registered = true ∧ j.run.finishing = false ∧ isSettled status = true ∧
          j' =
            Job.finishRun false status
              { j with thread := { j.thread with undelivered := rest } }) ∨
        (c.registered = true ∧ j.run.finishing = false ∧ status = .running ∧
          j.run.continuationExpected = true ∧
          j' =
            { j with
              thread := { j.thread with undelivered := rest }
              run := { j.run with continuationExpected := false } })) := by
  unfold Job.statusArrives at h
  split at h
  · cases h
  · rename_i status rest hundelivered
    split at h
    · cases h
    · rename_i hlistening
      have hdisposed : c.disposed = false := Bool.eq_false_iff.mpr hlistening
      refine ⟨status, rest, hundelivered, hdisposed, ?_⟩
      have hj := Option.some.inj h
      unfold Job.onThreadUpdated at hj
      split at hj
      · rename_i hdropped
        simp only [Bool.or_eq_true, Bool.not_eq_true'] at hdropped
        rcases hdropped with hunregistered | hfinishing
        · exact .inl ⟨.inl hunregistered, hj.symm⟩
        · exact .inl ⟨.inr (.inl hfinishing), hj.symm⟩
      · rename_i hheard
        simp only [Bool.or_eq_true, Bool.not_eq_true', not_or, Bool.not_eq_false,
          Bool.not_eq_true] at hheard
        rcases hheard with ⟨hregistered, hfinishing⟩
        split at hj
        · rename_i hsettled
          rw [hdisposed] at hj
          exact .inr (.inl ⟨hregistered, hfinishing, hsettled, hj.symm⟩)
        · rename_i hunsettled
          have hsettled := Bool.eq_false_iff.mpr hunsettled
          split at hj
          · rename_i hrunning
            exact .inr (.inr ⟨hregistered, hfinishing, hrunning.left, hrunning.right, hj.symm⟩)
          · rename_i hother
            refine .inl ⟨.inr (.inr ⟨hsettled, ?_⟩), hj.symm⟩
            by_cases hrunning : status = .running
            · exact .inr (Bool.eq_false_iff.mpr (fun hflag => hother ⟨hrunning, hflag⟩))
            · exact .inl hrunning

theorem streams_cases (h : j.streams c = some j') :
    c.disposed = false ∧ j.thread.live = true ∧
      (j' = j ∨
        (c.registered = true ∧ j' = { j with run := { j.run with flushTimer := true } })) := by
  unfold Job.streams at h
  split at h
  · cases h
  · rename_i hheard
    simp only [Bool.or_eq_true, Bool.not_eq_true', not_or, Bool.not_eq_false,
      Bool.not_eq_true] at hheard
    refine ⟨hheard.left, hheard.right, ?_⟩
    split at h
    · rename_i hregistered
      cases h
      exact .inr ⟨hregistered, rfl⟩
    · cases h
      exact .inl rfl

theorem live_iff (t : LocalThread) :
    t.live = true <->
      t.waiting ≠ [] ∨ t.current ≠ none ∨ t.undelivered ≠ [] := by
  unfold LocalThread.live
  rw [Bool.or_eq_true, Bool.or_eq_true, Bool.not_eq_true', Bool.not_eq_true',
    List.isEmpty_eq_false_iff, List.isEmpty_eq_false_iff, Option.isSome_iff_ne_none,
    or_assoc]

theorem SyncFrame.live (h : SyncFrame j j') (hlive : j.thread.live = true) :
    j'.thread.live = true := by
  rcases h.waiting with ⟨turns, hwaiting⟩
  rw [live_iff] at hlive ⊢
  rw [hwaiting, h.current, h.undelivered]
  rcases hlive with hlive | hlive | hlive
  · exact .inl (fun hnil => hlive (List.append_eq_nil_iff.mp hnil).left)
  · exact .inr (.inl hlive)
  · exact .inr (.inr hlive)

variable {t t' : LocalThread}

theorem startTurn_cases (h : t.startTurn = some t') :
    exists turn rest, t.current = none ∧ t.waiting = turn :: rest ∧
      t' =
        { t with
          waiting := rest
          current := some turn
          undelivered := t.undelivered ++ [.running] } := by
  unfold LocalThread.startTurn at h
  split at h
  · rename_i turn rest hcurrent hwaiting
    cases h
    exact ⟨turn, rest, hcurrent, hwaiting, rfl⟩
  · cases h

theorem endTurn_cases {status : TaskStatus} (h : t.endTurn status = some t') :
    exists turn, t.current = some turn ∧ isSettled status = true ∧
      t' =
        { t with
          current := none
          ended := t.ended ++ [turn]
          undelivered := t.undelivered ++ [status] } := by
  unfold LocalThread.endTurn at h
  split at h
  · rename_i turn hcurrent
    split at h
    · rename_i hsettled
      cases h
      exact ⟨turn, hcurrent, hsettled, rfl⟩
    · cases h
  · cases h

theorem flushFires_cases (h : j.flushFires = some j') :
    j' = { j with run := { j.run with flushTimer := false } } := by
  unfold Job.flushFires at h
  split at h
  · cases h
    rfl
  · cases h

theorem turnStarts_cases (h : j.step c .turnStarts = some j') :
    exists thread, j.thread.startTurn = some thread ∧ j' = { j with thread := thread } := by
  rcases Option.map_eq_some_iff.mp h with ⟨thread, hthread, hj⟩
  exact ⟨thread, hthread, hj.symm⟩

theorem turnEnds_cases {status : TaskStatus} (h : j.step c (.turnEnds status) = some j') :
    exists thread, j.thread.endTurn status = some thread ∧
      j' = { j with thread := thread } := by
  rcases Option.map_eq_some_iff.mp h with ⟨thread, hthread, hj⟩
  exact ⟨thread, hthread, hj.symm⟩

theorem enqueues_cases {instruction : String} (h : j.step c (.enqueues instruction) = some j') :
    j' = { j with queue := j.queue ++ [instruction] } := by
  simp only [Job.step] at h
  split at h
  · cases h
  · cases h
    rfl

theorem delete_cases (h : t.delete = some t') :
    t.current = none ∧ t' = { t with waiting := [], deleted := true } := by
  unfold LocalThread.delete at h
  split at h
  · cases h
  · rename_i hcurrent
    cases h
    exact ⟨hcurrent, rfl⟩

/-!
## Frames

Only a claim event changes the claim, and only a sync sends, marks and deletes.
-/

variable {a : Job.Action}

theorem step_claim (h : j.step c a = some j') :
    (j'.claim = j.claim ∧ j'.taken = j.taken) ∨ exists event, ClaimMove j event j' := by
  cases a with
  | claim event => exact .inr ⟨event, claimStep_cases h⟩
  | sync k event => cases syncStep_cases h <;> exact .inl ⟨rfl, rfl⟩
  | finishResumes =>
      rcases finishResumes_cases h with
        ⟨_, _, _, _, _, ⟨_, hj⟩ | ⟨_, _, hj⟩ | ⟨_, _, hj⟩⟩ <;>
      · rw [hj]
        exact .inl ⟨rfl, rfl⟩
  | finishProceeds succeeds =>
      rcases finishProceeds_cases h with ⟨_, _, _, hj⟩
      rw [hj]
      exact .inl ⟨rfl, rfl⟩
  | threadDeleted succeeds =>
      rcases threadDeleted_cases h with ⟨_, hj | ⟨_, _, hj⟩⟩ <;>
      · rw [hj]
        exact .inl ⟨rfl, rfl⟩
  | retryFires n =>
      rcases retryFires_cases h with ⟨_, _, ⟨_, hj⟩ | ⟨_, _, _, hj⟩⟩ <;>
      · rw [hj]
        exact .inl ⟨rfl, rfl⟩
  | statusArrives =>
      rcases statusArrives_cases h with
        ⟨_, _, _, _, ⟨_, hj⟩ | ⟨_, _, _, hj⟩ | ⟨_, _, _, _, hj⟩⟩ <;>
      · rw [hj]
        exact .inl ⟨rfl, rfl⟩
  | streams =>
      rcases streams_cases h with ⟨_, _, hj | ⟨_, hj⟩⟩ <;>
      · rw [hj]
        exact .inl ⟨rfl, rfl⟩
  | flushFires =>
      rw [flushFires_cases h]
      exact .inl ⟨rfl, rfl⟩
  | turnStarts =>
      rcases turnStarts_cases h with ⟨_, _, hj⟩
      rw [hj]
      exact .inl ⟨rfl, rfl⟩
  | turnEnds status =>
      rcases turnEnds_cases h with ⟨_, _, hj⟩
      rw [hj]
      exact .inl ⟨rfl, rfl⟩
  | enqueues instruction =>
      rw [enqueues_cases h]
      exact .inl ⟨rfl, rfl⟩

/-- What every step but those of a sync leaves alone; a sync may be added. -/
structure SendFrame (j j' : Job) : Prop where
  sends : j'.sends = j.sends
  acknowledged : j'.acknowledged = j.acknowledged
  delivered : j'.run.deliveredInstructions = j.run.deliveredInstructions
  syncs : j'.syncs = j.syncs ∨
    exists stage, j'.syncs = j.syncs ++ [stage] ∧
      (stage = .listing ∨ stage = .finished)

theorem sendFrame_syncInstructions (disposed : Bool) (j : Job) :
    SendFrame j (j.syncInstructions disposed) := by
  refine ⟨rfl, rfl, rfl, .inr ⟨_, rfl, ?_⟩⟩
  cases disposed with
  | false => exact .inl rfl
  | true => exact .inr rfl

theorem step_sends (h : j.step c a = some j') :
    SendFrame j j' ∨
      exists k event, a = .sync k event ∧ SyncMove j k event j' := by
  cases a with
  | sync k event => exact .inr ⟨k, event, rfl, syncStep_cases h⟩
  | claim event =>
      cases claimStep_cases h <;> exact .inl ⟨rfl, rfl, rfl, .inl rfl⟩
  | finishResumes =>
      rcases finishResumes_cases h with
        ⟨_, _, _, _, _, ⟨_, hj⟩ | ⟨_, _, hj⟩ | ⟨_, _, hj⟩⟩ <;>
      · rw [hj]
        exact .inl ⟨rfl, rfl, rfl, .inl rfl⟩
  | finishProceeds succeeds =>
      rcases finishProceeds_cases h with ⟨_, _, _, hj⟩
      rw [hj]
      exact .inl ⟨rfl, rfl, rfl, .inl rfl⟩
  | threadDeleted succeeds =>
      rcases threadDeleted_cases h with ⟨_, hj | ⟨_, _, hj⟩⟩ <;>
      · rw [hj]
        exact .inl ⟨rfl, rfl, rfl, .inl rfl⟩
  | retryFires n =>
      rcases retryFires_cases h with ⟨status, _, ⟨_, hj⟩ | ⟨_, _, _, hj⟩⟩
      · rw [hj]
        exact .inl ⟨rfl, rfl, rfl, .inl rfl⟩
      · rw [hj]
        exact .inl ⟨rfl, rfl, rfl, .inr ⟨_, rfl, .inl rfl⟩⟩
  | statusArrives =>
      rcases statusArrives_cases h with
        ⟨status, rest, _, _, ⟨_, hj⟩ | ⟨_, _, _, hj⟩ | ⟨_, _, _, _, hj⟩⟩
      · rw [hj]
        exact .inl ⟨rfl, rfl, rfl, .inl rfl⟩
      · rw [hj]
        exact .inl ⟨rfl, rfl, rfl, .inr ⟨_, rfl, .inl rfl⟩⟩
      · rw [hj]
        exact .inl ⟨rfl, rfl, rfl, .inl rfl⟩
  | streams =>
      rcases streams_cases h with ⟨_, _, hj | ⟨_, hj⟩⟩ <;>
      · rw [hj]
        exact .inl ⟨rfl, rfl, rfl, .inl rfl⟩
  | flushFires =>
      rw [flushFires_cases h]
      exact .inl ⟨rfl, rfl, rfl, .inl rfl⟩
  | turnStarts =>
      rcases turnStarts_cases h with ⟨_, _, hj⟩
      rw [hj]
      exact .inl ⟨rfl, rfl, rfl, .inl rfl⟩
  | turnEnds status =>
      rcases turnEnds_cases h with ⟨_, _, hj⟩
      rw [hj]
      exact .inl ⟨rfl, rfl, rfl, .inl rfl⟩
  | enqueues instruction =>
      rw [enqueues_cases h]
      exact .inl ⟨rfl, rfl, rfl, .inl rfl⟩

theorem idle_of_step (h : j.step c a = some j')
    (hidle : j.claim = .idle) : j'.claim = .idle ∧ j'.taken = j.taken := by
  rcases step_claim h with ⟨hclaim, htaken⟩ | ⟨event, hmove⟩
  · exact ⟨hclaim.trans hidle, htaken⟩
  · cases hmove <;> simp_all

end Worker
end Perpetual
