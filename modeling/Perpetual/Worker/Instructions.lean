import Perpetual.Foundation.Cells
import Perpetual.Worker.Registration

/-!
# Sending a follow-up once

Two syncs of one run can be under way at a time: the one of a poll and the one of
`finishRun`, or one that an ended poll has left behind.  A follow-up is marked only
when the answer to its send is in.  In every run in which a sync takes up an
unmarked follow-up only while no other sync of the run has it in hand or has lost
the answer to its send, the local thread gets it at most once.
-/

namespace Perpetual
namespace Worker

open Foundation

/-!
## Follow-ups in hand
-/

def SyncStage.isToSend (i : String) : SyncStage -> Bool
  | .reporting i' _ => decide (i' = i)
  | .sending i' _ => decide (i' = i)
  | _ => false

def SyncStage.isSent (i : String) : SyncStage -> Bool
  | .sent i' _ => decide (i' = i)
  | .unanswered i' => decide (i' = i)
  | _ => false

/-- No sync has the follow-up in hand or has lost the answer to its send. -/
def Job.Free (j : Job) (i : String) : Prop :=
  forall stage, stage ∈ j.syncs -> stage.isToSend i = false ∧ stage.isSent i = false

instance (j : Job) (i : String) : Decidable (j.Free i) :=
  inferInstanceAs (Decidable (forall stage, stage ∈ j.syncs -> _))

/-- The follow-up that a sync is about to take up. -/
def Job.next (j : Job) (k : Nat) : Option String :=
  match j.syncs[k]? with
  | some (.listed (i :: _)) =>
      if i ∈ j.run.deliveredInstructions then none else some i
  | _ => none

def OneHand (_c : Context) (j : Job) : Job.Action -> Prop
  | .sync k .answers =>
      forall i, i ∈ j.next k -> j.Free i
  | _ => True

instance (c : Context) (j : Job) (a : Job.Action) : Decidable (OneHand c j a) := by
  unfold OneHand
  split
  · infer_instance
  · infer_instance

def anyContext (_ : Context) : Prop := True

instance (c : Context) : Decidable (anyContext c) := inferInstanceAs (Decidable True)

/-!
## The count of sends
-/

/-- A follow-up that is about to be sent has not been sent, and one that was sent and
is not marked is still in the hands of the sync that has sent it. -/
structure SentOnce (i : String) (j : Job) : Prop where
  once : j.syncs.countP (SyncStage.isToSend i) + j.sends.count i ≤ 1
  backed : ¬ i ∈ j.run.deliveredInstructions ->
    j.sends.count i ≤ j.syncs.countP (SyncStage.isSent i)

variable {i : String} {j j' : Job}

theorem SentOnce.frame (h : SentOnce i j) (hframe : SendFrame j j') : SentOnce i j' := by
  have hcounts : j'.syncs.countP (SyncStage.isToSend i) =
        j.syncs.countP (SyncStage.isToSend i) ∧
      j'.syncs.countP (SyncStage.isSent i) = j.syncs.countP (SyncStage.isSent i) := by
    rcases hframe.syncs with hsame | ⟨stage, hnew, hlisting | hfinished⟩
    · rw [hsame]
      exact ⟨rfl, rfl⟩
    · rw [hnew, hlisting, List.countP_append, List.countP_append]
      exact ⟨rfl, rfl⟩
    · rw [hnew, hfinished, List.countP_append, List.countP_append]
      exact ⟨rfl, rfl⟩
  constructor
  · rw [hcounts.left, hframe.sends]
    exact h.once
  · rw [hcounts.right, hframe.sends, hframe.delivered]
    exact h.backed

variable {k : Nat}

theorem SentOnce.setSync {stage stage' : SyncStage}
    (h : SentOnce i j) (hstage : j.syncs[k]? = some stage)
    (htoSend : stage'.isToSend i = true -> stage.isToSend i = true)
    (hsent : stage.isSent i = true -> stage'.isSent i = true) :
    SentOnce i (j.setSync k stage') where
  once := by
    have hle := Cells.countP_set_le hstage htoSend
    exact Nat.le_trans (Nat.add_le_add_right hle _) h.once
  backed := by
    intro hunmarked
    exact Nat.le_trans (h.backed hunmarked) (Cells.countP_le_set hstage hsent)

variable {i' : String} {rest : List String}

theorem SentOnce.takenUp (h : SentOnce i j) (hstage : j.syncs[k]? = some (.listed (i' :: rest)))
    (hnew : ¬ i' ∈ j.run.deliveredInstructions) (hfree : j.Free i') :
    SentOnce i (j.setSync k (.reporting i' rest)) := by
  by_cases heq : i' = i
  · rw [heq] at hnew hfree
    have htoSend : j.syncs.countP (SyncStage.isToSend i) = 0 := by
      rw [List.countP_eq_zero]
      intro stage hmem
      simp [(hfree stage hmem).left]
    have hsent : j.syncs.countP (SyncStage.isSent i) = 0 := by
      rw [List.countP_eq_zero]
      intro stage hmem
      simp [(hfree stage hmem).right]
    have hsends : j.sends.count i = 0 := by
      have hbacked := h.backed hnew
      omega
    have hcount := Cells.countP_set_add (SyncStage.isToSend i) hstage (.reporting i' rest)
    constructor
    · show (j.syncs.set k _).countP _ + j.sends.count i ≤ 1
      simp only [SyncStage.isToSend, heq, decide_true, if_true, Bool.false_eq_true,
        if_false] at hcount ⊢
      omega
    · intro _
      show j.sends.count i ≤ _
      omega
  · apply h.setSync hstage
    · simp [SyncStage.isToSend, heq]
    · simp [SyncStage.isSent]

theorem SentOnce.sent {thread : LocalThread} (h : SentOnce i j)
    (hstage : j.syncs[k]? = some (.sending i' rest)) :
    SentOnce i
      { j.setSync k (.sent i' rest) with
        thread := thread
        sends := j.sends ++ [i'] } := by
  have htoSend := Cells.countP_set_add (SyncStage.isToSend i) hstage (.sent i' rest)
  have hsent := Cells.countP_set_add (SyncStage.isSent i) hstage (.sent i' rest)
  have honce := h.once
  have hcount : (j.sends ++ [i']).count i = j.sends.count i + (if i' = i then 1 else 0) := by
    rw [List.count_append, List.count_singleton]
    simp
  simp only [SyncStage.isToSend, SyncStage.isSent, decide_eq_true_eq,
    Bool.false_eq_true, if_false] at htoSend hsent
  constructor
  · show (j.syncs.set k _).countP _ + (j.sends ++ [i']).count i ≤ 1
    omega
  · intro hunmarked
    have hbacked := h.backed hunmarked
    show (j.sends ++ [i']).count i ≤ (j.syncs.set k _).countP _
    omega

theorem SentOnce.marked (h : SentOnce i j) (hstage : j.syncs[k]? = some (.sent i' rest)) :
    SentOnce i
      { j.setSync k (.deleting i' rest) with
        run :=
          { j.run with
            deliveredInstructions := j.run.deliveredInstructions ++ [i']
            continuationExpected := true } } where
  once := by
    have hle :
        (j.syncs.set k (.deleting i' rest)).countP (SyncStage.isToSend i) ≤
          j.syncs.countP (SyncStage.isToSend i) :=
      Cells.countP_set_le hstage (by simp [SyncStage.isToSend])
    exact Nat.le_trans (Nat.add_le_add_right hle _) h.once
  backed := by
    intro hunmarked
    have hunmarked' : ¬ i ∈ j.run.deliveredInstructions ++ [i'] := hunmarked
    rw [List.mem_append, List.mem_singleton, not_or] at hunmarked'
    have hle : j.syncs.countP (SyncStage.isSent i) ≤
        (j.syncs.set k (.deleting i' rest)).countP (SyncStage.isSent i) := by
      apply Cells.countP_le_set hstage
      intro hsent
      exact absurd (of_decide_eq_true hsent).symm hunmarked'.right
    exact Nat.le_trans (h.backed hunmarked'.left) hle

theorem SentOnce.sync {c : Context} {event : Job.SyncEvent} (h : SentOnce i j)
    (hok : OneHand c j (.sync k event)) (hmove : SyncMove j k event j') :
    SentOnce i j' := by
  cases hmove with
  | listed hstage =>
      exact h.setSync hstage (by simp [SyncStage.isToSend]) (by simp [SyncStage.isSent])
  | ended hstage =>
      exact h.setSync hstage (by simp [SyncStage.isToSend]) (by simp [SyncStage.isSent])
  | skipped i' rest hstage hmem =>
      exact h.setSync hstage (by simp [SyncStage.isToSend]) (by simp [SyncStage.isSent])
  | takenUp i' rest hstage hnew =>
      have hnext : j.next k = some i' := by
        unfold Job.next
        rw [hstage]
        exact if_neg hnew
      exact h.takenUp hstage hnew (hok i' hnext)
  | reported i' rest hstage =>
      exact h.setSync hstage (fun hhand => hhand) (by simp [SyncStage.isSent])
  | sent i' rest hstage => exact h.sent hstage
  | marked i' rest hstage => exact h.marked hstage
  | deleted i' rest hstage =>
      have hset : SentOnce i (j.setSync k (.listed rest)) :=
        h.setSync hstage (by simp [SyncStage.isToSend]) (by simp [SyncStage.isSent])
      exact ⟨hset.once, hset.backed⟩
  | failed stage hstage hfailed hother =>
      apply h.setSync hstage
      · simp [SyncStage.isToSend]
      · intro hsent
        cases stage with
        | sent i' rest => exact absurd rfl (hother i' rest)
        | unanswered i' => cases hfailed
        | _ => cases hsent
  | answerLost i' rest hstage =>
      exact h.setSync hstage (by simp [SyncStage.isToSend]) (fun hsent => hsent)

structure SendView (c : Context) (j : Job) : Prop where
  fresh : Fresh c j
  once : forall i, SentOnce i j

theorem SendView.move {c c' : Context} (h : SendView c j)
    (hmove : Move OneHand anyContext c j c' j') : SendView c' j' := by
  refine ⟨fresh_move h.fresh hmove, fun i => ?_⟩
  cases hmove with
  | stays => exact h.once i
  | acts a j' hok hstep =>
      rcases step_sends hstep with hframe | ⟨k, event, ha, hsync⟩
      · exact (h.once i).frame hframe
      · rw [ha] at hok
        exact (h.once i).sync hok hsync
  | claims hclaim htaken hactive => exact ⟨(h.once i).once, (h.once i).backed⟩
  | syncs hactive => exact (h.once i).frame (sendFrame_syncInstructions _ _)
  | registers hok hclaim =>
      -- the new run has no marks, and nothing was sent for an older one
      have huntouched := h.fresh.untouched (.inr (.inr hclaim))
      constructor
      · exact (h.once i).once
      · intro _
        show j.sends.count i ≤ _
        rw [huntouched.sends]
        exact Nat.zero_le _
  | closes hfinish => exact ⟨(h.once i).once, (h.once i).backed⟩
  | disposes hactive => exact ⟨(h.once i).once, (h.once i).backed⟩
  | bystands hactive => exact h.once i

theorem sendView_new : SendView Context.new Job.new where
  fresh := fresh_new
  once := fun _ => ⟨Nat.zero_le _, fun _ => Nat.zero_le _⟩

/-- Every follow-up reaches the local thread of a run at most once. -/
theorem instruction_sent_once {w : World}
    (h : machine.ReachableUnder (Under OneHand anyContext) w) (id i : String) :
    (w.jobs id).sends.count i ≤ 1 := by
  have hview : SendView (w.context id) (w.jobs id) :=
    invariant_of_moves (P := SendView) sendView_new (fun _ _ _ _ h hmove => h.move hmove)
      h id
  exact Nat.le_trans (Nat.le_add_left _ _) (hview.once i).once

/-- A follow-up is queued and the sync of the poll takes it up. -/
def takenUpByPoll : List Action :=
  [.job "a" (.enqueues "m"), .pollSyncs, syncServes 0,
    syncAnswers 0]

/-- A sync goes on from a follow-up it has taken up to its send. -/
def reportedAndSent (k : Nat) : List Action := [syncAnswers k, syncServes k]

theorem instruction_sent_once_delivered :
    exists w, machine.ReachableUnder (Under OneHand anyContext) w ∧
      (w.jobs "a").acknowledged = ["m"] ∧ (w.jobs "a").sends.count "m" ≤ 1 := by
  have hrun : Option.any
      (fun w => decide ((w.jobs "a").acknowledged = ["m"]))
      (machine.runUnder (Under OneHand anyContext) World.new
        (startedRun ++ takenUpByPoll ++ reportedAndSent 0 ++
          [syncAnswers 0, syncServes 0])) = true := by
    decide +kernel
  rcases Machine.exists_reachable_of_runUnder _ rfl hrun with ⟨w, hw, hacknowledged⟩
  exact ⟨w, hw, of_decide_eq_true hacknowledged, instruction_sent_once hw "a" "m"⟩

/-- The turn ends in a review while the poll has the follow-up in hand, and the sync
of `finishRun` takes it up as well. -/
def takenUpTwice : List Action :=
  takenUpByPoll ++
    [.job "a" (.turnEnds .review),
      .job "a" .statusArrives, syncServes 1, syncAnswers 1]

theorem instruction_sent_twice :
    ¬ (forall w id i, machine.Reachable w -> (w.jobs id).sends.count i ≤ 1) := by
  intro hclaim
  have hrun : Option.any (fun w => decide ((w.jobs "a").sends = ["m", "m"]))
      (machine.runFrom World.new
        (startedRun ++ takenUpTwice ++ reportedAndSent 0 ++ reportedAndSent 1)) =
        true := by
    decide +kernel
  rcases Machine.exists_reachable_of_runFrom _ rfl hrun with ⟨w, hw, hsends⟩
  have htwice := hclaim w "a" "m" hw
  rw [of_decide_eq_true hsends] at htwice
  have hcount : List.count "m" ["m", "m"] = 2 := by decide
  omega

end Worker
end Perpetual
