import Perpetual.Fallback.SwitchBack
import Perpetual.Scheduler.StartAttempts

/-!
# Assigned threads in the thread phases

A thread that is assigned to a device is queued until the device claims it, which
is the status that makes the scheduler start it here.  The start is refused, and the
refusal is taken for an error that is not worth a retry, so that the thread is
paused.  A tick leaves the assigned threads alone exactly when none of its phases
takes one of them up with an effect.
-/

namespace Perpetual
namespace Scheduler

open Foundation
open Collaboration
open Collaboration (Store Assignment ActiveThread listLimit)

/-!
## A phase
-/

/-- Every attempt on the thread is spared, as the tick stands before it. -/
def SparesAll (w : TickWorld) (thread : String) : List Attempt -> Prop
  | [] => True
  | x :: rest => (x.id = thread -> Spared w x) ∧ SparesAll (x.run w) thread rest

theorem runAttempts_fades (w : TickWorld) (attempts : List Attempt) :
    Fades w.store (runAttempts w attempts).store := by
  induction attempts generalizing w with
  | nil => exact Fades.refl _
  | cons x rest ih => exact (attempt_fades w x).trans (ih (x.run w))

variable {w : TickWorld} {attempts : List Attempt} {thread : String}

theorem runAttempts_spared (hids : Table.UniqueKey Assignment.id w.store.assignments)
    (hkept : KeptIn w.store (runAttempts w attempts).store thread)
    (hspares : SparesAll w thread attempts) :
    (runAttempts w attempts).statusOf thread = w.statusOf thread := by
  induction attempts generalizing w with
  | nil => rfl
  | cons x rest ih =>
      have hfades := attempt_fades w x
      rcases hkept.split hfades (runAttempts_fades (x.run w) rest) with ⟨hfirst, hrest⟩
      have hrun := ih (hfades.ids hids) hrest hspares.right
      have hone : (x.run w).statusOf thread = w.statusOf thread := by
        by_cases heq : x.id = thread
        · rw [← heq] at hfirst ⊢
          exact attempt_spared hids hfirst (hspares.left heq)
        · exact attempt_other hids hfirst (Ne.symm heq)
      exact hrun.trans hone

variable {status : TaskStatus}

theorem runAttempts_stores (hids : Table.UniqueKey Assignment.id w.store.assignments)
    (hlisted : AllListed w.store) (hactive : ActiveThread w.store thread)
    (hkept : KeptIn w.store (runAttempts w attempts).store thread)
    (hstores : forall x, x ∈ attempts -> x.stores = status)
    (hspares : ¬ SparesAll w thread attempts) :
    (runAttempts w attempts).statusOf thread =
      (w.statusOf thread).map (fun _ => status) := by
  induction attempts generalizing w with
  | nil => exact absurd trivial hspares
  | cons x rest ih =>
      have hfades := attempt_fades w x
      rcases hkept.split hfades (runAttempts_fades (x.run w) rest) with ⟨hfirst, hrest⟩
      have hids' := hfades.ids hids
      have hstep : (x.run w).statusOf thread = w.statusOf thread ∨
          (x.run w).statusOf thread = (w.statusOf thread).map (fun _ => status) := by
        by_cases heq : x.id = thread
        · by_cases hspared : Spared w x
          · left
            rw [← heq] at hfirst ⊢
            exact attempt_spared hids hfirst hspared
          · right
            rw [← heq] at hfirst hactive ⊢
            rw [← hstores x List.mem_cons_self]
            exact attempt_stores hids hlisted hactive hfirst hspared
        · exact .inl (attempt_other hids hfirst (Ne.symm heq))
      by_cases hrestSpares : SparesAll (x.run w) thread rest
      · have hnot : ¬ (x.id = thread -> Spared w x) :=
          fun h => hspares ⟨h, hrestSpares⟩
        rw [Classical.not_imp] at hnot
        rcases hnot with ⟨heq, hspared⟩
        have hrun : (runAttempts (x.run w) rest).statusOf thread =
            (x.run w).statusOf thread := runAttempts_spared hids' hrest hrestSpares
        have hone : (x.run w).statusOf thread = (w.statusOf thread).map (fun _ => status) := by
          rw [← heq] at hfirst hactive ⊢
          rw [← hstores x List.mem_cons_self]
          exact attempt_stores hids hlisted hactive hfirst hspared
        exact hrun.trans hone
      · have hrun : (runAttempts (x.run w) rest).statusOf thread =
            ((x.run w).statusOf thread).map (fun _ => status) :=
          ih hids' (hlisted.fades hfades) (hfirst.activeThread hactive) hrest
            (fun y hy => hstores y (List.mem_cons_of_mem _ hy)) hrestSpares
        show (runAttempts (x.run w) rest).statusOf thread = _
        rw [hrun]
        rcases hstep with hsame | hstored
        · rw [hsame]
        · rw [hstored, Option.map_map]
          rfl

theorem attempt_threadIds (w : TickWorld) (x : Attempt) :
    (x.run w).threads.map ThreadRow.id = w.threads.map ThreadRow.id := by
  have hsave : forall (v : TickWorld) id now f,
      (v.save id now f).threads.map ThreadRow.id = v.threads.map ThreadRow.id :=
    fun v id now f => Table.map_updateWhere (f := ThreadRow.saved now f) (fun _ => rfl) _
  have hsweep : forall (now : Nat) (statements : List SweepStatement) (v : TickWorld),
      (statements.foldl (TickWorld.execute now) v).threads.map ThreadRow.id =
        v.threads.map ThreadRow.id := by
    intro now statements
    induction statements with
    | nil => exact fun _ => rfl
    | cons s rest ih =>
        intro v
        rw [List.foldl_cons, ih]
        cases s with
        | expire id => rfl
        | fail id => rfl
        | saveThread threadId => exact hsave v threadId now _
  have hrun : forall (v : TickWorld) id (a : StartAnswers),
      (runAgentThread v id a).1.threads.map ThreadRow.id = v.threads.map ThreadRow.id := by
    intro v id a
    have hexpire : (expireCollaborationLeases v a.now a.fault).1.threads.map ThreadRow.id =
        v.threads.map ThreadRow.id := hsweep a.now _ v
    unfold runAgentThread
    split
    · rename_i v' error heq
      rw [heq] at hexpire
      exact hexpire
    · rename_i v' _ heq
      rw [heq] at hexpire
      split
      · exact hexpire
      · exact (hsave v' id a.now _).trans hexpire
  cases x with
  | start listed agent a =>
      show (tryThreadSchedulerStart w listed agent a).threads.map ThreadRow.id = _
      unfold tryThreadSchedulerStart
      split
      · rfl
      · have hswitch : (recordSwitch w listed agent a).threads.map ThreadRow.id =
            w.threads.map ThreadRow.id := by
          unfold recordSwitch
          split
          · exact hsave w listed.id a.now _
          · rfl
        have hstart := hrun (recordSwitch w listed agent a) listed.id a
        split
        · rename_i w' _ heq
          rw [heq] at hstart
          exact hstart.trans hswitch
        · rename_i w' error heq
          rw [heq] at hstart
          unfold handleThreadSchedulerStartError
          split
          · exact hstart.trans hswitch
          · split
            · exact (hsave w' listed.id a.now _).trans (hstart.trans hswitch)
            · exact hstart.trans hswitch
  | resumeCloud id agent now b =>
      unfold Attempt.run
      dsimp only
      split
      · exact hsave w id now _
      · rfl
  | localFallback id agent now target a =>
      unfold Attempt.run
      dsimp only
      split
      · exact hsave w id now _
      · rfl

theorem runAttempts_threadIds (w : TickWorld) (attempts : List Attempt) :
    (runAttempts w attempts).threads.map ThreadRow.id = w.threads.map ThreadRow.id := by
  induction attempts generalizing w with
  | nil => rfl
  | cons x rest ih => exact (ih (x.run w)).trans (attempt_threadIds w x)

theorem uniqueKey_runAttempts (h : Table.UniqueKey ThreadRow.id w.threads)
    (attempts : List Attempt) : Table.UniqueKey ThreadRow.id (runAttempts w attempts).threads := by
  unfold Table.UniqueKey
  rw [runAttempts_threadIds]
  exact h

theorem statusOf_listed (h : Table.UniqueKey ThreadRow.id w.threads)
    {row : ThreadRow} (hrow : row ∈ w.listForStatus status) : w.statusOf row.id = some status := by
  have hmem := List.mem_of_mem_take hrow
  rw [List.mem_insertionSort, List.mem_filter] at hmem
  rcases hmem with ⟨hmem, hstatus⟩
  unfold TickWorld.statusOf
  cases hfound : w.threads.find? (fun r => r.id == row.id) with
  | none =>
      have hnone := List.find?_eq_none.mp hfound row hmem
      exact absurd (beq_self_eq_true row.id) hnone
  | some r =>
      have hid := List.find?_some hfound
      have hr := List.mem_of_find?_eq_some hfound
      rw [h.eq_of_key hr hmem (beq_iff_eq.mp hid)]
      exact congrArg some (beq_iff_eq.mp hstatus)

/-- The attempts of a phase are on threads of one status, and store one status. -/
def Phase (w : TickWorld) (attempts : List Attempt) (listed stored : TaskStatus) : Prop :=
  forall x, x ∈ attempts -> w.statusOf x.id = some listed ∧ x.stores = stored

theorem queued_phase (h : Table.UniqueKey ThreadRow.id w.threads) (a : QueuedAnswers) :
    Phase w (runThreadQueuedContinuations w a) .queued .paused := by
  intro x hx
  unfold runThreadQueuedContinuations at hx
  split at hx
  · rcases List.mem_filterMap.mp hx with ⟨row, hrow, hsome⟩
    rcases Option.map_eq_some_iff.mp hsome with ⟨agent, _, heq⟩
    rw [← heq]
    exact ⟨statusOf_listed h hrow, rfl⟩
  · cases hx

theorem networkAttempt_spec {a : NetworkAnswers} {stable : Bool} {row : ThreadRow}
    {x : Attempt} (h : networkAttempt a stable row = some x) :
    x.id = row.id ∧ x.stores = .queued := by
  unfold networkAttempt at h
  split at h
  · cases h
  · split at h
    · rcases Option.map_eq_some_iff.mp h with ⟨agent, _, heq⟩
      rw [← heq]
      exact ⟨rfl, rfl⟩
    · split at h
      · split at h
        · rw [← Option.some.inj h]
          exact ⟨rfl, rfl⟩
        · cases h
      · cases h

theorem network_phase (h : Table.UniqueKey ThreadRow.id w.threads) (a : NetworkAnswers) :
    Phase w (runThreadNetworkContinuations w a) .waitingForNetwork
      .queued := by
  intro x hx
  unfold runThreadNetworkContinuations at hx
  split at hx
  · rcases List.mem_filterMap.mp hx with ⟨row, hrow, hsome⟩
    rcases networkAttempt_spec hsome with ⟨hid, hstores⟩
    rw [hid]
    exact ⟨statusOf_listed h hrow, hstores⟩
  · cases hx

theorem reset_phase (h : Table.UniqueKey ThreadRow.id w.threads) (a : ResetAnswers) :
    Phase w (runThreadResetContinuations w a) .waitingForLimit
      .paused := by
  intro x hx
  unfold runThreadResetContinuations at hx
  split at hx
  · rcases List.mem_filterMap.mp hx with ⟨row, hrow, hsome⟩
    rcases Option.map_eq_some_iff.mp hsome with ⟨agent, _, heq⟩
    rw [← heq]
    exact ⟨statusOf_listed h hrow, rfl⟩
  · cases hx

theorem sparesAll_of_ne (h : forall x, x ∈ attempts -> x.id ≠ thread) :
    SparesAll w thread attempts := by
  induction attempts generalizing w with
  | nil => trivial
  | cons x rest ih =>
      exact ⟨fun heq => absurd heq (h x List.mem_cons_self),
        ih (fun y hy => h y (List.mem_cons_of_mem _ hy))⟩

theorem sparesAll_of_status {listed stored : TaskStatus}
    (hphase : Phase w attempts listed stored) (hstatus : w.statusOf thread = some status)
    (hne : status ≠ listed) : SparesAll w thread attempts := by
  apply sparesAll_of_ne
  intro x hx heq
  rw [← heq, (hphase x hx).left] at hstatus
  exact hne (Option.some.inj hstatus).symm

theorem phase_changes {listed stored : TaskStatus}
    (hids : Table.UniqueKey Assignment.id w.store.assignments) (hlisted : AllListed w.store)
    (hactive : ActiveThread w.store thread)
    (hkept : KeptIn w.store (runAttempts w attempts).store thread)
    (hphase : Phase w attempts listed stored) (hspares : ¬ SparesAll w thread attempts) :
    w.statusOf thread = some listed ∧
      (runAttempts w attempts).statusOf thread = some stored := by
  have hstatus : w.statusOf thread = some listed := by
    by_contra hnot
    apply hspares
    apply sparesAll_of_ne
    intro x hx heq
    rw [← heq] at hnot
    exact hnot (hphase x hx).left
  have hrun := runAttempts_stores hids hlisted hactive hkept
    (fun x hx => (hphase x hx).right) hspares
  rw [hstatus] at hrun
  exact ⟨hstatus, hrun⟩

/-- The thread is assigned, and the tick ends none of its assignments. -/
def KeepsAssignments (w w' : TickWorld) (thread : String) : Prop :=
  ActiveThread w.store thread ∧ KeptIn w.store w'.store thread

def LeavesAssignedAlone (w w' : TickWorld) : Prop :=
  forall thread, KeepsAssignments w w' thread -> w'.statusOf thread = w.statusOf thread

/-- No phase takes up, with an effect, a thread that keeps its assignments. -/
def SparesAssigned (w : TickWorld) (a : TickAnswers) : Prop :=
  forall thread, KeepsAssignments w (threadPhases w a) thread ->
    SparesAll w thread (runThreadQueuedContinuations w a.queued) ∧
      SparesAll (afterQueued w a) thread
        (runThreadNetworkContinuations (afterQueued w a) a.network) ∧
      SparesAll (afterNetwork w a) thread
        (runThreadResetContinuations (afterNetwork w a) a.reset)

section Tick

variable {hash : String -> String} {cw : Collaboration.World} {w : TickWorld}

/-- The threads that keep their assignments keep their statuses when no phase takes
them up with an effect, and only then as long as one listing holds all active
assignments. -/
theorem phases_leave_assigned_alone (hreach : (machine hash).Reachable cw)
    (hstore : w.store = cw.store) (hthreads : Table.UniqueKey ThreadRow.id w.threads)
    (a : TickAnswers) :
    (SparesAssigned w a -> LeavesAssignedAlone w (threadPhases w a)) ∧
      (w.store.assignments.countP (fun b => b.status.isActive) ≤ listLimit ->
        LeavesAssignedAlone w (threadPhases w a) -> SparesAssigned w a) := by
  have hfenced := reachable_fenced hreach
  rw [← hstore] at hfenced
  have hids := hfenced.ids
  have hfades1 : Fades w.store (afterQueued w a).store := runAttempts_fades w _
  have hfades2 : Fades (afterQueued w a).store (afterNetwork w a).store :=
    runAttempts_fades (afterQueued w a) _
  have hfades3 : Fades (afterNetwork w a).store (threadPhases w a).store :=
    runAttempts_fades (afterNetwork w a) _
  have hids1 := hfades1.ids hids
  have hids2 := hfades2.ids hids1
  constructor
  · intro hspares thread hkeeps
    rcases hspares thread hkeeps with ⟨hspares1, hspares2, hspares3⟩
    rcases hkeeps.right.split hfades1 (hfades2.trans hfades3) with ⟨hkept1, hkept⟩
    rcases hkept.split hfades2 hfades3 with ⟨hkept2, hkept3⟩
    have hstatus1 : (afterQueued w a).statusOf thread = w.statusOf thread :=
      runAttempts_spared hids hkept1 hspares1
    have hstatus2 : (afterNetwork w a).statusOf thread =
        (afterQueued w a).statusOf thread := runAttempts_spared hids1 hkept2 hspares2
    have hstatus3 : (threadPhases w a).statusOf thread =
        (afterNetwork w a).statusOf thread := runAttempts_spared hids2 hkept3 hspares3
    exact hstatus3.trans (hstatus2.trans hstatus1)
  · intro hcount halone thread hkeeps
    have hsame := halone thread hkeeps
    rcases hkeeps with ⟨hactive, hkept⟩
    rcases hkept.split hfades1 (hfades2.trans hfades3) with ⟨hkept1, hkept⟩
    rcases hkept.split hfades2 hfades3 with ⟨hkept2, hkept3⟩
    have hlisted : AllListed w.store := ⟨hcount, fun b hb _ => hfenced.deviceKnown b hb⟩
    have hlisted1 := hlisted.fades hfades1
    have hlisted2 := hlisted1.fades hfades2
    have hactive1 := hkept1.activeThread hactive
    have hactive2 := hkept2.activeThread hactive1
    have hthreads1 : Table.UniqueKey ThreadRow.id (afterQueued w a).threads :=
      uniqueKey_runAttempts hthreads _
    have hthreads2 : Table.UniqueKey ThreadRow.id (afterNetwork w a).threads :=
      uniqueKey_runAttempts hthreads1 _
    have hphase1 := queued_phase hthreads a.queued
    have hphase2 := network_phase hthreads1 a.network
    have hphase3 := reset_phase hthreads2 a.reset
    have hspares1 : SparesAll w thread (runThreadQueuedContinuations w a.queued) := by
      by_contra hnot
      rcases phase_changes hids hlisted hactive hkept1 hphase1 hnot with ⟨hbefore, hafter⟩
      -- the later phases take up no paused thread
      have hspares2 := sparesAll_of_status hphase2 hafter (fun h => nomatch h)
      have hafter2 := (runAttempts_spared hids1 hkept2 hspares2).trans hafter
      have hspares3 := sparesAll_of_status hphase3 hafter2 (fun h => nomatch h)
      have hafter3 := (runAttempts_spared hids2 hkept3 hspares3).trans hafter2
      rw [hbefore] at hsame
      cases hafter3.symm.trans hsame
    have hstatus1 : (afterQueued w a).statusOf thread = w.statusOf thread :=
      runAttempts_spared hids hkept1 hspares1
    have hspares2 : SparesAll (afterQueued w a) thread
        (runThreadNetworkContinuations (afterQueued w a) a.network) := by
      by_contra hnot
      rcases phase_changes hids1 hlisted1 hactive1 hkept2 hphase2 hnot with ⟨hbefore, hafter⟩
      have hspares3 := sparesAll_of_status hphase3 hafter (fun h => nomatch h)
      have hafter3 := (runAttempts_spared hids2 hkept3 hspares3).trans hafter
      rw [← hstatus1, hbefore] at hsame
      cases hafter3.symm.trans hsame
    have hstatus2 : (afterNetwork w a).statusOf thread =
        (afterQueued w a).statusOf thread := runAttempts_spared hids1 hkept2 hspares2
    refine ⟨hspares1, hspares2, ?_⟩
    by_contra hnot
    rcases phase_changes hids2 hlisted2 hactive2 hkept3 hphase3 hnot with ⟨hbefore, hafter⟩
    rw [← hstatus1, ← hstatus2, hbefore] at hsame
    cases hafter.symm.trans hsame

end Tick

/-!
## One tick
-/

def sampleThread (status : TaskStatus) : ThreadRow :=
  { id := "t1"
    updatedAt := 0
    preferredAgent := some .codex
    providerAccountId := none
    thread :=
      { Fallback.opusThread with
        status := status
        activeAgent := some .codex } }

def sampleStart : StartAnswers :=
  { services := Fallback.codexReady
    now := 0
    fault := none
    left := Fallback.opusThread
    result := .ok ()
    savesPaused := true }

def sampleTick : TickAnswers :=
  { queued := { hasCapacity := true, lists := true, start := fun _ => sampleStart }
    network :=
      { lists := true
        autoResumeCloud := true
        switchBackToCloud := true
        useLocalFallback := true
        stable := some true
        now := 0
        sessionActive := fun _ => false
        back := fun _ => Fallback.cloudBack
        target := fun _ => none
        services := fun _ => Fallback.codexReady }
    reset :=
      { hasCapacity := true
        lists := true
        detected := some []
        policy :=
          { hasAccounts := false
            autoSwitch := true
            resumeWithEarliest := true
            agentPriority := [] }
        accounts := []
        start := fun _ => sampleStart } }

def assignThread : List Collaboration.Action :=
  [.upsertDevice "d1" "laptop" codexReady true 0,
    .create (Collaboration.sampleInput "a1" "t1" "d1" ["r1"])] ++
    createAt 0 0

/-- The device has claimed the assignment, and its thread is running there. -/
theorem phases_leave_assigned_alone_running :
    exists cw, (machine Collaboration.sampleHash).Reachable cw ∧
      ActiveThread cw.store "t1" ∧
      LeavesAssignedAlone
        { store := cw.store, threads := [sampleThread TaskStatus.running] }
        (threadPhases { store := cw.store, threads := [sampleThread TaskStatus.running] }
          sampleTick) := by
  have hrun : Option.any (fun cw => decide (ActiveThread cw.store "t1"))
      ((machine Collaboration.sampleHash).runFrom Collaboration.World.new
        (assignThread ++
          [Collaboration.Action.claim "a1" "d1" Collaboration.sampleToken 45000 0])) =
      true := by decide +kernel
  rcases (machine Collaboration.sampleHash).exists_reachable_of_runFrom rfl
    hrun with ⟨cw, hreach, hactive⟩
  refine ⟨cw, hreach, of_decide_eq_true hactive, ?_⟩
  have hboth := phases_leave_assigned_alone
    (w := { store := cw.store, threads := [sampleThread TaskStatus.running] }) hreach rfl
    (List.nodup_singleton _) sampleTick
  apply hboth.left
  intro thread _
  exact ⟨trivial, trivial, trivial⟩

/-- The thread is still queued for its device when the scheduler starts it, and is
paused. -/
theorem tick_pauses_assigned_thread :
    ¬ forall cw w a, (machine Collaboration.sampleHash).Reachable cw ->
      w.store = cw.store -> Table.UniqueKey ThreadRow.id w.threads ->
      LeavesAssignedAlone w (threadPhases w a) := by
  intro hall
  have hrun : Option.any
      (fun cw : Collaboration.World => decide (ActiveThread cw.store "t1" ∧
        (threadPhases { store := cw.store, threads := [sampleThread TaskStatus.queued] }
          sampleTick).store = cw.store ∧
        (threadPhases { store := cw.store, threads := [sampleThread TaskStatus.queued] }
          sampleTick).statusOf "t1" = some TaskStatus.paused))
      ((machine Collaboration.sampleHash).runFrom Collaboration.World.new
        assignThread) = true := by decide +kernel
  rcases (machine Collaboration.sampleHash).exists_reachable_of_runFrom rfl
    hrun with ⟨cw, hreach, hcheck⟩
  rcases of_decide_eq_true hcheck with ⟨hactive, hstore, hpaused⟩
  have halone := hall cw
    { store := cw.store, threads := [sampleThread TaskStatus.queued] } sampleTick hreach rfl
    (List.nodup_singleton _) "t1"
  have hkept : KeptIn cw.store
      (threadPhases { store := cw.store, threads := [sampleThread TaskStatus.queued] }
        sampleTick).store "t1" := by
    rw [hstore]
    exact fun b hb _ _ => hb
  have hsame := halone ⟨hactive, hkept⟩
  rw [hpaused] at hsame
  cases hsame

end Scheduler
end Perpetual
