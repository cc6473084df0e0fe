import Perpetual.Foundation.Cells
import Perpetual.Placement.Admission

/-!
# One reclaim for a run

The monitor and the user reclaim a run from a copy of its row, and nothing looks at the
row again before it is closed and the thread is saved.  Two of them that overlap both
do, the second one over a local run that has started in between.  Where a row is closed
only while it is active, and a local run starts only when no reclaim is between the
close and the save, a run is reclaimed once.
-/

namespace Perpetual
namespace Placement
namespace Handoff

open Foundation

/-!
## Where a reclaim is
-/

def ReclaimStage.closes : ReclaimStage -> Bool
  | .closing _ _ _ _ => true
  | _ => false

/-- The row is closed and the thread is not saved yet. -/
def ReclaimStage.pending : ReclaimStage -> Bool
  | .reading _ _ _ => true
  | .queueing _ _ _ _ => true
  | .saving _ _ _ _ _ => true
  | _ => false

def StartStage.launches : StartStage -> Bool
  | .launching _ => true
  | _ => false

/-- The reclaim of a run is between the close and the save. -/
def Reclaim.pendingFor (r : Nat) (c : Reclaim) : Bool :=
  decide (c.run = r) && c.stage.pending

/-- The reclaims of a run that are between the close and the save. -/
def pendingFor (r : Nat) (reclaims : List Reclaim) : Nat :=
  reclaims.countP (Reclaim.pendingFor r)

/-- Statuses and closes are written to active rows only, and a local run of a thread
starts when no reclaim of one of its runs has yet to save the thread. -/
def Apart (w : World) : Action -> Prop
  | .reclaimStep m .tick =>
      forall c, c ∈ w.reclaims[m]? -> c.stage.closes = true ->
        forall run, run ∈ w.runs[c.run]? -> run.status.isActive = true
  | .startStep i .tick =>
      forall s, s ∈ w.starts[i]? -> s.stage.launches = true ->
        forall c, c ∈ w.reclaims -> c.stage.pending = true ->
          forall run, run ∈ w.runs[c.run]? -> run.threadId ≠ s.threadId
  | a => RowsStayClosed w a

instance (w : World) (a : Action) : Decidable (Apart w a) := by
  unfold Apart
  split <;> infer_instance

variable {reclaims : List Reclaim}

theorem pendingFor_append {x : Reclaim} (h : x.stage.pending = false) (r : Nat) :
    pendingFor r (reclaims ++ [x]) = pendingFor r reclaims := by
  unfold pendingFor Reclaim.pendingFor
  rw [List.countP_append, List.countP_singleton, h, Bool.and_false]
  rfl

variable {m n : Nat} {c : Reclaim}

theorem pendingFor_set_le {stage : ReclaimStage} (hc : reclaims[m]? = some c)
    (himp : stage.pending = true -> c.stage.pending = true) (r : Nat) :
    pendingFor r (reclaims.set m { c with stage := stage }) ≤ pendingFor r reclaims := by
  apply Cells.countP_set_le hc
  unfold Reclaim.pendingFor
  intro h
  rcases Bool.and_eq_true_iff.mp h with ⟨hrun, hstage⟩
  exact Bool.and_eq_true_iff.mpr ⟨hrun, himp hstage⟩

variable {r : Nat}

theorem pendingFor_set_of_ne (stage : ReclaimStage) (hc : reclaims[m]? = some c) (hne : r ≠ c.run) :
    pendingFor r (reclaims.set m { c with stage := stage }) = pendingFor r reclaims := by
  have hadd := Cells.countP_set_add (Reclaim.pendingFor r) hc { c with stage := stage }
  have hnot : forall stage, Reclaim.pendingFor r { c with stage := stage } = false := by
    intro stage
    unfold Reclaim.pendingFor
    rw [decide_eq_false (fun heq => hne heq.symm), Bool.false_and]
  rw [hnot stage, hnot c.stage] at hadd
  exact hadd

theorem pendingFor_set_self (stage : ReclaimStage) (hc : reclaims[m]? = some c) :
    pendingFor c.run (reclaims.set m { c with stage := stage }) +
        (if c.stage.pending then 1 else 0) =
      pendingFor c.run reclaims + (if stage.pending then 1 else 0) := by
  have hadd := Cells.countP_set_add (Reclaim.pendingFor c.run) hc { c with stage := stage }
  have hself : forall stage,
      Reclaim.pendingFor c.run { c with stage := stage } = stage.pending := by
    intro stage
    unfold Reclaim.pendingFor
    rw [decide_eq_true rfl, Bool.true_and]
  rw [hself stage, hself c.stage] at hadd
  exact hadd

/-!
## What a step does to the runs and the reclaims
-/

def marked (threadId : String) (run : CloudRun) : CloudRun :=
  if run.threadId = threadId ∧ 0 < run.history.closes then
    { run with history := { run.history with takenOver := true } }
  else run

/-- The effects of a step that meets the side condition. -/
inductive Effect (w : World) : List CloudRun -> List Reclaim -> Prop where
  | same : Effect w w.runs w.reclaims
  | record (h : HandoffCall) : Effect w (w.runs ++ [World.newRun h]) w.reclaims
  | begin (x : Reclaim) (hrun : x.run < w.runs.length) (hpending : x.stage.pending = false) :
      Effect w w.runs (w.reclaims ++ [x])
  | go (m : Nat) (c : Reclaim) (stage : ReclaimStage) (hc : w.reclaims[m]? = some c)
      (himp : stage.pending = true -> c.stage.pending = true) :
      Effect w w.runs (w.reclaims.set m { c with stage := stage })
  | status (m : Nat) (c : Reclaim) (stage : ReclaimStage) (s : RunStatus)
      (hc : w.reclaims[m]? = some c) (hpending : stage.pending = false)
      (hactive : forall run, w.runs[c.run]? = some run -> run.status.isActive = true) :
      Effect w (w.setStatus c.run s).runs (w.reclaims.set m { c with stage := stage })
  | close (m : Nat) (c : Reclaim) (stage : ReclaimStage) (s : RunStatus) (note : Option String)
      (hc : w.reclaims[m]? = some c) (hs : s.isActive = false)
      (hactive : forall run, w.runs[c.run]? = some run -> run.status.isActive = true) :
      Effect w (w.closeRun c.run s note).runs (w.reclaims.set m { c with stage := stage })
  | save (m : Nat) (c : Reclaim) (stage : ReclaimStage) (hc : w.reclaims[m]? = some c)
      (hbefore : c.stage.pending = true) (hafter : stage.pending = false) :
      Effect w (w.recordLeg c.run).runs (w.reclaims.set m { c with stage := stage })
  | takeOver (threadId : String)
      (hnone : forall c, c ∈ w.reclaims -> c.stage.pending = true ->
        forall run, w.runs[c.run]? = some run -> run.threadId ≠ threadId) :
      Effect w (w.runs.map (marked threadId)) w.reclaims

variable {w w' : World}

theorem Advance.effect {h h' : HandoffCall} {gate : Bool} {runs : List CloudRun}
    (hadvance : Advance w h h' gate runs) : Effect w runs w.reclaims := by
  cases hadvance with
  | record _ => exact .record h
  | enter _ _ => exact .same
  | leave _ _ => exact .same
  | read _ => exact .same
  | alone _ _ => exact .same
  | below _ _ _ _ => exact .same
  | prepare _ => exact .same
  | launch _ => exact .same

variable {input : Input}

theorem advanceHandoff_reclaims {k : Nat} {h : HandoffCall}
    (hstep : w.advanceHandoff k h input = some w') : w'.reclaims = w.reclaims := by
  unfold World.advanceHandoff at hstep
  cases input <;> cases hstage : h.stage <;> simp only [hstage] at hstep <;>
    (try split at hstep) <;> cases hstep <;> rfl

theorem addReclaim_effect {stage : ReclaimStage} (hpending : stage.pending = false)
    (h : w.addReclaim r stage = some w') : Effect w w'.runs w'.reclaims := by
  unfold World.addReclaim at h
  split at h
  · rename_i run hrun
    cases h
    exact .begin _ (List.getElem?_eq_some_iff.mp hrun).1 hpending
  · cases h

theorem updateRun_reclaims (w : World) (r : Nat) (f : CloudRun -> CloudRun) :
    (w.updateRun r f).reclaims = w.reclaims := by
  unfold World.updateRun
  split <;> rfl

theorem saveThread_recordLeg (w : World) (row : ThreadRow) (r : Nat) :
    ((w.saveThread row).recordLeg r).runs = (w.recordLeg r).runs ∧
      ((w.saveThread row).recordLeg r).reclaims = w.reclaims := by
  have hruns : (w.saveThread row).runs = w.runs := rfl
  unfold World.recordLeg
  refine ⟨?_, updateRun_reclaims _ r _⟩
  simp only [World.updateRun, hruns]
  cases w.runs[r]? <;> rfl

theorem pollReclaim_effect {answer : Answer} (hc : w.reclaims[m]? = some c)
    (h : w.pollReclaim m c answer = some w')
    (hok : c.writes answer = true -> forall run, w.runs[c.run]? = some run ->
      run.status.isActive = true) : Effect w w'.runs w'.reclaims := by
  unfold World.pollReclaim at h
  split at h
  · cases h
    exact .go m c _ hc nofun
  · split at h
    · cases h
      exact .go m c _ hc nofun
    · rename_i hseen
      cases h
      have heffect := Effect.status m c ReclaimStage.finished RunStatus.running hc rfl
        (hok (decide_eq_true hseen))
      rw [← updateRun_reclaims w c.run] at heffect
      exact heffect
  · rename_i detail _
    cases h
    have heffect := Effect.status m c (ReclaimStage.fetching Reason.stalled (some detail))
      .stalled hc rfl (hok rfl)
    rw [← updateRun_reclaims w c.run] at heffect
    exact heffect
  · cases h
    exact .go m c _ hc nofun
  · cases h

theorem fetchReclaim_effect {fetched : Fetched} {results : Results} (hc : w.reclaims[m]? = some c)
    (h : w.fetchReclaim m c fetched results = some w') : Effect w w'.runs w'.reclaims := by
  unfold World.fetchReclaim at h
  split at h
  · cases h
    exact .go m c _ hc nofun
  · cases h

theorem stepReclaim_effect (hc : w.reclaims[m]? = some c) (h : w.stepReclaim m c input = some w')
    (hok : input = .tick -> c.stage.closes = true ->
      forall run, w.runs[c.run]? = some run -> run.status.isActive = true) :
    Effect w w'.runs w'.reclaims := by
  unfold World.stepReclaim at h
  split at h
  · split at h
    · cases h
    · cases h
      exact .go m c _ hc nofun
  · split at h
    · rename_i reason detail parts conflict hstage
      cases h
      have heffect := Effect.close m c (ReclaimStage.reading reason parts conflict)
        (closeStatus conflict reason detail) (failureNote conflict detail) hc
        (closeStatus_inactive conflict reason detail) (hok rfl (by rw [hstage]; rfl))
      unfold World.closeRun at heffect
      rw [← updateRun_reclaims w c.run] at heffect
      exact heffect
    · rename_i hstage
      split at h
      · cases h
        exact .go m c _ hc (fun _ => by rw [hstage]; rfl)
      · cases h
        exact .go m c _ hc nofun
    · rename_i hstage
      cases h
      exact .go m c _ hc (fun _ => by rw [hstage]; rfl)
    · rename_i reason parts conflict thread noneQueued hstage
      cases h
      have heffect := Effect.save m c ReclaimStage.finished hc (by rw [hstage]; rfl) rfl
      rcases saveThread_recordLeg w (World.resolved c reason parts conflict noneQueued thread)
        c.run with ⟨hruns, hreclaims⟩
      rw [← hruns, ← hreclaims] at heffect
      exact heffect
    · cases h

theorem stepStart_effect {i : Nat} {s : LocalStart} (h : w.stepStart i s input = some w')
    (hok : input = .tick -> s.stage.launches = true ->
      forall c, c ∈ w.reclaims -> c.stage.pending = true ->
        forall run, w.runs[c.run]? = some run -> run.threadId ≠ s.threadId) :
    Effect w w'.runs w'.reclaims := by
  unfold World.stepStart at h
  split at h
  · split at h
    · cases h
    · cases h
      exact .same
  · split at h
    · split at h
      · cases h
        exact .same
      · cases h
        exact .same
    · split at h
      · cases h
        exact .same
      · cases h
        exact .same
    · rename_i thread hstage
      cases h
      exact .takeOver s.threadId (hok rfl (by rw [hstage]; rfl))
    · cases h

theorem step_effect {a : Action} (hok : Apart w a) (h : w.step a = some w') :
    Effect w w'.runs w'.reclaims := by
  cases a with
  | setPolicy policy =>
      cases h
      exact .same
  | handoff threadId agent =>
      cases h
      exact .same
  | advance k input =>
      simp only [World.step] at h
      split at h
      · rcases advanceHandoff_spec h with ⟨_, _, hadvance⟩
        rw [advanceHandoff_reclaims h]
        exact hadvance.effect
      · cases h
  | observe r =>
      simp only [World.step] at h
      split at h
      · exact addReclaim_effect rfl h
      · cases h
  | poll m answer =>
      simp only [World.step] at h
      split at h
      · rename_i c hc
        exact pollReclaim_effect hc h (hok c hc)
      · cases h
  | reclaimCloudRun threadId =>
      simp only [World.step] at h
      split at h
      · exact addReclaim_effect rfl h
      · cases h
  | fetch m fetched results =>
      simp only [World.step] at h
      split at h
      · rename_i c hc
        exact fetchReclaim_effect hc h
      · cases h
  | reclaimStep m input =>
      simp only [World.step] at h
      split at h
      · rename_i c hc
        apply stepReclaim_effect hc h
        rintro rfl
        exact hok c hc
      · cases h
  | start threadId agent =>
      cases h
      exact .same
  | startStep i input =>
      simp only [World.step] at h
      split at h
      · rename_i s hs
        apply stepStart_effect h
        rintro rfl
        exact hok s hs
      · cases h
  | enqueue threadId message =>
      cases h
      exact .same
  | drain threadId =>
      cases h
      exact .same

/-- What has been done to a run with a number of reclaims between close and save. -/
structure Once (pending : Nat) (run : CloudRun) : Prop where
  fresh : run.status.isActive = true -> run.history.closes = 0
  closes : run.history.closes ≤ 1
  saves : run.history.legs + pending ≤ run.history.closes
  overwrites : run.history.overwrites = run.history.legs
  taken : run.history.takenOver = true -> 0 < run.history.closes ∧ pending = 0
  kept : run.history.overwrote = false

structure ReclaimedOnce (runs : List CloudRun) (reclaims : List Reclaim) : Prop where
  known : forall c, c ∈ reclaims -> c.run < runs.length
  once : forall r run, runs[r]? = some run -> Once (pendingFor r reclaims) run

variable {run : CloudRun}

variable {n' : Nat}

theorem Once.mono (h : Once n run) (hle : n' ≤ n) : Once n' run :=
  { h with
    saves := Nat.le_trans (Nat.add_le_add_left hle _) h.saves
    taken := fun htaken =>
      ⟨(h.taken htaken).left, Nat.le_zero.mp ((h.taken htaken).right ▸ hle)⟩ }

theorem Once.newRun (h : HandoffCall) : Once 0 (World.newRun h) :=
  { fresh := fun _ => rfl
    closes := Nat.zero_le 1
    saves := Nat.le_refl 0
    overwrites := rfl
    taken := nofun
    kept := rfl }

theorem Once.close {run' : CloudRun} (h : Once n run) (hle : n' ≤ n + 1)
    (hactive : run.status.isActive = true) (hs : run'.status.isActive = false)
    (hhistory : run'.history = { run.history with closes := run.history.closes + 1 }) :
    Once n' run' := by
  have hfresh := h.fresh hactive
  have hsaves := h.saves
  have huntaken : run.history.takenOver = true -> False := by
    intro htaken
    have hpos := (h.taken htaken).left
    omega
  refine ⟨?_, ?_, ?_, ?_, ?_, ?_⟩
  · intro hactive'
    rw [hs] at hactive'
    cases hactive'
  · rw [hhistory, hfresh]
  · rw [hhistory]
    show run.history.legs + n' ≤ run.history.closes + 1
    omega
  · rw [hhistory]
    exact h.overwrites
  · rw [hhistory]
    exact fun htaken => (huntaken htaken).elim
  · rw [hhistory]
    exact h.kept

theorem Once.save (h : Once n run) (hn : n' + 1 = n) (history : History) (hhistory : history =
      { run.history with
        legs := run.history.legs + 1
        overwrites := run.history.overwrites + 1
        overwrote := run.history.overwrote || run.history.takenOver }) :
    Once n' { run with history := history } := by
  have hsaves := h.saves
  have huntaken : run.history.takenOver = false := by
    rw [← Bool.not_eq_true]
    intro htaken
    have hzero := (h.taken htaken).right
    omega
  rw [hhistory]
  refine ⟨h.fresh, h.closes, ?_, ?_, ?_, ?_⟩
  · show run.history.legs + 1 + n' ≤ run.history.closes
    omega
  · show run.history.overwrites + 1 = run.history.legs + 1
    rw [h.overwrites]
  · show run.history.takenOver = true -> _
    rw [huntaken]
    nofun
  · show (run.history.overwrote || run.history.takenOver) = false
    rw [h.kept, huntaken]
    rfl

theorem Once.marked {threadId : String} (h : Once n run)
    (hnone : run.threadId = threadId -> n = 0) : Once n (marked threadId run) := by
  unfold Handoff.marked
  split
  · rename_i hcond
    exact
      { fresh := h.fresh
        closes := h.closes
        saves := h.saves
        overwrites := h.overwrites
        taken := fun _ => ⟨hcond.right, hnone hcond.left⟩
        kept := h.kept }
  · exact h

theorem updateRun_cases {j : Nat} {f : CloudRun -> CloudRun} {x : CloudRun}
    (h : (w.updateRun r f).runs[j]? = some x) :
    (j = r ∧ exists run, w.runs[r]? = some run ∧ x = f run) ∨
      (j ≠ r ∧ w.runs[j]? = some x) := by
  unfold World.updateRun at h
  cases hrun : w.runs[r]? with
  | none =>
      rw [hrun] at h
      refine .inr ⟨?_, h⟩
      rintro rfl
      exact absurd (h.symm.trans hrun) nofun
  | some run =>
      rw [hrun] at h
      rcases Cells.getElem?_set_cases h with ⟨heq, hx⟩ | ⟨hne, hx⟩
      · exact .inl ⟨heq, run, rfl, hx⟩
      · exact .inr ⟨hne, hx⟩

theorem ReclaimedOnce.update (hw : ReclaimedOnce w.runs w.reclaims) (stage : ReclaimStage)
    (hc : w.reclaims[m]? = some c) (f : CloudRun -> CloudRun)
    (hf : forall run, w.runs[c.run]? = some run -> Once (pendingFor c.run w.reclaims) run ->
      Once (pendingFor c.run (w.reclaims.set m { c with stage := stage })) (f run)) :
    ReclaimedOnce (w.updateRun c.run f).runs (w.reclaims.set m { c with stage := stage }) := by
  constructor
  · intro x hx
    have hlength : (w.updateRun c.run f).runs.length = w.runs.length := by
      rcases updateRun_runs w c.run f with hsame | ⟨run, _, hset⟩
      · rw [hsame]
      · rw [hset, List.length_set]
    rw [hlength]
    rcases List.mem_or_eq_of_mem_set hx with hmem | heq
    · exact hw.known x hmem
    · rw [heq]
      exact hw.known c (List.mem_of_getElem? hc)
  · intro r run hrun
    rcases updateRun_cases hrun with ⟨hr, old, hold, hx⟩ | ⟨hne, hold⟩
    · rw [hr, hx]
      exact hf old hold (hw.once c.run old hold)
    · rw [pendingFor_set_of_ne stage hc hne]
      exact hw.once r run hold

theorem ReclaimedOnce.effect {runs : List CloudRun} (hw : ReclaimedOnce w.runs w.reclaims)
    (h : Effect w runs reclaims) : ReclaimedOnce runs reclaims := by
  cases h with
  | same => exact hw
  | record h =>
      constructor
      · intro c hc
        rw [List.length_append]
        exact Nat.lt_add_right _ (hw.known c hc)
      · intro r run hrun
        rcases Cells.getElem?_concat_cases hrun with hrun | ⟨hr, heq⟩
        · exact hw.once r run hrun
        · have hzero : pendingFor r w.reclaims = 0 := by
            apply List.countP_eq_zero.mpr
            intro c hc hpending
            have hlt := hw.known c hc
            have heq := of_decide_eq_true (Bool.and_eq_true_iff.mp hpending).left
            omega
          rw [heq, hzero]
          exact Once.newRun h
  | begin x hrun hpending =>
      constructor
      · intro c hc
        rcases List.mem_append.mp hc with hc | hc
        · exact hw.known c hc
        · rw [List.mem_singleton.mp hc]
          exact hrun
      · intro r run hr
        rw [pendingFor_append hpending]
        exact hw.once r run hr
  | go m c stage hc himp =>
      constructor
      · intro x hx
        rcases List.mem_or_eq_of_mem_set hx with hmem | heq
        · exact hw.known x hmem
        · rw [heq]
          exact hw.known c (List.mem_of_getElem? hc)
      · intro r run hr
        exact (hw.once r run hr).mono (pendingFor_set_le hc himp r)
  | status m c stage s hc hpending hactive =>
      apply hw.update stage hc
      intro run hrun hrow
      have hle := @pendingFor_set_le w.reclaims m c stage hc
        (fun h => absurd (hpending.symm.trans h) Bool.false_ne_true) c.run
      have hrow := hrow.mono hle
      exact
        { fresh := fun _ => hrow.fresh (hactive run hrun)
          closes := hrow.closes
          saves := hrow.saves
          overwrites := hrow.overwrites
          taken := hrow.taken
          kept := hrow.kept }
  | close m c stage s note hc hs hactive =>
      apply hw.update stage hc
      intro run hrun hrow
      refine hrow.close ?_ (hactive run hrun) hs rfl
      have hself := pendingFor_set_self stage hc
      split at hself <;> split at hself <;> omega
  | save m c stage hc hbefore hafter =>
      apply hw.update stage hc
      intro run hrun hrow
      refine hrow.save ?_ _ rfl
      have hself := pendingFor_set_self stage hc
      rw [hbefore, hafter] at hself
      exact hself
  | takeOver threadId hnone =>
      constructor
      · intro c hc
        rw [List.length_map]
        exact hw.known c hc
      · intro r run hrun
        rw [List.getElem?_map] at hrun
        rcases Option.map_eq_some_iff.mp hrun with ⟨old, hold, rfl⟩
        apply (hw.once r old hold).marked
        intro hthread
        apply List.countP_eq_zero.mpr
        intro c hc hpending
        rcases Bool.and_eq_true_iff.mp hpending with ⟨hr, hstage⟩
        rw [← of_decide_eq_true hr] at hold
        exact hnone c hc hstage old hold hthread

theorem ReclaimedOnce.reachable (h : machine.ReachableUnder Apart w) :
    ReclaimedOnce w.runs w.reclaims := by
  refine Machine.ReachableUnder.invariant
    (P := fun w : World => ReclaimedOnce w.runs w.reclaims) ?_ ?_ h
  · rintro s ⟨policy, threads, rfl⟩
    exact
      { known := fun _ hc => absurd hc List.not_mem_nil
        once := fun _ _ hrun => by cases hrun }
  · exact fun _ _ _ hs hok hstep => hs.effect (step_effect hok hstep)

/-- In a run whose steps all keep apart, a cloud run is closed at most once, its leg is
appended and the status of its thread overwritten at most once, and never after a local
run has taken the thread over. -/
theorem reclaimed_once {w : World} (h : machine.ReachableUnder Apart w) :
    forall run, run ∈ w.runs ->
      run.history.closes ≤ 1 ∧ run.history.legs ≤ 1 ∧ run.history.overwrites ≤ 1 ∧
        run.history.overwrote = false := by
  intro run hrun
  rcases List.mem_iff_getElem?.mp hrun with ⟨r, hr⟩
  have honce := (ReclaimedOnce.reachable h).once r run hr
  have hsaves := honce.saves
  have hcloses := honce.closes
  have hoverwrites := honce.overwrites
  exact ⟨hcloses, by omega, by omega, honce.kept⟩

def reclaimed (m : Nat) : List Action :=
  .fetch m .nothing .nothing ::
    List.replicate 4 (.reclaimStep m .tick)

def startedLocally (i : Nat) (threadId : String) : List Action :=
  .start threadId .codex :: List.replicate 3 (.startStep i .tick)

/-- The monitor reclaims a completed run, and a local run starts after it. -/
def reclaimedThenStarted : List Action :=
  handedOff 0 "th1" ++
    [.observe 0, .poll 0 (.over .completed none)] ++
    reclaimed 0 ++ startedLocally 0 "th1"

theorem reclaimed_once_reclaimedThenStarted :
    exists w, machine.ReachableUnder Apart w ∧
      (exists run, run ∈ w.runs ∧ run.history.closes = 1 ∧ run.history.takenOver = true) ∧
      forall run, run ∈ w.runs ->
        run.history.closes ≤ 1 ∧ run.history.legs ≤ 1 ∧ run.history.overwrites ≤ 1 ∧
          run.history.overwrote = false := by
  have hrun : Option.any
      (fun w : World => decide (exists run, run ∈ w.runs ∧ run.history.closes = 1 ∧
        run.history.takenOver = true))
      (machine.runUnder Apart (World.fresh cloudPolicy [threadRow "th1"])
        reclaimedThenStarted) = true := by
    decide +kernel
  rcases machine.exists_reachable_of_runUnder ⟨_, _, rfl⟩ hrun with ⟨w, hreach, hcheck⟩
  exact ⟨w, hreach, of_decide_eq_true hcheck, reclaimed_once hreach⟩

/-- The user asks for the run while the monitor reclaims it, and a local run starts
before the second reclaim comes to the row. -/
def reclaimedTwice : List Action :=
  handedOff 0 "th1" ++
    [.observe 0, .poll 0 (.over .completed none),
      .reclaimCloudRun "th1"] ++
    reclaimed 0 ++ startedLocally 0 "th1" ++ reclaimed 1

theorem second_reclaim_overwrites :
    exists w, machine.Reachable w ∧
      (exists run, run ∈ w.runs ∧ run.history.closes = 2 ∧ run.history.legs = 2 ∧
        run.history.overwrites = 2 ∧ run.history.overwrote = true) ∧
      w.threads.map ThreadRow.status = [TaskStatus.queued] := by
  have hrun : Option.any
      (fun w : World => decide
        ((exists run, run ∈ w.runs ∧ run.history.closes = 2 ∧ run.history.legs = 2 ∧
          run.history.overwrites = 2 ∧ run.history.overwrote = true) ∧
        w.threads.map ThreadRow.status = [TaskStatus.queued]))
      (machine.runFrom (World.fresh cloudPolicy [threadRow "th1"]) reclaimedTwice) = true := by
    decide +kernel
  rcases machine.exists_reachable_of_runFrom ⟨_, _, rfl⟩ hrun with ⟨w, hreach, hcheck⟩
  exact ⟨w, hreach, of_decide_eq_true hcheck⟩

end Handoff
end Placement
end Perpetual
