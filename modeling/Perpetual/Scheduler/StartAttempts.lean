import Perpetual.Scheduler.ThreadPhases

/-!
# Attempts on assigned threads

What one attempt of a scheduler phase does to a thread that is assigned to a device
and stays assigned.  The sweep of a start changes no such thread, and a start of it
is refused; the thread keeps its status or is stored with another one.
-/

namespace Perpetual
namespace Scheduler

open Foundation
open Collaboration (Store Assignment ActiveThread listLimit)

/-!
## Assignments that fade
-/

/-- Rows leave the active statuses and never enter them. -/
structure Fades (st st' : Store) : Prop where
  rows : forall a, a ∈ st'.assignments -> a.status.isActive = true -> a ∈ st.assignments
  identity : forall a, a ∈ st'.assignments ->
    exists b, b ∈ st.assignments ∧ b.id = a.id ∧ b.threadId = a.threadId
  devices : st'.devices = st.devices
  ids : Table.UniqueKey Assignment.id st.assignments ->
    Table.UniqueKey Assignment.id st'.assignments
  count : st'.assignments.countP (fun a => a.status.isActive) ≤
    st.assignments.countP (fun a => a.status.isActive)

/-- The active assignments of the thread are still there. -/
def KeptIn (st st' : Store) (thread : String) : Prop :=
  forall a, a ∈ st.assignments -> a.threadId = thread -> a.status.isActive = true ->
    a ∈ st'.assignments

section Fading

variable {st st' st'' : Store} {thread : String}

theorem Fades.refl (st : Store) : Fades st st where
  rows := fun _ ha _ => ha
  identity := fun a ha => ⟨a, ha, rfl, rfl⟩
  devices := rfl
  ids := id
  count := Nat.le_refl _

theorem Fades.trans (h : Fades st st') (h' : Fades st' st'') : Fades st st'' where
  rows := fun a ha hactive => h.rows a (h'.rows a ha hactive) hactive
  identity := by
    intro a ha
    rcases h'.identity a ha with ⟨b, hb, hid, hthread⟩
    rcases h.identity b hb with ⟨c, hc, hid', hthread'⟩
    exact ⟨c, hc, hid'.trans hid, hthread'.trans hthread⟩
  devices := h'.devices.trans h.devices
  ids := fun hids => h'.ids (h.ids hids)
  count := Nat.le_trans h'.count h.count

theorem fades_of_update (st st' : Store) {p : Assignment -> Bool}
    {f : Assignment -> Assignment}
    (hrows : st'.assignments = Table.updateWhere p f st.assignments)
    (hdevices : st'.devices = st.devices)
    (hsame : forall a, (f a).id = a.id ∧ (f a).threadId = a.threadId)
    (hended : forall a, (f a).status.isActive = false) : Fades st st' where
  rows := by
    intro a ha hactive
    rw [hrows] at ha
    rcases Table.mem_updateWhere ha with ⟨b, hb, ⟨_, heq⟩ | ⟨_, heq⟩⟩
    · rw [heq, hended] at hactive
      cases hactive
    · rw [heq]
      exact hb
  identity := by
    intro a ha
    rw [hrows] at ha
    rcases Table.mem_updateWhere ha with ⟨b, hb, ⟨_, heq⟩ | ⟨_, heq⟩⟩
    · rw [heq]
      exact ⟨b, hb, (hsame b).left.symm, (hsame b).right.symm⟩
    · rw [heq]
      exact ⟨b, hb, rfl, rfl⟩
  devices := hdevices
  ids := by
    intro hids
    rw [hrows]
    exact hids.updateWhere (fun a => (hsame a).left)
  count := by
    rw [hrows]
    unfold Table.updateWhere
    rw [List.countP_map]
    apply List.countP_mono_left
    intro a _ hactive
    by_cases hp : p a = true
    · rw [Function.comp_apply, if_pos hp, hended] at hactive
      cases hactive
    · rw [Function.comp_apply, if_neg hp] at hactive
      exact hactive

theorem fades_expireOne (st : Store) (id : String) (now : Nat) : Fades st (st.expireOne id now) :=
  fades_of_update st (st.expireOne id now) rfl rfl (fun _ => ⟨rfl, rfl⟩)
    (fun _ => rfl)

theorem fades_failOne (st : Store) (id : String) (now : Nat) : Fades st (st.failOne id now) :=
  fades_of_update st (st.failOne id now) rfl rfl (fun _ => ⟨rfl, rfl⟩) (fun _ => rfl)

theorem KeptIn.split (h : KeptIn st st'' thread) (hfirst : Fades st st')
    (hsecond : Fades st' st'') : KeptIn st st' thread ∧ KeptIn st' st'' thread := by
  constructor
  · intro a ha hthread hactive
    exact hsecond.rows a (h a ha hthread hactive) hactive
  · intro a ha hthread hactive
    exact h a (hfirst.rows a ha hactive) hthread hactive

theorem KeptIn.activeThread (h : KeptIn st st' thread) (hactive : ActiveThread st thread) :
    ActiveThread st' thread := by
  rcases hactive with ⟨a, ha, hthread, hstatus⟩
  exact ⟨a, h a ha hthread hstatus, hthread, hstatus⟩

end Fading

/-!
## The statements of a sweep
-/

def SweepStatement.onStore (now : Nat) (st : Store) : SweepStatement -> Store
  | .expire id => st.expireOne id now
  | .fail id => st.failOne id now
  | .saveThread _ => st

def sweptStore (st : Store) (now : Nat) (fault : Option SweepFault) : Store :=
  (executedStatements st now fault).foldl (SweepStatement.onStore now) st

theorem foldl_execute_store (now : Nat) (statements : List SweepStatement) (w : TickWorld) :
    (statements.foldl (TickWorld.execute now) w).store =
      statements.foldl (SweepStatement.onStore now) w.store := by
  induction statements generalizing w with
  | nil => rfl
  | cons s rest ih =>
      rw [List.foldl_cons, List.foldl_cons, ih]
      cases s <;> rfl

theorem fades_foldl (now : Nat) (statements : List SweepStatement) (st : Store) :
    Fades st (statements.foldl (SweepStatement.onStore now) st) := by
  induction statements generalizing st with
  | nil => exact Fades.refl st
  | cons s rest ih =>
      rw [List.foldl_cons]
      refine Fades.trans ?_ (ih _)
      cases s with
      | expire id => exact fades_expireOne st id now
      | fail id => exact fades_failOne st id now
      | saveThread threadId => exact Fades.refl st

/-- The statements on the assignments, which come before those on the threads. -/
def endingStatements (st : Store) (now : Nat) : List SweepStatement :=
  (st.selectExpired now).map .expire ++
    ((st.expireAll (st.selectExpired now) now).selectOffline now).map .fail

variable {st : Store} {now : Nat}

theorem foldl_endingStatements (h : (st.selectExpired now).isEmpty = false) :
    (endingStatements st now).foldl (SweepStatement.onStore now) st =
      (st.expireStaleAssignments now).1 := by
  unfold endingStatements Store.expireStaleAssignments
  rw [List.foldl_append, List.foldl_map, List.foldl_map, h]
  rfl

/-- The saves of the threads whose assignments have ended. -/
def savingStatements (st : Store) (now : Nat) : List SweepStatement :=
  (st.expireStaleAssignments now).2.map (fun a => .saveThread a.threadId)

theorem sweepStatements_eq (h : (st.selectExpired now).isEmpty = false) :
    sweepStatements st now = endingStatements st now ++ savingStatements st now := by
  unfold sweepStatements
  rw [h]
  rfl

theorem saveThread_not_mem_endingStatements (st : Store) (now : Nat) (threadId : String) :
    .saveThread threadId ∉ endingStatements st now := by
  intro hmem
  rcases List.mem_append.mp hmem with hmem | hmem
  · rcases List.mem_map.mp hmem with ⟨_, _, heq⟩
    cases heq
  · rcases List.mem_map.mp hmem with ⟨_, _, heq⟩
    cases heq

theorem foldl_saves {saves : List SweepStatement}
    (h : forall s, s ∈ saves -> s ∈ savingStatements st now) (st' : Store) :
    saves.foldl (SweepStatement.onStore now) st' = st' := by
  induction saves with
  | nil => rfl
  | cons s rest ih =>
      rcases List.mem_map.mp (h s List.mem_cons_self) with ⟨a, _, heq⟩
      rw [List.foldl_cons, ← heq]
      exact ih (fun s hs => h s (List.mem_cons_of_mem _ hs))

variable {fault : Option SweepFault}

variable {threadId : String}

theorem selectExpired_of_saveThread (h : .saveThread threadId ∈ executedStatements st now fault) :
    (st.selectExpired now).isEmpty = false := by
  have hmem : .saveThread threadId ∈ sweepStatements st now := by
    cases fault with
    | none => exact h
    | some fault => exact List.mem_of_mem_take h
  by_contra hempty
  rw [Bool.not_eq_false] at hempty
  unfold sweepStatements at hmem
  rw [hempty] at hmem
  cases hmem

theorem executed_of_saveThread (h : .saveThread threadId ∈ executedStatements st now fault) :
    exists saves, executedStatements st now fault = endingStatements st now ++ saves ∧
      forall s, s ∈ saves -> s ∈ savingStatements st now := by
  have hall := sweepStatements_eq (selectExpired_of_saveThread h)
  cases fault with
  | none => exact ⟨_, hall, fun _ hs => hs⟩
  | some fault =>
      have htake : executedStatements st now (some fault) =
          (sweepStatements st now).take fault.executed := rfl
      rw [htake, hall, List.take_append] at h ⊢
      have hlong : (endingStatements st now).length ≤ fault.executed := by
        by_contra hshort
        rcases List.mem_append.mp h with hmem | hmem
        · exact saveThread_not_mem_endingStatements st now threadId (List.mem_of_mem_take hmem)
        · rw [Nat.sub_eq_zero_of_le (Nat.le_of_not_le hshort), List.take_zero] at hmem
          cases hmem
      rw [List.take_of_length_le hlong]
      exact ⟨_, rfl, fun _ hs => List.mem_of_mem_take hs⟩

theorem sweptStore_of_saveThread (h : .saveThread threadId ∈ executedStatements st now fault) :
    (st.selectExpired now) ≠ [] ∧
      sweptStore st now fault = (st.expireStaleAssignments now).1 ∧
      exists a, a ∈ (st.expireStaleAssignments now).2 ∧ a.threadId = threadId := by
  have hexpired := selectExpired_of_saveThread h
  rcases executed_of_saveThread h with ⟨saves, hexecuted, hsaves⟩
  refine ⟨?_, ?_, ?_⟩
  · intro hnil
    rw [hnil] at hexpired
    cases hexpired
  · unfold sweptStore
    rw [hexecuted, List.foldl_append, foldl_endingStatements hexpired]
    exact foldl_saves hsaves _
  · rw [hexecuted] at h
    rcases List.mem_append.mp h with hmem | hmem
    · exact absurd hmem (saveThread_not_mem_endingStatements st now threadId)
    · rcases List.mem_map.mp (hsaves _ hmem) with ⟨a, ha, heq⟩
      injection heq with heq
      exact ⟨a, ha, heq⟩

/-!
## Statuses
-/

theorem statusOf_save (w : TickWorld) (id : String) (now : Nat)
    (f : Fallback.AgentThread -> Fallback.AgentThread) :
    (w.save id now f).statusOf id =
      (w.threads.find? (fun row => row.id == id)).map
        (fun row => (f row.thread).status) := by
  unfold TickWorld.statusOf TickWorld.save
  dsimp only
  rw [Table.find?_updateWhere (k := ThreadRow.id) (f := ThreadRow.saved now f)
    (fun _ => rfl), Option.map_map]
  rfl

variable {id : String}

theorem statusOf_save_of_ne (w : TickWorld) {other : String} (hne : other ≠ id)
    (now : Nat) (f : Fallback.AgentThread -> Fallback.AgentThread) :
    (w.save id now f).statusOf other = w.statusOf other := by
  unfold TickWorld.statusOf TickWorld.save
  dsimp only
  rw [Table.find?_updateWhere_of_ne (k := ThreadRow.id) (f := ThreadRow.saved now f)
    (fun _ => rfl) hne]

theorem statusOf_save_same (w : TickWorld) (id other : String) (now : Nat)
    {f : Fallback.AgentThread -> Fallback.AgentThread}
    (hf : forall thread, (f thread).status = thread.status) :
    (w.save id now f).statusOf other = w.statusOf other := by
  by_cases heq : other = id
  · rw [heq, statusOf_save]
    unfold TickWorld.statusOf
    congr 1
    funext row
    exact hf row.thread
  · exact statusOf_save_of_ne w heq now f

theorem statusOf_save_status (w : TickWorld) (id : String) (now : Nat)
    {f : Fallback.AgentThread -> Fallback.AgentThread} {status : TaskStatus}
    (hf : forall thread, (f thread).status = status) :
    (w.save id now f).statusOf id = (w.statusOf id).map (fun _ => status) := by
  rw [statusOf_save]
  unfold TickWorld.statusOf
  rw [Option.map_map]
  congr 1
  funext row
  exact hf row.thread

variable {thread : String}

theorem foldl_execute_statusOf {statements : List SweepStatement}
    (h : forall threadId, .saveThread threadId ∈ statements -> threadId ≠ thread) (w : TickWorld) :
    (statements.foldl (TickWorld.execute now) w).statusOf thread = w.statusOf thread := by
  induction statements generalizing w with
  | nil => rfl
  | cons s rest ih =>
      rw [List.foldl_cons, ih (fun threadId hmem => h threadId (List.mem_cons_of_mem _ hmem))]
      cases s with
      | expire id => rfl
      | fail id => rfl
      | saveThread threadId =>
          have hne : thread ≠ threadId :=
            fun heq => h threadId List.mem_cons_self heq.symm
          exact statusOf_save_of_ne w hne now _

variable {w : TickWorld}

theorem sweep_statusOf (hids : Table.UniqueKey Assignment.id w.store.assignments)
    (hkept : KeptIn w.store (sweptStore w.store now fault) thread) :
    (expireCollaborationLeases w now fault).1.statusOf thread = w.statusOf thread := by
  apply foldl_execute_statusOf
  intro threadId hmem heq
  rcases sweptStore_of_saveThread hmem with ⟨hexpired, hswept, a, ha, hthread⟩
  rcases (Collaboration.nothingStale_of_expired hids hexpired).answered a ha
    with ⟨haswept, b, a', hb, ha', hbid, haid, hended⟩
  have hfades := fades_foldl now (executedStatements w.store now fault) w.store
  have hfades' : Fades w.store (w.store.expireStaleAssignments now).1 := by
    rw [← hswept]
    exact hfades
  have hsweptIds := hfades'.ids hids
  -- the assignment that ended is one of the thread
  have hsame : a' = a := hsweptIds.eq_of_key ha' haswept haid
  rcases hfades'.identity a haswept with ⟨c, hc, hcid, hcthread⟩
  have hcb : c = b := hids.eq_of_key hc hb (hcid.trans hbid.symm)
  rw [hcb, hthread, heq] at hcthread
  have hactive : b.status.isActive = true ∧ a.status.isActive = false := by
    rw [← hsame]
    rcases hended with ⟨hbefore, hafter⟩ | ⟨hbefore, hafter⟩
    · rw [hbefore, hafter]
      exact ⟨rfl, rfl⟩
    · rw [hbefore, hafter]
      exact ⟨rfl, rfl⟩
  have hbkept := hkept b hb hcthread hactive.left
  rw [hswept] at hbkept
  have hab : b = a := hsweptIds.eq_of_key hbkept haswept hbid
  rw [hab] at hactive
  cases hactive.left.symm.trans hactive.right

/-!
## One attempt
-/

/-- What a start of an assigned thread is refused with. -/
def StartAnswers.refusal (a : StartAnswers) : CoreError :=
  match a.fault with
  | some fault => fault.error
  | none => assignedError

/-- The start is refused: its sweep fails, or it finds the assignment. -/
def StartAnswers.Refused (a : StartAnswers) (st : Store) (id : String) : Prop :=
  a.fault.isSome = true ∨ (sweptStore st a.now a.fault).hasActiveAssignment id = true

/-- The attempt leaves the status of its thread: a session of the thread is active
here, or the start is refused and no status is stored. -/
def Spared (w : TickWorld) : Attempt -> Prop
  | .start listed _ a =>
      a.services.sessionActive = true ∨
        (a.Refused w.store listed.id ∧
          (schedulerStartErrorIsRetryable a.refusal.display = true ∨
            a.savesPaused = false))
  | .resumeCloud _ _ _ b => b.sessionActive = true ∨ b.saves = false
  | .localFallback _ _ _ _ a => a.sessionActive = true ∨ a.saves = false

def Attempt.stores : Attempt -> TaskStatus
  | .start _ _ _ => .paused
  | .resumeCloud _ _ _ _ => .queued
  | .localFallback _ _ _ _ _ => .queued

theorem recordSwitch_store (w : TickWorld) (listed : ThreadRow) (agent : AgentKind)
    (a : StartAnswers) : (recordSwitch w listed agent a).store = w.store := by
  unfold recordSwitch
  split
  · rfl
  · rfl

theorem recordSwitch_statusOf (w : TickWorld) (listed : ThreadRow) (agent : AgentKind)
    (a : StartAnswers) (thread : String) :
    (recordSwitch w listed agent a).statusOf thread = w.statusOf thread := by
  unfold recordSwitch
  split
  · exact statusOf_save_same w listed.id thread a.now (fun _ => rfl)
  · rfl

theorem expire_store (w : TickWorld) (now : Nat) (fault : Option SweepFault) :
    (expireCollaborationLeases w now fault).1.store = sweptStore w.store now fault :=
  foldl_execute_store now _ w

variable {a : StartAnswers}

theorem runAgentThread_refused (h : a.Refused w.store id) :
    runAgentThread w id a =
      ((expireCollaborationLeases w a.now a.fault).1, .error a.refusal) := by
  have hstore := expire_store w a.now a.fault
  unfold runAgentThread StartAnswers.refusal
  unfold StartAnswers.Refused at h
  unfold expireCollaborationLeases at hstore ⊢
  cases hfault : a.fault with
  | some fault => rfl
  | none =>
      rw [hfault] at h hstore
      rcases h with hsome | hfound
      · cases hsome
      · rw [← hstore] at hfound
        show (if _ then _ else _) = _
        rw [if_pos hfound]

theorem runAgentThread_store (w : TickWorld) (id : String) (a : StartAnswers) :
    (runAgentThread w id a).1.store = sweptStore w.store a.now a.fault := by
  have hstore := expire_store w a.now a.fault
  unfold runAgentThread
  split
  · rename_i w' error heq
    rw [heq] at hstore
    exact hstore
  · rename_i w' _ heq
    rw [heq] at hstore
    split
    · exact hstore
    · exact hstore

theorem runAgentThread_other (hids : Table.UniqueKey Assignment.id w.store.assignments)
    (hkept : KeptIn w.store (sweptStore w.store a.now a.fault) thread) (hne : thread ≠ id) :
    (runAgentThread w id a).1.statusOf thread = w.statusOf thread := by
  have hsweep := sweep_statusOf hids hkept
  unfold runAgentThread
  split
  · rename_i w' error heq
    rw [heq] at hsweep
    exact hsweep
  · rename_i w' _ heq
    rw [heq] at hsweep
    split
    · exact hsweep
    · rw [← hsweep]
      exact statusOf_save_of_ne w' hne a.now _

theorem handleError_store (w : TickWorld) (id : String) (error : CoreError)
    (a : StartAnswers) : (handleThreadSchedulerStartError w id error a).store = w.store := by
  unfold handleThreadSchedulerStartError
  split
  · rfl
  · split
    · rfl
    · rfl

theorem handleError_other (w : TickWorld) (hne : thread ≠ id) (error : CoreError)
    (a : StartAnswers) :
    (handleThreadSchedulerStartError w id error a).statusOf thread = w.statusOf thread := by
  unfold handleThreadSchedulerStartError
  split
  · rfl
  · split
    · exact statusOf_save_of_ne w hne a.now _
    · rfl

theorem start_store (w : TickWorld) (listed : ThreadRow) (agent : AgentKind)
    (a : StartAnswers) (hinactive : a.services.sessionActive = false) :
    (tryThreadSchedulerStart w listed agent a).store =
      sweptStore w.store a.now a.fault := by
  have hrun := runAgentThread_store (recordSwitch w listed agent a) listed.id a
  rw [recordSwitch_store] at hrun
  unfold tryThreadSchedulerStart
  rw [if_neg (by rw [hinactive]; exact Bool.false_ne_true)]
  split
  · rename_i w' _ heq
    rw [heq] at hrun
    exact hrun
  · rename_i w' error heq
    rw [heq] at hrun
    rw [handleError_store]
    exact hrun

theorem start_other {listed : ThreadRow} {agent : AgentKind}
    (hids : Table.UniqueKey Assignment.id w.store.assignments)
    (hkept : KeptIn w.store (tryThreadSchedulerStart w listed agent a).store thread)
    (hne : thread ≠ listed.id) :
    (tryThreadSchedulerStart w listed agent a).statusOf thread = w.statusOf thread := by
  cases hactive : a.services.sessionActive with
  | true =>
      unfold tryThreadSchedulerStart
      rw [if_pos hactive]
  | false =>
      rw [start_store w listed agent a hactive, ← recordSwitch_store w listed agent a] at hkept
      rw [← recordSwitch_store w listed agent a] at hids
      have hrun := runAgentThread_other hids hkept hne
      rw [recordSwitch_statusOf] at hrun
      unfold tryThreadSchedulerStart
      rw [if_neg (by rw [hactive]; exact Bool.false_ne_true)]
      split
      · rename_i w' _ heq
        rw [heq] at hrun
        exact hrun
      · rename_i w' error heq
        rw [heq] at hrun
        rw [handleError_other w' hne]
        exact hrun

theorem start_refused {listed : ThreadRow} {agent : AgentKind}
    (hids : Table.UniqueKey Assignment.id w.store.assignments)
    (hkept : KeptIn w.store (tryThreadSchedulerStart w listed agent a).store listed.id)
    (hactive : a.services.sessionActive = false) (hrefused : a.Refused w.store listed.id) :
    (tryThreadSchedulerStart w listed agent a).statusOf listed.id =
      if schedulerStartErrorIsRetryable a.refusal.display = true ∨ a.savesPaused = false
      then w.statusOf listed.id
      else (w.statusOf listed.id).map (fun _ => .paused) := by
  rw [start_store w listed agent a hactive, ← recordSwitch_store w listed agent a] at hkept
  rw [← recordSwitch_store w listed agent a] at hids hrefused
  have hsweep := sweep_statusOf hids hkept
  rw [recordSwitch_statusOf] at hsweep
  unfold tryThreadSchedulerStart
  rw [if_neg (by rw [hactive]; exact Bool.false_ne_true), runAgentThread_refused hrefused]
  dsimp only
  rw [← hsweep]
  unfold handleThreadSchedulerStartError
  by_cases hretryable : schedulerStartErrorIsRetryable a.refusal.display = true
  · rw [if_pos hretryable, if_pos (.inl hretryable)]
  · rw [if_neg hretryable]
    cases hsaves : a.savesPaused with
    | false => rw [if_neg Bool.false_ne_true, if_pos (.inr rfl)]
    | true =>
        rw [if_pos rfl, if_neg (by simp [hretryable])]
        exact statusOf_save_status _ listed.id a.now (fun _ => rfl)

theorem resumeCloud_status (thread : Fallback.AgentThread) (agent : AgentKind)
    {b : Fallback.AgentThread.BackAnswers} (hsaves : b.saves = true) :
    (thread.resumeThreadCloudAfterNetwork agent b).thread.status =
      if b.sessionActive then thread.status else .queued := by
  unfold Fallback.AgentThread.resumeThreadCloudAfterNetwork Fallback.AgentThread.save
  rw [hsaves]
  split
  · rfl
  · rfl

theorem localFallback_status (thread : Fallback.AgentThread) (agent : AgentKind)
    (target : Fallback.LocalModelTarget) {a : Fallback.Answers} (hsaves : a.saves = true) :
    (thread.startThreadLocalFallback agent target a).thread.status =
      if a.sessionActive then thread.status else .queued := by
  unfold Fallback.AgentThread.startThreadLocalFallback Fallback.AgentThread.save
  rw [hsaves]
  split
  · rfl
  · rfl

theorem attempt_fades (w : TickWorld) (x : Attempt) : Fades w.store (x.run w).store := by
  cases x with
  | start listed agent a =>
      cases hactive : a.services.sessionActive with
      | true =>
          have hrun : Attempt.run w (.start listed agent a) = w := if_pos hactive
          rw [hrun]
          exact Fades.refl _
      | false =>
          show Fades w.store (tryThreadSchedulerStart w listed agent a).store
          rw [start_store w listed agent a hactive]
          exact fades_foldl _ _ _
  | resumeCloud id agent now b =>
      unfold Attempt.run
      dsimp only
      split
      · exact Fades.refl _
      · exact Fades.refl _
  | localFallback id agent now target a =>
      unfold Attempt.run
      dsimp only
      split
      · exact Fades.refl _
      · exact Fades.refl _

variable {x : Attempt}

theorem attempt_other (hids : Table.UniqueKey Assignment.id w.store.assignments)
    (hkept : KeptIn w.store (x.run w).store thread) (hne : thread ≠ x.id) :
    (x.run w).statusOf thread = w.statusOf thread := by
  cases x with
  | start listed agent a => exact start_other hids hkept hne
  | resumeCloud id agent now b =>
      unfold Attempt.run
      dsimp only
      split
      · exact statusOf_save_of_ne w hne now _
      · rfl
  | localFallback id agent now target a =>
      unfold Attempt.run
      dsimp only
      split
      · exact statusOf_save_of_ne w hne now _
      · rfl

theorem attempt_spared (hids : Table.UniqueKey Assignment.id w.store.assignments)
    (hkept : KeptIn w.store (x.run w).store x.id) (hspared : Spared w x) :
    (x.run w).statusOf x.id = w.statusOf x.id := by
  cases x with
  | start listed agent a =>
      cases hactive : a.services.sessionActive with
      | true =>
          have hrun : Attempt.run w (.start listed agent a) = w := if_pos hactive
          rw [hrun]
      | false =>
          rcases hspared with hsession | ⟨hrefused, hstored⟩
          · cases hactive.symm.trans hsession
          · show (tryThreadSchedulerStart w listed agent a).statusOf listed.id = _
            rw [start_refused hids hkept hactive hrefused, if_pos hstored]
            rfl
  | resumeCloud id agent now b =>
      unfold Attempt.run
      dsimp only
      split
      · rename_i hsaves
        apply statusOf_save_same
        intro thread
        rcases hspared with hsession | hfails
        · rw [resumeCloud_status thread agent hsaves, if_pos hsession]
        · cases hsaves.symm.trans hfails
      · rfl
  | localFallback id agent now target a =>
      unfold Attempt.run
      dsimp only
      split
      · rename_i hsaves
        apply statusOf_save_same
        intro thread
        rcases hspared with hsession | hfails
        · rw [localFallback_status thread agent target hsaves, if_pos hsession]
        · cases hsaves.symm.trans hfails
      · rfl

structure AllListed (st : Store) : Prop where
  count : st.assignments.countP (fun a => a.status.isActive) ≤ listLimit
  known : forall a, a ∈ st.assignments -> a.status.isActive = true ->
    exists d, d ∈ st.devices ∧ d.id = a.deviceId

theorem AllListed.fades {st' : Store} (h : AllListed st) (hfades : Fades st st') :
    AllListed st' where
  count := Nat.le_trans hfades.count h.count
  known := by
    intro a ha hactive
    rw [hfades.devices]
    exact h.known a (hfades.rows a ha hactive) hactive

theorem AllListed.found (h : AllListed st) (hactive : ActiveThread st thread) :
    st.hasActiveAssignment thread = true := by
  rcases hactive with ⟨a, ha, hthread, hstatus⟩
  rcases h.known a ha hstatus with ⟨d, hd, hid⟩
  have hcount : (st.assignments.filter (fun a =>
      st.devices.any (fun d => d.id == a.deviceId) &&
        (none : Option String).all (fun id => a.deviceId == id) &&
        (!true || a.status.isActive))).length ≤ listLimit := by
    rw [← List.countP_eq_length_filter]
    refine Nat.le_trans (List.countP_mono_left ?_) h.count
    intro b _ hb
    rw [Bool.and_eq_true] at hb
    exact hb.right
  unfold Store.hasActiveAssignment Store.listAssignments
  rw [List.take_of_length_le (by rw [List.length_insertionSort]; exact hcount)]
  apply List.any_eq_true.mpr
  refine ⟨a, ?_, beq_iff_eq.mpr hthread⟩
  rw [List.mem_insertionSort, List.mem_filter]
  refine ⟨ha, ?_⟩
  rw [Bool.and_eq_true, Bool.and_eq_true]
  exact ⟨⟨List.any_eq_true.mpr ⟨d, hd, beq_iff_eq.mpr hid⟩, rfl⟩, hstatus⟩

theorem attempt_stores (hids : Table.UniqueKey Assignment.id w.store.assignments)
    (hlisted : AllListed w.store) (hactive : ActiveThread w.store x.id)
    (hkept : KeptIn w.store (x.run w).store x.id) (hspared : ¬ Spared w x) :
    (x.run w).statusOf x.id = (w.statusOf x.id).map (fun _ => x.stores) := by
  cases x with
  | start listed agent a =>
      unfold Spared at hspared
      rw [not_or] at hspared
      rcases hspared with ⟨hinactive, hstored⟩
      have hinactive' : a.services.sessionActive = false := by simpa using hinactive
      have hrefused : a.Refused w.store listed.id := by
        right
        have hkept' : KeptIn w.store (sweptStore w.store a.now a.fault) listed.id := by
          rw [← start_store w listed agent a hinactive']
          exact hkept
        exact (hlisted.fades (fades_foldl _ _ _)).found (hkept'.activeThread hactive)
      show (tryThreadSchedulerStart w listed agent a).statusOf listed.id = _
      rw [start_refused hids hkept hinactive' hrefused, if_neg (fun h => hstored ⟨hrefused, h⟩)]
      rfl
  | resumeCloud id agent now b =>
      unfold Spared at hspared
      rw [not_or] at hspared
      have hsaves : b.saves = true := by simpa using hspared.right
      unfold Attempt.run
      dsimp only
      rw [if_pos hsaves]
      apply statusOf_save_status
      intro thread
      rw [resumeCloud_status thread agent hsaves, if_neg hspared.left]
      rfl
  | localFallback id agent now target a =>
      unfold Spared at hspared
      rw [not_or] at hspared
      have hsaves : a.saves = true := by simpa using hspared.right
      unfold Attempt.run
      dsimp only
      rw [if_pos hsaves]
      apply statusOf_save_status
      intro thread
      rw [localFallback_status thread agent target hsaves, if_neg hspared.left]
      rfl

end Scheduler
end Perpetual
