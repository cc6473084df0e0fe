import Perpetual.Collaboration.Completed

/-!
# Settling the turn and the thread of an assignment

An operation that ends an assignment owes its turn an end and its thread a status
other than queued and running.  The result says under which steps nothing is left
to settle once no call is in flight.
-/

namespace Perpetual
namespace Collaboration
namespace Calls

open Foundation

variable {sha256 : String -> String}

def isLive (status : AssignmentStatus) : Bool :=
  status == .queued || status == .running

def Rested (status : TaskStatus) : Prop :=
  status ≠ .queued ∧ status ≠ .running

instance (status : TaskStatus) : Decidable (Rested status) := by
  unfold Rested
  infer_instance

def World.HasTurn (w : World) (assignmentId : String) : Prop :=
  exists t, t ∈ w.turns ∧ t.assignmentId = assignmentId

def World.TurnEnded (w : World) (assignmentId : String) : Prop :=
  forall t, t ∈ w.turns -> t.assignmentId = assignmentId ->
    t.status ≠ .running

def World.ThreadRests (w : World) (threadId : String) : Prop :=
  forall t, t ∈ w.threads -> t.id = threadId -> Rested t.status

def World.ThreadActive (w : World) (threadId : String) : Prop :=
  exists a, a ∈ w.store.assignments ∧ a.threadId = threadId ∧ a.status.isActive = true

def World.Owes (w : World) (owed : Call -> List String) (id : String) : Prop :=
  exists call, call ∈ w.calls ∧ id ∈ owed call

/-- The thread, if there is one, has an active assignment or a call that settles
it. -/
def World.Accounted (w : World) (threadId : String) : Prop :=
  (exists t, t ∈ w.threads ∧ t.id = threadId) ->
    w.ThreadActive threadId ∨ w.Owes Call.owedThreads threadId

instance (w : World) (threadId : String) : Decidable (w.Accounted threadId) := by
  unfold World.Accounted World.ThreadActive World.Owes
  infer_instance

/-- What has to hold before a step of a call: a call that has something to settle
does not fail, a device is revoked when none of its assignments is queued or
running, and a thread is set to queued or running while it is accounted for. -/
def StepSettles (w : World) : Call -> Input -> Prop
  | call, .fault => call.owedTurns = [] ∧ call.owedThreads = []
  | .revoke deviceId, .tick _ =>
      forall a, a ∈ w.store.assignments -> a.deviceId = deviceId ->
        isLive a.status = false
  | .createThread threadId, .tick _ => w.Accounted threadId
  | .claimThread threadId, .tick _ => w.Accounted threadId
  | _, _ => True

instance (w : World) (call : Call) (input : Input) :
    Decidable (StepSettles w call input) := by
  induction input using Input.casesOn <;> induction call using Call.casesOn <;>
    dsimp only [StepSettles] <;> infer_instance

def Settles (w : World) : Action -> Prop
  | .call _ => True
  | .step i input => forall call, call ∈ w.calls[i]? -> StepSettles w call input

instance (w : World) (action : Action) : Decidable (Settles w action) := by
  induction action using Action.casesOn <;> dsimp only [Settles] <;> infer_instance

/-- What a call in flight relies on. -/
def Call.Sound (w : World) : Call -> Prop
  | .createInsert input => w.HasTurn input.id
  | .finishReview id threadId =>
      exists a, a ∈ w.store.assignments ∧ a.id = id ∧ a.threadId = threadId
  | .settleTurn _ _ state status => state ≠ .running ∧ Rested status
  | .settleThread _ status => Rested status
  | _ => True

structure Settling (w : World) : Prop where
  ids : Table.UniqueKey Assignment.id w.store.assignments
  hasTurn : forall a, a ∈ w.store.assignments -> w.HasTurn a.id
  calls : forall call, call ∈ w.calls -> call.Sound w
  turns : forall a, a ∈ w.store.assignments -> isLive a.status = false ->
    w.TurnEnded a.id ∨ w.Owes Call.owedTurns a.id
  threads : forall a, a ∈ w.store.assignments -> w.ThreadRests a.threadId ∨
    w.Owes Call.owedThreads a.threadId ∨ w.ThreadActive a.threadId

/-!
## What a step does to the assignments
-/

/-- An assignment that stops being queued or running, or active, is left to the
call. -/
structure LeftTo (w : World) (next : Call) (p : Assignment -> Prop)
    (s : AssignmentStatus -> AssignmentStatus) : Prop where
  turns : forall a, a ∈ w.store.assignments -> p a -> isLive (s a.status) = false ->
    isLive a.status = false ∨ a.id ∈ next.owedTurns
  threads : forall a, a ∈ w.store.assignments -> p a -> a.status.isActive = true ->
    (s a.status).isActive = true ∨ a.threadId ∈ next.owedThreads

inductive RowChange (w w' : World) (next : Call) : Prop where
  | same (h : w'.store.assignments = w.store.assignments)
  | added (a : Assignment) (h : w'.store.assignments = w.store.assignments ++ [a])
      (hqueued : a.status = .queued) (hturn : w.HasTurn a.id)
      (hfresh : forall b, b ∈ w.store.assignments -> b.id ≠ a.id)
  | moved (p : Assignment -> Prop) (s : AssignmentStatus -> AssignmentStatus)
      (h : Rewrites w.store w'.store p s) (hleft : LeftTo w next p s)

variable {w w' : World} {a : Assignment}

theorem getAssignment_of_mem (hids : Table.UniqueKey Assignment.id w.store.assignments)
    (ha : a ∈ w.store.assignments) : w.getAssignment a.id = some a := by
  unfold World.getAssignment
  cases hfound : w.store.assignments.find? (fun b => b.id == a.id) with
  | none =>
      have hnot := List.find?_eq_none.mp hfound a ha
      rw [beq_self_eq_true] at hnot
      exact absurd rfl hnot
  | some b =>
      have hbeq := List.find?_some hfound
      have hid : b.id = a.id := beq_iff_eq.mp hbeq
      rw [hids.eq_of_key (List.mem_of_find?_eq_some hfound) ha hid]

theorem mem_endedRow (hids : Table.UniqueKey Assignment.id w.store.assignments)
    (ha : a ∈ w.store.assignments) : (a.id, a.threadId) ∈ w.endedRow a.id := by
  unfold World.endedRow
  rw [getAssignment_of_mem hids ha]
  exact List.mem_singleton.mpr rfl

theorem endedRow_owed (hids : Table.UniqueKey Assignment.id w.store.assignments)
    (ended : List (String × String)) (ha : a ∈ w.store.assignments) :
    a.id ∈ (ended ++ w.endedRow a.id).map Prod.fst ∧
      a.threadId ∈ (ended ++ w.endedRow a.id).map Prod.snd := by
  have hmem := List.mem_append_right ended (mem_endedRow hids ha)
  constructor
  · exact List.mem_map.mpr ⟨_, hmem, rfl⟩
  · exact List.mem_map.mpr ⟨_, hmem, rfl⟩

variable {next call : Call}

variable {id : String}

theorem leftTo_of_owes {p : Assignment -> Prop}
    {s : AssignmentStatus -> AssignmentStatus} (hp : forall a, p a -> a.id = id)
    (howes : forall a, a ∈ w.store.assignments -> a.id = id ->
      a.id ∈ next.owedTurns ∧ a.threadId ∈ next.owedThreads) :
    LeftTo w next p s := by
  constructor
  · intro a ha hpa _
    exact .inr (howes a ha (hp a hpa)).left
  · intro a ha hpa _
    exact .inr (howes a ha (hp a hpa)).right

theorem leftTo_of_review {p : Assignment -> Prop} {s : AssignmentStatus -> AssignmentStatus}
    (hp : forall a, p a -> a.id = id ∧ a.status = .review)
    (howes : forall a, a ∈ w.store.assignments -> a.id = id -> a.threadId ∈ next.owedThreads) :
    LeftTo w next p s := by
  constructor
  · intro a ha hpa _
    rw [(hp a hpa).right]
    exact .inl rfl
  · intro a ha hpa _
    exact .inr (howes a ha (hp a hpa).left)

theorem owed_afterFinish (id threadId : String) (state : SessionState) :
    (afterFinish id threadId state).owedTurns = [id] ∧
      (afterFinish id threadId state).owedThreads = [threadId] := by
  unfold afterFinish
  split
  · exact ⟨rfl, rfl⟩
  · exact ⟨rfl, rfl⟩

variable {input : Input}

theorem RowStep.rowChange (h : RowStep w call input w' next)
    (hids : Table.UniqueKey Assignment.id w.store.assignments) (hsound : call.Sound w)
    (hok : StepSettles w call input) : RowChange w w' next := by
  -- the row that is read with its id
  have hread : forall {id : String} {a b : Assignment}, w.getAssignment id = some a ->
      b ∈ w.store.assignments -> b.id = id -> b.threadId = a.threadId := by
    intro id a b ha hb hid
    rw [← hid, getAssignment_of_mem hids hb] at ha
    rw [Option.some.inj ha]
  cases h with
  | failed _ => exact RowChange.same rfl
  | elsewhere hrows _ _ _ _ => exact RowChange.same hrows
  | turn _ _ _ => exact RowChange.same rfl
  | inserted input now st hinsert =>
      rcases insertAssignment_spec hinsert with ⟨hfresh, hrows, _⟩
      exact RowChange.added (newRow input now) hrows rfl hsound hfresh
  | queued _ _ => exact RowChange.same rfl
  | claimed id deviceId hash expires now st threadId hclaim =>
      apply RowChange.moved _ _ (claimAssignment_rewrites hclaim)
      constructor
      · intro a _ _ hlive
        cases hlive
      · intro a _ _ _
        exact Or.inl rfl
  | running _ _ => exact RowChange.same rfl
  | renewed id hash expires now =>
      rcases (renewLease_getD w.store id hash expires now).left with ⟨p, hrenew⟩
      apply RowChange.moved _ _ hrenew
      constructor
      · intro a _ _ hlive
        exact Or.inl hlive
      · intro a _ _ hactive
        exact Or.inl hactive
  | finished id hash state error now status st a hstatus hfinish ha =>
      apply RowChange.moved _ _ (finishAssignment_rewrites hfinish)
      apply leftTo_of_owes (fun b hb => hb.left)
      intro b hb hid
      rcases owed_afterFinish id a.threadId state with ⟨hturns, hthreads⟩
      rw [hturns, hthreads, hid, hread ha hb hid]
      exact ⟨List.mem_singleton.mpr rfl, List.mem_singleton.mpr rfl⟩
  | reviewed id threadId now st hcomplete =>
      apply RowChange.moved _ _ (completeAssignmentReview_rewrites hcomplete)
      apply leftTo_of_review (fun b hb => ⟨hb.left, hb.right.left⟩)
      intro b hb hid
      rcases hsound with ⟨a, ha, haid, hathread⟩
      have hsame := hids.eq_of_key hb ha (hid.trans haid.symm)
      rw [hsame, hathread]
      exact List.mem_singleton.mpr rfl
  | unreviewed _ _ _ => exact RowChange.same rfl
  | settledTurn _ _ _ _ _ => exact RowChange.same rfl
  | settledThread _ _ _ => exact RowChange.same rfl
  | completed id now st a hcomplete ha =>
      apply RowChange.moved _ _ (completeAssignmentReview_rewrites hcomplete)
      apply leftTo_of_review (fun b hb => ⟨hb.left, hb.right.left⟩)
      intro b hb hid
      rw [hread ha hb hid]
      exact List.mem_singleton.mpr rfl
  | cancelled id now st a hcancel ha =>
      apply RowChange.moved _ _ (cancelAssignment_rewrites hcancel)
      apply leftTo_of_owes (fun b hb => hb.left)
      intro b hb hid
      rw [hid, hread ha hb hid]
      exact ⟨List.mem_singleton.mpr rfl, List.mem_singleton.mpr rfl⟩
  | revoked deviceId now =>
      apply RowChange.moved _ _ (revokeDevice_rewrites w.store deviceId now)
      have hnone : forall b, b ∈ w.store.assignments -> b.deviceId = deviceId ->
          isLive b.status = false := hok
      constructor
      · intro b hb hp _
        exact Or.inl (hnone b hb hp.left)
      · intro b hb hp _
        have hnot := hnone b hb hp.left
        rcases hp.right with hstatus | hstatus
        · rw [hstatus] at hnot
          cases hnot
        · rw [hstatus] at hnot
          cases hnot
  | expired id ids ended now =>
      apply RowChange.moved _ _ (expireOne_rewrites w.store id now)
      apply leftTo_of_owes (fun b hb => hb.left)
      intro b hb hid
      rw [← hid]
      exact endedRow_owed hids ended hb
  | offline id ids ended now =>
      apply RowChange.moved _ _ (failOne_rewrites w.store id now)
      apply leftTo_of_owes (fun b hb => hb.left)
      intro b hb hid
      rw [← hid]
      exact endedRow_owed hids ended hb
  | sweptTurn _ _ _ _ => exact RowChange.same rfl
  | sweptThread _ _ _ => exact RowChange.same rfl

namespace RowChange

variable {w w' : World} {next : Call}

theorem ids (h : RowChange w w' next) (hids : Table.UniqueKey Assignment.id w.store.assignments) :
    Table.UniqueKey Assignment.id w'.store.assignments := by
  cases h with
  | same h =>
      rw [h]
      exact hids
  | added a h _ _ hfresh =>
      rw [h]
      apply hids.concat
      intro hmem
      rcases List.mem_map.mp hmem with ⟨b, hb, hid⟩
      exact hfresh b hb hid
  | moved p s h _ =>
      rcases h.rows with ⟨q, f, hrows, _, hf⟩
      rw [hrows]
      exact hids.updateWhere (fun a => (hf a).left)

theorem mem (h : RowChange w w' next) {a' : Assignment} (ha' : a' ∈ w'.store.assignments) :
    (exists a, a ∈ w.store.assignments ∧ a.id = a'.id ∧ a.threadId = a'.threadId ∧
      (isLive a'.status = false -> isLive a.status = false ∨ a'.id ∈ next.owedTurns)) ∨
    (a'.status = .queued ∧ w.HasTurn a'.id) := by
  cases h with
  | same h =>
      rw [h] at ha'
      exact .inl ⟨a', ha', rfl, rfl, .inl⟩
  | added a h hqueued hturn _ =>
      rw [h] at ha'
      rcases List.mem_append.mp ha' with hold | hnew
      · exact .inl ⟨a', hold, rfl, rfl, .inl⟩
      · rw [List.mem_singleton.mp hnew]
        exact .inr ⟨hqueued, hturn⟩
  | moved p s h hleft =>
      rcases h.mem ha' with ⟨a, ha, hid, hthread, hsame | ⟨hp, hset⟩⟩
      · rw [hsame]
        exact .inl ⟨a, ha, hid.symm, hthread.symm, .inl⟩
      · rw [hset, hid, hthread]
        exact .inl ⟨a, ha, rfl, rfl, hleft.turns a ha hp⟩

theorem mem_of_mem (h : RowChange w w' next) {a : Assignment} (ha : a ∈ w.store.assignments) :
    exists a', a' ∈ w'.store.assignments ∧ a'.id = a.id ∧ a'.threadId = a.threadId ∧
      (a.status.isActive = true ->
        a'.status.isActive = true ∨ a.threadId ∈ next.owedThreads) := by
  cases h with
  | same h =>
      rw [h]
      exact ⟨a, ha, rfl, rfl, .inl⟩
  | added b h _ _ _ =>
      rw [h]
      exact ⟨a, List.mem_append_left _ ha, rfl, rfl, .inl⟩
  | moved p s h hleft =>
      rcases h.mem_of_mem ha with ⟨a', ha', hid, hthread, hsame | ⟨hp, hset⟩⟩
      · rw [← hsame]
        exact ⟨a', ha', hid, hthread, .inl⟩
      · refine ⟨a', ha', hid, hthread, ?_⟩
        rw [hset]
        exact hleft.threads a ha hp

theorem active (h : RowChange w w' next) {threadId : String} (hactive : w.ThreadActive threadId) :
    w'.ThreadActive threadId ∨ threadId ∈ next.owedThreads := by
  rcases hactive with ⟨a, ha, hthread, hstatus⟩
  rcases h.mem_of_mem ha with ⟨a', ha', _, hsame, hmoved⟩
  rcases hmoved hstatus with hstill | howed
  · exact .inl ⟨a', ha', hsame.trans hthread, hstill⟩
  · rw [hthread] at howed
    exact .inr howed

end RowChange

/-!
## What a step does to the turns
-/

inductive TurnChange (w w' : World) (call next : Call) : Prop where
  | same (hturns : w'.turns = w.turns)
      (howes : forall id, id ∈ call.owedTurns -> id ∈ next.owedTurns)
  | added (id : String)
      (hturns : w'.turns =
        w.turns ++ [{ assignmentId := id, status := .running }])
      (hfresh : forall t, t ∈ w.turns -> t.assignmentId ≠ id)
      (howes : call.owedTurns = [])
  | ended (id : String) (state : SessionState) (hstate : state ≠ .running)
      (hturns : w'.turns = (w.finishTurn id state).turns)
      (howes : forall x, x ∈ call.owedTurns -> x = id ∨ x ∈ next.owedTurns)

theorem RowStep.turnChange (h : RowStep w call input w' next) (hsound : call.Sound w)
    (hok : StepSettles w call input) : TurnChange w w' call next := by
  have hnone : forall {call next : Call}, call.owedTurns = [] ->
      forall id, id ∈ call.owedTurns -> id ∈ next.owedTurns := by
    intro call next howes id hid
    rw [howes] at hid
    cases hid
  cases h with
  | failed _ => exact TurnChange.same rfl (hnone hok.left)
  | elsewhere _ hturns _ howes _ =>
      apply TurnChange.same hturns
      intro id hid
      rw [howes.left]
      exact hid
  | turn input now hfresh => exact TurnChange.added input.id rfl hfresh rfl
  | inserted _ _ _ _ => exact TurnChange.same rfl (hnone rfl)
  | queued _ _ => exact TurnChange.same rfl (hnone rfl)
  | claimed _ _ _ _ _ _ _ _ => exact TurnChange.same rfl (hnone rfl)
  | running _ _ => exact TurnChange.same rfl (hnone rfl)
  | renewed _ _ _ _ => exact TurnChange.same rfl (hnone rfl)
  | finished _ _ _ _ _ _ _ _ _ _ _ => exact TurnChange.same rfl (hnone rfl)
  | reviewed _ _ _ _ _ => exact TurnChange.same rfl (fun _ hid => hid)
  | unreviewed _ _ _ => exact TurnChange.same rfl (fun _ hid => hid)
  | settledTurn id threadId state status now =>
      apply TurnChange.ended id state hsound.left rfl
      intro x hx
      exact Or.inl (List.mem_singleton.mp hx)
  | settledThread _ _ _ => exact TurnChange.same rfl (hnone rfl)
  | completed _ _ _ _ _ _ => exact TurnChange.same rfl (hnone rfl)
  | cancelled _ _ _ _ _ _ => exact TurnChange.same rfl (hnone rfl)
  | revoked _ _ => exact TurnChange.same rfl (hnone rfl)
  | expired id ids ended now =>
      refine TurnChange.same rfl ?_
      intro x hx
      show x ∈ (ended ++ w.endedRow id).map Prod.fst
      rw [List.map_append]
      exact List.mem_append_left _ hx
  | offline id ids ended now =>
      refine TurnChange.same rfl ?_
      intro x hx
      show x ∈ (ended ++ w.endedRow id).map Prod.fst
      rw [List.map_append]
      exact List.mem_append_left _ hx
  | sweptTurn id threadId rest now =>
      apply TurnChange.ended id SessionState.interrupted (fun heq => by cases heq) rfl
      intro x hx
      exact List.mem_cons.mp hx
  | sweptThread _ _ _ => exact TurnChange.same rfl (fun _ hid => hid)

namespace TurnChange

variable {w w' : World} {call next : Call}

variable {id : String}

theorem hasTurn (h : TurnChange w w' call next) (hid : w.HasTurn id) : w'.HasTurn id := by
  rcases hid with ⟨t, ht, hassignment⟩
  cases h with
  | same hturns _ =>
      refine ⟨t, ?_, hassignment⟩
      rw [hturns]
      exact ht
  | added _ hturns _ _ =>
      refine ⟨t, ?_, hassignment⟩
      rw [hturns]
      exact List.mem_append_left _ ht
  | ended id' state _ hturns _ =>
      unfold World.HasTurn
      rw [hturns]
      cases hp : t.assignmentId == id' with
      | true => exact ⟨_, Table.mem_updateWhere_of_pos _ ht hp, hassignment⟩
      | false => exact ⟨t, Table.mem_updateWhere_of_neg _ ht hp, hassignment⟩

theorem turnEnded_finishTurn (w : World) (id : String) {state : SessionState}
    (hstate : state ≠ .running) : (w.finishTurn id state).TurnEnded id := by
  intro t ht hid
  rcases Table.mem_updateWhere ht with ⟨t0, _, ⟨_, heq⟩ | ⟨hne, heq⟩⟩
  · rw [heq]
    exact hstate
  · rw [← heq, hid, beq_self_eq_true] at hne
    cases hne

theorem stays_ended (h : TurnChange w w' call next) (hid : w.HasTurn id)
    (hended : w.TurnEnded id) : w'.TurnEnded id := by
  intro t ht hassignment
  cases h with
  | same hturns _ =>
      rw [hturns] at ht
      exact hended t ht hassignment
  | added id' hturns hfresh _ =>
      rw [hturns] at ht
      rcases List.mem_append.mp ht with hold | hnew
      · exact hended t hold hassignment
      · rcases hid with ⟨t0, ht0, hid0⟩
        apply absurd hid0
        rw [← hassignment, List.mem_singleton.mp hnew]
        exact hfresh t0 ht0
  | ended id' state hstate hturns _ =>
      rw [hturns] at ht
      rcases Table.mem_updateWhere ht with ⟨t0, ht0, ⟨_, heq⟩ | ⟨_, heq⟩⟩
      · rw [heq]
        exact hstate
      · rw [heq] at hassignment ⊢
        exact hended t0 ht0 hassignment

theorem owed (h : TurnChange w w' call next) (hid : id ∈ call.owedTurns) :
    w'.TurnEnded id ∨ id ∈ next.owedTurns := by
  cases h with
  | same _ howes => exact Or.inr (howes id hid)
  | added _ _ _ howes =>
      rw [howes] at hid
      cases hid
  | ended id' state hstate hturns howes =>
      rcases howes id hid with heq | hnext
      · apply Or.inl
        rw [heq]
        unfold World.TurnEnded
        rw [hturns]
        exact turnEnded_finishTurn w id' hstate
      · exact Or.inr hnext

end TurnChange

/-!
## What a step does to the threads
-/

inductive ThreadChange (w w' : World) (call next : Call) : Prop where
  | same (hthreads : w'.threads = w.threads)
      (howes : forall id, id ∈ call.owedThreads -> id ∈ next.owedThreads)
  | saved (threadId : String) (status : TaskStatus)
      (hstatus : Rested status ∨ w.Accounted threadId)
      (hthreads : w'.threads = (w.saveThread threadId status).threads)
      (howes : forall id, id ∈ call.owedThreads ->
        (id = threadId ∧ Rested status) ∨ id ∈ next.owedThreads)

theorem RowStep.threadChange (h : RowStep w call input w' next) (hsound : call.Sound w)
    (hok : StepSettles w call input) : ThreadChange w w' call next := by
  have hnone : forall {call next : Call}, call.owedThreads = [] ->
      forall id, id ∈ call.owedThreads -> id ∈ next.owedThreads := by
    intro call next howes id hid
    rw [howes] at hid
    cases hid
  cases h with
  | failed _ => exact ThreadChange.same rfl (hnone hok.right)
  | elsewhere _ _ hthreads howes _ =>
      apply ThreadChange.same hthreads
      intro id hid
      rw [howes.right]
      exact hid
  | turn _ _ _ => exact ThreadChange.same rfl (hnone rfl)
  | inserted _ _ _ _ => exact ThreadChange.same rfl (hnone rfl)
  | queued threadId now =>
      apply ThreadChange.saved threadId TaskStatus.queued (Or.inr hok) rfl
      intro id hid
      cases hid
  | claimed _ _ _ _ _ _ _ _ => exact ThreadChange.same rfl (hnone rfl)
  | running threadId now =>
      apply ThreadChange.saved threadId TaskStatus.running (Or.inr hok) rfl
      intro id hid
      cases hid
  | renewed _ _ _ _ => exact ThreadChange.same rfl (hnone rfl)
  | finished _ _ _ _ _ _ _ _ _ _ _ => exact ThreadChange.same rfl (hnone rfl)
  | reviewed _ _ _ _ _ => exact ThreadChange.same rfl (fun _ hid => hid)
  | unreviewed _ _ _ => exact ThreadChange.same rfl (fun _ hid => hid)
  | settledTurn _ _ _ _ _ => exact ThreadChange.same rfl (fun _ hid => hid)
  | settledThread threadId status now =>
      have hrested : Rested status := hsound
      apply ThreadChange.saved threadId status (Or.inl hrested) rfl
      intro id hid
      exact Or.inl ⟨List.mem_singleton.mp hid, hrested⟩
  | completed _ _ _ _ _ _ => exact ThreadChange.same rfl (hnone rfl)
  | cancelled _ _ _ _ _ _ => exact ThreadChange.same rfl (hnone rfl)
  | revoked _ _ => exact ThreadChange.same rfl (hnone rfl)
  | expired id ids ended now =>
      refine ThreadChange.same rfl ?_
      intro x hx
      show x ∈ (ended ++ w.endedRow id).map Prod.snd
      rw [List.map_append]
      exact List.mem_append_left _ hx
  | offline id ids ended now =>
      refine ThreadChange.same rfl ?_
      intro x hx
      show x ∈ (ended ++ w.endedRow id).map Prod.snd
      rw [List.map_append]
      exact List.mem_append_left _ hx
  | sweptTurn _ _ _ _ => exact ThreadChange.same rfl (fun _ hid => hid)
  | sweptThread threadId rest now =>
      have hrested : Rested TaskStatus.waitingForNetwork := by decide
      apply ThreadChange.saved threadId TaskStatus.waitingForNetwork (Or.inl hrested) rfl
      intro id hid
      rcases List.mem_cons.mp hid with heq | hrest
      · exact Or.inl ⟨heq, hrested⟩
      · exact Or.inr hrest

namespace ThreadChange

variable {w w' : World} {call next : Call}

theorem rests_saveThread (w : World) (threadId : String) {status : TaskStatus}
    (hstatus : Rested status) : (w.saveThread threadId status).ThreadRests threadId := by
  intro t ht hid
  rcases Table.mem_updateWhere ht with ⟨t0, _, ⟨_, heq⟩ | ⟨hne, heq⟩⟩
  · rw [heq]
    exact hstatus
  · rw [← heq, hid, beq_self_eq_true] at hne
    cases hne

theorem stays_resting (h : ThreadChange w w' call next) {threadId : String}
    (hrests : w.ThreadRests threadId) :
    w'.ThreadRests threadId ∨ w.ThreadActive threadId ∨
      w.Owes Call.owedThreads threadId := by
  cases h with
  | same hthreads _ =>
      apply Or.inl
      unfold World.ThreadRests
      rw [hthreads]
      exact hrests
  | saved saved status hstatus hthreads _ =>
      have hother : forall t, t ∈ w'.threads -> t.id = threadId -> t.id ≠ saved ->
          Rested t.status := by
        intro t ht hid hne
        rw [hthreads] at ht
        rcases Table.mem_updateWhere ht with ⟨t0, ht0, ⟨hp, heq⟩ | ⟨_, heq⟩⟩
        · rw [heq] at hne
          exact absurd (beq_iff_eq.mp hp) hne
        · rw [heq] at hid ⊢
          exact hrests t0 ht0 hid
      by_cases hsame : threadId = saved
      · rcases hstatus with hrested | haccounted
        · apply Or.inl
          unfold World.ThreadRests
          rw [hthreads, hsame]
          exact rests_saveThread w saved hrested
        · by_cases hrow : exists t, t ∈ w.threads ∧ t.id = saved
          · rw [hsame]
            exact Or.inr (haccounted hrow)
          · apply Or.inl
            intro t ht hid
            rw [hthreads] at ht
            rcases Table.mem_updateWhere ht with ⟨t0, ht0, ⟨hp, _⟩ | ⟨_, heq⟩⟩
            · exact absurd ⟨t0, ht0, beq_iff_eq.mp hp⟩ hrow
            · rw [heq] at hid ⊢
              exact hrests t0 ht0 hid
      · apply Or.inl
        intro t ht hid
        exact hother t ht hid (fun heq => hsame (hid.symm.trans heq))

theorem owed (h : ThreadChange w w' call next) {threadId : String}
    (hid : threadId ∈ call.owedThreads) :
    w'.ThreadRests threadId ∨ threadId ∈ next.owedThreads := by
  cases h with
  | same _ howes => exact Or.inr (howes threadId hid)
  | saved saved status _ hthreads howes =>
      rcases howes threadId hid with ⟨heq, hrested⟩ | hnext
      · apply Or.inl
        unfold World.ThreadRests
        rw [hthreads, heq]
        exact rests_saveThread w saved hrested
      · exact Or.inr hnext

end ThreadChange

/-!
## What a call goes on with
-/

theorem finishStatus_ne_running {state : SessionState} {status : AssignmentStatus}
    (h : finishStatus state = .ok status) : state ≠ .running := by
  intro hrunning
  rw [hrunning] at h
  cases h

theorem rested_finishedThreadStatus {state : SessionState}
    (h : state ≠ .running) (completed : Bool) :
    Rested (finishedThreadStatus state completed) := by
  cases state with
  | running => exact absurd rfl h
  | completed =>
      cases completed with
      | false => exact ⟨by decide, by decide⟩
      | true => exact ⟨by decide, by decide⟩
  | interrupted =>
      show Rested .paused
      decide
  | failed =>
      show Rested .failed
      decide

theorem Call.sound_of_plain (w : World) (h : call.plain = true) : call.Sound w := by
  cases call with
  | createInsert _ => cases h
  | finishReview _ _ => cases h
  | settleTurn _ _ _ _ => cases h
  | settleThread _ _ => cases h
  | _ => trivial

theorem mem_of_getAssignment (h : w.getAssignment id = some a) :
    a ∈ w.store.assignments ∧ a.id = id := by
  have hbeq := List.find?_some h
  exact ⟨List.mem_of_find?_eq_some h, beq_iff_eq.mp hbeq⟩

theorem RowStep.sound_next (h : RowStep w call input w' next) (hsound : call.Sound w)
    (hrows : RowChange w w' next) : next.Sound w' := by
  cases h with
  | failed _ => trivial
  | elsewhere _ _ _ _ hnext => exact Call.sound_of_plain _ hnext
  | turn input now _ =>
      exact ⟨_, List.mem_concat_self, rfl⟩
  | inserted _ _ _ _ => trivial
  | queued _ _ => trivial
  | claimed _ _ _ _ _ _ _ _ => trivial
  | running _ _ => trivial
  | renewed _ _ _ _ => trivial
  | finished id hash state error now status st a hstatus hfinish ha =>
      have hstate := finishStatus_ne_running hstatus
      unfold afterFinish
      split
      · rcases mem_of_getAssignment ha with ⟨hmem, hid⟩
        rcases hrows.mem_of_mem hmem with ⟨a', ha', hid', hthread, _⟩
        exact ⟨a', ha', hid'.trans hid, hthread⟩
      · exact ⟨hstate, rested_finishedThreadStatus hstate false⟩
  | reviewed _ _ _ _ _ =>
      exact ⟨by decide, rested_finishedThreadStatus (by decide) true⟩
  | unreviewed _ _ _ =>
      exact ⟨by decide, rested_finishedThreadStatus (by decide) false⟩
  | settledTurn _ _ _ _ _ => exact hsound.right
  | settledThread _ _ _ => trivial
  | completed _ _ _ _ _ _ => exact ⟨by decide, by decide⟩
  | cancelled _ _ _ _ _ _ => exact ⟨by decide, by decide, by decide⟩
  | revoked _ _ => trivial
  | expired _ _ _ _ => trivial
  | offline _ _ _ _ => trivial
  | sweptTurn _ _ _ _ => trivial
  | sweptThread _ _ _ => trivial

theorem Call.Sound.kept {next' : Call} {c : Call} (h : c.Sound w) (hrows : RowChange w w' next')
    (hturns : TurnChange w w' call next) : c.Sound w' := by
  cases c with
  | createInsert input => exact hturns.hasTurn h
  | finishReview id threadId =>
      rcases h with ⟨a, ha, hid, hthread⟩
      rcases hrows.mem_of_mem ha with ⟨a', ha', hid', hthread', _⟩
      exact ⟨a', ha', hid'.trans hid, hthread'.trans hthread⟩
  | settleTurn _ _ _ _ => exact h
  | settleThread _ _ => exact h
  | _ => trivial

theorem Call.Sound.withCalls {c : Call} (h : c.Sound w) (calls : List Call) :
    c.Sound { w with calls := calls } := by
  cases c with
  | _ => exact h

variable {i : Nat} {owed : Call -> List String}

theorem owes_next (hcall : w.calls[i]? = some call) (hid : id ∈ owed next) : (w.advance w' i next).Owes owed id :=
  ⟨next, List.mem_of_getElem? (Cells.getElem?_set_of_some hcall next), hid⟩

theorem owes_advance (hcall : w.calls[i]? = some call) (w' : World) (next : Call) (h : w.Owes owed id) :
    id ∈ owed call ∨ (w.advance w' i next).Owes owed id := by
  rcases h with ⟨c, hc, hid⟩
  rcases List.getElem?_of_mem hc with ⟨j, hj⟩
  by_cases hij : j = i
  · rw [hij, hcall] at hj
    rw [← Option.some.inj hj] at hid
    exact Or.inl hid
  · apply Or.inr
    refine ⟨c, ?_, hid⟩
    apply List.mem_of_getElem? (i := j)
    show (w.calls.set i next)[j]? = some c
    rw [Cells.getElem?_set_of_ne hij]
    exact hj

theorem Settling.rowStep (h : Settling w) (hcall : w.calls[i]? = some call)
    (hok : StepSettles w call input) (hstep : RowStep w call input w' next) :
    Settling (w.advance w' i next) := by
  have hsound := h.calls call (List.mem_of_getElem? hcall)
  have hrows := hstep.rowChange h.ids hsound hok
  have hturns := hstep.turnChange hsound hok
  have hthreads := hstep.threadChange hsound hok
  have hhas : forall a, a ∈ w'.store.assignments -> w'.HasTurn a.id := by
    intro a ha
    rcases hrows.mem ha with ⟨a0, ha0, hid, _, _⟩ | ⟨_, hturn⟩
    · rw [← hid]
      exact hturns.hasTurn (h.hasTurn a0 ha0)
    · exact hturns.hasTurn hturn
  -- what was owed for a thread is still owed or settled
  have howedThread : forall {threadId}, w.Owes Call.owedThreads threadId ->
      w'.ThreadRests threadId ∨ (w.advance w' i next).Owes Call.owedThreads threadId := by
    intro threadId howes
    rcases owes_advance hcall w' next howes with hmine | hother
    · rcases hthreads.owed hmine with hrests | hnext
      · exact .inl hrests
      · exact .inr (owes_next hcall hnext)
    · exact .inr hother
  have hactive : forall {threadId}, w.ThreadActive threadId ->
      (w.advance w' i next).Owes Call.owedThreads threadId ∨
        w'.ThreadActive threadId := by
    intro threadId hthread
    rcases hrows.active hthread with hstill | hnext
    · exact .inr hstill
    · exact .inl (owes_next hcall hnext)
  constructor
  · exact hrows.ids h.ids
  · exact hhas
  · intro c hc
    rcases List.mem_or_eq_of_mem_set hc with hold | hnew
    · exact ((h.calls c hold).kept hrows hturns).withCalls _
    · rw [hnew]
      exact (hstep.sound_next hsound hrows).withCalls _
  · intro a ha hlive
    rcases hrows.mem ha with ⟨a0, ha0, hid, _, hmoved⟩ | ⟨hqueued, _⟩
    · rcases hmoved hlive with hbefore | hnext
      · rw [← hid]
        rcases h.turns a0 ha0 hbefore with hended | howes
        · exact .inl (hturns.stays_ended (h.hasTurn a0 ha0) hended)
        · rcases owes_advance hcall w' next howes with hmine | hother
          · rcases hturns.owed hmine with hended | hnext
            · exact .inl hended
            · exact .inr (owes_next hcall hnext)
          · exact .inr hother
      · exact .inr (owes_next hcall hnext)
    · rw [hqueued] at hlive
      cases hlive
  · intro a ha
    rcases hrows.mem ha with ⟨a0, ha0, _, hthread, _⟩ | ⟨hqueued, _⟩
    · rw [← hthread]
      rcases h.threads a0 ha0 with hrests | howes | hstill
      · rcases hthreads.stays_resting hrests with hrests | hstill | howes
        · exact .inl hrests
        · exact .inr (hactive hstill)
        · rcases howedThread howes with hrests | howes
          · exact .inl hrests
          · exact .inr (.inl howes)
      · rcases howedThread howes with hrests | howes
        · exact .inl hrests
        · exact .inr (.inl howes)
      · exact .inr (hactive hstill)
    · apply Or.inr
      apply Or.inr
      refine ⟨a, ha, rfl, ?_⟩
      rw [hqueued]
      rfl

theorem sound_request (w : World) (request : Request) : request.call.Sound w := by
  cases request with
  | _ => trivial

theorem Settling.request (h : Settling w) (request : Request) :
    Settling { w with calls := w.calls ++ [request.call] } := by
  have howes : forall {owed id}, w.Owes owed id ->
      { w with calls := w.calls ++ [request.call] }.Owes owed id := by
    intro owed id hid
    rcases hid with ⟨call, hcall, hid⟩
    exact ⟨call, List.mem_append_left _ hcall, hid⟩
  constructor
  · exact h.ids
  · exact h.hasTurn
  · intro call hcall
    rcases List.mem_append.mp hcall with hold | hnew
    · exact (h.calls call hold).withCalls _
    · rw [List.mem_singleton.mp hnew]
      exact sound_request _ request
  · intro a ha hlive
    rcases h.turns a ha hlive with hended | hid
    · exact .inl hended
    · exact .inr (howes hid)
  · intro a ha
    rcases h.threads a ha with hrests | hid | hactive
    · exact .inl hrests
    · exact .inr (.inl (howes hid))
    · exact .inr (.inr hactive)

theorem Settling.step {action : Action} (h : Settling w) (hok : Settles w action)
    (hstep : step sha256 w action = some w') : Settling w' := by
  cases step_cases hstep with
  | called request => exact h.request request
  | stepped i input hcall hnext =>
      exact h.rowStep hcall (hok _ hcall) (Call.step_rows hnext)

theorem settling_of_reachable (h : (machine sha256).ReachableUnder Settles w) : Settling w := by
  refine h.invariant (P := Settling) ?_ (fun w action w' hw hok hstep => hw.step hok hstep)
  intro w hstart
  rcases hstart with ⟨hstore, _, hcalls, _, _⟩
  have hrows : w.store.assignments = [] := by
    rw [hstore]
    rfl
  constructor
  · rw [hrows]
    exact List.nodup_nil
  · intro a ha
    rw [hrows] at ha
    cases ha
  · intro call hcall
    rw [hcalls] at hcall
    cases hcall
  · intro a ha
    rw [hrows] at ha
    cases ha
  · intro a ha
    rw [hrows] at ha
    cases ha

def Quiescent (w : World) : Prop :=
  forall call, call ∈ w.calls -> call = .returned

theorem not_owes_of_quiescent (h : Quiescent w)
    (hreturned : owed .returned = []) (id : String) : ¬ w.Owes owed id := by
  intro howes
  rcases howes with ⟨call, hcall, hid⟩
  rw [h call hcall, hreturned] at hid
  cases hid

/-- In every run whose steps settle what they owe, the turn of an ended assignment
has ended, and its thread is neither queued nor running unless another assignment of
it is active, or a call in flight still settles them; so both hold once no call is
in flight. -/
theorem ended_assignment_is_settled {w : World} (h : (machine sha256).ReachableUnder Settles w)
    {a : Assignment} (ha : a ∈ w.store.assignments) (hended : a.status.isActive = false) :
    w.HasTurn a.id ∧
      (w.TurnEnded a.id ∨ w.Owes Call.owedTurns a.id) ∧
      (w.ThreadRests a.threadId ∨ w.Owes Call.owedThreads a.threadId ∨
        w.ThreadActive a.threadId) ∧
      (Quiescent w ->
        w.TurnEnded a.id ∧ (w.ThreadRests a.threadId ∨ w.ThreadActive a.threadId)) := by
  have hsettling := settling_of_reachable h
  have hlive : isLive a.status = false := by
    cases hstatus : a.status with
    | queued =>
        rw [hstatus] at hended
        cases hended
    | running =>
        rw [hstatus] at hended
        cases hended
    | _ => rfl
  have hturn := hsettling.turns a ha hlive
  have hthread := hsettling.threads a ha
  refine ⟨hsettling.hasTurn a ha, hturn, hthread, ?_⟩
  intro hquiescent
  constructor
  · rcases hturn with hended | howes
    · exact hended
    · exact absurd howes (not_owes_of_quiescent hquiescent rfl a.id)
  · rcases hthread with hrests | howes | hactive
    · exact Or.inl hrests
    · exact absurd howes (not_owes_of_quiescent hquiescent rfl a.threadId)
    · exact Or.inr hactive

instance (w : World) : Decidable (Quiescent w) := by
  unfold Quiescent
  infer_instance

/-- A claimed assignment is cancelled. -/
theorem ended_assignment_is_settled_cancelled :
    exists w a, (machine onePatchDigest).ReachableUnder Settles w ∧
      a ∈ w.store.assignments ∧ a.status = AssignmentStatus.cancelled ∧ Quiescent w ∧
      w.TurnEnded a.id ∧ (w.ThreadRests a.threadId ∨ w.ThreadActive a.threadId) := by
  have hrun : Option.any
      (fun w => w.store.assignments.any (fun a =>
        decide (a.status = AssignmentStatus.cancelled ∧ Quiescent w)))
      ((machine onePatchDigest).runUnder Settles oneThread
        (upToClaim ++
          [Action.call (Request.cancel "a"), Action.step 3 (Input.tick 1),
            Action.step 3 (Input.tick 1), Action.step 3 (Input.tick 1)])) = true := by
    decide +kernel
  rcases (machine onePatchDigest).exists_reachable_of_runUnder
    ⟨rfl, rfl, rfl, rfl, rfl⟩ hrun with ⟨w, hw, hp⟩
  rcases List.any_eq_true.mp hp with ⟨a, ha, hp⟩
  rcases of_decide_eq_true hp with ⟨hcancelled, hquiescent⟩
  have hended : a.status.isActive = false := by
    rw [hcancelled]
    rfl
  rcases ended_assignment_is_settled hw ha hended with ⟨_, _, _, hsettled⟩
  exact ⟨w, a, hw, ha, hcancelled, hquiescent, hsettled hquiescent⟩

/-- The device of a claimed assignment is revoked: the assignment is cancelled, and
its turn and its thread stay running. -/
theorem revoked_assignment_keeps_running :
    ¬ forall w a, (machine onePatchDigest).Reachable w ->
      a ∈ w.store.assignments -> a.status.isActive = false -> Quiescent w ->
        w.TurnEnded a.id ∧ (w.ThreadRests a.threadId ∨ w.ThreadActive a.threadId) := by
  intro hall
  have hrun : Option.any
      (fun w => w.store.assignments.any (fun a =>
        decide (a.status.isActive = false ∧ Quiescent w ∧
          exists t, t ∈ w.turns ∧ t.assignmentId = a.id ∧
            t.status = SessionState.running)))
      ((machine onePatchDigest).runFrom oneThread
        (upToClaim ++
          [Action.call (Request.revoke "d"), Action.step 3 (Input.tick 1)])) = true := by
    decide +kernel
  rcases (machine onePatchDigest).exists_reachable_of_runFrom
    ⟨rfl, rfl, rfl, rfl, rfl⟩ hrun with ⟨w, hw, hp⟩
  rcases List.any_eq_true.mp hp with ⟨a, ha, hp⟩
  rcases of_decide_eq_true hp with ⟨hended, hquiescent, t, ht, hid, hrunning⟩
  exact (hall w a hw ha hended hquiescent).left t ht hid hrunning

end Calls
end Collaboration
end Perpetual
