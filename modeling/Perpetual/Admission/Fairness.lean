import Perpetual.Admission.Wakeup

/-!
# First in, first out

The calls of `acquire_queued` in the order in which they take the lock, and the
order in which their slots are reserved.  A release unlocks before its drain
starts, and a call that takes the lock in between finds the slot of a waiter.  In
every run in which a call finds room only while nobody of its scope waits, the
calls of a scope are admitted in order.
-/

namespace Perpetual
namespace Admission

open Foundation
open Cells

/-- A call of `acquire_queued`, with the number of its waiter when it was queued. -/
structure Call where
  scope : Option String
  waiter : Option Nat
deriving DecidableEq, Repr

/-- The world with the calls in the order they took the lock, and those admitted
in the order they were. -/
structure History where
  world : World
  calls : List Call
  admitted : List Nat

def History.new (capacity : Nat) : History :=
  { world := World.new capacity
    calls := []
    admitted := [] }

def History.callOf (h : History) (id : Nat) : Option Nat :=
  h.calls.findIdx? (fun c => decide (c.waiter = some id))

def History.record (h : History) (w : World) : Action -> History
  | .acquireQueued scope =>
      if h.world.state.canAdmit scope then
        { world := w
          calls := h.calls ++ [{ scope := scope, waiter := none }]
          admitted := h.admitted ++ [h.calls.length] }
      else
        { world := w
          calls := h.calls ++
            [{ scope := scope, waiter := some h.world.state.nextWaiterId }]
          admitted := h.admitted }
  | .drainPop index =>
      match h.world.drains[index]?, h.world.state.popAndReserve with
      | some .next, some (waiter, _) =>
          { h with
            world := w
            admitted := h.admitted ++ (h.callOf waiter.id).toList }
      | _, _ => { h with world := w }
  | _ => { h with world := w }

def fairMachine (capacity : Nat) : Machine History Action where
  start := fun h => h = History.new capacity
  step := fun h a => (step h.world a).map (fun w => h.record w a)

/-- A call that was queued before a later one of its scope, and is not cancelled,
is admitted before it. -/
def FirstInFirstOut (h : History) : Prop :=
  forall (a b : Nat) (ca cb : Call) (id n : Nat),
    h.calls[a]? = some ca -> h.calls[b]? = some cb -> a < b -> ca.scope = cb.scope ->
    ca.waiter = some id -> ¬ h.world.Cancelled id -> h.admitted[n]? = some b ->
    a ∈ h.admitted.take n

/-- A call finds room only while every waiter of its scope is cancelled. -/
def InTurn (h : History) : Action -> Prop
  | .acquireQueued scope =>
      h.world.state.canAdmit scope = true ->
        forall waiter, waiter ∈ h.world.state.waiters -> waiter.scope = scope ->
          h.world.Cancelled waiter.id
  | _ => True

instance (h : History) (a : Action) : Decidable (InTurn h a) := by
  unfold InTurn
  split
  · infer_instance
  · infer_instance

/-- The queue holds the calls that were queued and are neither admitted nor
cancelled, in order. -/
structure Ledger (h : History) : Prop where
  known : forall a, a ∈ h.admitted -> a < h.calls.length
  numbered : forall (a : Nat) (c : Call) (id : Nat), h.calls[a]? = some c ->
    c.waiter = some id -> id < h.world.state.nextWaiterId
  growing : forall (a b : Nat) (ca cb : Call) (ia ib : Nat),
    h.calls[a]? = some ca -> h.calls[b]? = some cb -> a < b ->
    ca.waiter = some ia -> cb.waiter = some ib -> ia < ib
  queue : h.world.state.waiters.Pairwise (fun x y => x.id < y.id)
  called : forall waiter, waiter ∈ h.world.state.waiters ->
    exists a : Nat, h.calls[a]? =
      some { scope := waiter.scope, waiter := some waiter.id }
  awaited : forall (a : Nat) (c : Call) (id : Nat), h.calls[a]? = some c ->
    c.waiter = some id ->
    a ∈ h.admitted ∨ { id := id, scope := c.scope } ∈ h.world.state.waiters ∨
      h.world.Cancelled id
  guards : forall id, id ∈ h.world.guards -> h.world.Cancelled id

/-- A step that enqueues and admits nobody takes cancelled waiters from the queue
at most. -/
structure Quiet (w w' : World) : Prop where
  next : w'.state.nextWaiterId = w.state.nextWaiterId
  waiters : w'.state.waiters.Sublist w.state.waiters
  kept : forall waiter, waiter ∈ w.state.waiters ->
    waiter ∈ w'.state.waiters ∨ w'.Cancelled waiter.id
  cancelled : forall id, w.Cancelled id -> w'.Cancelled id
  guards : forall id, id ∈ w'.guards -> id ∈ w.guards ∨ w'.Cancelled id

variable {w w' : World}

theorem Quiet.same (hnext : w'.state.nextWaiterId = w.state.nextWaiterId)
    (hwaiters : w'.state.waiters = w.state.waiters)
    (hcancelled : forall id, w.Cancelled id -> w'.Cancelled id)
    (hguards : forall id, id ∈ w'.guards -> id ∈ w.guards ∨ w'.Cancelled id) : Quiet w w' := by
  refine ⟨hnext, ?_, ?_, hcancelled, hguards⟩
  · rw [hwaiters]
  · intro waiter hwaiter
    rw [hwaiters]
    exact .inl hwaiter

variable {h : History}

theorem Ledger.quiet (hl : Ledger h) (hq : Quiet h.world w') : Ledger { h with world := w' } := by
  constructor
  · exact hl.known
  · intro a c id hc hid
    rw [hq.next]
    exact hl.numbered a c id hc hid
  · exact hl.growing
  · exact hl.queue.sublist hq.waiters
  · intro waiter hwaiter
    exact hl.called waiter (hq.waiters.subset hwaiter)
  · intro a c id hc hid
    rcases hl.awaited a c id hc hid with hadmitted | hqueued | hcancelled
    · exact .inl hadmitted
    · exact .inr (hq.kept _ hqueued)
    · exact .inr (.inr (hq.cancelled id hcancelled))
  · intro id hid
    rcases hq.guards id hid with hold | hnew
    · exact hq.cancelled id (hl.guards id hold)
    · exact hnew

theorem FirstInFirstOut.quiet (hf : FirstInFirstOut h) (hq : Quiet h.world w') :
    FirstInFirstOut { h with world := w' } := by
  intro a b ca cb id n ha hb hlt hscope hid hlive hn
  apply hf a b ca cb id n ha hb hlt hscope hid _ hn
  intro hcancelled
  exact hlive (hq.cancelled id hcancelled)

theorem quiet_release (w : World) (scope : Option String) (drains : List Drain) :
    Quiet w { w with state := w.state.release scope, drains := drains } := by
  have hstate : (w.state.release scope).nextWaiterId = w.state.nextWaiterId ∧
      (w.state.release scope).waiters = w.state.waiters := by
    cases scope with
    | none => exact ⟨rfl, rfl⟩
    | some s =>
        unfold State.release
        dsimp only
        cases w.state.perScope s with
        | none => exact ⟨rfl, rfl⟩
        | some count => exact ⟨rfl, rfl⟩
  exact Quiet.same hstate.left hstate.right (fun _ hc => hc) (fun _ hg => .inl hg)

theorem quiet_dropped {base : World} (h : Quiet w base) (p : AdmissionPermit) :
    Quiet w (base.dropped p) := by
  unfold World.dropped
  split
  · have hr := quiet_release base p.scope (base.drains ++ [.next])
    refine ⟨hr.next.trans h.next, hr.waiters.trans h.waiters, ?_, ?_, ?_⟩
    · intro waiter hwaiter
      rcases h.kept waiter hwaiter with hkept | hcancelled
      · exact hr.kept waiter hkept
      · exact .inr hcancelled
    · exact h.cancelled
    · exact h.guards
  · exact h

variable {id : Nat}

theorem quiet_receive (h : w.receive id = some w') : Quiet w w' := by
  unfold World.receive at h
  split at h
  · rename_i p hget
    cases h
    apply Quiet.same
    · rfl
    · rfl
    · intro other hcancelled
      exact cancelled_set hget (by intro heq; cases heq) _ hcancelled
    · intro other hguard
      exact .inl hguard
  · cases h

theorem quiet_close {old : Oneshot} (hget : w.oneshots[id]? = some old) (hopen : old ≠ .closed) :
    Quiet w { w with
      oneshots := w.oneshots.set id .closed
      guards := w.guards ++ [id] } := by
  apply Quiet.same
  · rfl
  · rfl
  · intro other hcancelled
    exact cancelled_set hget hopen _ hcancelled
  · intro other hguard
    rcases List.mem_append.mp hguard with hold | hnew
    · exact .inl hold
    · rw [List.mem_singleton.mp hnew]
      exact .inr (getElem?_set_of_some hget .closed)

theorem quiet_dropReceiver (h : w.dropReceiver id = some w') : Quiet w w' := by
  unfold World.dropReceiver at h
  split at h
  · rename_i hget
    cases h
    exact quiet_close hget (by intro heq; cases heq)
  · rename_i p hget
    cases h
    exact quiet_dropped (quiet_close hget (by intro heq; cases heq)) p
  · cases h

theorem quiet_dropGuard (hguards : forall id, id ∈ w.guards -> w.Cancelled id)
    (h : w.dropGuard id = some w') : Quiet w w' := by
  unfold World.dropGuard at h
  split at h
  · rename_i hguard
    cases h
    refine ⟨nextWaiterId_removeWaiter w.state id, waiters_removeWaiter_sublist w.state id, ?_,
      fun _ hc => hc, ?_⟩
    · intro waiter hwaiter
      by_cases hid : waiter.id = id
      · rw [hid]
        exact .inr (hguards id hguard)
      · exact .inl (mem_removeWaiter hwaiter hid)
    · intro other hother
      exact .inl (List.mem_of_mem_erase hother)
  · cases h

variable {index : Nat}

theorem quiet_drainSend (h : w.drainSend index = some w') : Quiet w w' := by
  unfold World.drainSend at h
  split at h
  · split at h
    · rename_i waiter _ _ hget
      cases h
      apply Quiet.same
      · rfl
      · rfl
      · intro other hcancelled
        exact cancelled_set hget (by intro heq; cases heq) _ hcancelled
      · exact fun _ hg => .inl hg
    · cases h
      exact Quiet.same rfl rfl (fun _ hc => hc) (fun _ hg => .inl hg)
  · cases h

theorem quiet_grant (w : World) (scope : Option String) : Quiet w (w.grant scope) := by
  cases scope with
  | none => exact Quiet.same rfl rfl (fun _ hc => hc) (fun _ hg => .inl hg)
  | some s => exact Quiet.same rfl rfl (fun _ hc => hc) (fun _ hg => .inl hg)

theorem Ledger.enqueue (hl : Ledger h) (scope : Option String) :
    Ledger {
      world := { h.world with
        state := h.world.state.enqueue scope
        oneshots := h.world.oneshots ++ [.waiting] }
      calls := h.calls ++
        [{ scope := scope, waiter := some h.world.state.nextWaiterId }]
      admitted := h.admitted } := by
  have hold : forall id, h.world.Cancelled id ->
      (h.world.oneshots ++ [.waiting])[id]? = some .closed := by
    intro id hcancelled
    exact getElem?_concat_of_some hcancelled _
  constructor
  · intro a ha
    rw [List.length_append]
    exact Nat.lt_add_right _ (hl.known a ha)
  · intro a c id hc hid
    rcases getElem?_concat_cases hc with hc | ⟨_, rfl⟩
    · exact Nat.lt_succ_of_lt (hl.numbered a c id hc hid)
    · cases hid
      exact Nat.lt_succ_self _
  · intro a b ca cb ia ib ha hb hlt hia hib
    rcases getElem?_concat_cases ha with ha | ⟨hlast, _⟩
    · rcases getElem?_concat_cases hb with hb | ⟨_, rfl⟩
      · exact hl.growing a b ca cb ia ib ha hb hlt hia hib
      · cases hib
        exact hl.numbered a ca ia ha hia
    · have hbound := (List.getElem?_eq_some_iff.mp hb).1
      rw [List.length_append, List.length_singleton] at hbound
      omega
  · apply List.pairwise_append.mpr
    refine ⟨hl.queue, List.pairwise_singleton _ _, ?_⟩
    intro x hx y hy
    rcases hl.called x hx with ⟨a, ha⟩
    rw [List.mem_singleton.mp hy]
    exact hl.numbered a _ x.id ha rfl
  · intro waiter hwaiter
    rcases List.mem_append.mp hwaiter with hwaiter | hwaiter
    · rcases hl.called waiter hwaiter with ⟨a, ha⟩
      exact ⟨a, getElem?_concat_of_some ha _⟩
    · rw [List.mem_singleton.mp hwaiter]
      exact ⟨h.calls.length, List.getElem?_concat_length⟩
  · intro a c id hc hid
    rcases getElem?_concat_cases hc with hc | ⟨_, rfl⟩
    · rcases hl.awaited a c id hc hid with hadmitted | hqueued | hcancelled
      · exact .inl hadmitted
      · exact .inr (.inl (List.mem_append_left _ hqueued))
      · exact .inr (.inr (hold id hcancelled))
    · cases hid
      exact .inr (.inl List.mem_concat_self)
  · intro id hid
    exact hold id (hl.guards id hid)

theorem FirstInFirstOut.enqueue (hl : Ledger h) (hf : FirstInFirstOut h) (scope : Option String) :
    FirstInFirstOut {
      world := { h.world with
        state := h.world.state.enqueue scope
        oneshots := h.world.oneshots ++ [.waiting] }
      calls := h.calls ++
        [{ scope := scope, waiter := some h.world.state.nextWaiterId }]
      admitted := h.admitted } := by
  intro a b ca cb id n ha hb hlt hscope hid hlive hn
  have hbound := hl.known b (List.mem_of_getElem? hn)
  rcases getElem?_concat_cases hb with hb | ⟨hlast, _⟩
  · rcases getElem?_concat_cases ha with ha | ⟨hlast, _⟩
    · apply hf a b ca cb id n ha hb hlt hscope hid _ hn
      intro hcancelled
      exact hlive (getElem?_concat_of_some hcancelled _)
    · omega
  · omega

variable {c : Nat}

theorem FirstInFirstOut.admit (hf : FirstInFirstOut h)
    (hturn : forall (a : Nat) (ca cc : Call) (id : Nat), h.calls[a]? = some ca ->
      h.calls[c]? = some cc -> a < c -> ca.scope = cc.scope -> ca.waiter = some id ->
      ¬ h.world.Cancelled id -> a ∈ h.admitted) :
    FirstInFirstOut { h with admitted := h.admitted ++ [c] } := by
  intro a b ca cb id n ha hb hlt hscope hid hlive hn
  rcases getElem?_concat_cases hn with hn | ⟨hlast, heq⟩
  · have hmem := hf a b ca cb id n ha hb hlt hscope hid hlive hn
    have hbound := (List.getElem?_eq_some_iff.mp hn).1
    rw [List.take_append_of_le_length (Nat.le_of_lt hbound)]
    exact hmem
  · rw [heq] at hb hlt
    rw [hlast, List.take_left']
    · exact hturn a ca cb id ha hb hlt hscope hid hlive
    · rfl

theorem Ledger.direct (hl : Ledger h) (scope : Option String) :
    Ledger { h with
      calls := h.calls ++ [{ scope := scope, waiter := none }]
      admitted := h.admitted ++ [h.calls.length] } := by
  have hcases : forall (a : Nat) (c : Call) (id : Nat),
      (h.calls ++ [{ scope := scope, waiter := none }])[a]? = some c ->
      c.waiter = some id -> h.calls[a]? = some c := by
    intro a c id hc hid
    rcases getElem?_concat_cases hc with hc | ⟨_, rfl⟩
    · exact hc
    · cases hid
  constructor
  · intro a ha
    rw [List.length_append, List.length_singleton]
    rcases List.mem_append.mp ha with ha | ha
    · exact Nat.lt_succ_of_lt (hl.known a ha)
    · rw [List.mem_singleton.mp ha]
      exact Nat.lt_succ_self _
  · intro a c id hc hid
    exact hl.numbered a c id (hcases a c id hc hid) hid
  · intro a b ca cb ia ib ha hb hlt hia hib
    exact hl.growing a b ca cb ia ib (hcases a ca ia ha hia) (hcases b cb ib hb hib) hlt hia hib
  · exact hl.queue
  · intro waiter hwaiter
    rcases hl.called waiter hwaiter with ⟨a, ha⟩
    exact ⟨a, getElem?_concat_of_some ha _⟩
  · intro a c id hc hid
    rcases hl.awaited a c id (hcases a c id hc hid) hid with hadmitted | hrest
    · exact .inl (List.mem_append_left _ hadmitted)
    · exact .inr hrest
  · exact hl.guards

theorem FirstInFirstOut.direct (hl : Ledger h) (hf : FirstInFirstOut h) {scope : Option String}
    (hturn : forall waiter, waiter ∈ h.world.state.waiters -> waiter.scope = scope ->
      h.world.Cancelled waiter.id) :
    FirstInFirstOut { h with
      calls := h.calls ++ [{ scope := scope, waiter := none }]
      admitted := h.admitted ++ [h.calls.length] } := by
  have hbefore : FirstInFirstOut { h with
      calls := h.calls ++ [{ scope := scope, waiter := none }] } := by
    intro a b ca cb id n ha hb hlt hscope hid hlive hn
    have hbound := hl.known b (List.mem_of_getElem? hn)
    rcases getElem?_concat_cases hb with hb | ⟨hlast, _⟩
    · rcases getElem?_concat_cases ha with ha | ⟨hlast, _⟩
      · exact hf a b ca cb id n ha hb hlt hscope hid hlive hn
      · omega
    · omega
  apply hbefore.admit
  intro a ca cc id ha hc hlt hscope hid hlive
  have hcc : cc = { scope := scope, waiter := none } := by
    have hlast : (h.calls ++ [{ scope := scope, waiter := none }])[h.calls.length]? =
        some { scope := scope, waiter := none } := List.getElem?_concat_length
    rw [hlast] at hc
    injection hc with hc
    exact hc.symm
  rcases getElem?_concat_cases ha with ha | ⟨hlast, _⟩
  · rcases hl.awaited a ca id ha hid with hadmitted | hqueued | hcancelled
    · exact hadmitted
    · rw [hcc] at hscope
      exact absurd (hturn _ hqueued hscope) hlive
    · exact absurd hcancelled hlive
  · omega

/-!
## A waiter that is served
-/

theorem Ledger.unique (hl : Ledger h) {a b : Nat} {ca cb : Call}
    (ha : h.calls[a]? = some ca) (hb : h.calls[b]? = some cb) (hca : ca.waiter = some id)
    (hcb : cb.waiter = some id) : a = b := by
  rcases Nat.lt_trichotomy a b with hlt | heq | hlt
  · exact absurd (hl.growing a b ca cb id id ha hb hlt hca hcb) (Nat.lt_irrefl id)
  · exact heq
  · exact absurd (hl.growing b a cb ca id id hb ha hlt hcb hca) (Nat.lt_irrefl id)

variable {waiter : Waiter}

theorem Ledger.callOf (hl : Ledger h) (hwaiter : waiter ∈ h.world.state.waiters) :
    exists c : Nat, h.callOf waiter.id = some c ∧
      h.calls[c]? = some { scope := waiter.scope, waiter := some waiter.id } := by
  rcases hl.called waiter hwaiter with ⟨a, ha⟩
  cases hfind : h.callOf waiter.id with
  | none =>
      have hnone := List.findIdx?_eq_none_iff.mp hfind _ (List.mem_of_getElem? ha)
      exact absurd rfl (of_decide_eq_false hnone)
  | some c =>
      rcases List.findIdx?_eq_some_iff_getElem.mp hfind with ⟨hlt, hc, _⟩
      have hget := List.getElem?_eq_getElem hlt
      have hsame := hl.unique ha hget rfl (of_decide_eq_true hc)
      rw [hsame] at ha
      exact ⟨c, rfl, ha⟩

theorem Ledger.index_lt (hl : Ledger h) {i j : Nat} {x y : Waiter}
    (hx : h.world.state.waiters[i]? = some x) (hy : h.world.state.waiters[j]? = some y)
    (hlt : x.id < y.id) : i < j := by
  rcases List.getElem?_eq_some_iff.mp hx with ⟨hi, hx⟩
  rcases List.getElem?_eq_some_iff.mp hy with ⟨hj, hy⟩
  rcases Nat.lt_trichotomy i j with hij | hij | hij
  · exact hij
  · have hsame : x = y := by
      rw [← hx, ← hy]
      simp only [hij]
    rw [hsame] at hlt
    exact absurd hlt (Nat.lt_irrefl _)
  · have hback := List.pairwise_iff_getElem.mp hl.queue j i hj hi hij
    rw [hx, hy] at hback
    exact absurd hlt (Nat.lt_asymm hback)

theorem Ledger.serve (hl : Ledger h) {idx : Nat}
    (hget : h.world.state.waiters[idx]? = some waiter)
    (hc : h.calls[c]? = some { scope := waiter.scope, waiter := some waiter.id })
    (hwaiters : w'.state.waiters = h.world.state.waiters.eraseIdx idx)
    (hnext : w'.state.nextWaiterId = h.world.state.nextWaiterId)
    (honeshots : w'.oneshots = h.world.oneshots) (hguards : w'.guards = h.world.guards) :
    Ledger { h with world := w', admitted := h.admitted ++ [c] } := by
  have hcancelled : forall id, h.world.Cancelled id -> w'.Cancelled id := by
    intro id hid
    unfold World.Cancelled
    rw [honeshots]
    exact hid
  constructor
  · intro a ha
    rcases List.mem_append.mp ha with ha | ha
    · exact hl.known a ha
    · rw [List.mem_singleton.mp ha]
      exact (List.getElem?_eq_some_iff.mp hc).1
  · intro a ca id ha hid
    rw [hnext]
    exact hl.numbered a ca id ha hid
  · exact hl.growing
  · rw [hwaiters]
    exact hl.queue.sublist (List.eraseIdx_sublist _ _)
  · intro other hother
    have hother' : other ∈ w'.state.waiters := hother
    rw [hwaiters] at hother'
    exact hl.called other (List.eraseIdx_subset hother')
  · intro a ca id ha hid
    rcases hl.awaited a ca id ha hid with hadmitted | hqueued | hclosed
    · exact .inl (List.mem_append_left _ hadmitted)
    · by_cases hsame : a = c
      · rw [hsame]
        exact .inl List.mem_concat_self
      · apply Or.inr
        apply Or.inl
        rw [hwaiters]
        refine mem_eraseIdx_of_ne hget hqueued ?_
        intro heq
        rw [← heq] at hc
        exact hsame (hl.unique ha hc hid rfl)
    · exact .inr (.inr (hcancelled id hclosed))
  · intro id hid
    have hid' : id ∈ w'.guards := hid
    rw [hguards] at hid'
    exact hcancelled id (hl.guards id hid')

theorem FirstInFirstOut.serve (hl : Ledger h) (hf : FirstInFirstOut h) {idx : Nat} (hget : h.world.state.waiters[idx]? = some waiter)
    (hadmissible : Admissible h.world.state waiter.scope)
    (hfirst : forall (j : Nat) (other : Waiter), j < idx ->
      h.world.state.waiters[j]? = some other ->
      h.world.state.canAdmit other.scope = false)
    (hc : h.calls[c]? = some { scope := waiter.scope, waiter := some waiter.id })
    (honeshots : w'.oneshots = h.world.oneshots) :
    FirstInFirstOut { h with world := w', admitted := h.admitted ++ [c] } := by
  have hlive : forall id, ¬ w'.Cancelled id -> ¬ h.world.Cancelled id := by
    intro id hid hcancelled
    apply hid
    unfold World.Cancelled
    rw [honeshots]
    exact hcancelled
  have hsame : FirstInFirstOut { h with world := w' } := by
    intro a b ca cb id n ha hb hlt hscope hid hnot hn
    exact hf a b ca cb id n ha hb hlt hscope hid (hlive id hnot) hn
  apply hsame.admit
  intro a ca cc id ha hcc hlt hscope hid hnot
  have hcc' : h.calls[c]? = some cc := hcc
  rw [hc] at hcc'
  injection hcc' with hcc'
  rcases hl.awaited a ca id ha hid with hadmitted | hqueued | hcancelled
  · exact hadmitted
  · -- a waiter of the same scope further in front would have been served
    rcases List.mem_iff_getElem?.mp hqueued with ⟨j, hj⟩
    have hsmaller := hl.growing a c ca _ id waiter.id ha hc hlt hid rfl
    have hbefore := hfirst j _ (hl.index_lt hj hget hsmaller) hj
    have hroom := (canAdmit_iff h.world.state waiter.scope).mpr hadmissible
    rw [← hcc'] at hscope
    rw [hscope] at hbefore
    rw [hroom] at hbefore
    cases hbefore
  · exact absurd hcancelled (hlive id hnot)

/-!
## Every run in which calls wait their turn
-/

theorem quiet_drainPop_none (w' : World)
    (hpop : w.drains[index]? = some .next -> w.state.popAndReserve = none)
    (h : w.drainPop index = some w') : Quiet w w' := by
  unfold World.drainPop at h
  split at h
  · rename_i hget
    rw [hpop hget] at h
    cases h
    exact Quiet.same rfl rfl (fun _ hc => hc) (fun _ hg => .inl hg)
  · cases h

theorem step_fair_drainPop (hl : Ledger h) (hf : FirstInFirstOut h)
    (hstep : h.world.drainPop index = some w') :
    Ledger (h.record w' (.drainPop index)) ∧
      FirstInFirstOut (h.record w' (.drainPop index)) := by
  unfold History.record
  dsimp only
  split
  · rename_i waiter st hnext hpop
    rcases popAndReserve_eq_some hpop with ⟨idx, hget, hadmissible, hfirst, hst⟩
    rcases hl.callOf (List.mem_of_getElem? hget) with ⟨c, hcallOf, hc⟩
    rw [hcallOf]
    have hw' : { h.world with
        state := st
        drains := h.world.drains.set index (.reserved waiter) } = w' := by
      simpa [World.drainPop, hnext, hpop] using hstep
    have hframe := waiters_admitSlot
      { h.world.state with waiters := h.world.state.waiters.eraseIdx idx } waiter.scope
    rw [← hst] at hframe
    rw [← hw']
    exact ⟨hl.serve hget hc hframe.left hframe.right rfl rfl,
      FirstInFirstOut.serve hl hf hget hadmissible hfirst hc rfl⟩
  · rename_i hnone
    have hquiet := quiet_drainPop_none (w := h.world) w' (by
        intro hget
        cases hpop : h.world.state.popAndReserve with
        | none => rfl
        | some found => exact absurd hpop (hnone _ _ hget)) hstep
    exact ⟨hl.quiet hquiet, hf.quiet hquiet⟩

theorem step_fair {a : Action} (hl : Ledger h) (hf : FirstInFirstOut h) (hok : InTurn h a)
    (hstep : step h.world a = some w') :
    Ledger (h.record w' a) ∧ FirstInFirstOut (h.record w' a) := by
  have hquiet : Quiet h.world w' ->
      Ledger { h with world := w' } ∧ FirstInFirstOut { h with world := w' } :=
    fun hq => ⟨hl.quiet hq, hf.quiet hq⟩
  cases a with
  | tryAcquire scope =>
      injection hstep with hstep
      apply hquiet
      rw [← hstep]
      unfold World.tryAcquire
      split
      · exact quiet_grant h.world scope
      · exact Quiet.same rfl rfl (fun _ hc => hc) (fun _ hg => .inl hg)
  | acquireQueued scope =>
      cases hstep
      unfold History.record World.acquireQueued
      dsimp only
      by_cases hadmit : h.world.state.canAdmit scope = true
      · rw [if_pos hadmit, if_pos hadmit]
        have hq := quiet_grant h.world scope
        have hgranted : Ledger { h with world := h.world.grant scope } := hl.quiet hq
        refine ⟨hgranted.direct scope, FirstInFirstOut.direct hgranted (hf.quiet hq) ?_⟩
        intro waiter hwaiter hscope
        exact hq.cancelled _ (hok hadmit waiter (hq.waiters.subset hwaiter) hscope)
      · rw [if_neg hadmit, if_neg hadmit]
        exact ⟨hl.enqueue scope, FirstInFirstOut.enqueue hl hf scope⟩
  | receive id => exact hquiet (quiet_receive hstep)
  | dropReceiver id => exact hquiet (quiet_dropReceiver hstep)
  | dropGuard id => exact hquiet (quiet_dropGuard hl.guards hstep)
  | dropPermit index =>
      apply hquiet
      simp only [step, World.dropPermit] at hstep
      split at hstep
      · cases hstep
      · rename_i p _
        cases hstep
        apply quiet_dropped
        exact Quiet.same rfl rfl (fun _ hc => hc) (fun _ hg => .inl hg)
  | resize capacity =>
      injection hstep with hstep
      apply hquiet
      rw [← hstep]
      exact Quiet.same rfl rfl (fun _ hc => hc) (fun _ hg => .inl hg)
  | setScopeCap scope cap =>
      injection hstep with hstep
      apply hquiet
      rw [← hstep]
      exact Quiet.same rfl rfl (fun _ hc => hc) (fun _ hg => .inl hg)
  | drainPop index => exact step_fair_drainPop hl hf hstep
  | drainSend index => exact hquiet (quiet_drainSend hstep)
  | drainTakeBack index =>
      apply hquiet
      simp only [step, World.drainTakeBack] at hstep
      split at hstep
      · rename_i waiter _
        cases hstep
        exact quiet_release h.world waiter.scope _
      · cases hstep

theorem reachable_fair {capacity : Nat} (hreach : (fairMachine capacity).ReachableUnder InTurn h) :
    Ledger h ∧ FirstInFirstOut h := by
  apply Machine.ReachableUnder.invariant (P := fun h => Ledger h ∧ FirstInFirstOut h) _ _ hreach
  · intro h0 hh0
    have hstart : h0 = History.new capacity := hh0
    rw [hstart]
    constructor
    · constructor
      · intro a ha
        cases ha
      · intro a c id hc
        cases hc
      · intro a b ca cb ia ib ha
        cases ha
      · exact List.Pairwise.nil
      · intro waiter hwaiter
        cases hwaiter
      · intro a c id hc
        cases hc
      · intro id hid
        cases hid
    · intro a b ca cb id n ha
      cases ha
  · intro h0 a h1 hinv hok hstep
    rcases Option.map_eq_some_iff.mp hstep with ⟨w', hw', hrecord⟩
    rw [← hrecord]
    exact step_fair hinv.left hinv.right hok hw'

/-- In every run in which calls wait their turn, the calls of a scope are admitted
in the order in which they took the lock. -/
theorem queued_admission_is_fifo {capacity : Nat} {h : History}
    (hreach : (fairMachine capacity).ReachableUnder InTurn h) : FirstInFirstOut h :=
  (reachable_fair hreach).right

/-- Two calls of one scope wait, the second is cancelled, and a third joins. -/
def threeWait : List Action :=
  [.tryAcquire none, .acquireQueued (some "p1"),
    .acquireQueued (some "p1"), .acquireQueued (some "p1"),
    .dropReceiver 1, .dropPermit 0, .drainPop 0, .drainSend 0,
    .drainPop 0, .receive 0, .dropPermit 0, .drainPop 0,
    .drainSend 0, .drainTakeBack 0, .drainPop 0]

theorem queued_admission_is_fifo_threeWait :
    exists h, (fairMachine 1).ReachableUnder InTurn h ∧ h.admitted = [0, 1, 2] ∧
      FirstInFirstOut h := by
  have hrun : Option.any (fun h : History => decide (h.admitted = [0, 1, 2]))
      ((fairMachine 1).runUnder InTurn (History.new 1) threeWait) = true := by
    decide +kernel
  rcases (fairMachine 1).exists_reachable_of_runUnder rfl hrun with ⟨h, hreach, hstate⟩
  exact ⟨h, hreach, of_decide_eq_true hstate, queued_admission_is_fifo hreach⟩

/-- The slot of the first waiter is released, and a second call takes the lock
before the drain does. -/
def takenBeforeDrain : List Action :=
  [.tryAcquire none, .acquireQueued none, .dropPermit 0,
    .acquireQueued none]

theorem later_call_admitted_first :
    ¬ (forall (capacity : Nat) (h : History),
        (fairMachine capacity).Reachable h -> FirstInFirstOut h) := by
  intro hclaim
  have hrun : Option.any (fun h : History => decide (
      h.calls = [{ scope := none, waiter := some 0 }, { scope := none, waiter := none }] ∧
      h.admitted = [1] ∧ ¬ h.world.Cancelled 0))
      ((fairMachine 1).runFrom (History.new 1) takenBeforeDrain) = true := by
    decide +kernel
  rcases (fairMachine 1).exists_reachable_of_runFrom rfl hrun with ⟨h, hreach, hstate⟩
  rcases of_decide_eq_true hstate with ⟨hcalls, hadmitted, hlive⟩
  have hfirst := hclaim 1 h hreach 0 1 { scope := none, waiter := some 0 }
    { scope := none, waiter := none } 0 0 (by rw [hcalls]; rfl) (by rw [hcalls]; rfl)
    Nat.zero_lt_one rfl rfl hlive (by rw [hadmitted]; rfl)
  rw [hadmitted] at hfirst
  cases hfirst

end Admission
end Perpetual
