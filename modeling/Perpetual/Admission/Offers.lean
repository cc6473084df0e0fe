import Perpetual.Admission.Conservation

/-!
# Offers to the waiters

A queued acquire waits for its oneshot.  As long as it does, it stands in the queue, or a
drain has popped it and is about to send: cancelling one waiter takes no other out of the
queue.
-/

namespace Perpetual
namespace Admission

open Foundation

def World.Cancelled (w : World) (id : Nat) : Prop :=
  w.oneshots[id]? = some .closed

instance (w : World) (id : Nat) : Decidable (w.Cancelled id) :=
  inferInstanceAs (Decidable (_ = _))

/-- In the queue, or reserved by a drain. -/
def World.Offered (w : World) (id : Nat) : Prop :=
  (exists waiter, waiter ∈ w.state.waiters ∧ waiter.id = id) ∨
    exists waiter, .reserved waiter ∈ w.drains ∧ waiter.id = id

structure Listed (w : World) : Prop where
  next : w.state.nextWaiterId = w.oneshots.length
  guards : forall id, id ∈ w.guards -> w.Cancelled id
  offered : forall id, w.oneshots[id]? = some .waiting -> w.Offered id

/-!
## The state operations
-/

variable {id : Nat}

theorem mem_removeWaiter {st : State} {waiter : Waiter} (h : waiter ∈ st.waiters)
    (hne : waiter.id ≠ id) : waiter ∈ (st.removeWaiter id).waiters := by
  unfold State.removeWaiter
  cases hfind : st.waiters.findIdx? (fun w => w.id == id) with
  | none => exact h
  | some idx =>
      rcases List.findIdx?_eq_some_iff_getElem.mp hfind with ⟨hlt, heq, _⟩
      refine Cells.mem_eraseIdx_of_ne (List.getElem?_eq_getElem hlt) h ?_
      intro hsame
      rw [← hsame] at heq
      exact hne (beq_iff_eq.mp heq)

theorem waiters_removeWaiter_sublist (st : State) (id : Nat) :
    (st.removeWaiter id).waiters.Sublist st.waiters := by
  unfold State.removeWaiter
  cases st.waiters.findIdx? (fun w => w.id == id) with
  | none => exact List.Sublist.refl _
  | some idx => exact List.eraseIdx_sublist _ _

theorem nextWaiterId_removeWaiter (st : State) (id : Nat) :
    (st.removeWaiter id).nextWaiterId = st.nextWaiterId := by
  unfold State.removeWaiter
  cases st.waiters.findIdx? (fun w => w.id == id) with
  | none => rfl
  | some idx => rfl

theorem waiters_release (st : State) (scope : Option String) :
    (st.release scope).waiters = st.waiters ∧
      (st.release scope).nextWaiterId = st.nextWaiterId := by
  cases scope with
  | none => exact ⟨rfl, rfl⟩
  | some s =>
      unfold State.release
      dsimp only
      cases st.perScope s with
      | none => exact ⟨rfl, rfl⟩
      | some count => exact ⟨rfl, rfl⟩

theorem waiters_admitSlot (st : State) (scope : Option String) :
    (st.admitSlot scope).waiters = st.waiters ∧
      (st.admitSlot scope).nextWaiterId = st.nextWaiterId := by
  cases scope with
  | none => exact ⟨rfl, rfl⟩
  | some s => exact ⟨rfl, rfl⟩

/-!
## The steps
-/

variable {w w' : World}

variable {old : Oneshot}

theorem cancelled_set (hget : w.oneshots[id]? = some old)
    (hopen : old ≠ .closed) (new : Oneshot) {other : Nat} (hcancelled : w.Cancelled other) :
    (w.oneshots.set id new)[other]? = some .closed := by
  have hne : other ≠ id := by
    intro heq
    have hclosed : w.oneshots[other]? = some .closed := hcancelled
    rw [heq, hget] at hclosed
    injection hclosed with hclosed
    exact hopen hclosed
  exact (Cells.getElem?_set_of_ne hne new).trans hcancelled

/-- A step that queues nobody. -/
theorem Listed.keep (h : Listed w) (hnext : w'.state.nextWaiterId = w.state.nextWaiterId)
    (hlength : w'.oneshots.length = w.oneshots.length)
    (hguards : forall id, id ∈ w'.guards -> w'.Cancelled id)
    (hoffered : forall id, w'.oneshots[id]? = some .waiting ->
      w.oneshots[id]? = some .waiting ∧ (w.Offered id -> w'.Offered id)) :
    Listed w' where
  next := by
    rw [hnext, h.next, hlength]
  guards := hguards
  offered := fun id hid => (hoffered id hid).right (h.offered id (hoffered id hid).left)

/-- The queue and the reserved waiters stay. -/
theorem Listed.same (h : Listed w) (honeshots : w'.oneshots = w.oneshots)
    (hguards : w'.guards = w.guards) (hwaiters : w'.state.waiters = w.state.waiters)
    (hnext : w'.state.nextWaiterId = w.state.nextWaiterId)
    (hdrains : forall waiter, .reserved waiter ∈ w.drains ->
      .reserved waiter ∈ w'.drains) : Listed w' := by
  apply h.keep hnext (by rw [honeshots])
  · intro id hid
    rw [hguards] at hid
    unfold World.Cancelled
    rw [honeshots]
    exact h.guards id hid
  · intro id hid
    rw [honeshots] at hid
    refine ⟨hid, fun hoffered => ?_⟩
    rcases hoffered with ⟨waiter, hwaiter, heq⟩ | ⟨waiter, hdrain, heq⟩
    · left
      rw [hwaiters]
      exact ⟨waiter, hwaiter, heq⟩
    · exact .inr ⟨waiter, hdrains waiter hdrain, heq⟩

theorem Listed.release (h : Listed w) (scope : Option String) :
    Listed
      { w with
        state := w.state.release scope
        drains := w.drains ++ [.next] } := by
  apply h.same
  · rfl
  · rfl
  · exact (waiters_release w.state scope).left
  · exact (waiters_release w.state scope).right
  · exact fun waiter hwaiter => List.mem_append_left _ hwaiter

theorem Listed.dropped (h : Listed w) (p : AdmissionPermit) : Listed (w.dropped p) := by
  unfold World.dropped
  split
  · exact h.release p.scope
  · exact h

theorem Listed.held (h : Listed w) (held : List AdmissionPermit) : Listed { w with held := held } :=
  h.same rfl rfl rfl rfl (fun _ hwaiter => hwaiter)

theorem Listed.grant (h : Listed w) (scope : Option String) : Listed (w.grant scope) :=
  h.same rfl rfl (waiters_admitSlot w.state scope).left (waiters_admitSlot w.state scope).right
    (fun _ hwaiter => hwaiter)

theorem Listed.enqueue (h : Listed w) (scope : Option String) :
    Listed
      { w with
        state := w.state.enqueue scope
        oneshots := w.oneshots ++ [.waiting] } := by
  constructor
  · show w.state.nextWaiterId + 1 = (w.oneshots ++ [Oneshot.waiting]).length
    rw [h.next, List.length_append, List.length_singleton]
  · exact fun id hid => Cells.getElem?_concat_of_some (h.guards id hid) _
  · intro id hid
    rcases Cells.getElem?_concat_cases hid with hold | ⟨hnew, _⟩
    · rcases h.offered id hold with ⟨waiter, hwaiter, heq⟩ | hdrain
      · exact .inl ⟨waiter, List.mem_append_left _ hwaiter, heq⟩
      · exact .inr hdrain
    · refine .inl ⟨_, List.mem_append_cons_self, ?_⟩
      rw [hnew, ← h.next]

/-- A oneshot that is waiting or sent changes, and not to waiting. -/
theorem Listed.set (h : Listed w) {new : Oneshot}
    (hget : w.oneshots[id]? = some old) (hopen : old ≠ .closed)
    (hnew : new ≠ .waiting) : Listed { w with oneshots := w.oneshots.set id new } := by
  refine Listed.keep h rfl ?_ ?_ ?_
  · exact List.length_set
  · exact fun other hother => cancelled_set hget hopen new (h.guards other hother)
  · intro other hother
    rcases Cells.getElem?_set_cases hother with ⟨_, heq⟩ | ⟨_, hold⟩
    · exact absurd heq.symm hnew
    · exact ⟨hold, fun hoffered => hoffered⟩

theorem Listed.close (h : Listed w)
    (hget : w.oneshots[id]? = some old) (hopen : old ≠ Oneshot.closed) :
    Listed
      { w with
        oneshots := w.oneshots.set id Oneshot.closed
        guards := w.guards ++ [id] } := by
  have hnew : Oneshot.closed ≠ Oneshot.waiting := by
    intro heq
    cases heq
  have hset := h.set hget hopen hnew
  refine ⟨hset.next, ?_, hset.offered⟩
  intro other hother
  rcases List.mem_append.mp hother with hold | hnew
  · exact hset.guards other hold
  · rw [List.mem_singleton.mp hnew]
    exact Cells.getElem?_set_of_some hget Oneshot.closed

theorem Listed.dropGuard (h : Listed w) (hstep : w.dropGuard id = some w') : Listed w' := by
  unfold World.dropGuard at hstep
  split at hstep
  · rename_i hguard
    cases hstep
    refine Listed.keep h (nextWaiterId_removeWaiter w.state id) rfl ?_ ?_
    · exact fun other hother => h.guards other (List.mem_of_mem_erase hother)
    · intro other hother
      refine ⟨hother, fun hoffered => ?_⟩
      rcases hoffered with ⟨waiter, hwaiter, heq⟩ | hdrain
      · refine .inl ⟨waiter, mem_removeWaiter hwaiter ?_, heq⟩
        intro hid
        have hclosed : w.oneshots[id]? = some .closed := h.guards id hguard
        rw [← hid, heq] at hclosed
        rw [show w.oneshots[other]? = some Oneshot.waiting from hother] at hclosed
        cases hclosed
      · exact .inr hdrain
  · cases hstep

variable {index : Nat}

theorem Listed.reserve {idx : Nat} {waiter : Waiter} {st : State} (h : Listed w)
    (hdrain : w.drains[index]? = some .next) (hget : w.state.waiters[idx]? = some waiter)
    (hwaiters : st.waiters = w.state.waiters.eraseIdx idx)
    (hnext : st.nextWaiterId = w.state.nextWaiterId) :
    Listed
      { w with
        state := st
        drains := w.drains.set index (.reserved waiter) } := by
  refine Listed.keep h hnext rfl h.guards ?_
  intro id hid
  refine ⟨hid, fun hoffered => ?_⟩
  rcases hoffered with ⟨other, hother, heq⟩ | ⟨other, hother, heq⟩
  · by_cases hsame : other = waiter
    · refine .inr ⟨waiter, ?_, hsame ▸ heq⟩
      exact List.mem_of_getElem? (Cells.getElem?_set_of_some hdrain _)
    · left
      refine ⟨other, ?_, heq⟩
      rw [hwaiters]
      exact Cells.mem_eraseIdx_of_ne hget hother hsame
  · have hne : Drain.reserved other ≠ .next := by
      intro hsame
      cases hsame
    exact .inr ⟨other, Cells.mem_set_of_ne hdrain hother hne _, heq⟩

theorem Listed.drainPop (h : Listed w) (hstep : w.drainPop index = some w') : Listed w' := by
  unfold World.drainPop at hstep
  split at hstep
  · rename_i hdrain
    cases hpop : w.state.popAndReserve with
    | none =>
        rw [hpop] at hstep
        cases hstep
        refine Listed.same h rfl rfl rfl rfl ?_
        intro waiter hwaiter
        refine Cells.mem_eraseIdx_of_ne hdrain hwaiter ?_
        intro hsame
        cases hsame
    | some found =>
        rcases found with ⟨waiter, st⟩
        rw [hpop] at hstep
        injection hstep with hstep
        rcases popAndReserve_eq_some hpop with ⟨idx, hget, _, _, hst⟩
        have hframe := waiters_admitSlot
          { w.state with waiters := w.state.waiters.eraseIdx idx } waiter.scope
        rw [← hst] at hframe
        rw [← hstep]
        exact h.reserve hdrain hget hframe.left hframe.right
  · cases hstep

/-- A drain that does not hold the waiter any more. -/
theorem Listed.turn {old new : Drain} (h : Listed w) (hdrain : w.drains[index]? = some old)
    (hold : forall waiter, old = .reserved waiter -> w.oneshots[waiter.id]? ≠ some .waiting) :
    Listed { w with drains := w.drains.set index new } := by
  refine Listed.keep h rfl rfl h.guards ?_
  intro id hid
  refine ⟨hid, fun hoffered => ?_⟩
  rcases hoffered with hqueued | ⟨waiter, hwaiter, heq⟩
  · exact .inl hqueued
  · have hne : Drain.reserved waiter ≠ old := by
      intro hsame
      exact hold waiter hsame.symm (heq.symm ▸ hid)
    exact .inr ⟨waiter, Cells.mem_set_of_ne hdrain hwaiter hne new, heq⟩

theorem Listed.drainSend (h : Listed w) (hstep : w.drainSend index = some w') : Listed w' := by
  unfold World.drainSend at hstep
  split at hstep
  · rename_i waiter hdrain
    split at hstep
    · rename_i hget
      cases hstep
      have hopen : Oneshot.waiting ≠ Oneshot.closed := by
        intro heq
        cases heq
      have hnew : Oneshot.sent (permit waiter.scope) ≠ Oneshot.waiting := by
        intro heq
        cases heq
      refine Listed.turn (h.set hget hopen hnew) hdrain ?_
      intro other hother
      rw [← Drain.reserved.inj hother]
      rw [Cells.getElem?_set_of_some hget]
      intro heq
      cases heq
    · rename_i hget
      cases hstep
      refine Listed.turn h hdrain ?_
      intro other hother
      rw [← Drain.reserved.inj hother]
      exact hget
  · cases hstep

theorem Listed.step {a : Action} (h : Listed w) (hstep : step w a = some w') : Listed w' := by
  cases a with
  | tryAcquire scope =>
      cases hstep
      unfold World.tryAcquire
      split
      · exact h.grant scope
      · exact h
  | acquireQueued scope =>
      cases hstep
      unfold World.acquireQueued
      split
      · exact h.grant scope
      · exact h.enqueue scope
  | receive id =>
      simp only [Admission.step, World.receive] at hstep
      split at hstep
      · rename_i p hget
        cases hstep
        have hset := h.set hget (fun heq => by cases heq)
          (show Oneshot.received ≠ Oneshot.waiting from fun heq => by cases heq)
        exact hset.held _
      · cases hstep
  | dropReceiver id =>
      simp only [Admission.step, World.dropReceiver] at hstep
      split at hstep
      · rename_i hget
        cases hstep
        exact h.close hget (fun heq => by cases heq)
      · rename_i p hget
        cases hstep
        exact (h.close hget (fun heq => by cases heq)).dropped p
      · cases hstep
  | dropGuard id => exact h.dropGuard hstep
  | dropPermit index =>
      simp only [Admission.step, World.dropPermit] at hstep
      split at hstep
      · cases hstep
      · rename_i p _
        cases hstep
        exact (h.held _).dropped p
  | resize capacity =>
      cases hstep
      exact h.same rfl rfl rfl rfl (fun waiter hwaiter => List.mem_append_left _ hwaiter)
  | setScopeCap scope cap =>
      cases hstep
      exact h.same rfl rfl rfl rfl (fun waiter hwaiter => List.mem_append_left _ hwaiter)
  | drainPop index => exact h.drainPop hstep
  | drainSend index => exact h.drainSend hstep
  | drainTakeBack index =>
      simp only [Admission.step, World.drainTakeBack] at hstep
      split at hstep
      · rename_i waiter hdrain
        cases hstep
        have hturn : Listed { w with drains := w.drains.set index .next } := by
          refine Listed.turn h hdrain ?_
          intro other hother
          cases hother
        refine Listed.same hturn rfl rfl ?_ ?_ (fun _ hwaiter => hwaiter)
        · exact (waiters_release w.state waiter.scope).left
        · exact (waiters_release w.state waiter.scope).right
      · cases hstep

theorem reachable_listed {capacity : Nat} (h : (machine capacity).Reachable w) : Listed w := by
  refine Machine.ReachableUnder.invariant (P := Listed) ?_ ?_ h
  · intro w0 hw0
    have hw0' : w0 = World.new capacity := hw0
    rw [hw0']
    refine ⟨rfl, fun id hid => absurd hid List.not_mem_nil, fun id hid => ?_⟩
    cases hid
  · intro w a w' hw _ hstep
    exact hw.step hstep

end Admission
end Perpetual
