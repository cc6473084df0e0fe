import Perpetual.Admission.Offers

/-!
# No lost wakeup

Whatever can make a queued acquire admissible leaves a drain behind it: the
release of a slot, a new capacity, a new cap, and a slot taken back from a
cancelled acquire.  A drain ends only when it finds nobody to admit, so when no
drain is left nobody in the queue can be admitted; and everybody who still waits is
in the queue then.
-/

namespace Perpetual
namespace Admission

open Foundation

/-- No waiter of the queue can be admitted, cancelled ones included. -/
def Exhausted (st : State) : Prop :=
  forall waiter, waiter ∈ st.waiters -> st.canAdmit waiter.scope = false

/-- While no drain runs, nobody in the queue can be admitted. -/
def Settled (w : World) : Prop :=
  w.drains = [] -> Exhausted w.state

/-!
## The state operations
-/

variable {st : State}

theorem canAdmit_congr {st' : State} (hrunning : st'.running = st.running)
    (hcapacity : st'.capacity = st.capacity) (hscope : st'.perScope = st.perScope)
    (hcaps : st'.scopeCaps = st.scopeCaps) (scope : Option String) :
    st'.canAdmit scope = st.canAdmit scope := by
  unfold State.canAdmit
  rw [hrunning, hcapacity, hscope, hcaps]

theorem canAdmit_of_admitSlot {scope other : Option String}
    (h : (st.admitSlot scope).canAdmit other = true) : st.canAdmit other = true := by
  rw [canAdmit_iff] at h ⊢
  rcases h with ⟨hroom, hcap⟩
  cases scope with
  | none => exact ⟨Nat.lt_of_succ_lt hroom, hcap⟩
  | some s =>
      refine ⟨Nat.lt_of_succ_lt hroom, ?_⟩
      intro t cap ht hlookup
      have hbelow := hcap t cap ht hlookup
      by_cases hts : t = s
      · rw [hts] at hbelow ⊢
        have hbelow' : (st.perScope s).getD 0 + 1 < cap := by
          simpa [State.admitSlot] using hbelow
        exact Nat.lt_of_succ_lt hbelow'
      · simpa [State.admitSlot, Function.update_of_ne hts] using hbelow

theorem Exhausted.admitSlot (h : Exhausted st) (scope : Option String) :
    Exhausted (st.admitSlot scope) := by
  intro waiter hwaiter
  have hmem : waiter ∈ st.waiters := by
    cases scope with
    | none => exact hwaiter
    | some s => exact hwaiter
  cases hadmit : (st.admitSlot scope).canAdmit waiter.scope with
  | false => rfl
  | true =>
      have hbefore := canAdmit_of_admitSlot hadmit
      rw [h waiter hmem] at hbefore
      cases hbefore

theorem Exhausted.enqueue (h : Exhausted st) {scope : Option String}
    (hfull : st.canAdmit scope = false) : Exhausted (st.enqueue scope) := by
  intro waiter hwaiter
  have hsame : (st.enqueue scope).canAdmit waiter.scope = st.canAdmit waiter.scope :=
    canAdmit_congr rfl rfl rfl rfl waiter.scope
  rw [hsame]
  rcases List.mem_append.mp hwaiter with hold | hnew
  · exact h waiter hold
  · rw [List.mem_singleton.mp hnew]
    exact hfull

theorem removeWaiter_subset (st : State) (id : Nat) :
    (st.removeWaiter id).waiters ⊆ st.waiters := by
  unfold State.removeWaiter
  cases st.waiters.findIdx? (fun w => w.id == id) with
  | none => exact fun _ hw => hw
  | some idx => exact List.eraseIdx_subset

theorem Exhausted.removeWaiter (h : Exhausted st) (id : Nat) : Exhausted (st.removeWaiter id) := by
  intro waiter hwaiter
  have hsame : (st.removeWaiter id).canAdmit waiter.scope = st.canAdmit waiter.scope := by
    unfold State.removeWaiter
    cases st.waiters.findIdx? (fun w => w.id == id) with
    | none => rfl
    | some idx => exact canAdmit_congr rfl rfl rfl rfl waiter.scope
  rw [hsame]
  exact h waiter (removeWaiter_subset st id hwaiter)

theorem exhausted_of_popAndReserve (h : st.popAndReserve = none) : Exhausted st := by
  intro waiter hwaiter
  unfold State.popAndReserve at h
  split at h
  · rename_i hfull
    unfold State.canAdmit
    rw [if_pos hfull]
  · split at h
    · rename_i hidx
      rw [List.findIdx?_eq_none_iff] at hidx
      exact hidx waiter hwaiter
    · rename_i idx hidx
      rcases List.findIdx?_eq_some_iff_getElem.mp hidx with ⟨hlt, _, _⟩
      rw [List.getElem?_eq_getElem hlt] at h
      cases h

variable {w : World}

theorem settled_of_drains (h : w.drains ≠ []) : Settled w :=
  fun hnone => absurd hnone h

theorem Settled.dropped (h : Settled w) (p : AdmissionPermit) : Settled (w.dropped p) := by
  unfold World.dropped
  split
  · apply settled_of_drains
    exact List.append_ne_nil_of_right_ne_nil _ (List.cons_ne_nil _ _)
  · exact h

theorem Settled.grant (h : Settled w) (scope : Option String) : Settled (w.grant scope) :=
  fun hnone => (h hnone).admitSlot scope

variable {index : Nat}

theorem drains_ne_nil_of_set {old : Drain} (hget : w.drains[index]? = some old) (new : Drain) :
    w.drains.set index new ≠ [] := by
  intro hnil
  have hlength := congrArg List.length hnil
  rw [List.length_set] at hlength
  rw [List.length_eq_zero_iff.mp hlength] at hget
  cases hget

theorem Settled.acquireQueued (h : Settled w) (scope : Option String) :
    Settled (w.acquireQueued scope) := by
  unfold World.acquireQueued
  split
  · exact h.grant scope
  · rename_i hfull
    intro hnone
    exact (h hnone).enqueue (Bool.eq_false_iff.mpr hfull)

variable {w' : World}

theorem Settled.dropReceiver {id : Nat} (h : Settled w)
    (hstep : w.dropReceiver id = some w') : Settled w' := by
  unfold World.dropReceiver at hstep
  split at hstep
  · cases hstep
    exact h
  · rename_i p _
    cases hstep
    apply Settled.dropped
    exact h
  · cases hstep

theorem Settled.drainPop (hstep : w.drainPop index = some w') : Settled w' := by
  unfold World.drainPop at hstep
  split at hstep
  · rename_i hget
    cases hpop : w.state.popAndReserve with
    | none =>
        rw [hpop] at hstep
        cases hstep
        exact fun _ => exhausted_of_popAndReserve hpop
    | some found =>
        rw [hpop] at hstep
        cases hstep
        exact settled_of_drains (drains_ne_nil_of_set hget _)
  · cases hstep

theorem Settled.drainSend (hstep : w.drainSend index = some w') : Settled w' := by
  unfold World.drainSend at hstep
  split at hstep
  · rename_i hget
    split at hstep
    · cases hstep
      exact settled_of_drains (drains_ne_nil_of_set hget _)
    · cases hstep
      exact settled_of_drains (drains_ne_nil_of_set hget _)
  · cases hstep

theorem Settled.drainTakeBack (hstep : w.drainTakeBack index = some w') : Settled w' := by
  unfold World.drainTakeBack at hstep
  split at hstep
  · rename_i hget
    cases hstep
    exact settled_of_drains (drains_ne_nil_of_set hget _)
  · cases hstep

theorem Settled.step {a : Action} (h : Settled w) (hstep : step w a = some w') : Settled w' := by
  cases a with
  | tryAcquire scope =>
      cases hstep
      unfold World.tryAcquire
      split
      · exact h.grant scope
      · exact h
  | acquireQueued scope =>
      cases hstep
      exact h.acquireQueued scope
  | receive id =>
      simp only [Admission.step, World.receive] at hstep
      split at hstep
      · cases hstep
        exact h
      · cases hstep
  | dropReceiver id => exact h.dropReceiver hstep
  | dropGuard id =>
      simp only [Admission.step, World.dropGuard] at hstep
      split at hstep
      · cases hstep
        exact fun hnone => (h hnone).removeWaiter id
      · cases hstep
  | dropPermit index =>
      simp only [Admission.step, World.dropPermit] at hstep
      split at hstep
      · cases hstep
      · rename_i p _
        cases hstep
        apply Settled.dropped
        exact h
  | resize capacity =>
      cases hstep
      apply settled_of_drains
      exact List.append_ne_nil_of_right_ne_nil _ (List.cons_ne_nil _ _)
  | setScopeCap scope cap =>
      cases hstep
      apply settled_of_drains
      exact List.append_ne_nil_of_right_ne_nil _ (List.cons_ne_nil _ _)
  | drainPop index => exact Settled.drainPop hstep
  | drainSend index => exact Settled.drainSend hstep
  | drainTakeBack index => exact Settled.drainTakeBack hstep

theorem reachable_settled {capacity : Nat} (h : (machine capacity).Reachable w) : Settled w := by
  apply Machine.ReachableUnder.invariant (P := Settled) _ _ h
  · intro w0 hw0 _ waiter hwaiter
    have hw0' : w0 = World.new capacity := hw0
    rw [hw0'] at hwaiter
    cases hwaiter
  · intro w a w' hw _ hstep
    exact hw.step hstep

/-!
## When no drain is left
-/

def World.Waits (w : World) (waiter : Waiter) : Prop :=
  w.oneshots[waiter.id]? = some .waiting

instance (w : World) (waiter : Waiter) : Decidable (w.Waits waiter) :=
  inferInstanceAs (Decidable (_ = _))

/-- When no drain is left, either no slot is free or every queued acquire has a
scope at its cap, and every acquire that waits is queued. -/
theorem no_lost_wakeup {capacity : Nat} {w : World}
    (h : (machine capacity).Reachable w) (hquiet : w.drains = []) :
    (forall waiter, waiter ∈ w.state.waiters -> w.Waits waiter ->
      ¬ Admissible w.state waiter.scope) ∧
    (w.state.capacity ≤ w.state.running ∨
      forall waiter, waiter ∈ w.state.waiters -> w.Waits waiter ->
        exists s cap, waiter.scope = some s ∧ w.state.scopeCaps s = some cap ∧
          cap ≤ (w.state.perScope s).getD 0) ∧
    forall id, w.oneshots[id]? = some Oneshot.waiting ->
      exists waiter, waiter ∈ w.state.waiters ∧ waiter.id = id := by
  have hexhausted := reachable_settled h hquiet
  refine ⟨?_, ?_, ?_⟩
  · intro waiter hwaiter _ hadmissible
    have hadmit := (canAdmit_iff w.state waiter.scope).mpr hadmissible
    rw [hexhausted waiter hwaiter] at hadmit
    cases hadmit
  · by_cases hfull : w.state.capacity ≤ w.state.running
    · exact Or.inl hfull
    · apply Or.inr
      intro waiter hwaiter _
      have hrefused := hexhausted waiter hwaiter
      unfold State.canAdmit at hrefused
      rw [if_neg hfull] at hrefused
      split at hrefused
      · cases hrefused
      · rename_i s hscope
        split at hrefused
        · rename_i cap hcap
          exact ⟨s, cap, hscope, hcap, Nat.not_lt.mp (of_decide_eq_false hrefused)⟩
        · cases hrefused
  · intro id hid
    rcases (reachable_listed h).offered id hid with hqueued | ⟨waiter, hdrain, _⟩
    · exact hqueued
    · rw [hquiet] at hdrain
      exact absurd hdrain List.not_mem_nil

/-- A waiter of a full scope stands before one that ran. -/
def blockedScope : List Action :=
  [.setScopeCap "p1" (some 1), .drainPop 0, .tryAcquire (some "p1"),
    .acquireQueued (some "p1"), .tryAcquire none, .tryAcquire none,
    .acquireQueued none, .dropPermit 1, .drainPop 0,
    .drainSend 0, .drainPop 0, .dropReceiver 1, .drainPop 0]

theorem no_lost_wakeup_blockedScope :
    exists w, (machine 3).Reachable w ∧ w.state.running = 2 ∧
      w.Waits { id := 0, scope := some "p1" } ∧
      (w.state.capacity ≤ w.state.running ∨
        forall waiter, waiter ∈ w.state.waiters -> w.Waits waiter ->
          exists s cap, waiter.scope = some s ∧ w.state.scopeCaps s = some cap ∧
            cap ≤ (w.state.perScope s).getD 0) := by
  have hrun : Option.any
      (fun w : World => decide (w.drains = [] ∧ w.state.running = 2 ∧
        w.Waits { id := 0, scope := some "p1" }))
      ((machine 3).runFrom (World.new 3) blockedScope) = true := by
    decide +kernel
  rcases (machine 3).exists_reachable_of_runFrom rfl hrun with ⟨w, hw, hstate⟩
  rcases of_decide_eq_true hstate with ⟨hquiet, hrunning, hwaits⟩
  exact ⟨w, hw, hrunning, hwaits, (no_lost_wakeup hw hquiet).right.left⟩

end Admission
end Perpetual
