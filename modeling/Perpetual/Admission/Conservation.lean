import Perpetual.Admission.Controller
import Perpetual.Foundation.Cells

/-!
# Slot conservation

A live slot is an armed permit in a caller's hands, a permit in a oneshot that
has not been received, or a slot a drain loop has reserved and not yet sent.
The invariant says that the counters of the state are exactly the counts of the
live slots.  What one step can do to the pair of counters and live slots is said
once, in `step_effect`; conservation and the growth bound follow from it.
-/

namespace Perpetual
namespace Admission

open Foundation

def AdmissionPermit.slot (p : AdmissionPermit) : Option (Option String) :=
  if p.armed then some p.scope else none

def Oneshot.slot : Oneshot -> Option (Option String)
  | .sent p => p.slot
  | _ => none

def Drain.slot : Drain -> Option (Option String)
  | .next => none
  | .reserved waiter => some waiter.scope
  | .unsent waiter => some waiter.scope

def World.slots (w : World) : List (Option String) :=
  w.held.filterMap AdmissionPermit.slot ++
    (w.oneshots.filterMap Oneshot.slot ++ w.drains.filterMap Drain.slot)

structure Accounts (st : State) (slots : List (Option String)) : Prop where
  running : st.running = slots.length
  perScope : forall s, (st.perScope s).getD 0 = slots.count (some s)

def Admissible (st : State) (scope : Option String) : Prop :=
  st.running < st.capacity ∧
    forall s cap, scope = some s -> st.scopeCaps s = some cap ->
      (st.perScope s).getD 0 < cap

/-!
## Counters under the state operations
-/

theorem canAdmit_iff (st : State) (scope : Option String) :
    st.canAdmit scope = true ↔ Admissible st scope := by
  unfold State.canAdmit Admissible
  by_cases hfull : st.capacity ≤ st.running
  · rw [if_pos hfull]
    constructor
    · intro h
      cases h
    · intro h
      exact absurd h.left (Nat.not_lt.mpr hfull)
  · rw [if_neg hfull]
    have hroom : st.running < st.capacity := Nat.not_le.mp hfull
    cases scope with
    | none =>
        simp [hroom]
    | some s =>
        cases hcap : st.scopeCaps s with
        | none =>
            constructor
            · intro _
              refine ⟨hroom, ?_⟩
              intro t cap hst hlookup
              injection hst with hst
              rw [← hst, hcap] at hlookup
              cases hlookup
            · intro _
              simp only [hcap]
        | some cap =>
            constructor
            · intro hlt
              refine ⟨hroom, ?_⟩
              intro t cap' hst hlookup
              injection hst with hst
              rw [← hst, hcap] at hlookup
              injection hlookup with hlookup
              rw [← hst, ← hlookup]
              simpa only [hcap, decide_eq_true_eq] using hlt
            · intro h
              simpa only [hcap, decide_eq_true_eq] using h.right s cap rfl hcap

variable {st : State}

variable {slots : List (Option String)}

theorem Accounts.congr {st' : State} (h : Accounts st slots)
    (hrunning : st'.running = st.running) (hscope : st'.perScope = st.perScope) :
    Accounts st' slots := by
  constructor
  · rw [hrunning, h.running]
  · intro s
    rw [hscope, h.perScope]

theorem Accounts.perm {slots' : List (Option String)} (h : Accounts st slots)
    (hperm : slots.Perm slots') : Accounts st slots' := by
  constructor
  · rw [h.running, hperm.length_eq]
  · intro s
    rw [h.perScope, hperm.count_eq]

theorem Accounts.admitSlot (h : Accounts st slots)
    (scope : Option String) : Accounts (st.admitSlot scope) (scope :: slots) := by
  cases scope with
  | none =>
      constructor
      · simp [State.admitSlot, h.running]
      · intro s
        simp [State.admitSlot, h.perScope]
  | some t =>
      constructor
      · simp [State.admitSlot, h.running]
      · intro s
        by_cases hs : s = t
        · rw [hs]
          simp [State.admitSlot, h.perScope]
        · simp [State.admitSlot, Function.update_of_ne hs, h.perScope, Ne.symm hs]

theorem Accounts.release {scope : Option String}
    (h : Accounts st (scope :: slots)) : Accounts (st.release scope) slots := by
  have hrunning : st.running = slots.length + 1 := by
    simpa using h.running
  cases scope with
  | none =>
      constructor
      · simp [State.release, hrunning]
      · intro s
        simpa [State.release] using h.perScope s
  | some t =>
      have hcount : (st.perScope t).getD 0 = slots.count (some t) + 1 := by
        simpa using h.perScope t
      cases ht : st.perScope t with
      | none =>
          simp [ht] at hcount
      | some count =>
          rw [ht] at hcount
          have hcount' : count = slots.count (some t) + 1 := hcount
          constructor
          · simp [State.release, ht, hrunning]
          · intro s
            by_cases hs : s = t
            · rw [hs]
              by_cases hzero : count - 1 = 0
              · simp [State.release, ht, hzero]
                omega
              · simp [State.release, ht, hzero]
                omega
            · have hother := h.perScope s
              simpa [State.release, ht, Function.update_of_ne hs,
                List.count_cons, Ne.symm hs] using hother

@[simp] theorem admitSlot_running (st : State) (scope : Option String) :
    (st.admitSlot scope).running = st.running + 1 := by
  cases scope <;> rfl

theorem release_running (st : State) (scope : Option String) :
    (st.release scope).running = st.running - 1 := by
  cases scope with
  | none => rfl
  | some s =>
      cases hs : st.perScope s <;> simp [State.release, hs]

theorem removeWaiter_frame (st : State) (id : Nat) :
    (st.removeWaiter id).running = st.running ∧
      (st.removeWaiter id).perScope = st.perScope := by
  unfold State.removeWaiter
  cases st.waiters.findIdx? (fun w => w.id == id) <;> exact ⟨rfl, rfl⟩

theorem popAndReserve_eq_some {st' : State} {waiter : Waiter}
    (h : st.popAndReserve = some (waiter, st')) :
    exists idx, st.waiters[idx]? = some waiter ∧
      Admissible st waiter.scope ∧
      (forall (j : Nat) (other : Waiter), j < idx -> st.waiters[j]? = some other ->
        st.canAdmit other.scope = false) ∧
      st' = { st with waiters := st.waiters.eraseIdx idx }.admitSlot
        waiter.scope := by
  unfold State.popAndReserve at h
  by_cases hfull : st.capacity ≤ st.running
  · rw [if_pos hfull] at h
    cases h
  · rw [if_neg hfull] at h
    cases hidx : st.waiters.findIdx? (fun w => st.canAdmit w.scope) with
    | none =>
        simp [hidx] at h
    | some idx =>
        rw [hidx] at h
        rcases List.findIdx?_eq_some_iff_getElem.mp hidx with ⟨hlt, hp, hfirst⟩
        have hget := List.getElem?_eq_getElem hlt
        have hpair : st.waiters[idx] = waiter ∧
            { st with waiters := st.waiters.eraseIdx idx }.admitSlot
              st.waiters[idx].scope = st' := by
          simpa [hget] using h
        rcases hpair with ⟨hwaiter, hst⟩
        rw [hwaiter] at hp hst hget
        refine ⟨idx, hget, (canAdmit_iff st waiter.scope).mp hp, ?_, hst.symm⟩
        intro j other hj hother
        rcases List.getElem?_eq_some_iff.mp hother with ⟨hjlt, heq⟩
        have hnot := hfirst j hj
        rw [heq] at hnot
        exact Bool.eq_false_iff.mpr hnot

/-!
## The effect of one step

`Keeps`, `Gains` and `Loses` describe a step by its effect on the live slots and
on the counters.  A step of the machine is always one of the three.
-/

/-- No slot changes hands as far as the counters are concerned. -/
def Keeps (w w' : World) : Prop :=
  w'.slots.Perm w.slots ∧ w'.state.running = w.state.running ∧
    w'.state.perScope = w.state.perScope

def Gains (w w' : World) : Prop :=
  exists scope, w'.slots.Perm (scope :: w.slots) ∧
    Admissible w.state scope ∧
    exists st : State, st.running = w.state.running ∧
      st.perScope = w.state.perScope ∧ w'.state = st.admitSlot scope

def Loses (w w' : World) : Prop :=
  exists scope, w.slots.Perm (scope :: w'.slots) ∧
    w'.state = w.state.release scope

@[simp] theorem slots_drain_next :
    [.next].filterMap Drain.slot = [] := rfl

@[simp] theorem slots_oneshot_waiting :
    [.waiting].filterMap Oneshot.slot = [] := rfl

theorem slots_eq (w : World) :
    w.slots =
      w.held.filterMap AdmissionPermit.slot ++
        (w.oneshots.filterMap Oneshot.slot ++
          w.drains.filterMap Drain.slot) := rfl

theorem grant_gains (w : World) {scope : Option String}
    (h : w.state.canAdmit scope = true) : Gains w (w.grant scope) := by
  refine ⟨scope, ?_, (canAdmit_iff w.state scope).mp h, w.state, rfl, rfl, rfl⟩
  have hslot : AdmissionPermit.slot (permit scope) = some scope := rfl
  simp only [slots_eq, World.grant, List.filterMap_append, List.filterMap_cons,
    List.filterMap_nil, hslot, List.append_assoc, List.singleton_append]
  exact List.perm_middle

variable {w w' : World}

theorem dropped_effect {base : World} {p : AdmissionPermit}
    (hslots : w.slots.Perm (p.slot.toList ++ base.slots)) (hstate : base.state = w.state) :
    Keeps w (base.dropped p) ∨ Loses w (base.dropped p) := by
  cases harmed : p.armed with
  | false =>
      have hdrop : base.dropped p = base := by
        simp [World.dropped, harmed]
      have hslot : p.slot = none := by
        simp [AdmissionPermit.slot, harmed]
      rw [hdrop]
      rw [hslot] at hslots
      exact .inl ⟨hslots.symm, by rw [hstate], by rw [hstate]⟩
  | true =>
      have hslot : p.slot = some p.scope := by
        simp [AdmissionPermit.slot, harmed]
      have hdrop : base.dropped p =
          { base with
            state := base.state.release p.scope
            drains := base.drains ++ [.next] } := by
        simp [World.dropped, harmed]
      have hsame : (base.dropped p).slots = base.slots := by
        rw [hdrop]
        simp [slots_eq]
      refine .inr ⟨p.scope, ?_, ?_⟩
      · rw [hsame]
        rw [hslot] at hslots
        exact hslots
      · rw [hdrop]
        exact congrArg (fun st => State.release st p.scope) hstate

variable {id : Nat}

theorem receive_keeps (h : w.receive id = some w') : Keeps w w' := by
  unfold World.receive at h
  split at h
  · next p hget =>
      cases h
      refine ⟨?_, rfl, rfl⟩
      have hbefore :=
        Cells.filterMap_perm_of_getElem? Oneshot.slot hget
      have hafter :=
        Cells.filterMap_set_perm Oneshot.slot hget .received
      simp only [slots_eq, List.filterMap_append]
      refine List.Perm.trans ?_ ((hbefore.symm.append_right _).append_left _)
      refine List.Perm.trans ((hafter.append_right _).append_left _) ?_
      have hp : List.filterMap AdmissionPermit.slot [p] = (Oneshot.slot (.sent p)).toList := by
        cases hs : p.slot <;> simp [Oneshot.slot, hs]
      have hr : (Oneshot.slot .received).toList = ([] : List (Option String)) := rfl
      rw [hp, hr]
      simp [List.append_assoc]
  · cases h

theorem dropReceiver_effect (h : w.dropReceiver id = some w') : Keeps w w' ∨ Loses w w' := by
  unfold World.dropReceiver at h
  split at h
  · next hget =>
      cases h
      refine .inl ⟨?_, rfl, rfl⟩
      have hbefore := Cells.filterMap_perm_of_getElem? Oneshot.slot hget
      have hafter :=
        Cells.filterMap_set_perm Oneshot.slot hget .closed
      exact ((hafter.trans hbefore.symm).append_right _).append_left _
  · next p hget =>
      cases h
      apply dropped_effect
      · have hbefore := Cells.filterMap_perm_of_getElem? Oneshot.slot hget
        have hafter :=
          Cells.filterMap_set_perm Oneshot.slot hget .closed
        have hfront : (w.oneshots.filterMap Oneshot.slot).Perm
            (p.slot.toList ++
              (w.oneshots.set id .closed).filterMap Oneshot.slot) := by
          exact hbefore.trans (hafter.symm.append_left _)
        simp only [slots_eq]
        refine List.Perm.trans ((hfront.append_right _).append_left _) ?_
        rw [List.append_assoc]
        exact List.perm_append_comm_assoc _ _ _
      · rfl
  · cases h

theorem dropGuard_keeps (h : w.dropGuard id = some w') : Keeps w w' := by
  unfold World.dropGuard at h
  split at h
  · cases h
    have hframe := removeWaiter_frame w.state id
    exact ⟨List.Perm.refl _, hframe.left, hframe.right⟩
  · cases h

variable {index : Nat}

theorem dropPermit_effect (h : w.dropPermit index = some w') : Keeps w w' ∨ Loses w w' := by
  unfold World.dropPermit at h
  split at h
  · cases h
  · next p hget =>
      cases h
      apply dropped_effect
      · have hbefore :=
          Cells.filterMap_perm_of_getElem? AdmissionPermit.slot hget
        simp only [slots_eq]
        refine List.Perm.trans (hbefore.append_right _) ?_
        rw [List.append_assoc]
      · rfl

theorem slots_set_drain {old : Drain} (hget : w.drains[index]? = some old) (new : Drain)
    (st : State) :
    exists rest, w.slots.Perm (old.slot.toList ++ rest) ∧
      ({ w with state := st, drains := w.drains.set index new }).slots.Perm
        (new.slot.toList ++ rest) := by
  have hbefore := Cells.filterMap_perm_of_getElem? Drain.slot hget
  have hafter := Cells.filterMap_set_perm Drain.slot hget new
  have hmove : forall front : List (Option String),
      (w.held.filterMap AdmissionPermit.slot ++
          (w.oneshots.filterMap Oneshot.slot ++
            (front ++ (w.drains.eraseIdx index).filterMap Drain.slot))).Perm
        (front ++
          (w.held.filterMap AdmissionPermit.slot ++
            (w.oneshots.filterMap Oneshot.slot ++
              (w.drains.eraseIdx index).filterMap Drain.slot))) := by
    intro front
    refine List.Perm.trans ((List.perm_append_comm_assoc _ _ _).append_left _) ?_
    exact List.perm_append_comm_assoc _ _ _
  refine
    ⟨w.held.filterMap AdmissionPermit.slot ++
      (w.oneshots.filterMap Oneshot.slot ++
        (w.drains.eraseIdx index).filterMap Drain.slot), ?_, ?_⟩
  · exact ((hbefore.append_left _).append_left _).trans (hmove _)
  · exact ((hafter.append_left _).append_left _).trans (hmove _)

theorem drainPop_effect (h : w.drainPop index = some w') : Keeps w w' ∨ Gains w w' := by
  unfold World.drainPop at h
  split at h
  · next hget =>
      cases hpop : w.state.popAndReserve with
      | none =>
          rw [hpop] at h
          cases h
          refine .inl ⟨?_, rfl, rfl⟩
          have hbefore := Cells.filterMap_perm_of_getElem? Drain.slot hget
          exact (hbefore.symm.append_left _).append_left _
      | some found =>
          rcases found with ⟨waiter, st⟩
          rw [hpop] at h
          cases h
          rcases popAndReserve_eq_some hpop with ⟨idx, _, hadm, _, hst⟩
          rcases slots_set_drain hget (.reserved waiter) st with
            ⟨rest, hbefore, hafter⟩
          refine .inr ⟨waiter.scope, ?_, hadm,
            { w.state with waiters := w.state.waiters.eraseIdx idx },
            rfl, rfl, hst⟩
          exact hafter.trans (hbefore.symm.cons waiter.scope)
  · cases h

theorem drainSend_keeps (h : w.drainSend index = some w') : Keeps w w' := by
  unfold World.drainSend at h
  split at h
  · next waiter hget =>
      split at h
      · next hshot =>
          cases h
          refine ⟨?_, rfl, rfl⟩
          have hdrainBefore := Cells.filterMap_perm_of_getElem? Drain.slot hget
          have hdrainAfter :=
            Cells.filterMap_set_perm Drain.slot hget .next
          have hshotBefore :=
            Cells.filterMap_perm_of_getElem? Oneshot.slot hshot
          have hshotAfter :=
            Cells.filterMap_set_perm Oneshot.slot hshot
              (.sent (permit waiter.scope))
          have hsent : (Oneshot.slot (.sent (permit waiter.scope))).toList = [waiter.scope] := rfl
          have hreserved : (Drain.slot (.reserved waiter)).toList = [waiter.scope] := rfl
          rw [hsent] at hshotAfter
          rw [hreserved] at hdrainBefore
          -- the slot moves from the drain loop into the channel
          have hmoved :
              ((w.oneshots.set waiter.id
                    (.sent (permit waiter.scope))).filterMap
                  Oneshot.slot ++
                (w.drains.set index .next).filterMap Drain.slot).Perm
              (w.oneshots.filterMap Oneshot.slot ++
                w.drains.filterMap Drain.slot) := by
            refine List.Perm.trans (hshotAfter.append hdrainAfter) ?_
            refine List.Perm.trans ?_ (hshotBefore.append hdrainBefore).symm
            exact List.perm_middle.symm
          exact hmoved.append_left _
      · cases h
        refine ⟨?_, rfl, rfl⟩
        rcases slots_set_drain hget (.unsent waiter) w.state with
          ⟨rest, hbefore, hafter⟩
        exact hafter.trans hbefore.symm
  · cases h

theorem drainTakeBack_loses (h : w.drainTakeBack index = some w') : Loses w w' := by
  unfold World.drainTakeBack at h
  split at h
  · next waiter hget =>
      cases h
      rcases slots_set_drain hget .next (w.state.release waiter.scope) with ⟨rest, hbefore, hafter⟩
      refine ⟨waiter.scope, ?_, rfl⟩
      exact hbefore.trans (hafter.symm.cons waiter.scope)
  · cases h

theorem startDrain_keeps (hrunning : st.running = w.state.running)
    (hscope : st.perScope = w.state.perScope) :
    Keeps w { w with state := st, drains := w.drains ++ [.next] } := by
  refine ⟨?_, hrunning, hscope⟩
  simp [slots_eq]

variable {a : Action}

theorem step_effect (h : step w a = some w') : Keeps w w' ∨ Gains w w' ∨ Loses w w' := by
  have hself : Keeps w w := ⟨List.Perm.refl _, rfl, rfl⟩
  cases a with
  | tryAcquire scope =>
      cases h
      unfold World.tryAcquire
      by_cases hadm : w.state.canAdmit scope = true
      · rw [if_pos hadm]
        exact .inr (.inl (grant_gains w hadm))
      · rw [if_neg hadm]
        exact .inl hself
  | acquireQueued scope =>
      cases h
      unfold World.acquireQueued
      by_cases hadm : w.state.canAdmit scope = true
      · rw [if_pos hadm]
        exact .inr (.inl (grant_gains w hadm))
      · rw [if_neg hadm]
        refine .inl ⟨?_, rfl, rfl⟩
        simp [slots_eq]
  | receive id => exact .inl (receive_keeps h)
  | dropReceiver id =>
      cases dropReceiver_effect h with
      | inl hkeeps => exact .inl hkeeps
      | inr hloses => exact .inr (.inr hloses)
  | dropGuard id => exact .inl (dropGuard_keeps h)
  | dropPermit index =>
      cases dropPermit_effect h with
      | inl hkeeps => exact .inl hkeeps
      | inr hloses => exact .inr (.inr hloses)
  | resize capacity =>
      cases h
      exact .inl (startDrain_keeps rfl rfl)
  | setScopeCap scope cap =>
      cases h
      exact .inl (startDrain_keeps rfl rfl)
  | drainPop index =>
      cases drainPop_effect h with
      | inl hkeeps => exact .inl hkeeps
      | inr hgains => exact .inr (.inl hgains)
  | drainSend index => exact .inl (drainSend_keeps h)
  | drainTakeBack index => exact .inr (.inr (drainTakeBack_loses h))

/-!
## Conservation over whole runs
-/

theorem step_accounts (hw : Accounts w.state w.slots) (h : step w a = some w') :
    Accounts w'.state w'.slots := by
  rcases step_effect h with hkeeps | hgains | hloses
  · rcases hkeeps with ⟨hperm, hrunning, hscope⟩
    exact (hw.congr hrunning hscope).perm hperm.symm
  · rcases hgains with ⟨scope, hperm, _hadm, st, hrunning, hscope, hst⟩
    rw [hst]
    exact ((hw.congr hrunning hscope).admitSlot scope).perm hperm.symm
  · rcases hloses with ⟨scope, hperm, hst⟩
    rw [hst]
    exact (hw.perm hperm).release

theorem reachable_accounts {capacity : Nat} (h : (machine capacity).Reachable w) :
    Accounts w.state w.slots := by
  refine Machine.ReachableUnder.invariant (P := fun w => Accounts w.state w.slots) ?_ ?_ h
  · intro w0 hw0
    have hw0' : w0 = World.new capacity := hw0
    rw [hw0']
    exact ⟨rfl, fun _ => rfl⟩
  · intro s a t hs _ hstep
    exact step_accounts hs hstep

theorem step_growth (h : step w a = some w') (hgrows : w.state.running < w'.state.running) :
    exists scope, w'.slots.Perm (scope :: w.slots) ∧
      Admissible w.state scope := by
  rcases step_effect h with hkeeps | hgains | hloses
  · rw [hkeeps.right.left] at hgrows
    exact absurd hgrows (Nat.lt_irrefl _)
  · rcases hgains with ⟨scope, hperm, hadm, _⟩
    exact ⟨scope, hperm, hadm⟩
  · rcases hloses with ⟨scope, _hperm, hst⟩
    rw [hst, release_running] at hgrows
    exact absurd hgrows (Nat.not_lt.mpr (Nat.sub_le _ _))

/-- The capacity and the caps after a step. -/
def limitsAfter (st : State) : Action -> Nat × (String -> Option Nat)
  | .resize capacity => (max capacity 1, st.scopeCaps)
  | .setScopeCap scope cap =>
      (st.capacity, Function.update st.scopeCaps scope (cap.map (fun c => max c 1)))
  | _ => (st.capacity, st.scopeCaps)

theorem limits_admitSlot (st : State) (scope : Option String) :
    (st.admitSlot scope).capacity = st.capacity ∧
      (st.admitSlot scope).scopeCaps = st.scopeCaps := by
  cases scope with
  | none => exact ⟨rfl, rfl⟩
  | some s => exact ⟨rfl, rfl⟩

theorem limits_release (st : State) (scope : Option String) :
    (st.release scope).capacity = st.capacity ∧
      (st.release scope).scopeCaps = st.scopeCaps := by
  cases scope with
  | none => exact ⟨rfl, rfl⟩
  | some s =>
      unfold State.release
      dsimp only
      cases st.perScope s with
      | none => exact ⟨rfl, rfl⟩
      | some count => exact ⟨rfl, rfl⟩

theorem limits_dropped (w : World) (p : AdmissionPermit) :
    (w.dropped p).state.capacity = w.state.capacity ∧
      (w.dropped p).state.scopeCaps = w.state.scopeCaps := by
  unfold World.dropped
  split
  · exact limits_release w.state p.scope
  · exact ⟨rfl, rfl⟩

/-- Only a resize changes the capacity, and only a new cap the caps. -/
theorem step_limits (h : step w a = some w') :
    w'.state.capacity = (limitsAfter w.state a).1 ∧
      w'.state.scopeCaps = (limitsAfter w.state a).2 := by
  cases a with
  | tryAcquire scope =>
      cases h
      unfold World.tryAcquire
      split
      · exact limits_admitSlot w.state scope
      · exact ⟨rfl, rfl⟩
  | acquireQueued scope =>
      cases h
      unfold World.acquireQueued
      split
      · exact limits_admitSlot w.state scope
      · exact ⟨rfl, rfl⟩
  | receive id =>
      simp only [step, World.receive] at h
      split at h
      · cases h
        exact ⟨rfl, rfl⟩
      · cases h
  | dropReceiver id =>
      simp only [step, World.dropReceiver] at h
      split at h
      · cases h
        exact ⟨rfl, rfl⟩
      · cases h
        exact limits_dropped _ _
      · cases h
  | dropGuard id =>
      simp only [step, World.dropGuard] at h
      split at h
      · cases h
        unfold State.removeWaiter
        cases w.state.waiters.findIdx? (fun w => w.id == id) with
        | none => exact ⟨rfl, rfl⟩
        | some idx => exact ⟨rfl, rfl⟩
      · cases h
  | dropPermit index =>
      simp only [step, World.dropPermit] at h
      split at h
      · cases h
      · cases h
        exact limits_dropped _ _
  | resize capacity =>
      cases h
      exact ⟨rfl, rfl⟩
  | setScopeCap scope cap =>
      cases h
      exact ⟨rfl, rfl⟩
  | drainPop index =>
      simp only [step, World.drainPop] at h
      split at h
      · cases hpop : w.state.popAndReserve with
        | none =>
            rw [hpop] at h
            cases h
            exact ⟨rfl, rfl⟩
        | some found =>
            rcases found with ⟨waiter, st⟩
            rw [hpop] at h
            injection h with h
            rcases popAndReserve_eq_some hpop with ⟨idx, _, _, _, hst⟩
            have hlimits := limits_admitSlot
              { w.state with waiters := w.state.waiters.eraseIdx idx } waiter.scope
            rw [← hst] at hlimits
            rw [← h]
            exact hlimits
      · cases h
  | drainSend index =>
      simp only [step, World.drainSend] at h
      split at h
      · split at h
        · cases h
          exact ⟨rfl, rfl⟩
        · cases h
          exact ⟨rfl, rfl⟩
      · cases h
  | drainTakeBack index =>
      simp only [step, World.drainTakeBack] at h
      split at h
      · cases h
        exact limits_release w.state _
      · cases h

/-- Slot conservation: in every reachable state the counters are the numbers of
live slots, a step only adds a slot below the capacity and the scope's cap, and
only a resize and a new cap change these. -/
theorem slots_conserved {capacity : Nat} {w : World} (h : (machine capacity).Reachable w) :
    w.state.running = w.slots.length ∧
      (forall s, (w.state.perScope s).getD 0 = w.slots.count (some s)) ∧
      (forall a w', step w a = some w' ->
        w.state.running < w'.state.running ->
        exists scope, w'.slots.Perm (scope :: w.slots) ∧
          w.state.running < w.state.capacity ∧
          (forall s cap, scope = some s -> w.state.scopeCaps s = some cap ->
            (w.state.perScope s).getD 0 < cap)) ∧
      forall a w', step w a = some w' ->
        w'.state.capacity = (limitsAfter w.state a).1 ∧
          w'.state.scopeCaps = (limitsAfter w.state a).2 := by
  have haccounts := reachable_accounts h
  refine ⟨haccounts.running, haccounts.perScope, ?_, fun a w' hstep => step_limits hstep⟩
  intro a w' hstep hgrows
  rcases step_growth hstep hgrows with ⟨scope, hperm, hroom, hcap⟩
  exact ⟨scope, hperm, hroom, hcap⟩

/-- A cancelled waiter whose permit is already in flight: the drain reserved its
slot, the receiver went away, and the slot is still counted. -/
def cancelledInFlight : List Action :=
  [.tryAcquire none, .acquireQueued (some "p1"),
    .dropPermit 0, .drainPop 0, .dropReceiver 0,
    .drainSend 0]

theorem slots_conserved_cancelledInFlight :
    exists w, (machine 1).runFrom (World.new 1) cancelledInFlight = some w ∧
      w.drains = [Drain.unsent { id := 0, scope := some "p1" }] ∧
      w.state.running = w.slots.length := by
  have hrun : exists w,
      (machine 1).runFrom (World.new 1) cancelledInFlight = some w ∧
        w.drains = [Drain.unsent { id := 0, scope := some "p1" }] :=
    ⟨_, rfl, rfl⟩
  rcases hrun with ⟨w, hw, hdrains⟩
  have hreach := (machine 1).reachable_of_runFrom rfl hw
  exact ⟨w, hw, hdrains, (slots_conserved hreach).left⟩

end Admission
end Perpetual
