import Perpetual.Launch.OneSession

/-!
# Local starts and work elsewhere

A thread can also be worked on away from this process: by another device, or in
the provider's cloud.  A local start looks for such work once, at a check of its
own, and is cleared from then on.  The lemmas say what keeps the two apart: a
start is cleared only when its check is right, and work elsewhere begins only for
a thread without cleared starts and without a live session.
-/

namespace Perpetual
namespace Launch

open Foundation
open Sessions (Session Consumer freshSession)

/-!
## The order of the checks
-/

/-- The steps of a call, from where it is to where it goes. -/
inductive Advance : LaunchPc -> Input -> LaunchPc -> Prop where
  | look : Advance .entering .tick .waiting
  | acquire (pc : LaunchPc) :
      pc = .editing ∨ pc = .checkingAssignment ->
      Advance .waiting .tick pc
  | edit : Advance .editing .tick .checkingAssignment
  | assignment :
      Advance .checkingAssignment .tick .checkingRegistry
  | registry :
      Advance .checkingRegistry .tick .checkingCloud
  | store (message : String) :
      Advance .checkingRegistry .tick (.storing message)
  | cloud : Advance .checkingCloud .tick .preparing
  | prepare : Advance .preparing .tick .launching
  | launch (c : Nat) :
      Advance .launching .tick (.registering c)
  | retry : Advance .limited .tick .entering
  | leave (pc : LaunchPc) (input : Input) (pc' : LaunchPc) :
      pc' = .returned ∨ pc' = .limited -> Advance pc input pc'

/-- The call `i` is the only one that changes, and it keeps its thread. -/
def Moves (w : World) (i : Nat) (call : Call) (input : Input) (w' : World) :
    Prop :=
  exists call', w'.calls = w.calls.set i call' ∧ call'.thread = call.thread ∧
    Advance call.pc input call'.pc

theorem moves_unlock (w : World) (i : Nat) (call : Call) (input : Input)
    {pc : LaunchPc} (hpc : pc = .returned ∨ pc = .limited) :
    Moves w i call input (w.unlock i call pc) :=
  ⟨{ call with pc := pc }, rfl, rfl, .leave call.pc input pc hpc⟩

variable {w w' : World} {i : Nat} {call : Call}

theorem moves_lockStart (hpc : call.pc = .entering) :
    Moves w i call .tick (w.lockStart i call) := by
  unfold World.lockStart
  split
  · exact ⟨_, rfl, rfl, by rw [hpc]; exact .look⟩
  · exact ⟨_, rfl, rfl, by rw [hpc]; exact .look⟩

theorem moves_acquire (hpc : call.pc = LaunchPc.waiting) (h : w.acquire i call = some w') :
    Moves w i call Input.tick w' := by
  unfold World.acquire at h
  split at h
  · cases h
  · split at h
    · cases h
      refine ⟨_, rfl, rfl, ?_⟩
      rw [hpc]
      apply Advance.acquire
      cases call.edits
      · exact Or.inr rfl
      · exact Or.inl rfl
    · cases h

theorem moves_checkRegistry (hpc : call.pc = .checkingRegistry) :
    Moves w i call .tick (w.checkRegistry i call) := by
  unfold World.checkRegistry
  split
  · split
    · rename_i message _
      exact ⟨_, rfl, rfl, by rw [hpc]; exact .store message⟩
    · exact moves_unlock w i call _ (.inl rfl)
  · exact ⟨_, rfl, rfl, by rw [hpc]; exact .registry⟩

theorem stepCall_moves {input : Input} (h : w.stepCall i call input = some w') :
    Moves w i call input w' := by
  unfold World.stepCall at h
  split at h
  case h_2 hpc => exact moves_acquire hpc h
  case h_3 hpc =>
      split at h
      · cases h
        exact moves_unlock w i call _ (.inl rfl)
      · cases h
        exact ⟨_, rfl, rfl, by rw [hpc]; exact .edit⟩
  case h_15 hpc =>
      split at h
      · cases h
        exact ⟨_, rfl, rfl, by rw [hpc]; exact .retry⟩
      · cases h
  case h_16 hpc =>
      split at h
      · cases h
        exact ⟨_, rfl, rfl, .leave _ _ _ (.inl rfl)⟩
      · cases h
  case h_19 hpc =>
      split at h
      · cases h
        exact moves_unlock w i call _ (.inl rfl)
      · cases h
  case h_20 => cases h
  all_goals
    rename_i hpc
    cases h
  case h_1 => exact moves_lockStart hpc
  case h_7 => exact moves_checkRegistry hpc
  case h_5 => exact ⟨_, rfl, rfl, by rw [hpc]; exact .assignment⟩
  case h_10 => exact ⟨_, rfl, rfl, by rw [hpc]; exact .cloud⟩
  case h_12 => exact ⟨_, rfl, rfl, by rw [hpc]; exact .prepare⟩
  case h_17 => exact ⟨_, rfl, rfl, by rw [hpc]; exact .launch _⟩
  case h_14 => exact moves_unlock w i call _ (.inr rfl)
  all_goals exact moves_unlock w i call _ (.inl rfl)

theorem terminal_calls {c : Nat} (h : w.terminal c = some w') : w'.calls = w.calls := by
  unfold World.terminal at h
  split at h
  · split at h
    · cases h
      rfl
    · cases h
  · cases h

theorem remove_calls {c : Nat} (h : w.remove c = some w') : w'.calls = w.calls := by
  unfold World.remove at h
  split at h
  · split at h
    · cases h
      rfl
    · cases h
  · cases h

inductive CallsAfter (w : World) (a : Action) : List Call -> Prop where
  | same : CallsAfter w a w.calls
  | added (thread : String) (message : Option String) (edits : Bool) :
      CallsAfter w a (w.addCall thread message edits).calls
  | dropped (i : Nat) (call : Call) :
      w.calls[i]? = some call ->
      CallsAfter w a (w.calls.set i { call with arc := none })
  | advanced (i : Nat) (input : Input) (call call' : Call) :
      a = .step i input -> w.calls[i]? = some call ->
      call'.thread = call.thread -> Advance call.pc input call'.pc ->
      CallsAfter w a (w.calls.set i call')

variable {a : Action}

theorem step_callsAfter (h : step w a = some w') : CallsAfter w a w'.calls := by
  cases a with
  | call thread message =>
      cases h
      exact .added thread message false
  | edit thread message =>
      cases h
      exact .added thread (some message) true
  | requeue thread messages =>
      cases h
      exact .same
  | step i input =>
      simp only [step] at h
      split at h
      · rename_i call hcall
        rcases stepCall_moves h with ⟨call', hcalls, hthread, hadvance⟩
        rw [hcalls]
        exact .advanced i input call call' rfl hcall hthread hadvance
      · cases h
  | dropArc i =>
      simp only [step] at h
      split at h
      · rename_i call hcall
        unfold World.dropArc at h
        split at h
        · cases h
          exact .dropped i call hcall
        · cases h
      · cases h
  | terminal c =>
      rw [terminal_calls h]
      exact .same
  | remove c =>
      rw [remove_calls h]
      exact .same

theorem step_call (h : step w a = some w') {j : Nat} {call' : Call}
    (hcall' : w'.calls[j]? = some call') :
    call'.pc = .entering ∨
      exists call, w.calls[j]? = some call ∧ call'.thread = call.thread ∧
        (call'.pc = call.pc ∨
          exists input, a = .step j input ∧
            Advance call.pc input call'.pc) := by
  have hafter := step_callsAfter h
  generalize w'.calls = calls at hafter hcall'
  cases hafter with
  | same => exact .inr ⟨call', hcall', rfl, .inl rfl⟩
  | added thread message edits =>
      rcases Cells.getElem?_concat_cases hcall' with hj | ⟨_, heq⟩
      · exact .inr ⟨call', hj, rfl, .inl rfl⟩
      · rw [heq]
        exact .inl rfl
  | dropped i call hcall =>
      rcases Cells.getElem?_set_cases hcall' with ⟨hji, heq⟩ | ⟨_, hj⟩
      · rw [hji, heq]
        exact .inr ⟨call, hcall, rfl, .inl rfl⟩
      · exact .inr ⟨call', hj, rfl, .inl rfl⟩
  | advanced i input call next ha hcall hthread hadvance =>
      rcases Cells.getElem?_set_cases hcall' with ⟨hji, heq⟩ | ⟨_, hj⟩
      · rw [hji, heq]
        exact .inr ⟨call, hcall, hthread, .inr ⟨input, ha, hadvance⟩⟩
      · exact .inr ⟨call', hj, rfl, .inl rfl⟩

theorem step_hasLive (h : step w a = some w') {thread : String} (hlive : w'.HasLive thread) :
    w.HasLive thread ∨
      exists (i : Nat) (call : Call), w.calls[i]? = some call ∧
        call.thread = thread ∧ call.pc = .launching := by
  rcases hlive with ⟨c, s, hs, htask, hl⟩
  cases step_effect h with
  | launched i call hcall hpc =>
      rcases Cells.getElem?_concat_cases hs with hs | ⟨_, heq⟩
      · exact .inl ⟨c, s, hs, htask, hl⟩
      · rw [heq] at htask
        exact .inr ⟨i, call, hcall, htask, hpc⟩
  | registered i d call s' hcall hpc hs' =>
      rcases Cells.getElem?_set_cases hs with ⟨_, heq⟩ | ⟨_, hs⟩
      · rw [heq] at htask hl
        exact .inl ⟨d, s', hs', htask, hl⟩
      · exact .inl ⟨c, s, hs, htask, hl⟩
  | ended d s' hs' hlive' =>
      rcases Cells.getElem?_set_cases hs with ⟨_, heq⟩ | ⟨_, hs⟩
      · rw [heq] at hl
        cases hl
      · exact .inl ⟨c, s, hs, htask, hl⟩
  | removed d s' hs' hcons hdead =>
      rcases Cells.getElem?_set_cases hs with ⟨_, heq⟩ | ⟨_, hs⟩
      · rw [heq] at htask hl
        exact .inl ⟨d, s', hs', htask, hl⟩
      · exact .inl ⟨c, s, hs, htask, hl⟩
  | looked i call hcall hpc =>
      have hs' : w.sessions[c]? = some s := by
        unfold World.lockStart at hs
        split at hs
        · exact hs
        · exact hs
      exact .inl ⟨c, s, hs', htask, hl⟩
  | _ => exact .inl ⟨c, s, hs, htask, hl⟩

/-!
## Keeping apart
-/

/-- The calls between a check and their registration. -/
structure Clearance where
  check : LaunchPc
  cleared : LaunchPc -> Bool
  entered : forall {pc pc' : LaunchPc} {input : Input}, Advance pc input pc' ->
    cleared pc' = true -> cleared pc = true ∨ (pc = check ∧ input = .tick)
  fresh : cleared .entering = false
  launches : cleared .launching = true

/-- No thread in `away` has a cleared call or a live session. -/
structure Apart (cl : Clearance) (w : World) (away : String -> Prop) : Prop where
  calls : forall (i : Nat) (call : Call), w.calls[i]? = some call ->
    cl.cleared call.pc = true -> ¬ away call.thread
  live : forall thread, w.HasLive thread -> ¬ away thread

/-- The thread has no start past its check and no live session. -/
def World.Idle (w : World) (cl : Clearance) (thread : String) : Prop :=
  (forall call, call ∈ w.calls -> call.thread = thread ->
    cl.cleared call.pc = false) ∧
  ¬ w.HasLive thread

instance (w : World) (cl : Clearance) (thread : String) :
    Decidable (w.Idle cl thread) :=
  inferInstanceAs (Decidable (_ ∧ _))

theorem apart_new (cl : Clearance) (away : String -> Prop) : Apart cl World.new away := by
  constructor
  · intro i call hcall
    cases hcall
  · intro thread hlive
    rcases hlive with ⟨c, s, hs, _⟩
    cases hs

theorem Apart.step {cl : Clearance} {away : String -> Prop} (hw : Apart cl w away)
    (h : step w a = some w')
    (hcheck : forall (i : Nat) (call : Call), a = .step i .tick ->
      w.calls[i]? = some call -> call.pc = cl.check -> ¬ away call.thread) :
    Apart cl w' away := by
  constructor
  · intro j call' hcall' hcleared
    rcases step_call h hcall' with hnew | ⟨call, hcall, hthread, hkept⟩
    · rw [hnew, cl.fresh] at hcleared
      cases hcleared
    · rw [hthread]
      rcases hkept with hpc | ⟨input, ha, hadvance⟩
      · rw [hpc] at hcleared
        exact hw.calls j call hcall hcleared
      · rcases cl.entered hadvance hcleared with hbefore | ⟨hpc, hinput⟩
        · exact hw.calls j call hcall hbefore
        · rw [hinput] at ha
          exact hcheck j call ha hcall hpc
  · intro thread hlive
    rcases step_hasLive h hlive with hbefore | ⟨i, call, hcall, hthread, hpc⟩
    · exact hw.live thread hbefore
    · rw [← hthread]
      apply hw.calls i call hcall
      rw [hpc]
      exact cl.launches

theorem Apart.away {cl : Clearance} {away away' : String -> Prop} (hw : Apart cl w away)
    (hnew : forall thread, away' thread -> away thread ∨ w.Idle cl thread) : Apart cl w away' := by
  constructor
  · intro i call hcall hcleared haway
    rcases hnew call.thread haway with hold | hidle
    · exact hw.calls i call hcall hcleared hold
    · have hfree := hidle.left call (List.mem_of_getElem? hcall) rfl
      rw [hcleared] at hfree
      cases hfree
  · intro thread hlive haway
    rcases hnew thread haway with hold | hidle
    · exact hw.live thread hlive hold
    · exact hidle.right hlive

end Launch
end Perpetual
