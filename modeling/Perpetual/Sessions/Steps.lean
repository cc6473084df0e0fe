import Perpetual.Sessions.TaskStart
import Perpetual.Foundation.Cells

/-!
# Steps of the task starts

One inversion lemma for each operation: from where it can be taken and what the
world is afterwards.
-/

namespace Perpetual
namespace Sessions

open Foundation

variable {w w' : World} {i : Nat}

theorem check_cases (h : w.check i = some w') :
    exists st, w.starts[i]? = some st ∧
      ((st.pc = .schedulerCheck ∧
          w' = w.moveStart i st
            (if w.isActive st.task then .returned else .entry)) ∨
        (st.pc = .messageCheck ∧
          w' = w.moveStart i st
            (if w.isActive st.task then .queueing else .entry)) ∨
        (st.pc = .entry ∧ w.isActive st.task = true ∧
          w' = w.moveStart i st .returned) ∨
        (st.pc = .entry ∧ w.isActive st.task = false ∧
          w' = w.moveStart i st (.preparing .loadTask))) := by
  unfold World.check at h
  split at h
  · cases h
  · split at h
    · rename_i st hst
      refine ⟨st, hst, ?_⟩
      split at h
      · rename_i hpc
        exact .inl ⟨hpc, (Option.some.inj h).symm⟩
      · rename_i hpc
        exact .inr (.inl ⟨hpc, (Option.some.inj h).symm⟩)
      · rename_i hpc
        have hw := (Option.some.inj h).symm
        cases hact : w.isActive st.task with
        | true =>
            rw [hact] at hw
            exact .inr (.inr (.inl ⟨hpc, rfl, hw⟩))
        | false =>
            rw [hact] at hw
            exact .inr (.inr (.inr ⟨hpc, rfl, hw⟩))
      · cases h
    · cases h

theorem enqueueMessage_cases (h : w.enqueueMessage i = some w') :
    exists st, w.starts[i]? = some st ∧ st.pc = .queueing ∧
      w' =
        { w.moveStart i st .returned with
          messages :=
            Function.update w.messages st.task
              (w.messages st.task ++ st.message.toList) } := by
  unfold World.enqueueMessage at h
  split at h
  · rename_i st hst
    split at h
    · rename_i hpc
      exact ⟨st, hst, hpc, (Option.some.inj h).symm⟩
    · cases h
  · cases h

theorem advance_cases (h : w.advance i = some w') :
    exists st stage next, w.starts[i]? = some st ∧ st.pc = .preparing stage ∧
      w' = w.moveStart i st (.preparing next) := by
  unfold World.advance at h
  split at h
  · rename_i st hst
    split at h
    · rename_i stage hpc
      split at h
      · rename_i next _
        exact ⟨st, stage, next, hst, hpc, (Option.some.inj h).symm⟩
      · cases h
    · cases h
  · cases h

theorem fail_cases (h : w.fail i = some w') :
    exists st stage, w.starts[i]? = some st ∧ st.pc = .preparing stage ∧
      w' = w.moveStart i st .returned := by
  unfold World.fail at h
  split at h
  · rename_i st hst
    split at h
    · rename_i stage hpc
      exact ⟨st, stage, hst, hpc, (Option.some.inj h).symm⟩
    · cases h
  · cases h

theorem register_cases (h : w.register i = some w') :
    exists c st s, w.starts[i]? = some st ∧ st.pc = .parked c ∧
      w.sessions[c]? = some s ∧ w' = w.registered i c st s := by
  unfold World.register at h
  split at h
  · cases h
  · split at h
    · rename_i st hst
      split at h
      · rename_i c hpc
        split at h
        · rename_i s hs
          exact ⟨c, st, s, hst, hpc, hs, (Option.some.inj h).symm⟩
        · cases h
      · cases h
    · cases h

theorem parkStart_self {st : Start} (hst : w.starts[i]? = some st) :
    (w.parkStart i st).starts[i]? =
      some { st with pc := .parked w.sessions.length } :=
  Cells.getElem?_set_of_some hst _

theorem parkStart_session (w : World) (i : Nat) (st : Start) :
    (w.parkStart i st).sessions[w.sessions.length]? = some (freshSession st.task) :=
  List.getElem?_concat_length

theorem launch_cases (h : w.launch i = some w') :
    exists st, w.starts[i]? = some st ∧ st.pc = .preparing .adapterStart ∧
      ((w.registryHeld = true ∧ w' = w.parkStart i st) ∨
        w' = (w.parkStart i st).registered i w.sessions.length
          { st with pc := .parked w.sessions.length } (freshSession st.task)) := by
  unfold World.launch at h
  split at h
  · rename_i st hst
    split at h
    · rename_i hpc
      refine ⟨st, hst, hpc, ?_⟩
      split at h
      · rename_i hheld
        exact .inl ⟨hheld, (Option.some.inj h).symm⟩
      · rcases register_cases h with ⟨c, st', s, hst', hpc', hs, hw⟩
        rw [parkStart_self hst] at hst'
        rw [← Option.some.inj hst'] at hpc' hw
        have hc : w.sessions.length = c := by
          injection hpc'
        rw [← hc, parkStart_session w i st] at hs
        rw [← hc, ← Option.some.inj hs] at hw
        exact .inr hw
    · cases h
  · cases h

variable {c : Nat}

theorem terminal_cases {ending : Ending} (h : w.terminal c ending = some w') :
    exists s, w.sessions[c]? = some s ∧ s.live = true ∧
      w' = w.setSession c { s with live := false, ending := ending } := by
  unfold World.terminal at h
  split at h
  · rename_i s hs
    split at h
    · rename_i hlive
      exact ⟨s, hs, hlive, (Option.some.inj h).symm⟩
    · cases h
  · cases h

theorem remove_cases (h : w.remove c = some w') :
    exists s, w.sessions[c]? = some s ∧ s.consumer = .consuming ∧
      s.live = false ∧
      w' =
        { w.setSession c { s with consumer := .settling } with
          active := Function.update w.active s.task none } := by
  unfold World.remove at h
  split at h
  · cases h
  · split at h
    · rename_i s hs
      split at h
      · rename_i hcond
        exact ⟨s, hs, hcond.left, hcond.right, (Option.some.inj h).symm⟩
      · cases h
    · cases h

theorem settle_cases {resumes : Bool} (h : w.settle c resumes = some w') :
    exists s, w.sessions[c]? = some s ∧ s.consumer = .settling ∧
      ((w' = w.setSession c { s with consumer := .finished } ∧
          (w.messages s.task = [] ∨
            ((s.ending.sawNetworkLoss || s.ending.sawUsageLimit) = true ∧
              resumes = false))) ∨
        w' = (w.setSession c { s with consumer := .finished }).spawn
          { task := s.task, message := none, pc := .entry } ∨
        exists next rest, w.messages s.task = next :: rest ∧
          w' = { w.setSession c { s with consumer := .finished } with
                  messages := Function.update w.messages s.task rest }.spawn
            { task := s.task, message := some next, pc := .entry }) := by
  unfold World.settle at h
  split at h
  · rename_i s hs
    split at h
    · rename_i hsettling
      refine ⟨s, hs, hsettling, ?_⟩
      dsimp only at h
      split at h
      · rename_i hinterrupted
        split at h
        · exact .inr (.inl (Option.some.inj h).symm)
        · rename_i hresumes
          exact .inl ⟨(Option.some.inj h).symm, .inr ⟨hinterrupted, by simpa using hresumes⟩⟩
      · split at h
        · rename_i hempty
          exact .inl ⟨(Option.some.inj h).symm, .inl hempty⟩
        · rename_i next rest hmessages
          exact .inr (.inr ⟨next, rest, hmessages, (Option.some.inj h).symm⟩)
    · cases h
  · cases h

/-- The actions that take one start from its call to the provider session. -/
def startUp (i : Nat) : List Action :=
  [.check i] ++ List.replicate 16 (.advance i) ++ [.launch i]

end Sessions
end Perpetual
