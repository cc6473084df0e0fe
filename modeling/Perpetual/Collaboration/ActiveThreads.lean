import Perpetual.Collaboration.Exclusivity

/-!
# Threads with an active assignment

`list_assignments` and the threads it finds.  A request other than the insertion
of a creation makes no thread active: the statements on a row keep its thread,
and the row is active afterwards only when it was before.
-/

namespace Perpetual
namespace Collaboration

open Foundation

variable {hash : String -> String} {st st' : Store} {thread : String}

def listLimit : Nat := 250

/-- The newest assignments, of one device or of all.  The join drops a row
without a device. -/
def Store.listAssignments (st : Store) (deviceId : Option String)
    (activeOnly : Bool) : List Assignment :=
  ((st.assignments.filter (fun a =>
      st.devices.any (fun d => d.id == a.deviceId) &&
        deviceId.all (fun id => a.deviceId == id) &&
        (!activeOnly || a.status.isActive))).insertionSort
    (fun a b => b.createdAt ≤ a.createdAt)).take listLimit

/-- `has_active_collaboration_assignment` after its sweep. -/
def Store.hasActiveAssignment (st : Store) (thread : String) : Bool :=
  (st.listAssignments none true).any (fun a => a.threadId == thread)

def ActiveThread (st : Store) (thread : String) : Prop :=
  exists a, a ∈ st.assignments ∧ a.threadId = thread ∧ a.status.isActive = true

instance (st : Store) (thread : String) : Decidable (ActiveThread st thread) :=
  decidable_of_iff
    (st.assignments.any (fun a => a.threadId == thread && a.status.isActive) = true)
    (by simp [ActiveThread])

/-!
## The statements
-/

theorem ActiveThread.of_rows_eq (hrows : st'.assignments = st.assignments)
    (h : ActiveThread st' thread) : ActiveThread st thread := by
  rcases h with ⟨a, ha, hrest⟩
  rw [hrows] at ha
  exact ⟨a, ha, hrest⟩

variable {now : Nat}

theorem ActiveThread.of_transition (ht : Transition now st st')
    (h : ActiveThread st' thread) : ActiveThread st thread := by
  rcases h with ⟨a', ha', hthread, hactive⟩
  rcases ht.back ha' with ⟨a, ha, ⟨_, _, _, hsame⟩, hcase⟩
  refine ⟨a, ha, hsame.symm.trans hthread, ?_⟩
  rcases hcase with heq | ⟨hstatus, _⟩ | ⟨_, _, hbefore, _⟩
  · rw [← heq]
    exact hactive
  · rw [← hstatus]
    exact hactive
  · exact hbefore hactive

theorem ActiveThread.of_claimAssignment {id deviceId token : String} {expires : Nat}
    (hst : st.claimAssignment id deviceId token expires now = some st')
    (h : ActiveThread st' thread) : ActiveThread st thread := by
  unfold Store.claimAssignment at hst
  split at hst
  · cases hst
    rcases h with ⟨a', ha', hthread, hactive⟩
    rcases Table.mem_updateWhere ha' with ⟨a, ha, ⟨hp, heq⟩ | ⟨_, heq⟩⟩
    · rw [heq] at hthread
      simp only [Store.claimable, Bool.and_eq_true, beq_iff_eq] at hp
      exact ⟨a, ha, hthread, by rw [hp.left.right]; rfl⟩
    · rw [heq] at hthread hactive
      exact ⟨a, ha, hthread, hactive⟩
  · cases hst

theorem ActiveThread.of_insertAssignment {a : Assignment}
    (hst : st.insertAssignment a now = .ok st') (h : ActiveThread st' thread) :
    ActiveThread st thread ∨ a.threadId = thread := by
  rcases insertAssignment_spec hst with ⟨_, hrows, _⟩
  rcases h with ⟨b, hb, hthread, hactive⟩
  rw [hrows] at hb
  rcases List.mem_append.mp hb with hb | hb
  · exact .inl ⟨b, hb, hthread, hactive⟩
  · rw [List.mem_singleton] at hb
    rw [hb] at hthread
    exact .inr hthread

/-!
## The requests
-/

def Inserts (w : World) (a : Action) (thread : String) : Prop :=
  exists (i : Nat) (localRun : Bool) (now : Nat) (c : Create),
    a = .advanceCreate i localRun now ∧ w.creates[i]? = some c ∧
      c.stage = .insert ∧ c.input.threadId = thread

theorem perform_activeThread {w w' : World} {a : Action}
    (hstep : perform hash w a = some w') (h : ActiveThread w'.store thread) :
    ActiveThread w.store thread ∨ Inserts w a thread := by
  have hnow : forall reading, reading ∈ a.reading -> reading = a.reading.getD 0 := by
    intro reading hreading
    rw [Option.mem_def.mp hreading]
    rfl
  rcases (perform_rows hstep hnow).right with hsame | ⟨st', ht, hst'⟩ |
    ⟨i, localRun, now, c, rfl, hc, hstage, hst⟩ | ⟨_, _, _, _, _, _, hst⟩
  · exact .inl (h.of_rows_eq hsame)
  · exact .inl ((h.of_rows_eq hst').of_transition ht)
  · rcases h.of_insertAssignment hst with hold | hnew
    · exact .inl hold
    · exact .inr ⟨i, localRun, now, c, rfl, hc, hstage, hnew⟩
  · exact .inl (h.of_claimAssignment hst)

end Collaboration
end Perpetual
