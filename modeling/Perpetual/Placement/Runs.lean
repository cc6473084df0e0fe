import Mathlib

/-!
# Rows of the cloud runs

The statuses of a run, the policy for runs, and the two questions that hand-offs, local
starts and reclaims ask of the stored runs: which run of a thread is active, and how many
are.  The models keep different rows, so the questions take the thread and the status of
a row as functions.
-/

namespace Perpetual
namespace Placement

inductive RunStatus where
  | provisioning
  | running
  | stalled
  | completed
  | failed
  | expired
  | reclaimed
deriving DecidableEq, Repr

/-- The statuses of `active_for_thread` and `list_active`. -/
def RunStatus.isActive : RunStatus -> Bool
  | provisioning => true
  | running => true
  | stalled => true
  | _ => false

structure CloudPolicy where
  enabled : Bool
  maxConcurrentCloudRuns : Nat
deriving DecidableEq, Repr

section Rows

variable {row : Type} (threadId : row -> String) (status : row -> RunStatus)

/-- `active_for_thread`: the place of the newest active run. -/
def activeForThread (runs : List row) (thread : String) : Option Nat :=
  (List.range runs.length).reverse.find? (fun r =>
    runs[r]?.any (fun run => threadId run == thread && (status run).isActive))

/-- The length of `list_active`. -/
def activeRuns (runs : List row) : Nat :=
  runs.countP (fun run => (status run).isActive)

theorem activeForThread_isSome {runs : List row} {thread : String} :
    (activeForThread threadId status runs thread).isSome = true <->
      exists run, run ∈ runs ∧ threadId run = thread ∧ (status run).isActive = true := by
  unfold activeForThread
  rw [List.find?_isSome]
  constructor
  · rintro ⟨r, _, hr⟩
    rcases (Option.any_eq_true _ _).mp hr with ⟨run, hrun, hcond⟩
    simp only [Bool.and_eq_true, beq_iff_eq] at hcond
    exact ⟨run, List.mem_of_getElem? hrun, hcond⟩
  · rintro ⟨run, hrun, hthread, hactive⟩
    rcases List.mem_iff_getElem?.mp hrun with ⟨r, hr⟩
    refine ⟨r, ?_, ?_⟩
    · rw [List.mem_reverse, List.mem_range]
      exact (List.getElem?_eq_some_iff.mp hr).1
    · simp [hr, hthread, hactive]

end Rows

end Placement
end Perpetual
