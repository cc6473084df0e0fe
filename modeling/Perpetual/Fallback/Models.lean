import Perpetual.Fallback.SwitchBack

/-!
# The model behind a switch

A switch puts another agent in the place of the active one.  The model that is stored
with it is that of the user's profile for the agent, a model that was carried over, or
none.  Some of the calls start the other agent even where the row cannot be saved: then
it finds the model that the thread had.
-/

namespace Perpetual
namespace Fallback

/-- The active agent can use the model of the thread, if there is one. -/
def AgentThread.ModelFits (thread : AgentThread) : Prop :=
  forall agent, agent ∈ thread.activeAgent -> forall model, model ∈ thread.model ->
    modelCompatibleWithAgent agent model = true

instance (thread : AgentThread) : Decidable thread.ModelFits := by
  unfold AgentThread.ModelFits
  infer_instance

/-- What a switch puts in the place of the model suits the agent it switches to: the model
of the profile or of the local target, and that of the thread where the scheduler resumes
it. -/
def Switch.BringsModel (thread : AgentThread) : Switch -> Prop
  | .agent _ next profile _ _ =>
      forall model, model ∈ profile.1 -> modelCompatibleWithAgent next model = true
  | .account _ next profile =>
      forall model, model ∈ profile.1 -> modelCompatibleWithAgent next model = true
  | .toLocal _ target _ =>
      modelCompatibleWithAgent .codex target.model = true
  | .scheduled next =>
      forall model, model ∈ thread.model -> modelCompatibleWithAgent next model = true

theorem nextModel_fits_iff (thread : AgentThread) (agent : AgentKind)
    (profileModel : Option String) :
    (forall model, model ∈ thread.nextModel agent profileModel ->
        modelCompatibleWithAgent agent model = true) <->
      forall model, model ∈ profileModel -> modelCompatibleWithAgent agent model = true := by
  unfold AgentThread.nextModel
  cases profileModel with
  | some model => rfl
  | none =>
      rw [Option.none_or]
      constructor
      · intro _ model hmodel
        cases hmodel
      · intro _ model hmodel
        exact (Option.filter_eq_some_iff.mp hmodel).right

theorem Switch.apply_modelFits_iff (s : Switch) (thread : AgentThread) :
    (s.apply thread).ModelFits <-> s.BringsModel thread := by
  have hactive : forall {next : AgentKind} {p : AgentKind -> Prop},
      (forall agent, agent ∈ some next -> p agent) <-> p next := by
    intro next p
    constructor
    · intro h
      exact h next rfl
    · intro h agent hagent
      rw [← Option.some.inj hagent]
      exact h
  cases s with
  | agent current next profile switchBack resetAt =>
      exact hactive.trans (nextModel_fits_iff thread next profile.1)
  | account current next profile => exact hactive
  | toLocal current target switchBackToCloud =>
      refine hactive.trans ?_
      constructor
      · intro h
        exact h target.model rfl
      · intro h model hmodel
        rw [← Option.some.inj hmodel]
        exact h
  | scheduled next => exact hactive

/-!
## The start behind a switch
-/

def Switch.next : Switch -> AgentKind
  | .agent _ next _ _ _ => next
  | .account _ next _ => next
  | .toLocal _ _ _ => .codex
  | .scheduled next => next

theorem Switch.activeAgent_apply (s : Switch) (thread : AgentThread) :
    (s.apply thread).activeAgent = some s.next := by
  cases s with
  | agent current next profile switchBack resetAt => rfl
  | account current next profile => rfl
  | toLocal current target switchBackToCloud => rfl
  | scheduled next => rfl

/-- Where the row cannot be saved, the call for a known limit returns the error and a
switch between accounts is given up; the others start the agent all the same. -/
def Request.startsUnsaved (r : Request) : Switch -> Bool
  | .agent _ _ _ _ _ =>
      match r.call with
      | .knownLimited _ _ => false
      | _ => true
  | .account _ _ _ => false
  | .toLocal _ _ _ => true
  | .scheduled _ => true

/-- The agent that the call starts for its switch. -/
def Request.started (unlimitedBudget : Bool) (r : Request) : Option AgentKind :=
  ((r.chosen unlimitedBudget).filter
    (fun s => r.answers.saves || r.startsUnsaved s)).map Switch.next

/-- The agent that is started can use the model it finds in the row, if there is one. -/
def Request.StartFits (r : Request) (thread : AgentThread) : Prop :=
  forall agent, agent ∈ r.started thread.unlimitedBudget ->
    forall model, model ∈ (r.run thread).thread.model ->
      modelCompatibleWithAgent agent model = true

/-- The row is saved with a model for the agent; or it is not, and where the agent is
started nevertheless the model of the thread suits it. -/
def Request.LeavesModel (r : Request) (thread : AgentThread) (s : Switch) : Prop :=
  if r.answers.saves then s.BringsModel thread
  else
    r.startsUnsaved s = true -> forall model, model ∈ thread.model ->
      modelCompatibleWithAgent s.next model = true

theorem Request.run_of_chosen {r : Request} {thread : AgentThread} {s : Switch}
    (hsaves : r.answers.saves = true) (h : r.chosen thread.unlimitedBudget = some s) :
    (r.run thread).thread = s.apply thread := by
  apply Request.run_of_switch
  unfold Request.switch
  rw [hsaves]
  exact h

theorem Request.model_of_unsaved {r : Request} {thread : AgentThread}
    (hsaves : r.answers.saves = false) : (r.run thread).thread.model = thread.model := by
  have hran := r.ran thread
  have hnone : r.switch thread.unlimitedBudget = none := by
    unfold Request.switch
    rw [hsaves]
    rfl
  rw [hnone] at hran
  generalize r.run thread = outcome at hran
  cases hran with
  | switched s hswitch => cases hswitch
  | stayed t' _ hkeeps => exact (congrArg AgentThread.model hkeeps).symm

theorem Switch.modelFits_iff_next (s : Switch) (thread : AgentThread) :
    (s.apply thread).ModelFits <->
      forall model, model ∈ (s.apply thread).model ->
        modelCompatibleWithAgent s.next model = true := by
  unfold AgentThread.ModelFits
  rw [s.activeAgent_apply thread]
  constructor
  · intro h
    exact h s.next rfl
  · intro h agent hagent
    rw [← Option.some.inj hagent]
    exact h

theorem Request.startFits_iff (r : Request) (thread : AgentThread) :
    r.StartFits thread <->
      forall s, s ∈ r.chosen thread.unlimitedBudget -> r.LeavesModel thread s := by
  unfold Request.StartFits Request.started
  cases hchosen : r.chosen thread.unlimitedBudget with
  | none => simp
  | some s =>
      have hone : (forall s', s' ∈ some s -> r.LeavesModel thread s') <->
          r.LeavesModel thread s := by
        constructor
        · intro h
          exact h s rfl
        · intro h s' hs'
          rw [← Option.some.inj hs']
          exact h
      rw [hone]
      unfold Request.LeavesModel
      cases hsaves : r.answers.saves with
      | true =>
          rw [if_pos rfl, Request.run_of_chosen hsaves hchosen, ← s.apply_modelFits_iff,
            s.modelFits_iff_next]
          simp
      | false =>
          rw [if_neg (by simp), Request.model_of_unsaved hsaves]
          cases hstarts : r.startsUnsaved s with
          | false => simp [Option.filter, hstarts]
          | true => simp [Option.filter, hstarts]

theorem Request.switched_fits_iff (r : Request) (thread : AgentThread) :
    ((r.run thread).switched = true -> (r.run thread).thread.ModelFits) <->
      forall s, s ∈ r.switch thread.unlimitedBudget -> s.BringsModel thread := by
  have hran := r.ran thread
  generalize r.run thread = outcome at hran
  cases hran with
  | switched s hswitch =>
      rw [hswitch]
      constructor
      · intro h s' hs'
        rw [← Option.some.inj hs']
        exact (s.apply_modelFits_iff thread).mp (h rfl)
      · intro h _
        exact (s.apply_modelFits_iff thread).mpr (h s rfl)
  | stayed t' hswitch hkeeps =>
      rw [hswitch]
      constructor
      · intro _ s hs
        cases hs
      · intro _ hswitched
        cases hswitched

/-- The model stored by a switch suits the new agent exactly if the profile's model does,
and that of a thread which the scheduler resumes with another agent.  The agent that is
started finds such a model also behind a save that fails, exactly if the model of the
thread suits it there. -/
theorem switched_model_fits_iff (r : Request) (thread : AgentThread) :
    (((r.run thread).switched = true -> (r.run thread).thread.ModelFits) <->
        forall s, s ∈ r.switch thread.unlimitedBudget -> s.BringsModel thread) ∧
      (r.StartFits thread <->
        forall s, s ∈ r.chosen thread.unlimitedBudget -> r.LeavesModel thread s) :=
  ⟨r.switched_fits_iff thread, r.startFits_iff thread⟩

/-- The scheduler resumes a thread with another agent and leaves it the model of the first
one. -/
theorem scheduled_switch_keeps_foreign_model :
    ¬ forall (r : Request) (thread : AgentThread),
      (r.run thread).switched = true -> (r.run thread).thread.ModelFits := by
  intro h
  exact absurd (h resumeWithCodex opusThread (by decide +kernel)) (by decide +kernel)

end Fallback
end Perpetual
