import Mathlib

/-!
# Step machines

A step machine is a partial step function over labelled actions together with
its start states.  The models of this development are step machines: an action
is one atomic section of the program (a lock-held section, an SQL statement, the
code between two scheduling points), and an interleaving is a list of actions.

Runs come in two forms.  `runFrom` executes a list of actions and is used
on concrete schedules.  `ReachableUnder` is the relational form used by the
proofs; it restricts every step of a run by a side condition on the state before
the step, so that "in every run whose steps all meet the condition" is one
predicate.
-/

namespace Perpetual
namespace Foundation

structure Machine (state action : Type) where
  start : state -> Prop
  step : state -> action -> Option state

namespace Machine

variable {state action : Type}

def runFrom (M : Machine state action) : state -> List action -> Option state
  | s, [] => some s
  | s, a :: rest =>
      match M.step s a with
      | none => none
      | some s' => M.runFrom s' rest

@[simp] theorem runFrom_nil (M : Machine state action) (s : state) :
    M.runFrom s [] = some s := rfl

variable {M : Machine state action} {s t : state}

theorem runFrom_cons_of_step {s' : state} {a : action} (rest : List action)
    (h : M.step s a = some s') : M.runFrom s (a :: rest) = M.runFrom s' rest := by
  simp only [runFrom, h]

variable {actions : List action}

/-!
## Restricted runs
-/

def StepUnder (M : Machine state action) (ok : state -> action -> Prop)
    (s t : state) : Prop :=
  exists a, ok s a ∧ M.step s a = some t

/-- A run all of whose steps meet the side condition. -/
def Steps (M : Machine state action) (ok : state -> action -> Prop) :
    state -> state -> Prop :=
  Relation.ReflTransGen (M.StepUnder ok)

def ReachableUnder (M : Machine state action) (ok : state -> action -> Prop)
    (s : state) : Prop :=
  exists s0, M.start s0 ∧ M.Steps ok s0 s

def anyStep (_ : state) (_ : action) : Prop := True

def Reachable (M : Machine state action) (s : state) : Prop :=
  M.ReachableUnder anyStep s

variable {ok : state -> action -> Prop}

theorem ReachableUnder.trans (h : M.ReachableUnder ok s) (hsteps : M.Steps ok s t) :
    M.ReachableUnder ok t := by
  rcases h with ⟨s0, hstart, hrun⟩
  exact ⟨s0, hstart, hrun.trans hsteps⟩

theorem ReachableUnder.mono {ok' : state -> action -> Prop} (hle : forall s a, ok s a -> ok' s a)
    (h : M.ReachableUnder ok s) : M.ReachableUnder ok' s := by
  rcases h with ⟨s0, hstart, hrun⟩
  refine ⟨s0, hstart, Relation.ReflTransGen.mono ?_ _ _ hrun⟩
  rintro x y ⟨a, hok, ha⟩
  exact ⟨a, hle x a hok, ha⟩

/-!
## Induction rules

The first rule carries an invariant along a run from any state; the second
starts it at the start states.  Both ask for one step lemma only.
-/

theorem Steps.invariant {P : state -> Prop}
    (hstep : forall s a t, P s -> ok s a -> M.step s a = some t -> P t) (hrun : M.Steps ok s t)
    (hs : P s) : P t := by
  induction hrun with
  | refl => exact hs
  | tail _ hlast ih =>
      rcases hlast with ⟨a, hok, ha⟩
      exact hstep _ a _ ih hok ha

theorem ReachableUnder.invariant {P : state -> Prop} (hstart : forall s, M.start s -> P s)
    (hstep : forall s a t, P s -> ok s a -> M.step s a = some t -> P t)
    (h : M.ReachableUnder ok s) : P s := by
  rcases h with ⟨s0, hs0, hrun⟩
  exact Steps.invariant hstep hrun (hstart s0 hs0)

/-!
## Concrete schedules

A schedule is executed with a decidable side condition, and a property of the
state it ends in is decided along with it.
-/

/-- Executing a schedule whose every step meets the side condition. -/
def runUnder (M : Machine state action) (ok : state -> action -> Prop)
    [forall s a, Decidable (ok s a)] : state -> List action -> Option state
  | s, [] => some s
  | s, a :: rest =>
      if ok s a then
        match M.step s a with
        | none => none
        | some s' => M.runUnder ok s' rest
      else none

theorem steps_of_runFrom (M : Machine state action) (h : M.runFrom s actions = some t) :
    M.Steps anyStep s t := by
  induction actions generalizing s with
  | nil =>
      have hst : s = t := by simpa using h
      rw [hst]
      exact Relation.ReflTransGen.refl
  | cons a rest ih =>
      cases ha : M.step s a with
      | none =>
          simp [runFrom, ha] at h
      | some s' =>
          rw [runFrom_cons_of_step rest ha] at h
          exact Relation.ReflTransGen.head ⟨a, trivial, ha⟩ (ih h)

theorem steps_of_runUnder (M : Machine state action) [forall s a, Decidable (ok s a)]
    (h : M.runUnder ok s actions = some t) : M.Steps ok s t := by
  induction actions generalizing s with
  | nil =>
      have hst : s = t := by simpa [runUnder] using h
      rw [hst]
      exact Relation.ReflTransGen.refl
  | cons a rest ih =>
      unfold runUnder at h
      split at h
      · rename_i hok
        cases ha : M.step s a with
        | none =>
            simp [ha] at h
        | some s' =>
            rw [ha] at h
            exact Relation.ReflTransGen.head ⟨a, hok, ha⟩ (ih h)
      · cases h

theorem runUnder_cons_of_step [forall s a, Decidable (ok s a)] {s' : state} {a : action}
    (rest : List action) (hok : ok s a) (h : M.step s a = some s') :
    M.runUnder ok s (a :: rest) = M.runUnder ok s' rest := by
  rw [runUnder, if_pos hok, h]

theorem runUnder_or_violation [forall s a, Decidable (ok s a)] (h : M.runFrom s actions = some t) :
    M.runUnder ok s actions = some t ∨
      exists s1 a s2, M.Steps anyStep s s1 ∧ ¬ ok s1 a ∧ M.step s1 a = some s2 ∧
        M.Steps anyStep s2 t := by
  induction actions generalizing s with
  | nil => exact Or.inl h
  | cons a rest ih =>
      cases ha : M.step s a with
      | none =>
          simp [runFrom, ha] at h
      | some s' =>
          rw [runFrom_cons_of_step rest ha] at h
          by_cases hok : ok s a
          · rw [runUnder_cons_of_step rest hok ha]
            rcases ih h with hunder | ⟨s1, b, s2, hbefore, hnot, hb, hafter⟩
            · exact Or.inl hunder
            · exact Or.inr ⟨s1, b, s2, Relation.ReflTransGen.head ⟨a, trivial, ha⟩ hbefore,
                hnot, hb, hafter⟩
          · exact Or.inr ⟨s, a, s', Relation.ReflTransGen.refl, hok, ha, M.steps_of_runFrom h⟩

theorem reachable_of_runFrom (M : Machine state action) (hs : M.start s)
    (h : M.runFrom s actions = some t) : M.Reachable t :=
  ⟨s, hs, M.steps_of_runFrom h⟩

variable {p : state -> Bool}

theorem exists_reachable_of_runFrom (M : Machine state action) (hs : M.start s)
    (h : Option.any p (M.runFrom s actions) = true) : exists t, M.Reachable t ∧ p t = true := by
  rcases (Option.any_eq_true p _).mp h with ⟨t, ht, hp⟩
  exact ⟨t, M.reachable_of_runFrom hs ht, hp⟩

theorem exists_steps_of_runUnder (M : Machine state action) [forall s a, Decidable (ok s a)] (h : Option.any p (M.runUnder ok s actions) = true) :
    exists t, M.Steps ok s t ∧ p t = true := by
  rcases (Option.any_eq_true p _).mp h with ⟨t, ht, hp⟩
  exact ⟨t, M.steps_of_runUnder ht, hp⟩

theorem exists_reachable_of_runUnder (M : Machine state action) [forall s a, Decidable (ok s a)] (hs : M.start s) (h : Option.any p (M.runUnder ok s actions) = true) :
    exists t, M.ReachableUnder ok t ∧ p t = true := by
  rcases M.exists_steps_of_runUnder h with ⟨t, hsteps, hp⟩
  exact ⟨t, ⟨s, hs, hsteps⟩, hp⟩

end Machine
end Foundation
end Perpetual
