import Mathlib

/-!
# Computations that fail half-way

A computation that reads answers from its surroundings, writes to a state and may
fail; what it has written before it fails stays written.
-/

namespace Perpetual
namespace Foundation
namespace Attempt

variable {error state value result : Type}

/-- Go on with an answer, or fail with it. -/
def answer (x : Except error value) : EStateM error state value :=
  match x with
  | .ok v => pure v
  | .error e => throw e

theorem bind_eq_ok_iff (x : Except error value) (next : value -> Except error result) (r : result) :
    (x >>= next) = .ok r <-> exists y, x = .ok y ∧ next y = .ok r := by
  cases x with
  | error e =>
      constructor
      · intro h
        cases h
      · rintro ⟨y, hy, _hnext⟩
        cases hy
  | ok y =>
      constructor
      · intro h
        exact ⟨y, rfl, h⟩
      · rintro ⟨z, hz, hnext⟩
        injection hz with hyz
        rw [hyz]
        exact hnext

theorem run_answer_ok {x : Except error value} {v : value} (h : x = .ok v)
    (next : value -> EStateM error state result) (s : state) :
    (answer x >>= next).run s = (next v).run s := by
  rw [h]
  rfl

theorem run_answer_error {x : Except error value} {e : error} (h : x = .error e)
    (next : value -> EStateM error state result) (s : state) :
    (answer x >>= next).run s = EStateM.Result.error e s := by
  rw [h]
  rfl

variable {x : EStateM error state value} {s : state}

theorem run_bind_ok {v : value} {s' : state} (h : x.run s = EStateM.Result.ok v s')
    (next : value -> EStateM error state result) : (x >>= next).run s = (next v).run s' := by
  have hrun : x s = EStateM.Result.ok v s' := h
  show EStateM.bind x next s = _
  unfold EStateM.bind
  rw [hrun]
  rfl

theorem run_bind_error {e : error} {s' : state} (h : x.run s = EStateM.Result.error e s')
    (next : value -> EStateM error state result) :
    (x >>= next).run s = EStateM.Result.error e s' := by
  have hrun : x s = EStateM.Result.error e s' := h
  show EStateM.bind x next s = _
  unfold EStateM.bind
  rw [hrun]

theorem run_get (next : state -> EStateM error state result) (s : state) :
    (get >>= next).run s = (next s).run s :=
  rfl

theorem run_modify (f : state -> state) (next : Unit -> EStateM error state result) (s : state) :
    (modify f >>= next).run s = (next ()).run (f s) :=
  rfl

/-- Whenever the computation fails, the state it leaves meets the condition. -/
def FailsWith (x : EStateM error state value) (s : state) (P : state -> Prop) : Prop :=
  forall e s', x.run s = EStateM.Result.error e s' -> P s'

theorem failsWith_pure (v : value) (s : state) (P : state -> Prop) :
    FailsWith (pure v : EStateM error state value) s P := by
  intro e s' h
  cases h

variable {P : state -> Prop}

theorem failsWith_throw (e : error) (h : P s) :
    FailsWith (throw e : EStateM error state value) s P := by
  intro e' s' hrun
  cases hrun
  exact h

theorem failsWith_answer {x : Except error value} {next : value -> EStateM error state result}
    (herror : forall e, x = .error e -> P s) (hok : forall v, x = .ok v -> FailsWith (next v) s P) :
    FailsWith (answer x >>= next) s P := by
  cases hx : x with
  | error e =>
      intro e' s' hrun
      rw [run_answer_error rfl] at hrun
      cases hrun
      exact herror e hx
  | ok v =>
      intro e' s' hrun
      rw [run_answer_ok rfl] at hrun
      exact hok v hx e' s' hrun

theorem failsWith_modify {f : state -> state} {next : Unit -> EStateM error state result}
    (h : FailsWith (next ()) (f s) P) : FailsWith (modify f >>= next) s P := by
  intro e s' hrun
  rw [run_modify] at hrun
  exact h e s' hrun

theorem failsWith_get {next : state -> EStateM error state result} (h : FailsWith (next s) s P) :
    FailsWith (get >>= next) s P := by
  intro e s' hrun
  rw [run_get] at hrun
  exact h e s' hrun

theorem failsWith_tryCatch {handle : error -> EStateM error state value}
    (h : forall e s', x.run s = EStateM.Result.error e s' -> FailsWith (handle e) s' P) :
    FailsWith (tryCatch x handle) s P := by
  intro e s' hrun
  have hcatch : EStateM.tryCatch x handle s = EStateM.Result.error e s' := hrun
  unfold EStateM.tryCatch at hcatch
  cases hx : x s with
  | ok v t =>
      rw [hx] at hcatch
      cases hcatch
  | error e' t =>
      rw [hx] at hcatch
      exact h e' t hx e s' hcatch

theorem failsWith_bind {next : value -> EStateM error state result} (hx : FailsWith x s P)
    (hnext : forall v s', x.run s = EStateM.Result.ok v s' -> FailsWith (next v) s' P) :
    FailsWith (x >>= next) s P := by
  intro e s' hrun
  cases h : x.run s with
  | ok v t =>
      rw [run_bind_ok h] at hrun
      exact hnext v t h e s' hrun
  | error e' t =>
      rw [run_bind_error h] at hrun
      cases hrun
      exact hx e s' h

end Attempt
end Foundation
end Perpetual
