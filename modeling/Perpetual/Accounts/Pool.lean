import Perpetual.Accounts.Policy
import Perpetual.Foundation.Cells
import Perpetual.Foundation.Machine

/-!
# Operations on the account pool

Every operation reads the whole policy, changes it and writes it whole.  The
registration of sign-ins and the addition of one do so under a lock; the activation and
the deletion of an account do not, and an operation that writes between the read and
the write of another one is lost.

The document is that of the completed operations in some order as long as an operation
writes only while the policy is the one it read.
-/

namespace Perpetual
namespace Accounts

open Foundation

/-- Where an operation is.  `listing` and `probing` come before the lock. -/
inductive Stage where
  | listing (only : Option AgentKind)
  | probing (candidates : List AgentKind)
  | waiting
  | reading
  | writing (read next : LimitPolicy)
  | done
  | failed
deriving DecidableEq, Repr

structure Call where
  op : Op
  stage : Stage
deriving DecidableEq, Repr

structure World where
  stored : Option LimitPolicy
  lockHeld : Bool
  calls : List Call
deriving DecidableEq, Repr

inductive Input where
  | tick
  | probed (authenticated : List Bool)
  | refuse
deriving DecidableEq, Repr

inductive Action where
  | sync (only : Option AgentKind)
  | add (agent : AgentKind)
  | activate (id : String)
  | delete (id : String)
  | advance (call : Nat) (input : Input)
deriving DecidableEq, Repr

def Op.locks : Op -> Bool
  | .sync _ => true
  | .add _ => true
  | _ => false

namespace World

def policy (w : World) : LimitPolicy :=
  getLimitPolicy w.stored

def setCall (w : World) (k : Nat) (c : Call) : World :=
  { w with calls := w.calls.set k c }

def finish (w : World) (k : Nat) (c : Call) (stage : Stage) : World :=
  { w.setCall k { c with stage := stage } with
    lockHeld := if c.op.locks then false else w.lockHeld }

/-- An account that is not found is an error; a registration may find nothing to do. -/
def unchanged : Op -> Stage
  | .sync _ => .done
  | _ => .failed

def advance (w : World) (k : Nat) (c : Call) : Input -> Option World
  | .tick =>
      match c.stage with
      | .listing only =>
          if (w.policy.candidates only).isEmpty then
            some (w.setCall k
              { op := .sync []
                stage := .done })
          else
            some (w.setCall k { c with stage := .probing (w.policy.candidates only) })
      | .waiting =>
          if w.lockHeld then none
          else some { w.setCall k { c with stage := .reading } with lockHeld := true }
      | .reading =>
          match c.op.change w.policy with
          | some next => some (w.setCall k { c with stage := .writing w.policy next })
          | none => some (w.finish k c (unchanged c.op))
      | .writing _ next =>
          some { w.finish k c .done with stored := some (normalizeLimitPolicy next) }
      | _ => none
  | .probed authenticated =>
      match c.stage with
      | .probing candidates =>
          some (w.setCall k
            { op :=
                .sync (((candidates.zip authenticated).filter Prod.snd).map Prod.fst)
              stage := .waiting })
      | _ => none
  | .refuse =>
      match c.stage with
      | .listing _ => some (w.setCall k { c with stage := .failed })
      | .reading => some (w.finish k c .failed)
      | .writing _ _ => some (w.finish k c .failed)
      | _ => none

def addCall (w : World) (op : Op) (stage : Stage) : World :=
  { w with
    calls :=
      w.calls ++
        [{ op := op
           stage := stage }] }

def step (w : World) : Action -> Option World
  | .sync only => some (w.addCall (.sync []) (.listing only))
  | .add agent =>
      if hasAccounts agent then some (w.addCall (.add agent) .waiting) else none
  | .activate id =>
      if validId id then some (w.addCall (.activate id) .reading) else none
  | .delete id =>
      if validId id then some (w.addCall (.delete id) .reading) else none
  | .advance k input =>
      match w.calls[k]? with
      | some c => w.advance k c input
      | none => none

def opened (stored : Option LimitPolicy) : World :=
  { stored := stored
    lockHeld := false
    calls := [] }

end World

open World in
def machine : Machine World Action where
  start := fun w => exists stored, w = World.opened stored
  step := World.step

def Call.completed (c : Call) : Option Op :=
  if c.stage = .done then some c.op else none

/-- The operations that wrote, and the registrations that found nothing to do. -/
def World.completed (w : World) : List Op :=
  w.calls.filterMap Call.completed

def Stage.replaces : Stage -> Option LimitPolicy
  | .writing read _ => some read
  | _ => none

/-- An operation writes only while the policy is the one it read. -/
def ReadIsCurrent (w : World) : Action -> Prop
  | .advance k .tick =>
      forall c, c ∈ w.calls[k]? -> forall read, read ∈ c.stage.replaces -> w.policy = read
  | _ => True

instance (w : World) (a : Action) : Decidable (ReadIsCurrent w a) := by
  unfold ReadIsCurrent
  split <;> infer_instance

def Stage.inside : Stage -> Bool
  | .reading => true
  | .writing _ _ => true
  | _ => false

/-- A step of an operation, with the document and the lock after it. -/
inductive Effect (w : World) (c : Call) : Option LimitPolicy -> Bool -> Call -> Prop where
  | outside (c' : Call) (hbefore : c.stage.inside = false) (hafter : c'.stage.inside = false)
      (hopen : c.completed = none)
      (hdone : forall op, c'.completed = some op -> op.change w.policy = none)
      (hlocks : c.op.locks = true -> c'.op.locks = true) :
      Effect w c w.stored w.lockHeld c'
  | enter (hstage : c.stage = .waiting) (hfree : w.lockHeld = false) :
      Effect w c w.stored true { c with stage := .reading }
  | read (next : LimitPolicy) (hstage : c.stage = .reading)
      (hchange : c.op.change w.policy = some next) :
      Effect w c w.stored w.lockHeld { c with stage := .writing w.policy next }
  | leave (stage : Stage) (hbefore : c.stage.inside = true) (hafter : stage.inside = false)
      (hdone : stage = .done -> c.op.change w.policy = none) :
      Effect w c w.stored (if c.op.locks then false else w.lockHeld) { c with stage := stage }
  | write (next : LimitPolicy) (hstage : c.stage = .writing w.policy next) :
      Effect w c (some (normalizeLimitPolicy next))
        (if c.op.locks then false else w.lockHeld) { c with stage := .done }

variable {c c' : Call}

theorem completed_of_stage (h : c.stage ≠ .done) : c.completed = none :=
  if_neg h

variable {w w' : World} {k : Nat}

theorem advance_spec {input : Input}
    (hok : input = .tick -> forall read, read ∈ c.stage.replaces -> w.policy = read)
    (h : w.advance k c input = some w') :
    exists c', w'.calls = w.calls.set k c' ∧ Effect w c w'.stored w'.lockHeld c' := by
  cases input with
  | tick =>
      unfold World.advance at h
      dsimp only at h
      cases hstage : c.stage with
      | listing only =>
          rw [hstage] at h
          dsimp only at h
          have hopen := completed_of_stage (c := c) (by rw [hstage]; nofun)
          split at h
          · cases h
            refine ⟨_, rfl, .outside _ (by rw [hstage]; rfl) rfl hopen ?_ (fun _ => rfl)⟩
            rintro op ⟨⟩
            rfl
          · cases h
            exact ⟨_, rfl, .outside _ (by rw [hstage]; rfl) rfl hopen nofun id⟩
      | probing candidates =>
          rw [hstage] at h
          cases h
      | waiting =>
          rw [hstage] at h
          dsimp only at h
          cases hfree : w.lockHeld with
          | true =>
              rw [hfree] at h
              cases h
          | false =>
              rw [hfree] at h
              cases h
              exact ⟨_, rfl, .enter hstage hfree⟩
      | reading =>
          rw [hstage] at h
          dsimp only at h
          cases hchange : c.op.change w.policy with
          | some next =>
              rw [hchange] at h
              cases h
              exact ⟨_, rfl, .read next hstage hchange⟩
          | none =>
              rw [hchange] at h
              cases h
              refine ⟨_, rfl, .leave _ (by rw [hstage]; rfl) ?_ (fun _ => hchange)⟩
              cases c.op <;> rfl
      | writing read next =>
          have hread : w.policy = read := hok rfl read (by rw [hstage]; rfl)
          rw [← hread] at hstage
          rw [hstage] at h
          cases h
          exact ⟨_, rfl, .write next hstage⟩
      | done =>
          rw [hstage] at h
          cases h
      | failed =>
          rw [hstage] at h
          cases h
  | probed authenticated =>
      unfold World.advance at h
      dsimp only at h
      split at h
      · rename_i candidates hstage
        cases h
        exact ⟨_, rfl, .outside _ (by rw [hstage]; rfl) rfl
          (completed_of_stage (by rw [hstage]; nofun)) nofun (fun _ => rfl)⟩
      · cases h
  | refuse =>
      unfold World.advance at h
      dsimp only at h
      split at h
      · rename_i only hstage
        cases h
        exact ⟨_, rfl, .outside _ (by rw [hstage]; rfl) rfl
          (completed_of_stage (by rw [hstage]; nofun)) nofun id⟩
      · rename_i hstage
        cases h
        exact ⟨_, rfl, .leave _ (by rw [hstage]; rfl) rfl nofun⟩
      · rename_i hstage
        cases h
        exact ⟨_, rfl, .leave _ (by rw [hstage]; rfl) rfl nofun⟩
      · cases h

def Locking (_ : World) : Action -> Prop
  | .activate _ => False
  | .delete _ => False
  | _ => True

theorem step_cases {a : Action} (hok : ReadIsCurrent w a) (h : w.step a = some w') :
    (exists c : Call, w' = { w with calls := w.calls ++ [c] } ∧ c.completed = none ∧
        c.stage.replaces = none ∧
        (Locking w a -> c.op.locks = true ∧ c.stage.inside = false)) ∨
      exists k c c', w.calls[k]? = some c ∧ w'.calls = w.calls.set k c' ∧
        Effect w c w'.stored w'.lockHeld c' := by
  cases a with
  | sync only =>
      cases h
      exact .inl ⟨_, rfl, rfl, rfl, fun _ => ⟨rfl, rfl⟩⟩
  | add agent =>
      simp only [World.step] at h
      split at h
      · cases h
        exact .inl ⟨_, rfl, rfl, rfl, fun _ => ⟨rfl, rfl⟩⟩
      · cases h
  | activate id =>
      simp only [World.step] at h
      split at h
      · cases h
        exact .inl ⟨_, rfl, rfl, rfl, False.elim⟩
      · cases h
  | delete id =>
      simp only [World.step] at h
      split at h
      · cases h
        exact .inl ⟨_, rfl, rfl, rfl, False.elim⟩
      · cases h
  | advance k input =>
      simp only [World.step] at h
      split at h
      · rename_i c hc
        have hok' : input = .tick -> forall read, read ∈ c.stage.replaces -> w.policy = read := by
          rintro rfl
          exact hok c hc
        rcases advance_spec hok' h with ⟨c', hset, heffect⟩
        exact .inr ⟨k, c, c', hc, hset, heffect⟩
      · cases h

/-!
## The order of the operations
-/

/-- The document is that of the completed operations in some order, and an operation
that is about to write has what it makes of the policy it read. -/
structure Sequential (stored : Option LimitPolicy) (w : World) : Prop where
  order : exists order : List Op,
    order.Perm w.completed ∧ w.stored = inSequence stored order
  written : forall c, c ∈ w.calls -> forall read next,
    c.stage = .writing read next -> c.op.change read = some next

theorem completed_set_of_none (hc : w.calls[k]? = some c) (hopen : c.completed = none)
    (hopen' : c'.completed = none) :
    ((w.calls.set k c').filterMap Call.completed).Perm w.completed := by
  have hold := Cells.filterMap_perm_of_getElem? Call.completed hc
  have hnew := Cells.filterMap_set_perm Call.completed hc c'
  rw [hopen] at hold
  rw [hopen'] at hnew
  exact hnew.trans hold.symm

theorem completed_set_of_some {op : Op} (hc : w.calls[k]? = some c) (hopen : c.completed = none)
    (hdone : c'.completed = some op) :
    ((w.calls.set k c').filterMap Call.completed).Perm (op :: w.completed) := by
  have hold := Cells.filterMap_perm_of_getElem? Call.completed hc
  have hnew := Cells.filterMap_set_perm Call.completed hc c'
  rw [hopen] at hold
  rw [hdone] at hnew
  exact hnew.trans (hold.symm.cons op)

variable {stored : Option LimitPolicy}

theorem Op.apply_of_none {op : Op} (h : op.change (getLimitPolicy stored) = none) :
    op.apply stored = stored := by
  unfold Op.apply
  rw [h]

theorem Sequential.set (hw : Sequential stored w) (hc : w.calls[k]? = some c)
    (hset : w'.calls = w.calls.set k c') (hopen : c.completed = none)
    (hstored : (c'.completed = none ∧ w'.stored = w.stored) ∨
      exists op, c'.completed = some op ∧ w'.stored = op.apply w.stored)
    (hwritten : forall read next, c'.stage = .writing read next ->
      c'.op.change read = some next) : Sequential stored w' := by
  rcases hw.order with ⟨order, hperm, horder⟩
  constructor
  · unfold World.completed
    rw [hset]
    rcases hstored with ⟨hopen', hsame⟩ | ⟨op, hdone, happly⟩
    · exact ⟨order, hperm.trans (completed_set_of_none hc hopen hopen').symm, hsame.trans horder⟩
    · refine ⟨order ++ [op], ?_, ?_⟩
      · exact (List.perm_append_singleton op order).trans
          ((hperm.cons op).trans (completed_set_of_some hc hopen hdone).symm)
      · rw [inSequence_concat, ← horder]
        exact happly
  · intro d hd
    rw [hset] at hd
    rcases List.mem_or_eq_of_mem_set hd with hd | heq
    · exact hw.written d hd
    · rw [heq]
      exact hwritten

theorem Sequential.effect (hw : Sequential stored w) (hc : w.calls[k]? = some c)
    (hset : w'.calls = w.calls.set k c') (h : Effect w c w'.stored w'.lockHeld c') :
    Sequential stored w' := by
  have hinside : forall c : Call, c.stage.inside = true -> c.completed = none := by
    intro c hc
    apply completed_of_stage
    intro hdone
    rw [hdone] at hc
    cases hc
  generalize hdocument : w'.stored = document at h
  generalize w'.lockHeld = lock at h
  cases h with
  | outside _ hbefore hafter hopen hdone hlocks =>
      apply hw.set hc hset hopen
      · cases hcompleted : c'.completed with
        | none => exact .inl ⟨rfl, hdocument⟩
        | some op =>
            refine .inr ⟨op, rfl, ?_⟩
            rw [Op.apply_of_none (hdone op hcompleted)]
            exact hdocument
      · intro read next hstage
        rw [hstage] at hafter
        cases hafter
  | enter hstage hfree =>
      refine hw.set hc hset (completed_of_stage (by rw [hstage]; nofun))
        (.inl ⟨rfl, hdocument⟩) nofun
  | read next hstage hchange =>
      refine hw.set hc hset (completed_of_stage (by rw [hstage]; nofun)) (.inl ⟨rfl, hdocument⟩) ?_
      rintro _ _ ⟨⟩
      exact hchange
  | leave stage hbefore hafter hdone =>
      apply hw.set hc hset (hinside c hbefore)
      · by_cases hstage : stage = .done
        · refine .inr ⟨c.op, if_pos hstage, ?_⟩
          rw [Op.apply_of_none (hdone hstage)]
          exact hdocument
        · exact .inl ⟨if_neg hstage, hdocument⟩
      · intro read next hstage
        rw [show stage = _ from hstage] at hafter
        cases hafter
  | write next hstage =>
      refine hw.set hc hset (completed_of_stage (by rw [hstage]; nofun))
        (.inr ⟨c.op, rfl, ?_⟩) nofun
      have hchange := hw.written c (List.mem_of_getElem? hc) w.policy next hstage
      unfold Op.apply
      rw [show c.op.change (getLimitPolicy w.stored) = _ from hchange]
      exact hdocument

theorem Sequential.step {a : Action} (hw : Sequential stored w) (hok : ReadIsCurrent w a)
    (h : w.step a = some w') : Sequential stored w' := by
  rcases step_cases hok h with ⟨c, heq, hopen, hreplaces, _⟩ | ⟨k, c, c', hc, hset, heffect⟩
  · rcases hw.order with ⟨order, hperm, horder⟩
    rw [heq]
    constructor
    · refine ⟨order, ?_, horder⟩
      unfold World.completed
      rw [List.filterMap_append, List.filterMap_cons, hopen, List.filterMap_nil, List.append_nil]
      exact hperm
    · intro d hd
      rcases List.mem_append.mp hd with hd | hd
      · exact hw.written d hd
      · rw [List.mem_singleton.mp hd]
        intro read next hstage
        rw [hstage] at hreplaces
        cases hreplaces
  · exact hw.effect hc hset heffect

/-- In a run in which operations write only over the policy they read, the document is
that of the completed operations one after another. -/
theorem stored_in_sequence {stored : Option LimitPolicy} {w : World}
    (h : machine.Steps ReadIsCurrent (World.opened stored) w) :
    exists order : List Op, order.Perm w.completed ∧ w.stored = inSequence stored order := by
  have hstart : Sequential stored (World.opened stored) :=
    { order := ⟨[], List.Perm.refl _, rfl⟩
      written := fun _ hc => absurd hc List.not_mem_nil }
  exact (Machine.Steps.invariant (P := Sequential stored)
    (fun _ _ _ hs hok hstep => hs.step hok hstep) h hstart).order

def twoAccounts : LimitPolicy :=
  { LimitPolicy.default with
    accounts :=
      ["account-a", "account-b"].map (fun id =>
        { id := id
          label := id
          agent := .codex
          enabled := true
          useCredits := false
          authMode := .isolatedCli }) }

/-- An account is made the first, and then the other one is deleted. -/
def oneByOne : List Action :=
  [.activate "account-b", .advance 0 .tick, .advance 0 .tick,
    .delete "account-a", .advance 1 .tick, .advance 1 .tick]

theorem stored_in_sequence_oneByOne :
    exists w : World, w.completed = [Op.activate "account-b", Op.delete "account-a"] ∧
      exists order : List Op, order.Perm w.completed ∧
        w.stored = inSequence (some twoAccounts) order := by
  have hrun : Option.any
      (fun w : World =>
        decide (w.completed = [Op.activate "account-b", Op.delete "account-a"]))
      (machine.runUnder ReadIsCurrent (World.opened (some twoAccounts)) oneByOne) = true := by
    decide +kernel
  rcases machine.exists_steps_of_runUnder hrun with ⟨w, hsteps, hcompleted⟩
  exact ⟨w, of_decide_eq_true hcompleted, stored_in_sequence hsteps⟩

/-- An account is made the first, and meanwhile the other one is deleted. -/
def overlapping : List Action :=
  [.activate "account-a", .delete "account-b", .advance 0 .tick,
    .advance 1 .tick, .advance 1 .tick, .advance 0 .tick]

/-- The deletion is complete, and the account is in the pool. -/
theorem deleted_account_reappears :
    exists w : World, machine.Steps Machine.anyStep (World.opened (some twoAccounts)) w ∧
      Op.delete "account-b" ∈ w.completed ∧
      w.policy.accounts.any (fun account => account.id == "account-b") = true ∧
      ¬ exists order : List Op, order.Perm w.completed ∧
        w.stored = inSequence (some twoAccounts) order := by
  have hrun : Option.any
      (fun w : World =>
        decide (w.completed = [Op.activate "account-a", Op.delete "account-b"]) &&
          w.policy.accounts.any (fun account => account.id == "account-b") &&
          decide (w.stored ≠ inSequence (some twoAccounts)
            [Op.activate "account-a", Op.delete "account-b"]) &&
          decide (w.stored ≠ inSequence (some twoAccounts)
            [Op.delete "account-b", Op.activate "account-a"]))
      (machine.runFrom (World.opened (some twoAccounts)) overlapping) = true := by
    decide +kernel
  rcases (Option.any_eq_true _ _).mp hrun with ⟨w, hw, hends⟩
  simp only [Bool.and_eq_true, decide_eq_true_eq] at hends
  rcases hends with ⟨⟨⟨hcompleted, hpool⟩, hfirst⟩, hsecond⟩
  refine ⟨w, machine.steps_of_runFrom hw, ?_, hpool, ?_⟩
  · rw [hcompleted]
    exact List.mem_cons_of_mem _ List.mem_cons_self
  · rintro ⟨order, hperm, hstored⟩
    rw [hcompleted] at hperm
    rcases List.perm_pair.mp hperm with heq | heq
    · exact hfirst (heq ▸ hstored)
    · exact hsecond (heq ▸ hstored)

end Accounts
end Perpetual
