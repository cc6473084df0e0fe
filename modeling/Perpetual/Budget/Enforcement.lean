import Mathlib

/-!
# Task budgets

What a session may spend, and the account of the provider's quota windows that is kept
for it.  The percentages are of any type with the operations the program uses on its
floating-point numbers; nothing is assumed of them.
-/

namespace Perpetual
namespace Budget

/-- The numbers that percentages are, with the operations on them. -/
class Percentage (percent : Type) extends Zero percent, Add percent, Sub percent,
    Mul percent, Max percent, LE percent, NatCast percent, OfScientific percent where
  decidableLE : DecidableLE percent

instance Percentage.instDecidableLE {percent : Type} [Percentage percent] :
    DecidableLE percent :=
  Percentage.decidableLE

instance : Percentage ℚ where
  decidableLE := inferInstance

inductive TaskBudget where
  | unlimited
  | tokens (limitTokens : Nat)
  | weeklyPercent (limitPercent : Nat)
deriving DecidableEq, Repr

def TaskBudget.isUnlimited : TaskBudget -> Bool
  | .unlimited => true
  | _ => false

inductive QuotaWindowKind where
  | fiveHour
  | weekly
deriving DecidableEq, Repr

def isPercentageBudget : TaskBudget -> Bool
  | .weeklyPercent _ => true
  | _ => false

def quotaLimit {percent : Type} [Percentage percent] (budget : TaskBudget)
    (window : QuotaWindowKind) : Option percent :=
  match budget, window with
  | .weeklyPercent limit, .weekly => some (limit : percent)
  | _, _ => none

def tokenReserve (limit : Nat) : Nat :=
  max 4000 (min (limit / 20) 20000)

/-- Sums and products of 64-bit numbers stop at the largest one. -/
def saturating (n : Nat) : Nat :=
  min n (2 ^ 64 - 1)

structure EnforcementState (percent : Type) where
  fiveHourBaselinePercent : Option percent
  fiveHourConsumedPercent : percent
  weeklyBaselinePercent : Option percent
  weeklyConsumedPercent : percent
  weeklyOffsetPercent : percent
  weeklyResetAt : Option Nat
  reminderSent : Bool
  closeoutSent : Bool
  provider : Option String
deriving DecidableEq, Repr

section Percentages

variable {percent : Type} [Percentage percent]

def EnforcementState.default : EnforcementState percent :=
  { fiveHourBaselinePercent := none
    fiveHourConsumedPercent := 0
    weeklyBaselinePercent := none
    weeklyConsumedPercent := 0
    weeklyOffsetPercent := 0
    weeklyResetAt := none
    reminderSent := false
    closeoutSent := false
    provider := none }

/-- A sample above the baseline adds to what is consumed; a fall takes nothing back. -/
def grown (consumed offset used baseline : percent) : percent :=
  if baseline ≤ used then max consumed (offset + used - baseline) else consumed

namespace EnforcementState

/-- Another account, or another reset time of the week, starts a new baseline. -/
def rebased (state : EnforcementState percent) (provider : String) (resetAt : Option Nat) :
    EnforcementState percent :=
  let providerChanged := state.provider.any (fun old => old != provider)
  let resetChanged :=
    resetAt.any (fun next => state.weeklyResetAt.any (fun old => old != next))
  let dated :=
    { state with
      provider := some provider
      weeklyResetAt := resetAt.or state.weeklyResetAt }
  if providerChanged || resetChanged then
    { dated with
      weeklyOffsetPercent := state.weeklyConsumedPercent
      weeklyBaselinePercent := none }
  else dated

/-- The new state, and what has been consumed of the window. -/
def observe (state : EnforcementState percent) (window : QuotaWindowKind)
    (usedPercent : percent) (provider : String) (resetAt : Option Nat) :
    EnforcementState percent × percent :=
  match window with
  | .fiveHour =>
      let baseline := state.fiveHourBaselinePercent.getD (max usedPercent 0)
      let consumed := grown state.fiveHourConsumedPercent 0 usedPercent baseline
      ({ state with
          provider := some provider
          fiveHourBaselinePercent := some baseline
          fiveHourConsumedPercent := consumed },
        consumed)
  | .weekly =>
      let based := state.rebased provider resetAt
      let baseline := based.weeklyBaselinePercent.getD (max usedPercent 0)
      let consumed :=
        grown based.weeklyConsumedPercent based.weeklyOffsetPercent usedPercent baseline
      ({ based with
          weeklyBaselinePercent := some baseline
          weeklyConsumedPercent := consumed },
        consumed)

def marked (state : EnforcementState percent) (reminderSent closeoutSent : Bool) :
    EnforcementState percent :=
  { state with
    reminderSent := reminderSent
    closeoutSent := closeoutSent }

theorem observe_marked (state : EnforcementState percent) (reminderSent closeoutSent : Bool)
    (window : QuotaWindowKind) (usedPercent : percent) (provider : String) (resetAt : Option Nat) :
    (state.marked reminderSent closeoutSent).observe window usedPercent provider resetAt =
      (((state.observe window usedPercent provider resetAt).1.marked reminderSent
          closeoutSent),
        (state.observe window usedPercent provider resetAt).2) := by
  cases window with
  | fiveHour => rfl
  | weekly =>
      have hrebased : (state.marked reminderSent closeoutSent).rebased provider resetAt =
          (state.rebased provider resetAt).marked reminderSent closeoutSent := by
        unfold rebased
        dsimp only [marked]
        split <;> rfl
      unfold observe
      dsimp only
      rw [hrebased]
      rfl

end EnforcementState

end Percentages

end Budget
end Perpetual
