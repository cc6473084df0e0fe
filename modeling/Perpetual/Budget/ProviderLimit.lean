import Perpetual.Budget.Turn
import Perpetual.Scheduler.AssignedThreads

/-!
# Provider limits and percentage budgets

A thread with a percentage budget is paused where its provider reports a limit, and the
end of the session computes the status again.  Then the limit alone makes the thread
wait, for the scheduler to start it once the limit is reset; it stays paused only for
another reason: the target is reached, or it is not known what was used.
-/

namespace Perpetual
namespace Budget

open Foundation
open Scheduler
open Collaboration (Assignment ActiveThread)
open Scheduler (TickWorld ThreadRow TickAnswers Attempt)

/-!
## The events before the end
-/

section Events

variable {percent : Type}

def Event.isLimit : Event percent -> Bool
  | .usageLimitReached _ => true
  | _ => false

def Event.isLoss : Event percent -> Bool
  | .networkUnavailable => true
  | _ => false

def Event.isApproval : Event percent -> Bool
  | .awaitingApproval => true
  | _ => false

def Event.isTokenReport : Event percent -> Bool
  | .tokenUsage _ _ => true
  | _ => false

/-- A report of no tokens is left out of the account. -/
def Event.spends : Event percent -> Bool
  | .tokenUsage input output => !decide (input = 0 ∧ output = 0)
  | _ => false

def Event.isFinalSample : Event percent -> Bool
  | .quotaWindow .weekly _ _ final => final
  | _ => false

def accountingFails (x : Event percent × Reply) : Bool :=
  match x.1 with
  | .tokenUsage input output =>
      !decide (input = 0 ∧ output = 0) && x.2.recorded.isNone
  | .quotaWindow _ _ _ _ => !x.2.stateSaved
  | _ => false

def addRecorded (total : Nat) (x : Event percent × Reply) : Nat :=
  if x.1.spends then
    x.2.recorded.elim total (fun recorded => saturating (total + recorded))
  else total

def overspent (budget : TaskBudget) (total : Nat) (event : Event percent) : Bool :=
  match budget with
  | .tokens limit => event.spends && decide (limit ≤ total)
  | _ => false

def overspends (budget : TaskBudget) : Nat -> List (Event percent × Reply) -> Bool
  | _, [] => false
  | total, x :: rest =>
      overspent budget (addRecorded total x) x.1 ||
        overspends budget (addRecorded total x) rest

theorem overspends_eq_false {budget : TaskBudget}
    (hbudget : forall n, budget ≠ .tokens n) (total : Nat)
    (body : List (Event percent × Reply)) : overspends budget total body = false := by
  induction body generalizing total with
  | nil => rfl
  | cons x rest ih =>
      unfold overspends
      rw [ih, Bool.or_false]
      unfold overspent
      split
      · rename_i limit
        exact absurd rfl (hbudget limit)
      · rfl

/-- A limit for which the row of the thread was saved. -/
def limitSaved (x : Event percent × Reply) : Bool :=
  x.1.isLimit && x.2.threadSaved

/-- The events before the end of the session, how it ends, and the answers to the end. -/
def untilEnd : List (Event percent × Reply) -> Reply ->
    List (Event percent × Reply) × SessionStatus × Reply
  | [], closing => ([], .failed, closing)
  | (.sessionEnded status, r) :: _, _ => ([], status, r)
  | x :: rest, closing => (x :: (untilEnd rest closing).1, (untilEnd rest closing).2)

def Event.ends : Event percent -> Bool
  | .sessionEnded _ => true
  | _ => false

theorem untilEnd_open (events : List (Event percent × Reply)) (closing : Reply) :
    forall x, x ∈ (untilEnd events closing).1 -> x.1.ends = false := by
  induction events with
  | nil => exact fun x hx => absurd hx List.not_mem_nil
  | cons y rest ih =>
      intro x hx
      rcases y with ⟨event, r⟩
      cases event with
      | sessionEnded status => exact absurd hx List.not_mem_nil
      | _ =>
          rcases List.mem_cons.mp hx with heq | hrest
          · rw [heq]
            rfl
          · exact ih x hrest

theorem enforce_eq (s : TurnState percent) (reached closing halfway : Bool) :
    exists reminder closeout controls,
      s.enforce reached closing halfway =
        { s with
          budgetExhausted := s.budgetExhausted || reached
          enforcement := s.enforcement.marked reminder closeout
          controls := controls } := by
  have hfirst : exists reminder closeout controls,
      (if reached then
        { s with
          budgetExhausted := true
          controls := s.controls ++ [.cancel] }
      else if closing && !s.enforcement.closeoutSent then
        { s with
          enforcement := s.enforcement.marked s.enforcement.reminderSent true
          controls := s.controls ++ [.closeout] }
      else s) =
        { s with
          budgetExhausted := s.budgetExhausted || reached
          enforcement := s.enforcement.marked reminder closeout
          controls := controls } := by
    cases reached with
    | true =>
        rw [Bool.or_true]
        exact ⟨s.enforcement.reminderSent, s.enforcement.closeoutSent, _, rfl⟩
    | false =>
        rw [Bool.or_false, if_neg Bool.false_ne_true]
        split
        · exact ⟨_, _, _, rfl⟩
        · exact ⟨s.enforcement.reminderSent, s.enforcement.closeoutSent, s.controls, rfl⟩
  rcases hfirst with ⟨reminder, closeout, controls, hfirst⟩
  unfold TurnState.enforce
  rw [hfirst]
  dsimp only
  split
  · exact ⟨true, closeout, _, rfl⟩
  · exact ⟨reminder, closeout, controls, rfl⟩

end Events

variable {id : String} {now : Nat}

section Loop

variable {percent : Type} [Percentage percent]

theorem consume_eq (o : Opening percent) (s : TurnState percent)
    (events : List (Event percent × Reply)) (closing : Reply) :
    TurnState.consume o s events closing =
      ((untilEnd events closing).1.foldl (fun s x => TurnState.handle o s x.2 x.1) s).ended o
        (untilEnd events closing).2.1 (untilEnd events closing).2.2 := by
  induction events generalizing s with
  | nil => rfl
  | cons y rest ih =>
      rcases y with ⟨event, r⟩
      cases event with
      | sessionEnded status => rfl
      | _ => exact ih _

/-!
## What the samples come to
-/

def observedBy (account : String) (state : EnforcementState percent) :
    Event percent -> EnforcementState percent
  | .quotaWindow window usedPercent resetAt _ =>
      (state.observe window usedPercent account resetAt).1
  | _ => state

/-- The event takes what is consumed to the target. -/
def reaches (budget : TaskBudget) (account : String) (state : EnforcementState percent) :
    Event percent -> Bool
  | .quotaWindow window usedPercent resetAt _ =>
      (quotaLimit budget window : Option percent).any (fun limit =>
        decide (limit ≤ (state.observe window usedPercent account resetAt).2))
  | _ => false

/-- Some sample takes what is consumed to the target. -/
def exhausts (budget : TaskBudget) (account : String) :
    EnforcementState percent -> List (Event percent × Reply) -> Bool
  | _, [] => false
  | state, x :: rest =>
      reaches budget account state x.1 ||
        exhausts budget account (observedBy account state x.1) rest

theorem observedBy_marked (account : String) (state : EnforcementState percent)
    (reminder closeout : Bool) (event : Event percent) :
    observedBy account (state.marked reminder closeout) event =
      (observedBy account state event).marked reminder closeout := by
  cases event with
  | quotaWindow window usedPercent resetAt final =>
      unfold observedBy
      dsimp only
      rw [EnforcementState.observe_marked]
  | _ => rfl

theorem reaches_marked (budget : TaskBudget) (account : String)
    (state : EnforcementState percent) (reminder closeout : Bool) (event : Event percent) :
    reaches budget account (state.marked reminder closeout) event =
      reaches budget account state event := by
  cases event with
  | quotaWindow window usedPercent resetAt final =>
      unfold reaches
      dsimp only
      rw [EnforcementState.observe_marked]
  | _ => rfl

theorem exhausts_marked (budget : TaskBudget) (account : String)
    (state : EnforcementState percent) (reminder closeout : Bool)
    (body : List (Event percent × Reply)) :
    exhausts budget account (state.marked reminder closeout) body =
      exhausts budget account state body := by
  induction body generalizing state with
  | nil => rfl
  | cons x rest ih =>
      unfold exhausts
      rw [reaches_marked, observedBy_marked, ih]

theorem exhausts_eq_false {budget : TaskBudget} (hbudget : isPercentageBudget budget = false)
    (account : String) (state : EnforcementState percent)
    (body : List (Event percent × Reply)) : exhausts budget account state body = false := by
  have hlimit : forall window, (quotaLimit budget window : Option percent) = none := by
    intro window
    cases budget with
    | weeklyPercent limit => cases hbudget
    | _ => rfl
  induction body generalizing state with
  | nil => rfl
  | cons x rest ih =>
      unfold exhausts
      rw [ih, Bool.or_false]
      rcases x with ⟨event, r⟩
      cases event with
      | quotaWindow window usedPercent resetAt final =>
          unfold reaches
          dsimp only
          rw [hlimit]
          rfl
      | _ => rfl

/-!
## What the events come to
-/

def limitStatus (o : Opening percent) : TaskStatus :=
  if isPercentageBudget o.usageBudget then .paused else .waitingForLimit

/-- The flags, the account and the row behind some events. -/
structure Handled (o : Opening percent) (s s' : TurnState percent)
    (body : List (Event percent × Reply)) : Prop where
  usageLimit : s'.sawUsageLimit = (s.sawUsageLimit || body.any (fun x => x.1.isLimit))
  networkLoss : s'.sawNetworkLoss = (s.sawNetworkLoss || body.any (fun x => x.1.isLoss))
  approval : s'.sawApprovalNeeded =
    (s.sawApprovalNeeded || body.any (fun x => x.1.isApproval))
  tokenReport : s'.sawTokenTelemetry =
    (s.sawTokenTelemetry || body.any (fun x => x.1.isTokenReport))
  finalSample : s'.sawFinalWeeklyTelemetry =
    (s.sawFinalWeeklyTelemetry || body.any (fun x => x.1.isFinalSample))
  total : s'.usageTotal = body.foldl addRecorded s.usageTotal
  accounting : s'.budgetAccountingFailed =
    (s.budgetAccountingFailed || body.any accountingFails)
  exhausted : s'.budgetExhausted =
    (s.budgetExhausted ||
      (exhausts o.usageBudget o.quotaAccount s.enforcement body ||
        overspends o.usageBudget s.usageTotal body))
  enforcement : exists reminder closeout,
    s'.enforcement =
      (body.foldl (fun state x => observedBy o.quotaAccount state x.1) s.enforcement).marked
        reminder closeout
  status : body.any (fun x => x.1.isLoss) = false ->
    s'.world.tick.statusOf o.threadId =
      if body.any limitSaved then
        (s.world.tick.statusOf o.threadId).map (fun _ => limitStatus o)
      else s.world.tick.statusOf o.threadId
  quiet : body.any (fun x => x.1.isLimit) = false -> body.any (fun x => x.1.isLoss) = false ->
    s'.world = s.world
  queue : s'.world.queue = s.world.queue
  started : s'.world.started = s.world.started
  store : s'.world.tick.store = s.world.tick.store
  ids : s'.world.tick.threads.map ThreadRow.id = s.world.tick.threads.map ThreadRow.id

theorem Handled.refl (o : Opening percent) (s : TurnState percent) : Handled o s s [] where
  usageLimit := (Bool.or_false _).symm
  networkLoss := (Bool.or_false _).symm
  approval := (Bool.or_false _).symm
  tokenReport := (Bool.or_false _).symm
  finalSample := (Bool.or_false _).symm
  total := rfl
  accounting := (Bool.or_false _).symm
  exhausted := (Bool.or_false _).symm
  enforcement := ⟨s.enforcement.reminderSent, s.enforcement.closeoutSent, rfl⟩
  status := fun _ => rfl
  quiet := fun _ _ => rfl
  queue := rfl
  started := rfl
  store := rfl
  ids := rfl

theorem foldl_observedBy_marked (account : String) (state : EnforcementState percent)
    (reminder closeout : Bool) (body : List (Event percent × Reply)) :
    body.foldl (fun state x => observedBy account state x.1)
        (state.marked reminder closeout) =
      (body.foldl (fun state x => observedBy account state x.1) state).marked reminder
        closeout := by
  induction body generalizing state with
  | nil => rfl
  | cons x rest ih =>
      rw [List.foldl_cons, List.foldl_cons, observedBy_marked, ih]

theorem Handled.cons {o : Opening percent} {s s1 s' : TurnState percent}
    {x : Event percent × Reply} {rest : List (Event percent × Reply)}
    (hx : Handled o s s1 [x]) (hrest : Handled o s1 s' rest) : Handled o s s' (x :: rest) := by
  rcases hx.enforcement with ⟨reminder, closeout, hstate⟩
  rcases hrest.enforcement with ⟨reminder', closeout', hstate'⟩
  have hsingle : forall p : Event percent × Reply -> Bool, [x].any p = p x := by
    intro p
    rw [List.any_cons, List.any_nil, Bool.or_false]
  refine ⟨?_, ?_, ?_, ?_, ?_, ?_, ?_, ?_, ?_, ?_, ?_, ?_, ?_, ?_, ?_⟩
  · rw [hrest.usageLimit, hx.usageLimit, hsingle, List.any_cons, Bool.or_assoc]
  · rw [hrest.networkLoss, hx.networkLoss, hsingle, List.any_cons, Bool.or_assoc]
  · rw [hrest.approval, hx.approval, hsingle, List.any_cons, Bool.or_assoc]
  · rw [hrest.tokenReport, hx.tokenReport, hsingle, List.any_cons, Bool.or_assoc]
  · rw [hrest.finalSample, hx.finalSample, hsingle, List.any_cons, Bool.or_assoc]
  · rw [hrest.total, hx.total]
    rfl
  · rw [hrest.accounting, hx.accounting, hsingle, List.any_cons, Bool.or_assoc]
  · rw [hrest.exhausted, hx.exhausted, hstate, hx.total]
    simp only [List.foldl_cons, List.foldl_nil, exhausts_marked, exhausts, overspends,
      Bool.or_false, Bool.or_assoc, Bool.or_left_comm]
  · refine ⟨reminder', closeout', ?_⟩
    rw [hstate', hstate, List.foldl_cons, List.foldl_nil, foldl_observedBy_marked]
    rfl
  · intro hloss
    rw [List.any_cons, Bool.or_eq_false_iff] at hloss
    have hfirst := hx.status ((hsingle _).trans hloss.left)
    rw [hrest.status hloss.right, hfirst, hsingle, List.any_cons]
    cases limitSaved x with
    | true =>
        rw [Bool.true_or, if_pos rfl, Option.map_map]
        split <;> rfl
    | false => rfl
  · intro hlimit hloss
    rw [List.any_cons, Bool.or_eq_false_iff] at hlimit hloss
    rw [hrest.quiet hlimit.right hloss.right]
    exact hx.quiet ((hsingle _).trans hlimit.left) ((hsingle _).trans hloss.left)
  · exact hrest.queue.trans hx.queue
  · exact hrest.started.trans hx.started
  · exact hrest.store.trans hx.store
  · exact hrest.ids.trans hx.ids

theorem statusOf_save {w : TurnWorld} {f : Fallback.AgentThread -> Fallback.AgentThread}
    {status : TaskStatus} (hf : forall thread, (f thread).status = status) :
    (w.save id now f).tick.statusOf id = (w.tick.statusOf id).map (fun _ => status) :=
  statusOf_save_status w.tick id now hf

theorem save_ids (w : TurnWorld) (id : String) (now : Nat)
    (f : Fallback.AgentThread -> Fallback.AgentThread) :
    (w.save id now f).tick.threads.map ThreadRow.id = w.tick.threads.map ThreadRow.id :=
  Table.map_updateWhere (f := ThreadRow.saved now f) (fun _ => rfl) _

theorem Handled.of_quiet {o : Opening percent} {s s' : TurnState percent}
    {x : Event percent × Reply}
    (hevent : x.1.isLimit = false ∧ x.1.isLoss = false ∧ x.1.isFinalSample = false)
    (hstate : forall state, observedBy o.quotaAccount state x.1 = state)
    (hreaches : forall state, reaches o.usageBudget o.quotaAccount state x.1 = false)
    (hflags : s'.sawUsageLimit = s.sawUsageLimit ∧ s'.sawNetworkLoss = s.sawNetworkLoss ∧
      s'.sawFinalWeeklyTelemetry = s.sawFinalWeeklyTelemetry)
    (happroval : s'.sawApprovalNeeded = (s.sawApprovalNeeded || x.1.isApproval))
    (hreport : s'.sawTokenTelemetry = (s.sawTokenTelemetry || x.1.isTokenReport))
    (htotal : s'.usageTotal = addRecorded s.usageTotal x)
    (haccounting : s'.budgetAccountingFailed =
      (s.budgetAccountingFailed || accountingFails x))
    (hexhausted : s'.budgetExhausted =
      (s.budgetExhausted || overspent o.usageBudget (addRecorded s.usageTotal x) x.1))
    (henforcement : exists reminder closeout,
      s'.enforcement = s.enforcement.marked reminder closeout)
    (hworld : s'.world = s.world) : Handled o s s' [x] := by
  rcases hevent with ⟨hlimit, hloss, hfinal⟩
  rcases hflags with ⟨husage, hnetwork, hsample⟩
  rcases henforcement with ⟨reminder, closeout, henforcement⟩
  have hsingle : forall p : Event percent × Reply -> Bool, [x].any p = p x := by
    intro p
    rw [List.any_cons, List.any_nil, Bool.or_false]
  refine ⟨?_, ?_, ?_, ?_, ?_, htotal, ?_, ?_, ?_, ?_, fun _ _ => hworld, by rw [hworld],
    by rw [hworld], by rw [hworld], by rw [hworld]⟩
  · rw [husage, hsingle, hlimit, Bool.or_false]
  · rw [hnetwork, hsingle, hloss, Bool.or_false]
  · rw [happroval, hsingle]
  · rw [hreport, hsingle]
  · rw [hsample, hsingle, hfinal, Bool.or_false]
  · rw [haccounting, hsingle]
  · rw [hexhausted, exhausts, hreaches, exhausts, overspends, overspends, Bool.or_false,
      Bool.or_false, Bool.false_or]
  · refine ⟨reminder, closeout, ?_⟩
    rw [henforcement, List.foldl_cons, List.foldl_nil, hstate]
  · intro _
    rw [hworld, hsingle]
    unfold limitSaved
    rw [hlimit, Bool.false_and, if_neg Bool.false_ne_true]

omit [Percentage percent] in
theorem enforceTokens_eq (o : Opening percent) (s : TurnState percent)
    {event : Event percent} (hspends : event.spends = true) :
    exists reminder closeout controls,
      s.enforceTokens o =
        { s with
          budgetExhausted := s.budgetExhausted || overspent o.usageBudget s.usageTotal event
          enforcement := s.enforcement.marked reminder closeout
          controls := controls } := by
  unfold TurnState.enforceTokens overspent
  cases o.usageBudget with
  | tokens limit =>
      dsimp only
      rw [hspends, Bool.true_and]
      exact enforce_eq s _ _ _
  | _ =>
      refine ⟨s.enforcement.reminderSent, s.enforcement.closeoutSent, s.controls, ?_⟩
      dsimp only
      rw [Bool.or_false]
      rfl

theorem handle_tokenUsage (o : Opening percent) (s : TurnState percent) (input output : Nat)
    (r : Reply) :
    Handled o s (TurnState.handle o s r (.tokenUsage input output))
      [(.tokenUsage input output, r)] := by
  have hspends : (.tokenUsage input output : Event percent).spends =
      !decide (input = 0 ∧ output = 0) := rfl
  have hoverspent : forall total,
      overspent o.usageBudget total (.tokenUsage 0 0 : Event percent) = false := by
    intro total
    unfold overspent
    cases o.usageBudget with
    | tokens limit => rfl
    | _ => rfl
  unfold TurnState.handle
  dsimp only
  by_cases hzero : input = 0 ∧ output = 0
  · rw [if_pos hzero]
    rcases hzero with ⟨hinput, houtput⟩
    subst hinput
    subst houtput
    refine Handled.of_quiet ⟨rfl, rfl, rfl⟩ (fun _ => rfl) (fun _ => rfl) ⟨rfl, rfl, rfl⟩
      (Bool.or_false _).symm (Bool.or_true _).symm rfl (Bool.or_false _).symm ?_
      ⟨s.enforcement.reminderSent, s.enforcement.closeoutSent, rfl⟩ rfl
    rw [hoverspent, Bool.or_false]
  · rw [if_neg hzero]
    rw [decide_eq_false hzero, Bool.not_false] at hspends
    have hfails : accountingFails ((.tokenUsage input output : Event percent), r) =
        r.recorded.isNone := by
      unfold accountingFails
      dsimp only
      rw [decide_eq_false hzero, Bool.not_false, Bool.true_and]
    have hadded : addRecorded s.usageTotal
        ((.tokenUsage input output : Event percent), r) =
          r.recorded.elim s.usageTotal
            (fun recorded => saturating (s.usageTotal + recorded)) := by
      unfold addRecorded
      rw [hspends, if_pos rfl]
    rcases enforceTokens_eq o ({ s with sawTokenTelemetry := true }.recordTokens r) hspends
      with ⟨reminder, closeout, controls, heq⟩
    rw [heq]
    unfold TurnState.recordTokens
    cases hrecorded : r.recorded with
    | some recorded =>
        rw [hrecorded] at hfails hadded
        refine Handled.of_quiet ⟨rfl, rfl, rfl⟩ (fun _ => rfl) (fun _ => rfl)
          ⟨rfl, rfl, rfl⟩ (Bool.or_false _).symm (Bool.or_true _).symm hadded.symm ?_ ?_
          ⟨reminder, closeout, rfl⟩ rfl
        · rw [hfails]
          exact (Bool.or_false _).symm
        · rw [hadded]
          rfl
    | none =>
        rw [hrecorded] at hfails hadded
        refine Handled.of_quiet ⟨rfl, rfl, rfl⟩ (fun _ => rfl) (fun _ => rfl)
          ⟨rfl, rfl, rfl⟩ (Bool.or_false _).symm (Bool.or_true _).symm hadded.symm ?_ ?_
          ⟨reminder, closeout, rfl⟩ rfl
        · rw [hfails]
          exact (Bool.or_true _).symm
        · rw [hadded]
          rfl

theorem handle_quotaWindow (o : Opening percent) (s : TurnState percent)
    (window : QuotaWindowKind) (usedPercent : percent) (resetAt : Option Nat) (final : Bool)
    (r : Reply) :
    Handled o s (TurnState.handle o s r (.quotaWindow window usedPercent resetAt final))
      [(.quotaWindow window usedPercent resetAt final, r)] := by
  have hfinal : (decide (window = .weekly) && final) =
      (Event.quotaWindow window usedPercent resetAt final).isFinalSample := by
    cases window with
    | fiveHour => rfl
    | weekly => rfl
  let t : TurnState percent :=
    { s with
      sawFinalWeeklyTelemetry :=
        s.sawFinalWeeklyTelemetry ||
          (decide (window = .weekly) && final)
      enforcement := (s.enforcement.observe window usedPercent o.quotaAccount resetAt).1
      budgetAccountingFailed := s.budgetAccountingFailed || !r.stateSaved }
  have henforce : exists reminder closeout controls,
      TurnState.handle o s r (.quotaWindow window usedPercent resetAt final) =
        { t with
          budgetExhausted := s.budgetExhausted ||
            reaches o.usageBudget o.quotaAccount s.enforcement
              (.quotaWindow window usedPercent resetAt final)
          enforcement := t.enforcement.marked reminder closeout
          controls := controls } := by
    show exists reminder closeout controls, t.enforceQuota o window _ = _
    unfold TurnState.enforceQuota reaches
    dsimp only
    cases (quotaLimit o.usageBudget window : Option percent) with
    | some limit => exact enforce_eq t _ _ _
    | none =>
        refine ⟨t.enforcement.reminderSent, t.enforcement.closeoutSent, t.controls, ?_⟩
        rw [Option.any_none, Bool.or_false]
        rfl
  rcases henforce with ⟨reminder, closeout, controls, heq⟩
  rw [heq]
  have hoverspent : overspent o.usageBudget s.usageTotal
      (.quotaWindow window usedPercent resetAt final) = false := by
    unfold overspent
    cases o.usageBudget with
    | tokens limit => rfl
    | _ => rfl
  refine ⟨?_, ?_, ?_, ?_, ?_, rfl, ?_, ?_, ⟨reminder, closeout, rfl⟩, fun _ => rfl,
    fun _ _ => rfl, rfl, rfl, rfl, rfl⟩
  · exact (Bool.or_false _).symm
  · exact (Bool.or_false _).symm
  · exact (Bool.or_false _).symm
  · exact (Bool.or_false _).symm
  · rw [List.any_cons, List.any_nil, Bool.or_false, ← hfinal]
  · exact congrArg (s.budgetAccountingFailed || ·) (Bool.or_false _).symm
  · have hadded : addRecorded s.usageTotal
        (.quotaWindow window usedPercent resetAt final, r) = s.usageTotal := rfl
    rw [exhausts, exhausts, overspends, overspends, hadded, hoverspent, Bool.or_false,
      Bool.or_false, Bool.or_false]

theorem exhausted_eq_self (o : Opening percent) (s : TurnState percent)
    {x : Event percent × Reply} (hspends : x.1.spends = false)
    (hreaches : reaches o.usageBudget o.quotaAccount s.enforcement x.1 = false) :
    s.budgetExhausted =
      (s.budgetExhausted ||
        (exhausts o.usageBudget o.quotaAccount s.enforcement [x] ||
          overspends o.usageBudget s.usageTotal [x])) := by
  have hoverspent : forall total, overspent o.usageBudget total x.1 = false := by
    intro total
    unfold overspent
    rw [hspends]
    split <;> rfl
  rw [exhausts, exhausts, overspends, overspends, hreaches, hoverspent, Bool.or_false,
    Bool.or_false, Bool.or_false]

theorem handle_usageLimitReached (o : Opening percent) (s : TurnState percent)
    (resetAt : Option Nat) (r : Reply) :
    Handled o s (TurnState.handle o s r (.usageLimitReached resetAt))
      [(.usageLimitReached resetAt, r)] := by
  have hlimited : TurnState.handle o s r (.usageLimitReached resetAt) = s.limited o resetAt r := rfl
  have hsaved : [((.usageLimitReached resetAt : Event percent), r)].any limitSaved =
      r.threadSaved := by
    rw [List.any_cons, List.any_nil, Bool.or_false]
    exact Bool.true_and _
  rw [hlimited]
  unfold TurnState.limited TurnState.saveThread
  cases hthread : r.threadSaved with
  | true =>
      refine ⟨(Bool.or_true _).symm, (Bool.or_false _).symm, (Bool.or_false _).symm,
        (Bool.or_false _).symm, (Bool.or_false _).symm, rfl, (Bool.or_false _).symm,
        exhausted_eq_self o s rfl rfl,
        ⟨s.enforcement.reminderSent, s.enforcement.closeoutSent, rfl⟩, ?_, nofun, rfl, rfl,
        rfl, save_ids _ _ _ _⟩
      intro _
      rw [hsaved, hthread]
      exact statusOf_save (fun _ => rfl)
  | false =>
      refine ⟨(Bool.or_true _).symm, (Bool.or_false _).symm, (Bool.or_false _).symm,
        (Bool.or_false _).symm, (Bool.or_false _).symm, rfl, (Bool.or_false _).symm,
        exhausted_eq_self o s rfl rfl,
        ⟨s.enforcement.reminderSent, s.enforcement.closeoutSent, rfl⟩, ?_, nofun, rfl, rfl,
        rfl, rfl⟩
      intro _
      rw [hsaved, hthread]
      rfl

theorem handle_networkUnavailable (o : Opening percent) (s : TurnState percent) (r : Reply) :
    Handled o s (TurnState.handle o s r .networkUnavailable)
      [(.networkUnavailable, r)] := by
  have hlost : TurnState.handle o s r .networkUnavailable = s.lost o r := rfl
  have hquiet : [((.networkUnavailable : Event percent), r)].any (fun x => x.1.isLoss) = true := rfl
  rw [hlost]
  unfold TurnState.lost TurnState.saveThread
  cases r.threadSaved with
  | true =>
      exact ⟨(Bool.or_false _).symm, (Bool.or_true _).symm, (Bool.or_false _).symm,
        (Bool.or_false _).symm, (Bool.or_false _).symm, rfl, (Bool.or_false _).symm,
        exhausted_eq_self o s rfl rfl,
        ⟨s.enforcement.reminderSent, s.enforcement.closeoutSent, rfl⟩, nofun,
        fun _ hloss => absurd (hloss.symm.trans hquiet) Bool.false_ne_true, rfl, rfl, rfl,
        save_ids _ _ _ _⟩
  | false =>
      exact ⟨(Bool.or_false _).symm, (Bool.or_true _).symm, (Bool.or_false _).symm,
        (Bool.or_false _).symm, (Bool.or_false _).symm, rfl, (Bool.or_false _).symm,
        exhausted_eq_self o s rfl rfl,
        ⟨s.enforcement.reminderSent, s.enforcement.closeoutSent, rfl⟩, nofun,
        fun _ hloss => absurd (hloss.symm.trans hquiet) Bool.false_ne_true, rfl, rfl, rfl,
        rfl⟩

theorem handle_spec (o : Opening percent) (s : TurnState percent) (x : Event percent × Reply)
    (hopen : x.1.ends = false) : Handled o s (TurnState.handle o s x.2 x.1) [x] := by
  have hoverspent : forall event : Event percent, event.spends = false ->
      overspent o.usageBudget s.usageTotal event = false := by
    intro event hspends
    unfold overspent
    rw [hspends]
    split <;> rfl
  rcases x with ⟨event, r⟩
  cases event with
  | sessionEnded status => cases hopen
  | shown =>
      exact Handled.of_quiet ⟨rfl, rfl, rfl⟩ (fun _ => rfl) (fun _ => rfl) ⟨rfl, rfl, rfl⟩
        (Bool.or_false _).symm (Bool.or_false _).symm rfl (Bool.or_false _).symm
        ((Bool.or_false _).symm.trans (congrArg _ (hoverspent .shown rfl).symm))
        ⟨s.enforcement.reminderSent, s.enforcement.closeoutSent, rfl⟩ rfl
  | awaitingApproval =>
      exact Handled.of_quiet ⟨rfl, rfl, rfl⟩ (fun _ => rfl) (fun _ => rfl) ⟨rfl, rfl, rfl⟩
        (Bool.or_true _).symm (Bool.or_false _).symm rfl (Bool.or_false _).symm
        ((Bool.or_false _).symm.trans
          (congrArg _ (hoverspent .awaitingApproval rfl).symm))
        ⟨s.enforcement.reminderSent, s.enforcement.closeoutSent, rfl⟩ rfl
  | tokenUsage input output => exact handle_tokenUsage o s input output r
  | quotaWindow window usedPercent resetAt final =>
      exact handle_quotaWindow o s window usedPercent resetAt final r
  | usageLimitReached resetAt => exact handle_usageLimitReached o s resetAt r
  | networkUnavailable => exact handle_networkUnavailable o s r

theorem foldl_handled (o : Opening percent) (s : TurnState percent)
    {body : List (Event percent × Reply)} (hopen : forall x, x ∈ body -> x.1.ends = false) :
    Handled o s (body.foldl (fun s x => TurnState.handle o s x.2 x.1) s) body := by
  induction body generalizing s with
  | nil => exact Handled.refl o s
  | cons x rest ih =>
      have hx := handle_spec o s x (hopen x List.mem_cons_self)
      exact hx.cons (ih _ (fun y hy => hopen y (List.mem_cons_of_mem x hy)))

end Loop

/-!
## The end and what follows
-/

variable {thread : Fallback.AgentThread}

section Settling

variable {percent : Type}

/-- The end of the session stores its status, and leaves the flags of the budget. -/
structure Ended (o : Opening percent) (status : SessionStatus) (r : Reply)
    (s s' : TurnState percent) : Prop where
  flags : exists world completedOk, s' = { s with world := world, completedOk := completedOk }
  status : s'.world.tick.statusOf o.threadId =
    if r.threadSaved then
      (s.world.tick.statusOf o.threadId).map (fun _ => s.endedStatus o status)
    else s.world.tick.statusOf o.threadId
  started : s'.world.started = s.world.started
  store : s'.world.tick.store = s.world.tick.store
  ids : s'.world.tick.threads.map ThreadRow.id = s.world.tick.threads.map ThreadRow.id

theorem ended_spec (o : Opening percent) (s : TurnState percent) (status : SessionStatus)
    (r : Reply) : Ended o status r s (s.ended o status r) := by
  have hkeep : forall w : TurnWorld,
      (w.save o.threadId r.now (fun thread => thread)).tick.statusOf o.threadId =
        w.tick.statusOf o.threadId :=
    fun w => statusOf_save_same w.tick o.threadId o.threadId r.now (fun _ => rfl)
  have hrow : forall w : TurnWorld,
      (w.save o.threadId r.now (s.endedRow o status)).tick.statusOf o.threadId =
        (w.tick.statusOf o.threadId).map (fun _ => s.endedStatus o status) :=
    fun w => statusOf_save (fun _ => rfl)
  unfold TurnState.ended TurnState.handoff TurnState.saveThread
  cases hsaved : r.threadSaved with
  | true =>
      cases r.handoffSaved with
      | true =>
          refine ⟨⟨_, _, rfl⟩, ?_, rfl, rfl, (save_ids _ _ _ _).trans (save_ids _ _ _ _)⟩
          rw [hsaved]
          exact (hkeep _).trans (hrow s.world)
      | false =>
          refine ⟨⟨_, _, rfl⟩, ?_, rfl, rfl, save_ids _ _ _ _⟩
          rw [hsaved]
          exact hrow s.world
  | false =>
      cases r.handoffSaved with
      | true =>
          refine ⟨⟨_, _, rfl⟩, ?_, rfl, rfl, save_ids _ _ _ _⟩
          rw [hsaved]
          exact hkeep s.world
      | false =>
          refine ⟨⟨_, _, rfl⟩, ?_, rfl, rfl, rfl⟩
          rw [hsaved]
          rfl

theorem requeue_spec (o : Opening percent) (s : TurnState percent) (a : TailReplies) :
    (s.requeue o a).tick = s.world.tick ∧ (s.requeue o a).started = s.world.started := by
  unfold TurnState.requeue
  split
  · split
    · exact ⟨rfl, rfl⟩
    · exact ⟨rfl, rfl⟩
  · exact ⟨rfl, rfl⟩

theorem settle_percentage {o : Opening percent} {s : TurnState percent}
    (hbudget : isPercentageBudget o.usageBudget = true) (hlimit : s.sawUsageLimit = true)
    (hloss : s.sawNetworkLoss = false) (a : TailReplies) :
    (s.settle o a).tick = s.world.tick ∧ (s.settle o a).started = s.world.started := by
  unfold TurnState.settle
  rw [hlimit, hloss, hbudget]
  dsimp only
  split
  · exact requeue_spec o s a
  · exact requeue_spec o s a

structure Unswitched (status : TaskStatus) : Prop where
  queued : .queued ≠ status
  limit : .waitingForLimit ≠ status
  network : .waitingForNetwork ≠ status

section Unswitched

variable {status : TaskStatus}

theorem save_status_ne {next : Fallback.AgentThread} (saves switched : Bool)
    (hnext : next.status ≠ status) (h : thread.status ≠ status) :
    (thread.save next saves switched).thread.status ≠ status := by
  unfold Fallback.AgentThread.save
  split
  · exact hnext
  · exact h

theorem startThreadLocalFallback_status_ne (hstatus : Unswitched status) (h : thread.status ≠ status) (current : AgentKind)
    (target : Fallback.LocalModelTarget) (a : Fallback.Answers) :
    (thread.startThreadLocalFallback current target a).thread.status ≠ status := by
  unfold Fallback.AgentThread.startThreadLocalFallback
  split
  · exact save_status_ne _ _ h h
  · exact save_status_ne _ _ hstatus.queued h

theorem startThreadFallback_status_ne (hstatus : Unswitched status) (h : thread.status ≠ status) (current : AgentKind)
    (resetAt : Option Nat) (a : Fallback.Answers) :
    (thread.startThreadFallback current resetAt a).thread.status ≠ status := by
  unfold Fallback.AgentThread.startThreadFallback
  split
  · split
    · exact save_status_ne _ _ hstatus.queued h
    · exact save_status_ne _ _ hstatus.limit h
    · exact save_status_ne _ _ hstatus.limit h
  · split
    · exact h
    · exact save_status_ne _ _ hstatus.queued h
    · split
      · exact startThreadLocalFallback_status_ne hstatus h current _ a
      · exact save_status_ne _ _ hstatus.limit h
    · exact h

theorem resumeThreadCloudAfterNetwork_status_ne (hstatus : Unswitched status) (h : thread.status ≠ status) (current : AgentKind)
    (a : Fallback.AgentThread.BackAnswers) :
    (thread.resumeThreadCloudAfterNetwork current a).thread.status ≠ status := by
  unfold Fallback.AgentThread.resumeThreadCloudAfterNetwork
  split
  · exact save_status_ne _ _ h h
  · exact save_status_ne _ _ hstatus.queued h

theorem maybeMarkThreadSwitchbackReady_status_ne (hstatus : Unswitched status) (h : thread.status ≠ status)
    (a : Fallback.AgentThread.BackAnswers) :
    (thread.maybeMarkThreadSwitchbackReady a).thread.status ≠ status := by
  unfold Fallback.AgentThread.maybeMarkThreadSwitchbackReady
  split
  · exact h
  · split
    · exact h
    · split
      · exact save_status_ne _ _ h h
      · split
        · split
          · exact h
          · split
            · exact resumeThreadCloudAfterNetwork_status_ne hstatus h _ a
            · exact save_status_ne _ _ hstatus.network h
            · exact h
        · split
          · exact h
          · exact save_status_ne _ _ h h

theorem save_statusOf_ne {w : TurnWorld} {f : Fallback.AgentThread -> Fallback.AgentThread}
    (hf : forall thread, thread.status ≠ status -> (f thread).status ≠ status)
    (h : w.tick.statusOf id ≠ some status) :
    (w.save id now f).tick.statusOf id ≠ some status := by
  show (w.tick.save id now f).statusOf id ≠ _
  rw [Scheduler.statusOf_save]
  unfold TickWorld.statusOf at h
  cases hrow : w.tick.threads.find? (fun row => row.id == id) with
  | none => nofun
  | some row =>
      rw [hrow] at h
      intro heq
      exact hf row.thread (fun hthread => h (congrArg some hthread)) (Option.some.inj heq)

theorem switch_statusOf_ne {w : TurnWorld} {saves : Bool}
    {f : Fallback.AgentThread -> Fallback.Outcome}
    (hf : forall thread, thread.status ≠ status -> (f thread).thread.status ≠ status)
    (h : w.tick.statusOf id ≠ some status) :
    (w.switch id now saves f).tick.statusOf id ≠ some status := by
  unfold TurnWorld.switch
  split
  · exact save_statusOf_ne hf h
  · exact h

theorem onThread_statusOf_ne {w : TurnWorld} {f : Fallback.AgentThread -> TurnWorld}
    (hf : forall thread, (f thread).tick.statusOf id ≠ some status)
    (h : w.tick.statusOf id ≠ some status) :
    (w.onThread id f).tick.statusOf id ≠ some status := by
  unfold TurnWorld.onThread
  split
  · exact hf _
  · exact h

theorem drain_tick (w : TurnWorld) (popped : Bool) : (w.drain popped).tick = w.tick := by
  unfold TurnWorld.drain
  split <;> rfl

theorem handleThreadNetworkLoss_statusOf_ne (hstatus : Unswitched status) {w : TurnWorld} (h : w.tick.statusOf id ≠ some status) (current : AgentKind)
    (a : TailReplies) :
    (w.handleThreadNetworkLoss id current a).tick.statusOf id ≠ some status := by
  unfold TurnWorld.handleThreadNetworkLoss
  refine onThread_statusOf_ne (fun thread => ?_) h
  split
  · exact switch_statusOf_ne
      (fun _ hthread => resumeThreadCloudAfterNetwork_status_ne hstatus hthread _ _) h
  · split
    · exact switch_statusOf_ne
        (fun _ hthread => startThreadLocalFallback_status_ne hstatus hthread _ _ _) h
    · exact h

theorem redeemCredit_statusOf_ne (hstatus : Unswitched status) {w : TurnWorld}
    (h : w.tick.statusOf id ≠ some status) (current : AgentKind) (a : TailReplies) :
    (w.redeemCredit id current a).tick.statusOf id ≠ some status := by
  unfold TurnWorld.redeemCredit
  refine onThread_statusOf_ne (fun _ => ?_) h
  unfold TurnWorld.start
  dsimp only
  split
  · exact save_statusOf_ne (fun _ _ => hstatus.queued) h
  · exact h

theorem startThreadFallback_statusOf_ne (hstatus : Unswitched status) {w : TurnWorld} (h : w.tick.statusOf id ≠ some status) (current : AgentKind)
    (resetAt : Option Nat) (a : TailReplies) :
    (w.startThreadFallback id current resetAt a).tick.statusOf id ≠ some status := by
  unfold TurnWorld.startThreadFallback
  exact onThread_statusOf_ne
    (fun _ => switch_statusOf_ne
      (fun _ hthread => startThreadFallback_status_ne hstatus hthread _ _ _) h) h

theorem switchBackWhenReady_statusOf_ne (hstatus : Unswitched status) {w : TurnWorld} (h : w.tick.statusOf id ≠ some status) (a : TailReplies) :
    (w.switchBackWhenReady id a).tick.statusOf id ≠ some status := by
  unfold TurnWorld.switchBackWhenReady
  exact onThread_statusOf_ne
    (fun _ => switch_statusOf_ne
      (fun _ hthread => maybeMarkThreadSwitchbackReady_status_ne hstatus hthread _) h) h

theorem settle_statusOf_ne (hstatus : Unswitched status) {o : Opening percent}
    {s : TurnState percent} (h : s.world.tick.statusOf o.threadId ≠ some status)
    (a : TailReplies) : (s.settle o a).tick.statusOf o.threadId ≠ some status := by
  rw [← (requeue_spec o s a).left] at h
  unfold TurnState.settle
  dsimp only
  split
  · exact h
  · split
    · exact h
    · split
      · exact handleThreadNetworkLoss_statusOf_ne hstatus h _ a
      · split
        · split
          · exact h
          · split
            · exact redeemCredit_statusOf_ne hstatus h _ a
            · exact startThreadFallback_statusOf_ne hstatus h _ _ a
        · split
          · rw [drain_tick]
            exact switchBackWhenReady_statusOf_ne hstatus h a
          · rw [drain_tick]
            exact h

theorem unswitched_paused : Unswitched .paused :=
  ⟨nofun, nofun, nofun⟩

end Unswitched

end Settling

/-!
## Later ticks
-/

def TakenUp (w : TickWorld) (a : TickAnswers) (thread : String) : Prop :=
  exists x, x.id = thread ∧
    (x ∈ runThreadQueuedContinuations w a.queued ∨
      x ∈ runThreadNetworkContinuations (afterQueued w a) a.network ∨
      x ∈ runThreadResetContinuations (afterNetwork w a) a.reset)

/-- A tick, or anything else that leaves the status of the thread alone and does not
assign it to a device. -/
inductive Passes (thread : String) (w : TickWorld) : TickWorld -> Prop where
  | tick (a : TickAnswers) : Passes thread w (threadPhases w a)
  | elsewhere (w' : TickWorld) (hstatus : w'.statusOf thread = w.statusOf thread)
      (hthreads : Table.UniqueKey ThreadRow.id w'.threads)
      (hassignments : Table.UniqueKey Assignment.id w'.store.assignments)
      (hfree : ActiveThread w'.store thread -> ActiveThread w.store thread) :
      Passes thread w w'

def Later (thread : String) : TickWorld -> TickWorld -> Prop :=
  Relation.ReflTransGen (Passes thread)

/-- The turn is settled with its thread paused and nothing started, and no tick takes
the thread up until somebody acts on it. -/
structure EndsPaused (thread : String) (before after : TurnWorld) : Prop where
  paused : after.tick.statusOf thread = some .paused
  started : after.started = before.started
  later : forall w, Later thread after.tick w -> forall a, ¬ TakenUp w a thread

structure Idle (thread : String) (w : TickWorld) : Prop where
  paused : w.statusOf thread = some .paused
  free : ¬ ActiveThread w.store thread
  threads : Table.UniqueKey ThreadRow.id w.threads
  assignments : Table.UniqueKey Assignment.id w.store.assignments

theorem Idle.phase {thread : String} {w : TickWorld} (h : Idle thread w)
    {attempts : List Attempt} {listed stored : TaskStatus}
    (hphase : Scheduler.Phase w attempts listed stored) (hne : .paused ≠ listed) :
    (forall x, x ∈ attempts -> x.id ≠ thread) ∧
      Idle thread (runAttempts w attempts) := by
  have hfades := runAttempts_fades w attempts
  have hkept : Scheduler.KeptIn w.store (runAttempts w attempts).store thread :=
    fun a ha hthread hactive => absurd ⟨a, ha, hthread, hactive⟩ h.free
  constructor
  · intro x hx heq
    have hlisted := (hphase x hx).left
    rw [heq, h.paused] at hlisted
    exact hne (Option.some.inj hlisted)
  · constructor
    · rw [runAttempts_spared h.assignments hkept
        (sparesAll_of_status hphase h.paused hne)]
      exact h.paused
    · rintro ⟨a, ha, hthread, hactive⟩
      exact h.free ⟨a, hfades.rows a ha hactive, hthread, hactive⟩
    · exact uniqueKey_runAttempts h.threads attempts
    · exact hfades.ids h.assignments

theorem Idle.tick {thread : String} {w : TickWorld} (h : Idle thread w) (a : TickAnswers) :
    ¬ TakenUp w a thread ∧ Idle thread (threadPhases w a) := by
  rcases h.phase (queued_phase h.threads a.queued) nofun with ⟨hnone1, h1⟩
  rcases h1.phase (network_phase h1.threads a.network) nofun with ⟨hnone2, h2⟩
  rcases h2.phase (reset_phase h2.threads a.reset) nofun with ⟨hnone3, h3⟩
  refine ⟨?_, h3⟩
  rintro ⟨x, hid, hx | hx | hx⟩
  · exact hnone1 x hx hid
  · exact hnone2 x hx hid
  · exact hnone3 x hx hid

theorem Idle.later {thread : String} {w w' : TickWorld} (h : Idle thread w)
    (hlater : Later thread w w') : Idle thread w' := by
  induction hlater with
  | refl => exact h
  | tail _ hpass ih =>
      cases hpass with
      | tick a => exact (ih.tick a).right
      | elsewhere _ hstatus hthreads hassignments hfree =>
          exact
            { paused := hstatus.trans ih.paused
              free := fun hactive => ih.free (hfree hactive)
              threads := hthreads
              assignments := hassignments }

section Result

variable {percent : Type} [Percentage percent]

/-- The turn pauses its thread for a reason of its own: the target is reached, the last
sample of the week is missing, the state of the budget could not be read, or some usage
could not be accounted for. -/
def pausesAnyway (o : Opening percent) (body : List (Event percent × Reply)) : Bool :=
  exhausts o.taskBudget o.quotaAccount (o.state.getD EnforcementState.default) body ||
    (!body.any (fun x => x.1.isFinalSample) || o.state.isNone ||
      (o.usageTotal.isNone || body.any accountingFails))

/-- The budget was read, and the end has a reason of its own to pause the thread; or the
end does not reach the row, and a limit did. -/
def StaysPaused (o : Opening percent) (events : List (Event percent × Reply))
    (closing : Reply) : Prop :=
  o.threadRead = true ∧
    if (untilEnd events closing).2.2.threadSaved then
      pausesAnyway o (untilEnd events closing).1 = true
    else (untilEnd events closing).1.any limitSaved = true

instance (o : Opening percent) (events : List (Event percent × Reply)) (closing : Reply) :
    Decidable (StaysPaused o events closing) := by
  unfold StaysPaused
  infer_instance

variable {w : TurnWorld} {o : Opening percent} {limit : Nat}
  {events : List (Event percent × Reply)} {closing : Reply}

theorem consumed_handled (w : TurnWorld) (o : Opening percent)
    (events : List (Event percent × Reply)) (closing : Reply) :
    exists s, Handled o (TurnState.opened w o) s (untilEnd events closing).1 ∧
      Ended o (untilEnd events closing).2.1 (untilEnd events closing).2.2 s
        (TurnState.consume o (TurnState.opened w o) events closing) := by
  rw [consume_eq]
  exact ⟨_, foldl_handled o _ (untilEnd_open events closing), ended_spec _ _ _ _⟩

theorem budgetStops_of_handled (hread : o.threadRead = true)
    (hbudget : o.taskBudget = TaskBudget.weeklyPercent limit) {s : TurnState percent}
    {body : List (Event percent × Reply)} (h : Handled o (TurnState.opened w o) s body) :
    s.budgetStops o = pausesAnyway o body := by
  have husage : o.usageBudget = TaskBudget.weeklyPercent limit := by
    unfold Opening.usageBudget
    rw [hread, if_pos rfl, hbudget]
  have hnot : forall n, TaskBudget.weeklyPercent limit ≠ TaskBudget.tokens n := nofun
  unfold TurnState.budgetStops TurnState.telemetryComplete pausesAnyway
  rw [husage, h.exhausted, h.finalSample, h.accounting, husage, hbudget,
    overspends_eq_false hnot, Bool.or_false]
  rfl

theorem turn_weekly (hread : o.threadRead = true) (hbudget : o.taskBudget = .weeklyPercent limit)
    (hrow : w.tick.statusOf o.threadId = some .running)
    (hlimit : (untilEnd events closing).1.any (fun x => x.1.isLimit) = true)
    (hloss : (untilEnd events closing).1.any (fun x => x.1.isLoss) = false) (a : TailReplies) :
    ((consumeAgentThreadTurn w o events closing a).tick.statusOf o.threadId =
        some .paused <-> StaysPaused o events closing) ∧
      (consumeAgentThreadTurn w o events closing a).started = w.started ∧
      (consumeAgentThreadTurn w o events closing a).tick.store = w.tick.store ∧
      (consumeAgentThreadTurn w o events closing a).tick.threads.map ThreadRow.id =
        w.tick.threads.map ThreadRow.id := by
  have husage : o.usageBudget = .weeklyPercent limit := by
    unfold Opening.usageBudget
    rw [hread, if_pos rfl, hbudget]
  have hpercentage : isPercentageBudget o.usageBudget = true := by
    rw [husage]
    rfl
  rcases consumed_handled w o events closing with ⟨s, hs, hend⟩
  have hstops := budgetStops_of_handled hread hbudget hs
  have hsaw : s.sawUsageLimit = true := by
    rw [hs.usageLimit, hlimit, Bool.or_true]
  have hnet : s.sawNetworkLoss = false := by
    rw [hs.networkLoss, hloss]
    rfl
  have hflags : (TurnState.consume o (TurnState.opened w o) events closing).sawUsageLimit =
      true ∧ (TurnState.consume o (TurnState.opened w o) events closing).sawNetworkLoss =
      false := by
    rcases hend.flags with ⟨world, completedOk, heq⟩
    rw [heq]
    exact ⟨hsaw, hnet⟩
  rcases settle_percentage hpercentage hflags.left hflags.right a with ⟨htick, hstarted⟩
  unfold consumeAgentThreadTurn
  rw [htick, hstarted]
  refine ⟨?_, hend.started.trans hs.started, hend.store.trans hs.store, hend.ids.trans hs.ids⟩
  have hstatus := hs.status hloss
  have hstart : (TurnState.opened w o).world.tick.statusOf o.threadId = some .running := hrow
  rw [hstart] at hstatus
  rw [hend.status]
  unfold StaysPaused TurnState.endedStatus
  rw [hread, hstatus, hstops, hnet, hsaw]
  unfold limitStatus
  rw [hpercentage]
  cases (untilEnd events closing).2.2.threadSaved with
  | true =>
      cases pausesAnyway o (untilEnd events closing).1 with
      | true =>
          cases (untilEnd events closing).1.any limitSaved with
          | true => exact ⟨fun _ => ⟨rfl, rfl⟩, fun _ => rfl⟩
          | false => exact ⟨fun _ => ⟨rfl, rfl⟩, fun _ => rfl⟩
      | false =>
          cases (untilEnd events closing).1.any limitSaved with
          | true => exact ⟨nofun, fun h => absurd h.right nofun⟩
          | false => exact ⟨nofun, fun h => absurd h.right nofun⟩
  | false =>
      cases (untilEnd events closing).1.any limitSaved with
      | true => exact ⟨fun _ => ⟨rfl, rfl⟩, fun _ => rfl⟩
      | false => exact ⟨nofun, fun h => absurd h.right nofun⟩

theorem turn_unread (hread : o.threadRead = false)
    (hrow : w.tick.statusOf o.threadId = some .running)
    (hlimit : (untilEnd events closing).1.any (fun x => x.1.isLimit) = true)
    (hloss : (untilEnd events closing).1.any (fun x => x.1.isLoss) = false) (a : TailReplies) :
    (consumeAgentThreadTurn w o events closing a).tick.statusOf o.threadId ≠
      some .paused := by
  have husage : o.usageBudget = .unlimited := by
    unfold Opening.usageBudget
    rw [hread]
    rfl
  rcases consumed_handled w o events closing with ⟨s, hs, hend⟩
  have hsaw : s.sawUsageLimit = true := by
    rw [hs.usageLimit, hlimit, Bool.or_true]
  have hnet : s.sawNetworkLoss = false := by
    rw [hs.networkLoss, hloss]
    rfl
  have hexhausted : s.budgetExhausted = false := by
    have hnot : forall n, TaskBudget.unlimited ≠ TaskBudget.tokens n := nofun
    rw [hs.exhausted, husage, exhausts_eq_false rfl, overspends_eq_false hnot]
    rfl
  have hstops : s.budgetStops o = false := by
    unfold TurnState.budgetStops
    rw [hexhausted, husage]
    rfl
  have hstart : (TurnState.opened w o).world.tick.statusOf o.threadId = some .running := hrow
  have hstatus := hs.status hloss
  rw [hstart] at hstatus
  have hbefore : s.world.tick.statusOf o.threadId ≠ some .paused := by
    unfold limitStatus at hstatus
    rw [hstatus, husage]
    split <;> nofun
  have hafter : (TurnState.consume o (TurnState.opened w o) events closing).world.tick.statusOf
      o.threadId ≠ some .paused := by
    rw [hend.status]
    split
    · unfold TurnState.endedStatus
      rw [hstops, hnet, hsaw]
      intro hpaused
      rcases Option.map_eq_some_iff.mp hpaused with ⟨_, _, heq⟩
      cases heq
    · exact hbefore
  exact settle_statusOf_ne unswitched_paused hafter a

/-- A running thread with a weekly budget, which no device is assigned to, meets a limit
and loses no network: the turn ends with the thread paused for good exactly under the
condition. -/
theorem provider_limit_pauses_iff (a : TailReplies)
    (hbudget : o.taskBudget = TaskBudget.weeklyPercent limit)
    (hrow : w.tick.statusOf o.threadId = some TaskStatus.running)
    (hfree : ¬ ActiveThread w.tick.store o.threadId)
    (hthreads : Table.UniqueKey ThreadRow.id w.tick.threads)
    (hassignments : Table.UniqueKey Assignment.id w.tick.store.assignments)
    (hlimit : (untilEnd events closing).1.any (fun x => x.1.isLimit) = true)
    (hloss : (untilEnd events closing).1.any (fun x => x.1.isLoss) = false) :
    EndsPaused o.threadId w (consumeAgentThreadTurn w o events closing a) <->
      StaysPaused o events closing := by
  cases hread : o.threadRead with
  | true =>
      rcases turn_weekly hread hbudget hrow hlimit hloss a with
        ⟨hpaused, hstarted, hstore, hids⟩
      constructor
      · exact fun h => hpaused.mp h.paused
      · intro h
        have hidle : Idle o.threadId (consumeAgentThreadTurn w o events closing a).tick :=
          { paused := hpaused.mpr h
            free := by rw [hstore]; exact hfree
            threads := by unfold Table.UniqueKey; rw [hids]; exact hthreads
            assignments := by rw [hstore]; exact hassignments }
        exact
          { paused := hidle.paused
            started := hstarted
            later := fun w' hlater a' => ((hidle.later hlater).tick a').left }
  | false =>
      constructor
      · exact fun h => absurd h.paused (turn_unread hread hrow hlimit hloss a)
      · intro h
        rw [StaysPaused, hread] at h
        exact absurd h.left nofun

end Result

def answered : Reply :=
  { recorded := some 0
    stateSaved := true
    threadSaved := true
    creditRedeemed := false
    handoffSaved := true
    now := 0 }

/-- The budget was opened when 40 % of the week were used. -/
def weeklyOpening : Opening ℚ :=
  { threadId := "t1"
    agent := .codex
    providerAccountId := none
    pendingMessage := none
    taskBudget := .weeklyPercent 5
    threadRead := true
    usageTotal := some 0
    state :=
      some
        { EnforcementState.default with
          weeklyBaselinePercent := some 40
          provider := some "codex" } }

def runningWorld : TurnWorld :=
  { tick :=
      { store := Collaboration.Store.empty
        threads := [sampleThread .running] }
    queue := []
    started := [] }

def tailReplies : TailReplies :=
  { listed := true
    requeued := none
    reordered := true
    now := 0
    autoResumeCloud := false
    useLocalFallback := false
    services := Fallback.codexReady
    back := Fallback.cloudBack
    popped := true }

def limitThenEnd : List (Event ℚ × Reply) :=
  [(.usageLimitReached none, answered),
    (.sessionEnded .failed, answered)]

theorem provider_limit_pauses_iff_limitThenEnd :
    EndsPaused "t1" runningWorld
      (consumeAgentThreadTurn runningWorld weeklyOpening limitThenEnd answered
        tailReplies) := by
  have hiff := @provider_limit_pauses_iff ℚ _ runningWorld weeklyOpening 5 limitThenEnd
    answered tailReplies rfl rfl (by decide) (List.nodup_singleton _) List.nodup_nil rfl rfl
  exact hiff.mpr (by decide +kernel)

/-- Between the two the provider gives the last sample of the week. -/
def limitThenSample : List (Event ℚ × Reply) :=
  [(.usageLimitReached none, answered),
    (.quotaWindow .weekly 41 none true, answered),
    (.sessionEnded .failed, answered)]

def tickAfterReset : TickAnswers :=
  { sampleTick with
    reset := { sampleTick.reset with detected := Fallback.codexReady.detected } }

/-- The thread waits for the limit, and the tick after the reset takes it up. -/
theorem limited_thread_is_taken_up :
    (untilEnd limitThenSample answered).1.any (fun x => x.1.isLimit) = true ∧
      (untilEnd limitThenSample answered).1.any (fun x => x.1.isLoss) = false ∧
      TakenUp
        (consumeAgentThreadTurn runningWorld weeklyOpening limitThenSample answered
          tailReplies).tick tickAfterReset "t1" ∧
      ¬ EndsPaused "t1" runningWorld
        (consumeAgentThreadTurn runningWorld weeklyOpening limitThenSample answered
          tailReplies) := by
  have hphase : (runThreadResetContinuations
      (afterNetwork
        (consumeAgentThreadTurn runningWorld weeklyOpening limitThenSample answered
          tailReplies).tick tickAfterReset)
      tickAfterReset.reset).any (fun x => x.id == "t1") = true := by
    decide +kernel
  have htaken : TakenUp
      (consumeAgentThreadTurn runningWorld weeklyOpening limitThenSample answered
        tailReplies).tick tickAfterReset "t1" := by
    rcases List.any_eq_true.mp hphase with ⟨x, hx, hid⟩
    exact ⟨x, beq_iff_eq.mp hid, Or.inr (Or.inr hx)⟩
  exact ⟨rfl, rfl, htaken, fun h => h.later _ Relation.ReflTransGen.refl _ htaken⟩

end Budget
end Perpetual
