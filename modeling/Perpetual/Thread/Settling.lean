import Perpetual.Budget.ProviderLimit
import Perpetual.Sessions.Settling

/-!
# The end of a turn

The consumer of a turn writes the messages of the assistant while they are streamed,
and settles what the turn held.  Its loop always ends with an end of the session, one
is put in where the channel closes without it, so that every row is closed whatever the
events were.

The thread is paused where its budget is used up or not accounted for, if the consumer
knows of the budget: one that could not be read counts as none.  Every write succeeds
here, but for those whose failure the consumer asks for.
-/

namespace Perpetual
namespace Thread

open Foundation
open Budget
open Budget (Event Reply Opening TurnState TurnWorld TailReplies Percentage TaskBudget
  EnforcementState untilEnd)
open Sessions (RunRecord PendingApproval)
open WorkLocks (WorkLock)

/-!
## The transcript
-/

/-- A message of the assistant.  `streaming` is in its data only where it was streamed. -/
structure AssistantRow where
  id : Nat
  text : String
  streaming : Option Bool
deriving DecidableEq, Repr

def upsert (rows : List AssistantRow) (row : AssistantRow) : List AssistantRow :=
  if rows.any (fun r => r.id == row.id) then
    Table.updateWhere (fun r => r.id == row.id) (fun _ => row) rows
  else rows ++ [row]

/-- The rows of the turn, the message that is streamed, and whether it has text that
was not shown yet. -/
structure Transcript where
  rows : List AssistantRow
  nextId : Nat
  streaming : Option AssistantRow
  dirty : Bool
deriving DecidableEq, Repr

namespace Transcript

def empty : Transcript :=
  { rows := []
    nextId := 0
    streaming := none
    dirty := false }

/-- A frame of the display; the row is written if the last write is long enough ago. -/
def tick (t : Transcript) (elapsed : Bool) : Transcript :=
  match t.dirty, t.streaming with
  | true, some streamed =>
      { t with
        rows := if elapsed then upsert t.rows streamed else t.rows
        dirty := false }
  | _, _ => { t with dirty := false }

def delta (t : Transcript) (text : String) : Transcript :=
  if text = "" then t
  else
    match t.streaming with
    | some streamed =>
        { t with
          streaming :=
            some
              { streamed with
                text := streamed.text ++ text
                streaming := some true }
          dirty := true }
    | none =>
        let streamed : AssistantRow :=
          { id := t.nextId
            text := text
            streaming := some true }
        { t with
          rows := upsert t.rows streamed
          nextId := t.nextId + 1
          streaming := some streamed }

/-- A completed text replaces the one that was streamed. -/
def complete (t : Transcript) (text : String) : Transcript :=
  match t.streaming with
  | some streamed =>
      { t with
        rows :=
          upsert t.rows
            { streamed with
              text := text
              streaming := some false }
        streaming := none
        dirty := false }
  | none =>
      { t with
        rows :=
          t.rows ++
            [{ id := t.nextId
               text := text
               streaming := none }]
        nextId := t.nextId + 1 }

/-- The text that was streamed so far is kept. -/
def close (t : Transcript) : Transcript :=
  match t.streaming with
  | some streamed =>
      { t with
        rows := upsert t.rows { streamed with streaming := some false }
        streaming := none
        dirty := false }
  | none => { t with dirty := false }

end Transcript

inductive StreamEvent (percent : Type) where
  | tick (elapsed : Bool)
  | delta (text : String)
  | text (text : String)
  | sessionStarted (provider : String)
  | event (event : Event percent)
deriving DecidableEq, Repr

structure TurnRecord where
  agentSessionId : Option String
  state : SessionState
  ended : Bool
deriving DecidableEq, Repr

section Turn

variable {percent : Type}

/-- The flags and the row of the thread know nothing of the texts. -/
def StreamEvent.seen : StreamEvent percent -> Event percent
  | .event inner => inner
  | _ => .shown

def budgetEvents (events : List (StreamEvent percent × Reply)) :
    List (Event percent × Reply) :=
  events.map (fun x => (x.1.seen, x.2))

structure TurnRun (percent : Type) where
  turn : TurnState percent
  transcript : Transcript
  record : TurnRecord
  runs : List RunRecord

variable [Percentage percent]

namespace TurnRun

def handle (turnId : String) (o : Opening percent) (c : TurnRun percent) (r : Reply) :
    StreamEvent percent -> TurnRun percent
  | .tick elapsed => { c with transcript := c.transcript.tick elapsed }
  | .delta text => { c with transcript := c.transcript.delta text }
  | .text text => { c with transcript := c.transcript.complete text }
  | .sessionStarted provider =>
      { c with record := { c.record with agentSessionId := some provider } }
  | .event (.sessionEnded status) =>
      let state := Sessions.sessionState (c.turn.effectiveStatus status)
      { turn := c.turn.handle o r (.sessionEnded status)
        transcript := c.transcript.close
        record :=
          { c.record with
            state := state
            ended := true }
        runs := Sessions.finishRunsForRef c.runs turnId state }
  | .event event => { c with turn := c.turn.handle o r event }

/-- The loop ends with the session, or with the channel. -/
def consume (turnId : String) (o : Opening percent) (c : TurnRun percent) :
    List (StreamEvent percent × Reply) -> Reply -> TurnRun percent
  | [], closing =>
      c.handle turnId o closing (.event (.sessionEnded .failed))
  | (.event (.sessionEnded status), r) :: _, _ =>
      c.handle turnId o r (.event (.sessionEnded status))
  | (event, r) :: rest, closing => consume turnId o (c.handle turnId o r event) rest closing

end TurnRun

/-!
## Behind the loop
-/

/-- What the turn holds when its events begin.  `nodeId` is the work node of the
thread. -/
structure TurnHoldings where
  turnId : String
  nodeId : Option String
  record : TurnRecord
  runs : List RunRecord
  approvals : List PendingApproval
  active : String -> Bool
  locks : List WorkLock

structure SettledTurn where
  world : TurnWorld
  rows : List AssistantRow
  record : TurnRecord
  runs : List RunRecord
  approvals : List PendingApproval
  active : String -> Bool
  permitHeld : Bool
  locks : List WorkLock

/-- A message still streamed is closed once more, and what the turn held is let go
before anything else is started. -/
def consumeAgentThreadTurn (h : TurnHoldings) (w : TurnWorld) (o : Opening percent)
    (events : List (StreamEvent percent × Reply)) (closing : Reply) (a : TailReplies) :
    SettledTurn :=
  let c :=
    TurnRun.consume h.turnId o
      { turn := TurnState.opened w o
        transcript := Transcript.empty
        record := h.record
        runs := h.runs } events closing
  { world := c.turn.settle o a
    rows := c.transcript.close.rows
    record := c.record
    runs := c.runs
    approvals := h.approvals.filter (fun x => x.sessionId != some h.turnId)
    active := Function.update h.active o.threadId false
    permitHeld := false
    locks :=
      match h.nodeId with
      | some node => Table.deleteWhere (fun l => l.nodeId == node) h.locks
      | none => h.locks }

end Turn

/-!
## The messages of the texts
-/

section Messages

variable {percent : Type}

/-- What a reader sees of a message: its text, and whether it is still streamed. -/
def AssistantRow.content (row : AssistantRow) : String × Option Bool :=
  (row.text, row.streaming)

/-- A message that was streamed has the text that completed it, or all its pieces if
the session ended before.  A text without pieces is a message of its own. -/
def messagesOf : Option String -> List (StreamEvent percent × Reply) ->
    List (String × Option Bool)
  | some streamed, [] => [(streamed, some false)]
  | none, [] => []
  | streamed, (.delta text, _) :: rest =>
      messagesOf (if text = "" then streamed else some (streamed.getD "" ++ text)) rest
  | some _, (.text text, _) :: rest => (text, some false) :: messagesOf none rest
  | none, (.text text, _) :: rest => (text, none) :: messagesOf none rest
  | streamed, (.event (.sessionEnded _), _) :: _ =>
      streamed.toList.map (fun text => (text, some false))
  | streamed, _ :: rest => messagesOf streamed rest

theorem messagesOf_not_streaming (streamed : Option String)
    (events : List (StreamEvent percent × Reply)) :
    forall x, x ∈ messagesOf streamed events -> x.2 ≠ some true := by
  fun_induction messagesOf streamed events with
  | case1 streamed => simp
  | case2 => simp
  | case3 streamed text r rest ih => exact ih
  | case4 streamed text r rest ih => simpa using ih
  | case5 text r rest ih => simpa using ih
  | case6 streamed status r rest => simp
  | case7 streamed x rest _ _ _ _ ih => exact ih

end Messages

/-!
## The rows of the turn
-/

theorem upsert_fresh {rows : List AssistantRow} {row : AssistantRow}
    (hrows : forall r, r ∈ rows -> r.id < row.id) : upsert rows row = rows ++ [row] := by
  have hfresh : rows.any (fun r => r.id == row.id) = false := by
    rw [List.any_eq_false]
    intro r hr heq
    exact absurd (beq_iff_eq.mp heq) (Nat.ne_of_lt (hrows r hr))
  unfold upsert
  rw [hfresh, if_neg Bool.false_ne_true]

theorem upsert_last {done : List AssistantRow} {snapshot row : AssistantRow}
    (hdone : forall r, r ∈ done -> r.id < row.id) (hid : snapshot.id = row.id) :
    upsert (done ++ [snapshot]) row = done ++ [row] := by
  have hfound : (done ++ [snapshot]).any (fun r => r.id == row.id) = true :=
    List.any_eq_true.mpr
      ⟨snapshot, List.mem_append_cons_self, beq_iff_eq.mpr hid⟩
  unfold upsert
  rw [if_pos hfound, Table.updateWhere_append, Table.updateWhere_eq_self,
    Table.updateWhere_cons_of_pos]
  · rfl
  · exact beq_iff_eq.mpr hid
  · exact fun r hr => beq_false_of_ne (Nat.ne_of_lt (hdone r hr))

/-- The closed rows, and the text of the message that is streamed.  Its row is the last
one, and may be behind its text. -/
inductive Shape : Transcript -> List AssistantRow -> Option String -> Prop where
  | closed (rows : List AssistantRow) (nextId : Nat) (dirty : Bool)
      (hrows : forall r, r ∈ rows -> r.id < nextId) :
      Shape { rows := rows, nextId := nextId, streaming := none, dirty := dirty } rows none
  | streamed (done : List AssistantRow) (snapshot row : AssistantRow) (nextId : Nat)
      (dirty : Bool) (hdone : forall r, r ∈ done -> r.id < row.id)
      (hid : snapshot.id = row.id) (hrow : row.id < nextId) :
      Shape
        { rows := done ++ [snapshot], nextId := nextId, streaming := some row, dirty := dirty }
        done (some row.text)

namespace Shape

variable {t : Transcript} {done : List AssistantRow}

variable {text : Option String}

theorem tick (h : Shape t done text) (elapsed : Bool) : Shape (t.tick elapsed) done text := by
  cases h with
  | closed _ nextId dirty hrows =>
      cases dirty with
      | true => exact .closed done nextId false hrows
      | false => exact .closed done nextId false hrows
  | streamed _ snapshot row nextId dirty hdone hid hrow =>
      cases dirty with
      | false => exact .streamed done snapshot row nextId false hdone hid hrow
      | true =>
          unfold Transcript.tick
          dsimp only
          cases elapsed with
          | false => exact .streamed done snapshot row nextId false hdone hid hrow
          | true =>
              rw [if_pos rfl, upsert_last hdone hid]
              exact .streamed done row row nextId false hdone rfl hrow

theorem delta (h : Shape t done text) (piece : String) :
    Shape (t.delta piece) done
      (if piece = "" then text else some (text.getD "" ++ piece)) := by
  unfold Transcript.delta
  split
  · exact h
  · cases h with
    | closed _ nextId dirty hrows =>
        dsimp only
        rw [upsert_fresh hrows, Option.getD_none, String.empty_append]
        exact .streamed done
          { id := nextId, text := piece, streaming := some true }
          { id := nextId, text := piece, streaming := some true } (nextId + 1) dirty hrows rfl
          (Nat.lt_succ_self nextId)
    | streamed _ snapshot row nextId dirty hdone hid hrow =>
        exact .streamed done snapshot
          { row with text := row.text ++ piece, streaming := some true } nextId true hdone hid
          hrow

theorem complete_streamed {streamed : String} (h : Shape t done (some streamed)) (text : String) :
    exists row : AssistantRow,
      row.content = (text, some false) ∧ Shape (t.complete text) (done ++ [row]) none := by
  cases h with
  | streamed _ snapshot row nextId dirty hdone hid hrow =>
      refine ⟨{ row with text := text, streaming := some false }, rfl, ?_⟩
      unfold Transcript.complete
      dsimp only
      rw [@upsert_last done snapshot { row with text := text, streaming := some false } hdone hid]
      apply Shape.closed
      intro r hr
      rcases List.mem_append.mp hr with hr | hr
      · exact (hdone r hr).trans hrow
      · rw [List.mem_singleton.mp hr]
        exact hrow

theorem complete_plain (h : Shape t done none) (text : String) :
    exists row : AssistantRow,
      row.content = (text, none) ∧ Shape (t.complete text) (done ++ [row]) none := by
  cases h with
  | closed _ nextId dirty hrows =>
      refine ⟨{ id := nextId, text := text, streaming := none }, rfl, ?_⟩
      unfold Transcript.complete
      dsimp only
      apply Shape.closed
      intro r hr
      rcases List.mem_append.mp hr with hr | hr
      · exact Nat.lt_succ_of_lt (hrows r hr)
      · rw [List.mem_singleton.mp hr]
        exact Nat.lt_succ_self nextId

theorem close (h : Shape t done text) :
    t.close.close.rows.map AssistantRow.content =
      done.map AssistantRow.content ++ text.toList.map (fun x => (x, some false)) := by
  cases h with
  | closed _ nextId dirty hrows => exact (List.append_nil _).symm
  | streamed _ snapshot row nextId dirty hdone hid hrow =>
      unfold Transcript.close
      dsimp only
      rw [@upsert_last done snapshot { row with streaming := some false } hdone hid,
        List.map_append]
      rfl

end Shape

section Run

variable {percent : Type} [Percentage percent]

theorem consume_rows (turnId : String) (o : Opening percent)
    (events : List (StreamEvent percent × Reply)) (closing : Reply) (c : TurnRun percent)
    {done : List AssistantRow} {text : Option String} (h : Shape c.transcript done text) :
    (TurnRun.consume turnId o c events closing).transcript.close.rows.map
        AssistantRow.content =
      done.map AssistantRow.content ++ messagesOf text events := by
  induction events generalizing c done text with
  | nil =>
      refine h.close.trans ?_
      cases text with
      | none => rfl
      | some streamed => rfl
  | cons x rest ih =>
      rcases x with ⟨event, r⟩
      cases event with
      | tick elapsed =>
          cases text with
          | none => exact ih _ (h.tick elapsed)
          | some streamed => exact ih _ (h.tick elapsed)
      | delta piece =>
          cases text with
          | none => exact ih _ (h.delta piece)
          | some streamed => exact ih _ (h.delta piece)
      | text text' =>
          cases text with
          | none =>
              rcases h.complete_plain text' with ⟨row, hrow, hnext⟩
              rw [TurnRun.consume, ih _ hnext, messagesOf, List.map_append, List.map_singleton,
                hrow, List.append_assoc]
              · rfl
              · nofun
          | some streamed =>
              rcases h.complete_streamed text' with ⟨row, hrow, hnext⟩
              rw [TurnRun.consume, ih _ hnext, messagesOf, List.map_append, List.map_singleton,
                hrow, List.append_assoc]
              · rfl
              · nofun
      | sessionStarted provider =>
          cases text with
          | none => exact ih _ h
          | some streamed => exact ih _ h
      | event inner =>
          cases inner with
          | sessionEnded status =>
              refine h.close.trans ?_
              cases text with
              | none => rfl
              | some streamed => rfl
          | _ =>
              cases text with
              | none => exact ih _ h
              | some streamed => exact ih _ h

theorem consume_turn (turnId : String) (o : Opening percent)
    (events : List (StreamEvent percent × Reply)) (closing : Reply) (c : TurnRun percent) :
    (TurnRun.consume turnId o c events closing).turn =
      TurnState.consume o c.turn (budgetEvents events) closing := by
  induction events generalizing c with
  | nil => rfl
  | cons x rest ih =>
      rcases x with ⟨event, r⟩
      cases event with
      | event inner =>
          cases inner with
          | sessionEnded status => rfl
          | _ => exact ih _
      | _ => exact ih _

theorem consume_ended (turnId : String) (o : Opening percent)
    (events : List (StreamEvent percent × Reply)) (closing : Reply) (c : TurnRun percent) :
    (TurnRun.consume turnId o c events closing).record.ended = true ∧
      forall r, r ∈ (TurnRun.consume turnId o c events closing).runs ->
        r.runRef = turnId -> r.ended = true := by
  induction events generalizing c with
  | nil => exact ⟨rfl, Sessions.finishRunsForRef_ended _ _ _⟩
  | cons x rest ih =>
      rcases x with ⟨event, r⟩
      cases event with
      | event inner =>
          cases inner with
          | sessionEnded status => exact ⟨rfl, Sessions.finishRunsForRef_ended _ _ _⟩
          | _ => exact ih _
      | _ => exact ih _

end Run

/-!
## The budget
-/

variable {total : Nat}

section Heeded

variable {percent : Type}

def telemetryMissing (o : Opening percent) (body : List (Event percent × Reply)) : Bool :=
  match o.taskBudget with
  | .unlimited => false
  | .tokens _ => !body.any (fun x => x.1.isTokenReport)
  | .weeklyPercent _ => !body.any (fun x => x.1.isFinalSample)

def unaccounted (o : Opening percent) (body : List (Event percent × Reply)) : Bool :=
  !o.taskBudget.isUnlimited &&
    (telemetryMissing o body || o.state.isNone ||
      (o.usageTotal.isNone || body.any accountingFails))

/-- The ledger is under the limit when the turn begins, as the start of a turn asks. -/
def underLimit (o : Opening percent) : Bool :=
  match o.taskBudget with
  | .tokens limit => decide (o.usageTotal.getD 0 < limit)
  | _ => true

/-- The consumer knows the budget; and of a ledger that was at the limit already it
learns by a report that is not zero, or by one that is missing. -/
def heeds (o : Opening percent) (body : List (Event percent × Reply)) : Bool :=
  o.threadRead &&
    (unaccounted o body || underLimit o || body.any (fun x => x.1.spends))

theorem le_addRecorded (htotal : total < 2 ^ 64) (x : Event percent × Reply) :
    total ≤ addRecorded total x ∧ addRecorded total x < 2 ^ 64 := by
  unfold addRecorded
  split
  · cases x.2.recorded with
    | none => exact ⟨Nat.le_refl total, htotal⟩
    | some recorded =>
        unfold Budget.saturating
        dsimp only [Option.elim]
        omega
  · exact ⟨Nat.le_refl total, htotal⟩

theorem le_total (htotal : total < 2 ^ 64) (body : List (Event percent × Reply)) :
    total ≤ body.foldl addRecorded total := by
  induction body generalizing total with
  | nil => exact Nat.le_refl total
  | cons x rest ih =>
      rcases le_addRecorded htotal x with ⟨hle, hlt⟩
      exact hle.trans (ih hlt)

theorem total_eq_self {body : List (Event percent × Reply)}
    (hspends : body.any (fun x => x.1.spends) = false) (total : Nat) :
    body.foldl addRecorded total = total := by
  induction body generalizing total with
  | nil => rfl
  | cons x rest ih =>
      rw [List.any_cons, Bool.or_eq_false_iff] at hspends
      have hx : addRecorded total x = total := by
        unfold addRecorded
        rw [hspends.left, if_neg Bool.false_ne_true]
      rw [List.foldl_cons, hx, ih hspends.right]

theorem overspends_tokens (limit : Nat) (htotal : total < 2 ^ 64)
    (body : List (Event percent × Reply)) :
    overspends (.tokens limit) total body =
      (body.any (fun x => x.1.spends) &&
        decide (limit ≤ body.foldl addRecorded total)) := by
  induction body generalizing total with
  | nil => rfl
  | cons x rest ih =>
      have hlt := (le_addRecorded htotal x).right
      have hle := le_total hlt rest
      have hover : overspent (.tokens limit) (addRecorded total x) x.1 =
          (x.1.spends && decide (limit ≤ addRecorded total x)) := rfl
      unfold overspends
      rw [ih hlt, hover, List.any_cons, List.foldl_cons]
      cases hrest : rest.any (fun x => x.1.spends) with
      | false =>
          rw [total_eq_self hrest, Bool.false_and, Bool.or_false, Bool.or_false]
      | true =>
          rw [Bool.or_true, Bool.true_and]
          by_cases hlimit : limit ≤ addRecorded total x
          · rw [decide_eq_true hlimit, decide_eq_true (hlimit.trans hle), Bool.or_true]
          · rw [decide_eq_false hlimit, Bool.and_false, Bool.false_or]

variable [Percentage percent]

/-- The ledger is at the limit behind the turn, or a sample takes what is consumed of
the week to the target. -/
def exhausted (o : Opening percent) (body : List (Event percent × Reply)) : Bool :=
  match o.taskBudget with
  | .unlimited => false
  | .tokens limit =>
      decide (limit ≤ body.foldl addRecorded (o.usageTotal.getD 0))
  | .weeklyPercent _ =>
      exhausts o.taskBudget o.quotaAccount (o.state.getD EnforcementState.default) body

def mustStop (o : Opening percent) (body : List (Event percent × Reply)) : Bool :=
  exhausted o body || unaccounted o body

theorem budgetStops_of_handled {w : TurnWorld} {o : Opening percent} {s : TurnState percent}
    {body : List (Event percent × Reply)} (htotal : o.usageTotal.getD 0 < 2 ^ 64)
    (h : Budget.Handled o (TurnState.opened w o) s body) :
    s.budgetStops o = (mustStop o body && heeds o body) := by
  have hexhausted : s.budgetExhausted =
      (exhausts o.usageBudget o.quotaAccount (o.state.getD EnforcementState.default)
          body ||
        overspends o.usageBudget (o.usageTotal.getD 0) body) := h.exhausted
  cases hread : o.threadRead with
  | false =>
      have husage : o.usageBudget = .unlimited := by
        unfold Opening.usageBudget
        rw [hread]
        rfl
      have hnot : forall n, TaskBudget.unlimited ≠ TaskBudget.tokens n := nofun
      unfold TurnState.budgetStops TurnState.telemetryComplete heeds
      rw [hread, hexhausted, husage, exhausts_eq_false rfl,
        overspends_eq_false hnot, Bool.false_and, Bool.and_false]
      rfl
  | true =>
      have husage : o.usageBudget = o.taskBudget := by
        unfold Opening.usageBudget
        rw [hread]
        rfl
      cases hbudget : o.taskBudget with
      | unlimited =>
          have hnot : forall n, TaskBudget.unlimited ≠ TaskBudget.tokens n := nofun
          unfold TurnState.budgetStops mustStop exhausted unaccounted
          rw [hexhausted, husage, hbudget, exhausts_eq_false rfl,
            overspends_eq_false hnot]
          rfl
      | tokens limit =>
          have htokens : s.sawTokenTelemetry = body.any (fun x => x.1.isTokenReport) :=
            h.tokenReport
          have haccounting : s.budgetAccountingFailed =
              (o.usageTotal.isNone || body.any accountingFails) := h.accounting
          have hquota : exhausts (.tokens limit) o.quotaAccount
              (o.state.getD EnforcementState.default) body = false :=
            exhausts_eq_false rfl _ _ _
          have hsilent : body.any (fun x => x.1.spends) = false ->
              body.foldl addRecorded (o.usageTotal.getD 0) = o.usageTotal.getD 0 :=
            fun hspends => total_eq_self hspends _
          unfold TurnState.budgetStops TurnState.telemetryComplete mustStop heeds exhausted
            unaccounted telemetryMissing underLimit
          rw [hexhausted, htokens, haccounting, hread, husage, hbudget, hquota,
            overspends_tokens limit htotal]
          dsimp only
          cases hspends : body.any (fun x => x.1.spends) with
          | true =>
              rw [Bool.or_true, Bool.true_and, Bool.true_and, Bool.false_or, Bool.and_true]
          | false =>
              rw [hsilent hspends, Bool.false_and, Bool.false_or, Bool.false_or,
                Bool.or_false, Bool.true_and]
              by_cases hunder : o.usageTotal.getD 0 < limit
              · rw [decide_eq_false (Nat.not_le_of_lt hunder), decide_eq_true hunder,
                  Bool.or_true, Bool.and_true, Bool.false_or]
              · rw [decide_eq_true (Nat.le_of_not_lt hunder), decide_eq_false hunder,
                  Bool.or_false, Bool.true_or, Bool.true_and]
      | weeklyPercent limit =>
          -- every reason to pause is heeded
          rw [Budget.budgetStops_of_handled hread hbudget h]
          unfold pausesAnyway mustStop heeds exhausted unaccounted telemetryMissing
            underLimit
          rw [hread, hbudget]
          dsimp only
          rw [Bool.or_true, Bool.true_or, Bool.and_true, Bool.and_true]
          rfl

end Heeded

/-!
## Without a budget
-/

section Unheeded

variable {percent : Type}

/-- The status of the end is that of a paused thread, and the switch back to the first
agent leaves it so. -/
def endsPaused (thread : Fallback.AgentThread) (body : List (Event percent × Reply))
    (status : SessionStatus) (a : TailReplies) : Bool :=
  match status with
  | .completed =>
      body.any (fun x => x.1.isApproval) &&
        ((!a.back.saves ||
            decide ((thread.maybeMarkThreadSwitchbackReady a.back).thread.status =
              .paused)) &&
          (Budget.switchbackStarts thread a.back).isNone)
  | .interrupted => true
  | .failed => false

/-- Without a limit or a loss the turn ends paused, and there is no message to go on
with. -/
def restsPaused (w : TurnWorld) (thread : Fallback.AgentThread)
    (body : List (Event percent × Reply)) (status : SessionStatus) (a : TailReplies) : Bool :=
  !body.any (fun x => x.1.isLimit) && !body.any (fun x => x.1.isLoss) &&
    (endsPaused { thread with status := .paused } body status a &&
      (!a.popped || (popNext w.queue).isNone))

theorem unswitched_running : Budget.Unswitched .running :=
  ⟨nofun, nofun, nofun⟩

theorem endedStatus_ne_running (o : Opening percent) (s : TurnState percent) 
    (status : SessionStatus) : s.endedStatus o status ≠ .running := by
  unfold TurnState.endedStatus
  split
  · nofun
  · split
    · nofun
    · split
      · nofun
      · split
        · split <;> nofun
        · nofun
        · nofun

def drainStarts (queue : List QueuedTurn) (popped : Bool) : Option Budget.Started :=
  if popped then (popNext queue).map (fun next => .queued next.1) else none

theorem drain_started (w : TurnWorld) (popped : Bool) :
    (w.drain popped).started = w.started ++ (drainStarts w.queue popped).toList := by
  unfold TurnWorld.drain drainStarts
  cases popped with
  | false => exact (List.append_nil _).symm
  | true =>
      rw [if_pos rfl]
      cases popNext w.queue with
      | none => exact (List.append_nil _).symm
      | some next => rfl

theorem drainStarts_isNone (queue : List QueuedTurn) (popped : Bool) :
    (drainStarts queue popped).isNone = (!popped || (popNext queue).isNone) := by
  unfold drainStarts
  cases popped with
  | false => rfl
  | true =>
      rw [if_pos rfl, Option.isNone_map]
      rfl

theorem switchBackWhenReady_spec {w : TurnWorld} {id : String} {row : Scheduler.ThreadRow}
    (hrow : w.tick.threads.find? (fun x => x.id == id) = some row)
    (hstatus : row.thread.status = .paused) (a : TailReplies) :
    ((w.switchBackWhenReady id a).tick.statusOf id = some .paused <->
        (!a.back.saves ||
          decide ((row.thread.maybeMarkThreadSwitchbackReady a.back).thread.status =
            .paused)) = true) ∧
      (w.switchBackWhenReady id a).started =
        w.started ++
          ((Budget.switchbackStarts row.thread a.back).map .switchback).toList ∧
      (w.switchBackWhenReady id a).queue = w.queue := by
  unfold TurnWorld.switchBackWhenReady TurnWorld.onThread
  rw [hrow]
  unfold TurnWorld.switch TurnWorld.start
  dsimp only
  cases a.back.saves with
  | false =>
      refine ⟨⟨fun _ => rfl, fun _ => ?_⟩, rfl, rfl⟩
      rw [if_neg Bool.false_ne_true]
      unfold Scheduler.TickWorld.statusOf
      rw [hrow]
      exact congrArg some hstatus
  | true =>
      rw [if_pos rfl, Bool.not_true, Bool.false_or, decide_eq_true_eq]
      refine ⟨?_, rfl, rfl⟩
      show (w.tick.save id a.now _).statusOf id = _ <-> _
      rw [Scheduler.statusOf_save, hrow]
      exact Option.some_inj

theorem find?_save (w : Scheduler.TickWorld) (id : String) (now : Nat)
    (f : Fallback.AgentThread -> Fallback.AgentThread) :
    (w.save id now f).threads.find? (fun x => x.id == id) =
      (w.threads.find? (fun x => x.id == id)).map (Scheduler.ThreadRow.saved now f) :=
  Table.find?_updateWhere (k := Scheduler.ThreadRow.id)
    (f := Scheduler.ThreadRow.saved now f) (fun _ => rfl) id w.threads

variable {o : Opening percent} {s : TurnState percent}

theorem ended_quiet {w : TurnWorld} {row : Scheduler.ThreadRow} (hworld : s.world = w)
    (hlimit : s.sawUsageLimit = false)
    (hrow : w.tick.threads.find? (fun x => x.id == o.threadId) = some row) (status : SessionStatus)
    {r : Reply} (hsaved : r.threadSaved = true) :
    exists row' : Scheduler.ThreadRow,
      (s.ended o status r).world.tick.threads.find? (fun x => x.id == o.threadId) =
          some row' ∧
        row'.thread = { row.thread with status := s.endedStatus o status } ∧
        (s.ended o status r).world.queue = w.queue ∧
        (s.ended o status r).world.started = w.started := by
  have hfirst : (w.tick.save o.threadId r.now (s.endedRow o status)).threads.find?
      (fun x => x.id == o.threadId) =
        some (row.saved r.now (s.endedRow o status)) := by
    rw [find?_save, hrow]
    rfl
  have hthread : s.endedRow o status row.thread =
      { row.thread with status := s.endedStatus o status } := by
    unfold TurnState.endedRow
    rw [hlimit, if_neg Bool.false_ne_true]
  unfold TurnState.ended TurnState.saveThread TurnState.handoff
  rw [hsaved, if_pos rfl, hworld]
  dsimp only
  cases r.handoffSaved with
  | false => exact ⟨row.saved r.now (s.endedRow o status), hfirst, hthread, rfl, rfl⟩
  | true =>
      refine ⟨(row.saved r.now (s.endedRow o status)).saved r.now (fun thread => thread), ?_,
        hthread, rfl, rfl⟩
      exact (find?_save _ _ _ _).trans (congrArg (Option.map _) hfirst)

theorem settle_quiet (hstops : s.budgetStops o = false) (hlimit : s.sawUsageLimit = false)
    (hloss : s.sawNetworkLoss = false) (a : TailReplies) :
    s.settle o a =
      if s.completedOk then (s.world.switchBackWhenReady o.threadId a).drain a.popped
      else s.world.drain a.popped := by
  have hrequeue : s.requeue o a = s.world := by
    unfold TurnState.requeue
    rw [hlimit, hloss, Bool.or_self, Bool.and_false]
    split
    · exact if_neg Bool.false_ne_true
    · rfl
  unfold TurnState.settle
  rw [hrequeue, hstops, hlimit, hloss]
  rfl

theorem drain_started_iff (w w' : TurnWorld) {started : Option Budget.Started}
    (hstarted : w'.started = w.started ++ started.toList) (hqueue : w'.queue = w.queue)
    (popped : Bool) :
    (w'.drain popped).started = w.started <->
      (started.isNone && (!popped || (popNext w.queue).isNone)) = true := by
  rw [drain_started, hstarted, hqueue, List.append_assoc, List.append_right_eq_self,
    List.append_eq_nil_iff, Option.toList_eq_nil_iff, Option.toList_eq_nil_iff,
    Bool.and_eq_true, ← drainStarts_isNone, Option.isNone_iff_eq_none,
    Option.isNone_iff_eq_none]

/-- The flags of a turn that met no limit and no loss, and that no budget stops: its
world is still that of the start. -/
structure Untroubled (w : TurnWorld) (o : Opening percent) (s : TurnState percent) :
    Prop where
  world : s.world = w
  stops : s.budgetStops o = false
  limit : s.sawUsageLimit = false
  loss : s.sawNetworkLoss = false

def plainStatus (approval : Bool) : SessionStatus -> TaskStatus
  | .completed => if approval then .paused else .review
  | .interrupted => .paused
  | .failed => .failed

namespace Untroubled

variable {w : TurnWorld} {o : Opening percent} {s : TurnState percent}
  {row : Scheduler.ThreadRow} {r : Reply}

theorem effectiveStatus (h : Untroubled w o s) (status : SessionStatus) :
    s.effectiveStatus status = status := by
  unfold TurnState.effectiveStatus
  rw [h.loss, if_neg Bool.false_ne_true]

theorem endedStatus (h : Untroubled w o s) (status : SessionStatus) :
    s.endedStatus o status = plainStatus s.sawApprovalNeeded status := by
  unfold TurnState.endedStatus
  rw [h.stops, h.loss, h.limit, h.effectiveStatus]
  cases status <;> rfl

theorem settle (h : Untroubled w o s) (status : SessionStatus) (r : Reply) (a : TailReplies) :
    (s.ended o status r).settle o a =
      if decide (status = .completed) then
        ((s.ended o status r).world.switchBackWhenReady o.threadId a).drain a.popped
      else (s.ended o status r).world.drain a.popped := by
  have hcompleted : (s.ended o status r).completedOk =
      decide (s.effectiveStatus status = .completed) := rfl
  rcases (ended_spec o s status r).flags with ⟨world, completedOk, heq⟩
  rw [settle_quiet _ _ _ a, hcompleted, h.effectiveStatus]
  · rw [heq]
    exact h.stops
  · rw [heq]
    exact h.limit
  · rw [heq]
    exact h.loss

theorem settle_interrupted (h : Untroubled w o s)
    (hrow : w.tick.threads.find? (fun x => x.id == o.threadId) = some row)
    (hsaved : r.threadSaved = true) (a : TailReplies) :
    (((s.ended o .interrupted r).settle o a).tick.statusOf o.threadId =
          some .paused ∧
        ((s.ended o .interrupted r).settle o a).started = w.started) <->
      (!a.popped || (popNext w.queue).isNone) = true := by
  rcases ended_quiet h.world h.limit hrow .interrupted hsaved with
    ⟨row', hrow', hthread, hqueue, hstarted⟩
  have hpaused : (s.ended o .interrupted r).world.tick.statusOf o.threadId = some .paused := by
    unfold Scheduler.TickWorld.statusOf Scheduler.ThreadRow.status
    rw [hrow', Option.map_some, hthread, h.endedStatus]
    rfl
  have hdrained := @drain_started_iff w (s.ended o .interrupted r).world none
    (hstarted.trans (List.append_nil _).symm) hqueue a.popped
  have hdecided : decide (SessionStatus.interrupted = SessionStatus.completed) = false := rfl
  rw [h.settle, hdecided, if_neg Bool.false_ne_true, drain_tick]
  exact (and_iff_right hpaused).trans hdrained

theorem settle_completed (h : Untroubled w o s) (happroval : s.sawApprovalNeeded = true)
    (hrow : w.tick.threads.find? (fun x => x.id == o.threadId) = some row)
    (hsaved : r.threadSaved = true) (a : TailReplies) :
    (((s.ended o .completed r).settle o a).tick.statusOf o.threadId =
          some .paused ∧
        ((s.ended o .completed r).settle o a).started = w.started) <->
      ((!a.back.saves ||
          decide ((Fallback.AgentThread.maybeMarkThreadSwitchbackReady
            { row.thread with status := .paused } a.back).thread.status =
              .paused)) &&
        ((Budget.switchbackStarts { row.thread with status := .paused }
            a.back).isNone &&
          (!a.popped || (popNext w.queue).isNone))) = true := by
  rcases ended_quiet h.world h.limit hrow .completed hsaved with
    ⟨row', hrow', hthread, hqueue, hstarted⟩
  rw [h.endedStatus, happroval, plainStatus, if_pos rfl] at hthread
  rcases switchBackWhenReady_spec hrow' (congrArg _ hthread) a with
    ⟨hswitched, hswitchStarted, hswitchQueue⟩
  rw [hthread, hstarted] at hswitchStarted
  rw [hthread] at hswitched
  have hdrained := drain_started_iff w
    ((s.ended o .completed r).world.switchBackWhenReady o.threadId a)
    hswitchStarted (hswitchQueue.trans hqueue) a.popped
  rw [Option.isNone_map] at hdrained
  have hdecided : decide (SessionStatus.completed = SessionStatus.completed) = true := rfl
  rw [h.settle, hdecided, if_pos rfl, drain_tick, Bool.and_eq_true]
  exact and_congr hswitched hdrained

end Untroubled

theorem settle_not_paused {status : SessionStatus} {r : Reply} (hsaved : r.threadSaved = true)
    (hne : s.endedStatus o status ≠ .paused) (a : TailReplies) :
    ((s.ended o status r).settle o a).tick.statusOf o.threadId ≠
      some .paused := by
  apply Budget.settle_statusOf_ne Budget.unswitched_paused
  rw [(ended_spec o s status r).status, hsaved, if_pos rfl]
  intro hpaused
  rcases Option.map_eq_some_iff.mp hpaused with ⟨_, _, heq⟩
  exact hne heq

theorem endedStatus_of_loss (hstops : s.budgetStops o = false) (hloss : s.sawNetworkLoss = true)
    (status : SessionStatus) : s.endedStatus o status = .waitingForNetwork := by
  unfold TurnState.endedStatus
  rw [hstops, if_neg Bool.false_ne_true, hloss, if_pos rfl]

theorem endedStatus_of_limit (hstops : s.budgetStops o = false) (hloss : s.sawNetworkLoss = false)
    (hlimit : s.sawUsageLimit = true) (status : SessionStatus) :
    s.endedStatus o status = .waitingForLimit := by
  unfold TurnState.endedStatus
  rw [hstops, if_neg Bool.false_ne_true, hloss, if_neg Bool.false_ne_true, hlimit, if_pos rfl]

variable [Percentage percent]

theorem settle_unheeded {w : TurnWorld} {body : List (Event percent × Reply)}
    {row : Scheduler.ThreadRow} (h : Budget.Handled o (TurnState.opened w o) s body)
    (hstops : s.budgetStops o = false)
    (hrow : w.tick.threads.find? (fun x => x.id == o.threadId) = some row) (status : SessionStatus)
    {r : Reply} (hsaved : r.threadSaved = true) (a : TailReplies) :
    (((s.ended o status r).settle o a).tick.statusOf o.threadId = some .paused ∧
        ((s.ended o status r).settle o a).started = w.started) <->
      restsPaused w row.thread body status a = true := by
  have hlimit : s.sawUsageLimit = body.any (fun x => x.1.isLimit) := h.usageLimit
  have hloss : s.sawNetworkLoss = body.any (fun x => x.1.isLoss) := h.networkLoss
  have happroval : s.sawApprovalNeeded = body.any (fun x => x.1.isApproval) := h.approval
  -- where the end gives another status, the thread is not paused and does not rest
  have hdiffers : s.endedStatus o status ≠ .paused ->
      restsPaused w row.thread body status a = false ->
      ((((s.ended o status r).settle o a).tick.statusOf o.threadId =
            some .paused ∧
          ((s.ended o status r).settle o a).started = w.started) <->
        restsPaused w row.thread body status a = true) := by
    intro hne hrests
    rw [hrests]
    exact ⟨fun hpaused => absurd hpaused.left (settle_not_paused hsaved hne a), nofun⟩
  unfold restsPaused at hdiffers ⊢
  cases hl : body.any (fun x => x.1.isLoss) with
  | true =>
      rw [hl] at hdiffers hloss
      rw [Bool.not_true, Bool.and_false, Bool.false_and] at hdiffers ⊢
      exact hdiffers (endedStatus_of_loss hstops hloss status ▸ nofun) rfl
  | false =>
      rw [hl] at hdiffers hloss
      cases hm : body.any (fun x => x.1.isLimit) with
      | true =>
          rw [hm] at hdiffers hlimit
          rw [Bool.not_true, Bool.false_and, Bool.false_and] at hdiffers ⊢
          exact hdiffers (endedStatus_of_limit hstops hloss hlimit status ▸ nofun) rfl
      | false =>
          rw [hm] at hdiffers hlimit
          have hclear : Untroubled w o s := ⟨h.quiet hm hl, hstops, hlimit, hloss⟩
          have hstatus := hclear.endedStatus status
          rw [Bool.not_false, Bool.true_and, Bool.true_and] at hdiffers ⊢
          cases status with
          | failed => exact hdiffers (hstatus ▸ nofun) rfl
          | interrupted => exact hclear.settle_interrupted hrow hsaved a
          | completed =>
              unfold endsPaused at hdiffers ⊢
              dsimp only at hdiffers ⊢
              rw [← happroval] at hdiffers ⊢
              cases hneeded : s.sawApprovalNeeded with
              | false =>
                  rw [hneeded] at hdiffers hstatus
                  rw [Bool.false_and, Bool.false_and] at hdiffers ⊢
                  exact hdiffers (hstatus ▸ nofun) rfl
              | true =>
                  rw [Bool.true_and, Bool.and_assoc]
                  exact hclear.settle_completed hneeded hrow hsaved a

end Unheeded

section Result

variable {percent : Type} [Percentage percent]

/-- The events before the end of the session, without the texts. -/
def bodyOf (events : List (StreamEvent percent × Reply)) (closing : Reply) :
    List (Event percent × Reply) :=
  (untilEnd (budgetEvents events) closing).1

def statusAtEnd (events : List (StreamEvent percent × Reply)) (closing : Reply) :
    SessionStatus :=
  (untilEnd (budgetEvents events) closing).2.1

def replyAtEnd (events : List (StreamEvent percent × Reply)) (closing : Reply) : Reply :=
  (untilEnd (budgetEvents events) closing).2.2

/-- The rows of the turn are closed, its messages are those of its events, and nothing
is held for it. -/
structure TurnClosed (h : TurnHoldings) (o : Opening percent)
    (events : List (StreamEvent percent × Reply)) (after : SettledTurn) : Prop where
  finished : after.record.ended = true
  runs : forall r, r ∈ after.runs -> r.runRef = h.turnId -> r.ended = true
  thread : after.world.tick.statusOf o.threadId ≠ some .running
  streaming : forall row, row ∈ after.rows -> row.streaming ≠ some true
  messages : after.rows.map AssistantRow.content = messagesOf none events
  session : after.active o.threadId = false
  permit : after.permitHeld = false
  approvals : forall x, x ∈ after.approvals -> x.sessionId ≠ some h.turnId
  locks : forall node, h.nodeId = some node -> forall l, l ∈ after.locks -> l.nodeId ≠ node

/-- A budget that has to stop the thread pauses it, and nothing is started. -/
def BudgetKept (w : TurnWorld) (o : Opening percent) (body : List (Event percent × Reply))
    (after : SettledTurn) : Prop :=
  mustStop o body = true ->
    after.world.tick.statusOf o.threadId = some .paused ∧
      after.world.started = w.started

structure TurnSettled (h : TurnHoldings) (w : TurnWorld) (o : Opening percent)
    (events : List (StreamEvent percent × Reply)) (closing : Reply) (after : SettledTurn) :
    Prop where
  closed : TurnClosed h o events after
  budget : BudgetKept w o (bodyOf events closing) after

variable {h : TurnHoldings} {w : TurnWorld} {o : Opening percent}
  {events : List (StreamEvent percent × Reply)} {closing : Reply}

theorem consumeAgentThreadTurn_world (a : TailReplies) :
    (consumeAgentThreadTurn h w o events closing a).world =
      Budget.consumeAgentThreadTurn w o (budgetEvents events) closing a := by
  unfold consumeAgentThreadTurn Budget.consumeAgentThreadTurn
  dsimp only
  rw [consume_turn]

theorem turn_closed (hsaved : (replyAtEnd events closing).threadSaved = true) (a : TailReplies) :
    TurnClosed h o events (consumeAgentThreadTurn h w o events closing a) := by
  have hended := consume_ended h.turnId o events closing
    { turn := TurnState.opened w o
      transcript := Transcript.empty
      record := h.record
      runs := h.runs }
  have hmessages : (consumeAgentThreadTurn h w o events closing a).rows.map
      AssistantRow.content = messagesOf none events :=
    consume_rows h.turnId o events closing
      { turn := TurnState.opened w o
        transcript := Transcript.empty
        record := h.record
        runs := h.runs }
      (.closed [] 0 false (fun _ hr => absurd hr List.not_mem_nil))
  refine
    { finished := hended.left
      runs := hended.right
      thread := ?_
      streaming := ?_
      messages := hmessages
      session := Function.update_self _ _ _
      permit := rfl
      approvals := ?_
      locks := ?_ }
  · rw [consumeAgentThreadTurn_world]
    rcases consumed_handled w o (budgetEvents events) closing with ⟨s, _, hend⟩
    apply Budget.settle_statusOf_ne unswitched_running
    rw [hend.status]
    unfold replyAtEnd at hsaved
    rw [hsaved, if_pos rfl]
    intro hrunning
    rcases Option.map_eq_some_iff.mp hrunning with ⟨_, _, heq⟩
    exact endedStatus_ne_running o s _ heq
  · intro row hrow
    have hmem : row.content ∈ messagesOf none events := by
      rw [← hmessages]
      exact List.mem_map_of_mem hrow
    exact messagesOf_not_streaming none events _ hmem
  · intro x hx heq
    have hkept := (List.mem_filter.mp hx).right
    rw [heq] at hkept
    exact absurd hkept (by simp)
  · intro node hnode l hl heq
    unfold consumeAgentThreadTurn at hl
    dsimp only at hl
    rw [hnode] at hl
    exact absurd (beq_iff_eq.mpr heq) (Bool.eq_false_iff.mp (Table.mem_deleteWhere.mp hl).right)

theorem find?_of_ids {rows rows' : List Scheduler.ThreadRow} {id : String}
    {row : Scheduler.ThreadRow}
    (hids : rows'.map Scheduler.ThreadRow.id = rows.map Scheduler.ThreadRow.id)
    (hrow : rows.find? (fun x => x.id == id) = some row) :
    exists row', rows'.find? (fun x => x.id == id) = some row' := by
  have hmem : row.id ∈ rows'.map Scheduler.ThreadRow.id := by
    rw [hids]
    exact List.mem_map_of_mem (List.mem_of_find?_eq_some hrow)
  rcases List.mem_map.mp hmem with ⟨row', hrow', hid⟩
  apply Option.isSome_iff_exists.mp
  rw [List.find?_isSome]
  refine ⟨row', hrow', ?_⟩
  have hfound := List.find?_some hrow
  rw [← hid] at hfound
  exact hfound

theorem settle_stopped {s : TurnState percent} {row : Scheduler.ThreadRow}
    {body : List (Event percent × Reply)}
    (hs : Budget.Handled o (TurnState.opened w o) s body) (hstops : s.budgetStops o = true)
    (hrow : w.tick.threads.find? (fun x => x.id == o.threadId) = some row)
    (status : SessionStatus) {r : Reply} (hsaved : r.threadSaved = true) (a : TailReplies) :
    ((s.ended o status r).settle o a).tick.statusOf o.threadId = some .paused ∧
      ((s.ended o status r).settle o a).started = w.started := by
  have hend := ended_spec o s status r
  have hstill : (s.ended o status r).budgetStops o = true := by
    rcases hend.flags with ⟨world, completedOk, heq⟩
    rw [heq]
    exact hstops
  have hpaused : s.endedStatus o status = .paused := by
    unfold TurnState.endedStatus
    rw [hstops, if_pos rfl]
  rcases find?_of_ids hs.ids hrow with ⟨row', hrow'⟩
  have hsettle : (s.ended o status r).settle o a = (s.ended o status r).requeue o a := by
    unfold TurnState.settle
    rw [hstill]
    rfl
  rcases requeue_spec o (s.ended o status r) a with ⟨htick, hstarted⟩
  rw [hsettle, htick, hstarted]
  refine ⟨?_, hend.started.trans hs.started⟩
  rw [hend.status, hsaved, if_pos rfl, hpaused]
  unfold Scheduler.TickWorld.statusOf
  rw [hrow']
  rfl

/-- Where the row of the thread is saved at the end, the turn settles exactly if its
budget does not have to stop it, or the consumer heeds the budget, or the turn rests
paused without it. -/
theorem turn_settled_iff {row : Scheduler.ThreadRow} (a : TailReplies)
    (hrow : w.tick.threads.find? (fun x => x.id == o.threadId) = some row)
    (htotal : o.usageTotal.getD 0 < 2 ^ 64)
    (hsaved : (replyAtEnd events closing).threadSaved = true) :
    TurnSettled h w o events closing (consumeAgentThreadTurn h w o events closing a) <->
      (mustStop o (bodyOf events closing) = false ∨
        heeds o (bodyOf events closing) = true ∨
        restsPaused w row.thread (bodyOf events closing) (statusAtEnd events closing) a =
          true) := by
  have hs := foldl_handled o (TurnState.opened w o)
    (Budget.untilEnd_open (budgetEvents events) closing)
  have hworld : (consumeAgentThreadTurn h w o events closing a).world =
      (((untilEnd (budgetEvents events) closing).1.foldl
          (fun s x => TurnState.handle o s x.2 x.1) (TurnState.opened w o)).ended o
        (statusAtEnd events closing) (replyAtEnd events closing)).settle o a := by
    rw [consumeAgentThreadTurn_world]
    unfold Budget.consumeAgentThreadTurn
    rw [consume_eq]
    rfl
  have hstops := budgetStops_of_handled htotal hs
  have hsettled : TurnSettled h w o events closing
      (consumeAgentThreadTurn h w o events closing a) <->
        BudgetKept w o (bodyOf events closing)
          (consumeAgentThreadTurn h w o events closing a) :=
    ⟨TurnSettled.budget, fun hkept => ⟨turn_closed hsaved a, hkept⟩⟩
  rw [hsettled]
  unfold BudgetKept
  rw [hworld]
  have hbody : (untilEnd (budgetEvents events) closing).1 = bodyOf events closing := rfl
  rw [hbody] at hs hstops ⊢
  cases hmust : mustStop o (bodyOf events closing) with
  | false => exact ⟨fun _ => Or.inl rfl, fun _ => nofun⟩
  | true =>
      rw [hmust, Bool.true_and] at hstops
      rw [imp_iff_right rfl]
      cases hheeds : heeds o (bodyOf events closing) with
      | true =>
          rw [hheeds] at hstops
          exact ⟨fun _ => Or.inr (Or.inl rfl), fun _ => settle_stopped hs hstops hrow _ hsaved a⟩
      | false =>
          rw [hheeds] at hstops
          rw [settle_unheeded hs hstops hrow _ hsaved a]
          exact ⟨fun hrests => Or.inr (Or.inr hrests),
            fun hcases => (hcases.resolve_left nofun).resolve_left nofun⟩

end Result

def tokenOpening (threadRead : Bool) : Opening ℚ :=
  { Budget.weeklyOpening with
    taskBudget := .tokens 100
    threadRead := threadRead }

def oneTurn : TurnHoldings :=
  { turnId := "u1"
    nodeId := none
    record :=
      { agentSessionId := none
        state := .running
        ended := false }
    runs := []
    approvals := [{ id := "p1", sessionId := some "u1" }]
    active := fun id => id == "t1"
    locks := [] }

/-- A text in pieces, a report over the limit, and the end. -/
def piecesThenReport : List (StreamEvent ℚ × Reply) :=
  [(.delta "He", answered),
    (.delta "llo", answered),
    (.tick true, answered),
    (.event (.tokenUsage 80 40),
      { answered with recorded := some 120 }),
    (.event (.sessionEnded .completed), answered)]

theorem turn_settled_iff_piecesThenReport :
    TurnSettled oneTurn Budget.runningWorld (tokenOpening true) piecesThenReport
      answered
      (consumeAgentThreadTurn oneTurn Budget.runningWorld (tokenOpening true)
        piecesThenReport answered Budget.tailReplies) := by
  have hiff := @turn_settled_iff ℚ _ oneTurn Budget.runningWorld (tokenOpening true)
    piecesThenReport answered (Scheduler.sampleThread TaskStatus.running)
    Budget.tailReplies rfl (by decide) rfl
  exact hiff.mpr (Or.inr (Or.inl (by decide +kernel)))

/-- The thread was not read, and the turn that spent its budget is up for review. -/
theorem unread_budget_is_not_kept :
    mustStop (tokenOpening false) (bodyOf piecesThenReport answered) = true ∧
      (consumeAgentThreadTurn oneTurn Budget.runningWorld (tokenOpening false)
          piecesThenReport answered Budget.tailReplies).world.tick.statusOf "t1" =
        some TaskStatus.review ∧
      ¬ TurnSettled oneTurn Budget.runningWorld (tokenOpening false) piecesThenReport
        answered
        (consumeAgentThreadTurn oneTurn Budget.runningWorld (tokenOpening false)
          piecesThenReport answered Budget.tailReplies) := by
  have hmust : mustStop (tokenOpening false) (bodyOf piecesThenReport answered) =
      true := by decide +kernel
  have hreview : (consumeAgentThreadTurn oneTurn Budget.runningWorld (tokenOpening false)
      piecesThenReport answered Budget.tailReplies).world.tick.statusOf "t1" =
        some TaskStatus.review := by decide +kernel
  refine ⟨hmust, hreview, ?_⟩
  intro hsettled
  have hpaused := (hsettled.budget hmust).left
  have hthread : (tokenOpening false).threadId = "t1" := rfl
  rw [hthread, hreview] at hpaused
  cases hpaused

end Thread
end Perpetual
