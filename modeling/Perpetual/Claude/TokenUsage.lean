import Perpetual.Budget.Enforcement
import Perpetual.Codex.AppServer
import Perpetual.Foundation.Text

/-!
# Token usage of a Claude run

The messages of a run report the tokens they used, several times for one message, and
the result at the end reports the tokens of the whole run.  The driver sends on the first
report of every message, and of the result what the messages did not report.
-/

namespace Perpetual
namespace Claude

open Foundation
open Budget (saturating)
open Codex (get asStr asU64)

inductive NormalizedEvent where
  | sessionStarted (sessionId : String)
  | tokenUsage (input output : Nat)
  | assistantText (text : String)
  | assistantTextDelta (delta : String)
  | toolUse (callId : Option String) (name : String) (input : Json)
  | toolResult (callId : Option String) (ok : Bool) (summary : String)
  | awaitingApproval (detail : String)
  | usageLimitReached (resetAt : Option Nat)
  | networkUnavailable (message : String)
  | error (message : String) (retryable : Bool)

/-- What the texts of errors are searched for, and how a value is written. -/
structure Readers where
  detectUsageLimit : String -> Option (Option Nat)
  detectNetworkError : String -> Option String
  toText : Json -> String

/-!
## Lines of the stream
-/

def asBool : Json -> Option Bool
  | .bool b => some b
  | _ => none

def asArray : Json -> Option (List Json)
  | .array items => some items
  | _ => none

def textAt (value : Json) (key : String) : Option String :=
  (get value key).bind asStr

def typeOf (value : Json) : Option String :=
  textAt value "type"

def pointer (value : Json) (first second : String) : Option Json :=
  (get value first).bind (fun inner => get inner second)

structure UsageFields where
  input : Nat
  cachedInput : Nat
  cacheCreation : Nat
  output : Nat

def usageFields (usage : Json) : UsageFields :=
  { input := ((get usage "input_tokens").bind asU64).getD 0
    cachedInput :=
      (((get usage "cache_read_input_tokens").or (get usage "cached_input_tokens")).bind
        asU64).getD 0
    cacheCreation :=
      (((get usage "cache_creation_input_tokens").or
        (get usage "cached_creation_input_tokens")).bind asU64).getD 0
    output := ((get usage "output_tokens").bind asU64).getD 0 }

def UsageFields.total (f : UsageFields) : Nat :=
  f.input + f.cachedInput + f.cacheCreation + f.output

/-- The sum of the four fields is computed in 64 bits. -/
def tokenUsageEvent (usage : Json) : Option NormalizedEvent :=
  let f := usageFields usage
  if 0 < f.total % 2 ^ 64 then
    some (.tokenUsage
      (saturating (saturating (f.input + f.cachedInput) + f.cacheCreation)) f.output)
  else none

def usageMessageId (value : Json) : Option String :=
  (((pointer value "message" "id").or (pointer value "message" "message_id")).or
    (get value "message_id")).bind asStr

def truncate (s : String) (max : Nat) : String :=
  if s.toList.length ≤ max then s else String.ofList (s.toList.take max ++ ['…'])

def isBlank (s : String) : Bool :=
  (Text.trim s).isEmpty

def stringifyToolContent (readers : Readers) (content : Option Json) : String :=
  let s :=
    match content with
    | some (.string text) => String.ofList text
    | some (.array items) =>
        String.intercalate "\n" (items.filterMap (fun item => textAt item "text"))
    | some other => readers.toText other
    | none => ""
  truncate s 800

def permissionDenialsDetail (value : Option Json) : Option String :=
  match value.bind asArray with
  | none => none
  | some [] => none
  | some entries =>
      let names := entries.foldl (fun names entry =>
        let name := (textAt entry "tool_name").getD "a tool"
        if name ∈ names then names else names ++ [name]) []
      some (toString entries.length ++ " action" ++
        (if entries.length = 1 then "" else "s") ++
        " blocked by the current permission level: " ++ String.intercalate ", " names)

def systemEvents (value : Json) : List NormalizedEvent :=
  if textAt value "subtype" = some "init" then
    ((textAt value "session_id").map .sessionStarted).toList
  else []

def contentEvent (block : Json) : Option NormalizedEvent :=
  if typeOf block = some "text" then
    ((textAt block "text").filter (fun text => !isBlank text)).map
      .assistantText
  else if typeOf block = some "tool_use" then
    some (.toolUse (textAt block "id") ((textAt block "name").getD "tool")
      ((get block "input").getD .null))
  else none

def assistantEvents (value : Json) : List NormalizedEvent :=
  (((pointer value "message" "usage").or (get value "usage")).bind tokenUsageEvent).toList ++
    (((pointer value "message" "content").bind asArray).getD []).filterMap contentEvent

def streamEvents (value : Json) : List NormalizedEvent :=
  let event := (get value "event").getD value
  if typeOf event = some "content_block_delta" ∧
      (pointer event "delta" "type").bind asStr = some "text_delta" then
    ((((pointer event "delta" "text").bind asStr).filter (fun delta => !delta.isEmpty)).map
      .assistantTextDelta).toList
  else []

def toolResultEvent (readers : Readers) (block : Json) : Option NormalizedEvent :=
  if typeOf block = some "tool_result" then
    some (.toolResult (textAt block "tool_use_id")
      (!((get block "is_error").bind asBool).getD false)
      (stringifyToolContent readers (get block "content")))
  else none

def userEvents (readers : Readers) (value : Json) : List NormalizedEvent :=
  (((pointer value "message" "content").bind asArray).getD []).filterMap
    (toolResultEvent readers)

def errorEvent (readers : Readers) (text : String) : Option NormalizedEvent :=
  match readers.detectUsageLimit text with
  | some resetAt => some (.usageLimitReached resetAt)
  | none =>
      match readers.detectNetworkError text with
      | some message => some (.networkUnavailable message)
      | none =>
          if isBlank text then none else some (.error (truncate text 2000) false)

def resultEvents (readers : Readers) (value : Json) : List NormalizedEvent :=
  ((get value "usage").bind tokenUsageEvent).toList ++
    ((permissionDenialsDetail (get value "permission_denials")).map
      .awaitingApproval).toList ++
    (if ((get value "is_error").bind asBool).getD false then
      (errorEvent readers ((textAt value "result").getD "")).toList
    else [])

/-- The session's end is not among the events: it is sent by the driver. -/
def parseLine (readers : Readers) (value : Json) : List NormalizedEvent :=
  if typeOf value = some "system" then systemEvents value
  else if typeOf value = some "assistant" then assistantEvents value
  else if typeOf value = some "stream_event" then streamEvents value
  else if typeOf value = some "user" then userEvents readers value
  else if typeOf value = some "result" then resultEvents readers value
  else []

structure MessageUsageTotals where
  input : Nat
  output : Nat

namespace MessageUsageTotals

def recordMessage (t : MessageUsageTotals) (input output : Nat) : MessageUsageTotals :=
  { input := saturating (t.input + input)
    output := saturating (t.output + output) }

def resultDelta (t : MessageUsageTotals) (input output : Nat) : Nat × Nat :=
  (input - t.input, output - t.output)

end MessageUsageTotals

structure Driver where
  seenUsageMessageIds : List String
  usageTotals : MessageUsageTotals
  sent : List NormalizedEvent

namespace Driver

def start : Driver :=
  { seenUsageMessageIds := []
    usageTotals :=
      { input := 0
        output := 0 }
    sent := [] }

def send (d : Driver) (event : NormalizedEvent) : Driver :=
  { d with sent := d.sent ++ [event] }

def handle (isResult : Bool) (messageId : Option String) (d : Driver) :
    NormalizedEvent -> Driver
  | .tokenUsage input output =>
      if isResult then
        let delta := d.usageTotals.resultDelta input output
        if delta.1 = 0 ∧ delta.2 = 0 then d
        else d.send (.tokenUsage delta.1 delta.2)
      else if messageId.any (fun id => decide (id ∈ d.seenUsageMessageIds)) then d
      else
        { seenUsageMessageIds := messageId.toList ++ d.seenUsageMessageIds
          usageTotals := d.usageTotals.recordMessage input output
          sent := d.sent ++ [.tokenUsage input output] }
  | other => d.send other

def isResult (value : Json) : Bool :=
  decide (typeOf value = some "result")

/-- A line that is blank or no JSON is passed over, and so is a request for control,
which is answered elsewhere. -/
def readLine (readers : Readers) (d : Driver) : Option Json -> Driver
  | none => d
  | some value =>
      if typeOf value = some "control_request" then d
      else (parseLine readers value).foldl (handle (isResult value) (usageMessageId value)) d

def run (readers : Readers) (lines : List (Option Json)) : Driver :=
  lines.foldl (readLine readers) start

end Driver

/-!
## What was reported
-/

abbrev Tokens : Type := Nat × Nat

structure Report where
  messageId : Option String
  tokens : Tokens
deriving DecidableEq

def UsageFields.tokens (f : UsageFields) : Tokens :=
  (f.input + f.cachedInput + f.cacheCreation, f.output)

def usageOf (value : Json) : Option Json :=
  if typeOf value = some "assistant" then
    (pointer value "message" "usage").or (get value "usage")
  else if typeOf value = some "result" then get value "usage"
  else none

def reportOf (value : Json) : Option Report :=
  if typeOf value = some "assistant" then
    (usageOf value).map (fun usage =>
      { messageId := usageMessageId value
        tokens := (usageFields usage).tokens })
  else none

def reports (values : List Json) : List Report :=
  values.filterMap reportOf

def firstReport (reports : List Report) (id : String) : Tokens :=
  ((reports.find? (fun r => decide (r.messageId = some id))).map Report.tokens).getD 0

/-- The first reports of the messages with an id, and all reports without one. -/
def messageTotal (reports : List Report) : Tokens :=
  ((reports.filter (fun r => r.messageId.isNone)).map Report.tokens).sum +
    (reports.filterMap Report.messageId).toFinset.sum (firstReport reports)

def resultTokens (value : Json) : Tokens :=
  ((usageOf value).map (fun usage => (usageFields usage).tokens)).getD 0

def resultUsage (values : List Json) : Tokens :=
  ((values.find? Driver.isResult).map resultTokens).getD 0

def tokensOf : NormalizedEvent -> Tokens
  | .tokenUsage input output => (input, output)
  | _ => 0

def usageSum (events : List NormalizedEvent) : Tokens :=
  (events.map tokensOf).sum

/-- After a result there is no further result and no report of a message. -/
def ResultLast (values : List Json) : Prop :=
  values.Pairwise (fun v x =>
    Driver.isResult v = true -> Driver.isResult x = false ∧ reportOf x = none)

instance (values : List Json) : Decidable (ResultLast values) := by
  unfold ResultLast
  infer_instance

def counted (values : List Json) : List Report :=
  (reports values).filter (fun r => decide (r.tokens ≠ 0))

/-- The sums over a usage and over the messages have 64 bits. -/
def Fits (values : List Json) : Prop :=
  (forall v, v ∈ values ->
    (usageOf v).all (fun usage => decide ((usageFields usage).total < 2 ^ 64)) = true) ∧
  (messageTotal (counted values)).1 < 2 ^ 64 ∧
  (messageTotal (counted values)).2 < 2 ^ 64

instance (values : List Json) : Decidable (Fits values) := by
  unfold Fits
  infer_instance

theorem firstReport_concat_of_mem {reports : List Report} {id : String}
    (h : id ∈ reports.filterMap Report.messageId) (r : Report) :
    firstReport (reports ++ [r]) id = firstReport reports id := by
  rcases List.mem_filterMap.mp h with ⟨x, hx, hid⟩
  have hsome : (reports.find? (fun r => decide (r.messageId = some id))).isSome = true :=
    List.find?_isSome.mpr ⟨x, hx, decide_eq_true hid⟩
  unfold firstReport
  rw [List.find?_append, Option.or_of_isSome hsome]

theorem firstReport_concat_new {reports : List Report} {r : Report} {id : String}
    (h : id ∉ reports.filterMap Report.messageId) (hid : r.messageId = some id) :
    firstReport (reports ++ [r]) id = r.tokens := by
  have hnone : reports.find? (fun r => decide (r.messageId = some id)) = none := by
    rw [List.find?_eq_none]
    intro x hx hx'
    exact h (List.mem_filterMap.mpr ⟨x, hx, of_decide_eq_true hx'⟩)
  have hlast : [r].find? (fun r => decide (r.messageId = some id)) = some r :=
    List.find?_cons_of_pos (decide_eq_true hid)
  unfold firstReport
  rw [List.find?_append, hnone, Option.none_or, hlast]
  rfl

/-- A report counts unless it is a further one of its message. -/
def countsAfter (reports : List Report) (r : Report) : Bool :=
  !r.messageId.any (fun id => decide (id ∈ reports.filterMap Report.messageId))

theorem messageTotal_concat (reports : List Report) (r : Report) :
    messageTotal (reports ++ [r]) =
      messageTotal reports + if countsAfter reports r then r.tokens else 0 := by
  have hold : (reports.filterMap Report.messageId).toFinset.sum
      (firstReport (reports ++ [r])) =
      (reports.filterMap Report.messageId).toFinset.sum (firstReport reports) :=
    Finset.sum_congr rfl (fun id hid =>
      firstReport_concat_of_mem (List.mem_toFinset.mp hid) r)
  unfold messageTotal countsAfter
  cases hid : r.messageId with
  | none =>
      have hkept : [r].filter (fun r => r.messageId.isNone) = [r] :=
        List.filter_cons_of_pos (by rw [hid]; rfl)
      rw [List.filterMap_append, List.filterMap_cons_none hid, List.filterMap_nil,
        List.append_nil, hold, List.filter_append, hkept, List.map_append, List.sum_append,
        List.map_singleton, List.sum_singleton]
      exact add_right_comm _ _ _
  | some id =>
      have hnone : [r].filter (fun r => r.messageId.isNone) = [] :=
        List.filter_cons_of_neg (by rw [hid]; exact Bool.false_ne_true)
      rw [List.filter_append, hnone, List.append_nil, List.filterMap_append,
        List.filterMap_cons_some hid, List.filterMap_nil, List.toFinset_append]
      by_cases hmem : id ∈ reports.filterMap Report.messageId
      · have hunion : (reports.filterMap Report.messageId).toFinset ∪ [id].toFinset =
            (reports.filterMap Report.messageId).toFinset :=
          Finset.union_eq_left.mpr (by simpa using hmem)
        rw [hunion, hold, Option.any_some, decide_eq_true hmem, Bool.not_true,
          if_neg Bool.false_ne_true, add_zero]
      · have hunion : (reports.filterMap Report.messageId).toFinset ∪ [id].toFinset =
            insert id (reports.filterMap Report.messageId).toFinset := by
          rw [Finset.union_comm]
          rfl
        have hfresh : id ∉ (reports.filterMap Report.messageId).toFinset :=
          fun h => hmem (List.mem_toFinset.mp h)
        rw [hunion, Finset.sum_insert hfresh, hold, firstReport_concat_new hmem hid,
          Option.any_some, decide_eq_false hmem, Bool.not_false, if_pos rfl, add_assoc,
          add_comm r.tokens]

theorem messageTotal_le_concat (reports : List Report) (r : Report) :
    messageTotal reports ≤ messageTotal (reports ++ [r]) := by
  rw [messageTotal_concat]
  exact le_self_add

/-!
## What the driver makes of a line
-/

def NormalizedEvent.isUsage : NormalizedEvent -> Bool
  | .tokenUsage _ _ => true
  | _ => false

theorem contentEvent_other (block : Json) :
    forall e, contentEvent block = some e -> e.isUsage = false := by
  intro e he
  unfold contentEvent at he
  split at he
  · rcases Option.map_eq_some_iff.mp he with ⟨_, _, heq⟩
    rw [← heq]
    rfl
  · split at he
    · cases he
      rfl
    · cases he

theorem toolResultEvent_other (readers : Readers) (block : Json) :
    forall e, toolResultEvent readers block = some e -> e.isUsage = false := by
  intro e he
  unfold toolResultEvent at he
  split at he
  · cases he
    rfl
  · cases he

theorem errorEvent_other (readers : Readers) (text : String) :
    forall e, errorEvent readers text = some e -> e.isUsage = false := by
  intro e he
  unfold errorEvent at he
  split at he
  · cases he
    rfl
  · split at he
    · cases he
      rfl
    · split at he
      · cases he
      · cases he
        rfl

theorem map_toList_other {α : Type} {f : α -> NormalizedEvent}
    (hf : forall x, (f x).isUsage = false) (value : Option α) :
    forall e, e ∈ (value.map f).toList -> e.isUsage = false := by
  intro e he
  rcases Option.map_eq_some_iff.mp (Option.mem_toList.mp he) with ⟨x, _, heq⟩
  rw [← heq]
  exact hf x

theorem systemEvents_other (value : Json) :
    forall e, e ∈ systemEvents value -> e.isUsage = false := by
  intro e he
  unfold systemEvents at he
  split at he
  · exact map_toList_other (fun _ => rfl) _ e he
  · exact absurd he List.not_mem_nil

theorem streamEvents_other (value : Json) :
    forall e, e ∈ streamEvents value -> e.isUsage = false := by
  intro e he
  unfold streamEvents at he
  dsimp only at he
  split at he
  · exact map_toList_other (fun _ => rfl) _ e he
  · exact absurd he List.not_mem_nil

theorem userEvents_other (readers : Readers) (value : Json) :
    forall e, e ∈ userEvents readers value -> e.isUsage = false := by
  intro e he
  rcases List.mem_filterMap.mp he with ⟨block, _, hblock⟩
  exact toolResultEvent_other readers block e hblock

theorem parseLine_eq (readers : Readers) (value : Json) :
    exists others, parseLine readers value =
        ((usageOf value).bind tokenUsageEvent).toList ++ others ∧
      forall e, e ∈ others -> e.isUsage = false := by
  by_cases hassistant : typeOf value = some "assistant"
  · unfold parseLine usageOf
    rw [hassistant, if_neg (by decide), if_pos rfl, if_pos rfl]
    refine ⟨_, rfl, ?_⟩
    intro e he
    rcases List.mem_filterMap.mp he with ⟨block, _, hblock⟩
    exact contentEvent_other block e hblock
  · by_cases hresult : typeOf value = some "result"
    · unfold parseLine usageOf
      rw [hresult, if_neg (by decide), if_neg (by decide), if_neg (by decide),
        if_neg (by decide), if_pos rfl, if_neg (by decide), if_pos rfl]
      refine ⟨_, List.append_assoc .., ?_⟩
      intro e he
      rcases List.mem_append.mp he with hdenied | herror
      · exact map_toList_other (fun _ => rfl) _ e hdenied
      · split at herror
        · exact errorEvent_other readers _ e (Option.mem_toList.mp herror)
        · exact absurd herror List.not_mem_nil
    · have hnone : usageOf value = none := by
        unfold usageOf
        rw [if_neg hassistant, if_neg hresult]
      rw [hnone]
      refine ⟨parseLine readers value, rfl, ?_⟩
      intro e he
      unfold parseLine at he
      rw [if_neg hassistant, if_neg hresult] at he
      split at he
      · exact systemEvents_other value e he
      · split at he
        · exact streamEvents_other value e he
        · split at he
          · exact userEvents_other readers value e he
          · exact absurd he List.not_mem_nil

/-- The drivers agree on what was seen and on the sums. -/
structure SameAccount (d d' : Driver) : Prop where
  seen : d'.seenUsageMessageIds = d.seenUsageMessageIds
  totals : d'.usageTotals = d.usageTotals
  sum : usageSum d'.sent = usageSum d.sent

theorem usageSum_concat (events : List NormalizedEvent) (e : NormalizedEvent) :
    usageSum (events ++ [e]) = usageSum events + tokensOf e := by
  unfold usageSum
  rw [List.map_append, List.sum_append, List.map_singleton, List.sum_singleton]

theorem foldl_handle_others (isResult : Bool) (messageId : Option String)
    (others : List NormalizedEvent) (hothers : forall e, e ∈ others -> e.isUsage = false)
    (d : Driver) : SameAccount d (others.foldl (Driver.handle isResult messageId) d) := by
  induction others generalizing d with
  | nil => exact { seen := rfl, totals := rfl, sum := rfl }
  | cons e rest ih =>
      have hother := hothers e List.mem_cons_self
      have hsend : Driver.handle isResult messageId d e = d.send e := by
        cases e with
        | tokenUsage input output => cases hother
        | _ => rfl
      have hzero : tokensOf e = 0 := by
        cases e with
        | tokenUsage input output => cases hother
        | _ => rfl
      have hrest := ih (fun x hx => hothers x (List.mem_cons_of_mem _ hx)) (d.send e)
      have hsum : usageSum (d.send e).sent = usageSum d.sent := by
        unfold Driver.send
        rw [usageSum_concat, hzero, add_zero]
      rw [List.foldl_cons, hsend]
      exact
        { seen := hrest.seen
          totals := hrest.totals
          sum := hrest.sum.trans hsum }

theorem readLine_account (readers : Readers) (d : Driver) (value : Json) :
    SameAccount
      (((usageOf value).bind tokenUsageEvent).elim d
        (Driver.handle (Driver.isResult value) (usageMessageId value) d))
      (Driver.readLine readers d (some value)) := by
  unfold Driver.readLine
  dsimp only
  by_cases hcontrol : typeOf value = some "control_request"
  · have hnone : usageOf value = none := by
      unfold usageOf
      rw [hcontrol, if_neg (by decide), if_neg (by decide)]
    rw [if_pos hcontrol, hnone]
    exact { seen := rfl, totals := rfl, sum := rfl }
  · rcases parseLine_eq readers value with ⟨others, heq, hothers⟩
    rw [if_neg hcontrol, heq, List.foldl_append]
    cases (usageOf value).bind tokenUsageEvent with
    | none => exact foldl_handle_others _ _ others hothers d
    | some e => exact foldl_handle_others _ _ others hothers _

/-!
## The sum that is sent
-/

/-- What was seen and sent is what the reports come to. -/
structure Accounted (reports : List Report) (d : Driver) : Prop where
  seen : forall id, id ∈ d.seenUsageMessageIds <-> id ∈ reports.filterMap Report.messageId
  input : d.usageTotals.input = (messageTotal reports).1
  output : d.usageTotals.output = (messageTotal reports).2
  sum : usageSum d.sent = messageTotal reports

variable {d : Driver}

theorem Accounted.of_same {reports : List Report} {d' : Driver} (h : Accounted reports d)
    (hsame : SameAccount d d') : Accounted reports d' where
  seen := by
    rw [hsame.seen]
    exact h.seen
  input := by rw [hsame.totals, h.input]
  output := by rw [hsame.totals, h.output]
  sum := hsame.sum.trans h.sum

theorem saturating_of_lt {n : Nat} (h : n < 2 ^ 64) : saturating n = n := by
  unfold saturating
  omega

theorem tokenUsageEvent_eq {usage : Json} (h : (usageFields usage).total < 2 ^ 64) :
    tokenUsageEvent usage =
      if (usageFields usage).tokens = 0 then none
      else some (.tokenUsage (usageFields usage).tokens.1
        (usageFields usage).tokens.2) := by
  have hpositive : 0 < (usageFields usage).total <-> ¬ (usageFields usage).tokens = 0 := by
    unfold UsageFields.total UsageFields.tokens
    rw [Prod.mk_eq_zero]
    omega
  unfold tokenUsageEvent
  dsimp only
  rw [Nat.mod_eq_of_lt h]
  by_cases hzero : (usageFields usage).tokens = 0
  · rw [if_pos hzero, if_neg (fun hlt => hpositive.mp hlt hzero)]
  · have hfits : (usageFields usage).input + (usageFields usage).cachedInput +
        (usageFields usage).cacheCreation < 2 ^ 64 :=
      lt_of_le_of_lt (Nat.le_add_right _ _) h
    rw [if_neg hzero, if_pos (hpositive.mpr hzero),
      saturating_of_lt (lt_of_le_of_lt (Nat.le_add_right _ _) hfits), saturating_of_lt hfits]
    rfl

theorem Accounted.message {reports : List Report} (h : Accounted reports d)
    (r : Report) (hinput : (messageTotal (reports ++ [r])).1 < 2 ^ 64)
    (houtput : (messageTotal (reports ++ [r])).2 < 2 ^ 64) :
    Accounted (reports ++ [r])
      (Driver.handle false r.messageId d
        (.tokenUsage r.tokens.1 r.tokens.2)) := by
  have hids : (reports ++ [r]).filterMap Report.messageId =
      reports.filterMap Report.messageId ++ r.messageId.toList := by
    rw [List.filterMap_append]
    cases hid : r.messageId with
    | none => rw [List.filterMap_cons_none hid]; rfl
    | some id => rw [List.filterMap_cons_some hid]; rfl
  have hcounts : countsAfter reports r =
      !r.messageId.any (fun id => decide (id ∈ d.seenUsageMessageIds)) := by
    unfold countsAfter
    cases r.messageId with
    | none => rfl
    | some id => exact congrArg _ (decide_eq_decide.mpr (h.seen id).symm)
  have htotal := messageTotal_concat reports r
  unfold Driver.handle
  dsimp only
  rw [if_neg Bool.false_ne_true]
  cases hagain : r.messageId.any (fun id => decide (id ∈ d.seenUsageMessageIds)) with
  | true =>
      rw [hagain] at hcounts
      rw [hcounts, Bool.not_true, if_neg Bool.false_ne_true, add_zero] at htotal
      rw [if_pos rfl]
      rcases (Option.any_eq_true _ _).mp hagain with ⟨id, hid, hseen⟩
      constructor
      · intro x
        rw [hids, hid, h.seen]
        constructor
        · exact fun hx => List.mem_append_left _ hx
        · intro hx
          rcases List.mem_append.mp hx with hold | hnew
          · exact hold
          · rw [List.mem_singleton.mp hnew]
            exact (h.seen id).mp (of_decide_eq_true hseen)
      · rw [htotal, h.input]
      · rw [htotal, h.output]
      · rw [htotal, h.sum]
  | false =>
      rw [hagain] at hcounts
      rw [hcounts, Bool.not_false, if_pos rfl] at htotal
      rw [if_neg Bool.false_ne_true]
      rw [htotal] at hinput houtput
      constructor
      · intro x
        rw [hids, List.mem_append, List.mem_append, h.seen]
        exact Or.comm
      · rw [htotal]
        show saturating (d.usageTotals.input + r.tokens.1) = _
        rw [h.input]
        exact saturating_of_lt hinput
      · rw [htotal]
        show saturating (d.usageTotals.output + r.tokens.2) = _
        rw [h.output]
        exact saturating_of_lt houtput
      · rw [htotal, usageSum_concat, h.sum]
        rfl

def larger (s r : Tokens) : Tokens :=
  (max s.1 r.1, max s.2 r.2)

theorem larger_zero (s : Tokens) : larger s 0 = s :=
  Prod.ext (Nat.max_zero s.1) (Nat.max_zero s.2)

theorem Accounted.result {reports : List Report} (h : Accounted reports d)
    (messageId : Option String) (r : Tokens) :
    usageSum
        (Driver.handle true messageId d (.tokenUsage r.1 r.2)).sent =
      larger (messageTotal reports) r := by
  have hdelta : larger (messageTotal reports) r =
      messageTotal reports + d.usageTotals.resultDelta r.1 r.2 := by
    unfold MessageUsageTotals.resultDelta larger
    rw [h.input, h.output]
    apply Prod.ext
    · show max _ _ = _ + (_ - _)
      omega
    · show max _ _ = _ + (_ - _)
      omega
  unfold Driver.handle
  dsimp only
  rw [if_pos rfl, hdelta]
  split
  · rename_i hzero
    have hnone : d.usageTotals.resultDelta r.1 r.2 = 0 := Prod.ext hzero.left hzero.right
    rw [h.sum, hnone, add_zero]
  · unfold Driver.send
    rw [usageSum_concat, h.sum]
    rfl

theorem reports_concat (values : List Json) (v : Json) :
    reports (values ++ [v]) = reports values ++ (reportOf v).toList := by
  unfold reports
  rw [List.filterMap_append]
  cases h : reportOf v with
  | none => rw [List.filterMap_cons_none h]; rfl
  | some r => rw [List.filterMap_cons_some h]; rfl

variable {v : Json}

theorem counted_concat_none (h : reportOf v = none) (values : List Json) :
    counted (values ++ [v]) = counted values := by
  unfold counted
  rw [reports_concat, h, Option.toList_none, List.append_nil]

theorem counted_concat_some {r : Report} (h : reportOf v = some r) (values : List Json) :
    counted (values ++ [v]) = if r.tokens = 0 then counted values else counted values ++ [r] := by
  unfold counted
  rw [reports_concat, h, Option.toList_some, List.filter_append]
  by_cases hzero : r.tokens = 0
  · have hnone : [r].filter (fun r => decide (r.tokens ≠ 0)) = [] :=
      List.filter_cons_of_neg (by simpa using hzero)
    rw [if_pos hzero, hnone, List.append_nil]
  · have hkept : [r].filter (fun r => decide (r.tokens ≠ 0)) = [r] :=
      List.filter_cons_of_pos (decide_eq_true hzero)
    rw [if_neg hzero, hkept]

theorem counted_le_concat (values : List Json) (v : Json) :
    messageTotal (counted values) ≤ messageTotal (counted (values ++ [v])) := by
  cases h : reportOf v with
  | none => rw [counted_concat_none h]
  | some r =>
      rw [counted_concat_some h]
      split
      · exact le_refl _
      · exact messageTotal_le_concat _ _

variable {values : List Json}

theorem Fits.init (h : Fits (values ++ [v])) : Fits values := by
  rcases h with ⟨hfields, hinput, houtput⟩
  have hle := counted_le_concat values v
  exact ⟨fun x hx => hfields x (List.mem_append_left _ hx),
    lt_of_le_of_lt hle.left hinput, lt_of_le_of_lt hle.right houtput⟩

theorem Fits.last (h : Fits (values ++ [v])) {usage : Json}
    (husage : usageOf v = some usage) : (usageFields usage).total < 2 ^ 64 := by
  have hall := h.left v List.mem_append_cons_self
  rw [husage] at hall
  exact of_decide_eq_true hall

theorem usageOf_eq_none (hresult : Driver.isResult v = false)
    (hreport : reportOf v = none) : usageOf v = none := by
  have hnot : ¬ typeOf v = some "result" := of_decide_eq_false hresult
  by_cases hassistant : typeOf v = some "assistant"
  · unfold reportOf at hreport
    rw [if_pos hassistant] at hreport
    exact Option.map_eq_none_iff.mp hreport
  · unfold usageOf
    rw [if_neg hassistant, if_neg hnot]

theorem reportOf_result (hresult : Driver.isResult v = true) : reportOf v = none := by
  have htype : typeOf v = some "result" := of_decide_eq_true hresult
  unfold reportOf
  rw [htype, if_neg (by decide)]

theorem Accounted.line (h : Accounted (counted values) d) (hfits : Fits (values ++ [v]))
    (hresult : Driver.isResult v = false) (readers : Readers) :
    Accounted (counted (values ++ [v])) (Driver.readLine readers d (some v)) := by
  have hsame := readLine_account readers d v
  rw [hresult] at hsame
  refine Accounted.of_same ?_ hsame
  cases hreport : reportOf v with
  | none =>
      rw [usageOf_eq_none hresult hreport, counted_concat_none hreport]
      exact h
  | some r =>
      have hassistant : typeOf v = some "assistant" := by
        by_contra hnot
        unfold reportOf at hreport
        rw [if_neg hnot] at hreport
        cases hreport
      have hmap := hreport
      unfold reportOf at hmap
      rw [if_pos hassistant] at hmap
      rcases Option.map_eq_some_iff.mp hmap with ⟨usage, husage, heq⟩
      have hid : usageMessageId v = r.messageId := congrArg Report.messageId heq
      have htokens : (usageFields usage).tokens = r.tokens := congrArg Report.tokens heq
      have hevent := tokenUsageEvent_eq (hfits.last husage)
      rw [htokens] at hevent
      have hcounted := counted_concat_some hreport values
      rw [husage, Option.bind_some, hevent, hcounted, hid]
      by_cases hzero : r.tokens = 0
      · rw [if_pos hzero, if_pos hzero]
        exact h
      · rw [if_neg hzero] at hcounted
        rw [if_neg hzero, if_neg hzero]
        apply h.message r
        · rw [← hcounted]
          exact hfits.right.left
        · rw [← hcounted]
          exact hfits.right.right

theorem Accounted.resultLine (h : Accounted (counted values) d) (hfits : Fits (values ++ [v]))
    (hresult : Driver.isResult v = true) (readers : Readers) :
    usageSum (Driver.readLine readers d (some v)).sent =
      larger (messageTotal (counted values)) (resultTokens v) := by
  have hsame := readLine_account readers d v
  rw [hresult] at hsame
  rw [hsame.sum]
  unfold resultTokens
  cases husage : usageOf v with
  | none =>
      rw [Option.map_none, Option.getD_none, larger_zero]
      exact h.sum
  | some usage =>
      rw [Option.bind_some, tokenUsageEvent_eq (hfits.last husage), Option.map_some,
        Option.getD_some]
      by_cases hzero : (usageFields usage).tokens = 0
      · rw [if_pos hzero, hzero, larger_zero]
        exact h.sum
      · rw [if_neg hzero]
        exact h.result (usageMessageId v) (usageFields usage).tokens

theorem ResultLast.init (h : ResultLast (values ++ [v])) : ResultLast values :=
  (List.pairwise_append.mp h).left

theorem ResultLast.last (h : ResultLast (values ++ [v])) :
    forall x, x ∈ values -> Driver.isResult x = true ->
      Driver.isResult v = false ∧ reportOf v = none :=
  fun x hx => (List.pairwise_append.mp h).right.right x hx v List.mem_cons_self

theorem foldl_readLine_accounted (readers : Readers) (values : List Json)
    (hlast : ResultLast values) (hfits : Fits values) :
    ((forall v, v ∈ values -> Driver.isResult v = false) ->
      Accounted (counted values)
        (values.foldl (fun d v => Driver.readLine readers d (some v)) Driver.start)) ∧
    usageSum (values.foldl (fun d v => Driver.readLine readers d (some v)) Driver.start).sent =
      larger (messageTotal (counted values)) (resultUsage values) := by
  induction values using List.reverseRecOn with
  | nil =>
      refine ⟨fun _ => ?_, rfl⟩
      exact { seen := fun _ => Iff.rfl, input := rfl, output := rfl, sum := rfl }
  | append_singleton values v ih =>
      rcases ih hlast.init hfits.init with ⟨haccounted, hsum⟩
      rw [List.foldl_concat]
      have hfind : resultUsage (values ++ [v]) =
          (((values.find? Driver.isResult).or ([v].find? Driver.isResult)).map
            resultTokens).getD 0 := by
        unfold resultUsage
        rw [List.find?_append]
      by_cases hnone : forall x, x ∈ values -> Driver.isResult x = false
      · have hno : values.find? Driver.isResult = none :=
          List.find?_eq_none.mpr (fun x hx => by rw [hnone x hx]; exact Bool.false_ne_true)
        rw [hno, Option.none_or] at hfind
        cases hresult : Driver.isResult v with
        | false =>
            have hline := (haccounted hnone).line hfits hresult readers
            rw [List.find?_cons_of_neg (by rw [hresult]; exact Bool.false_ne_true)] at hfind
            refine ⟨fun _ => hline, ?_⟩
            rw [hline.sum, hfind]
            exact (larger_zero _).symm
        | true =>
            rw [List.find?_cons_of_pos hresult] at hfind
            constructor
            · intro hall
              rw [hall v List.mem_append_cons_self] at hresult
              cases hresult
            · rw [(haccounted hnone).resultLine hfits hresult readers, hfind,
                counted_concat_none (reportOf_result hresult)]
              rfl
      · rcases not_forall.mp hnone with ⟨x, hx⟩
        rcases Classical.not_imp.mp hx with ⟨hmem, hisResult⟩
        rcases hlast.last x hmem (Bool.eq_true_of_not_eq_false hisResult) with
          ⟨hresult, hreport⟩
        have hsame := readLine_account readers
          (values.foldl (fun d v => Driver.readLine readers d (some v)) Driver.start) v
        rw [usageOf_eq_none hresult hreport] at hsame
        rw [List.find?_cons_of_neg (by rw [hresult]; exact Bool.false_ne_true),
          List.find?_nil, Option.or_none] at hfind
        refine ⟨fun hall => absurd (fun y hy => hall y (List.mem_append_left _ hy)) hnone, ?_⟩
        rw [hsame.sum, counted_concat_none hreport, hfind]
        exact hsum

def parsed (lines : List (Option Json)) : List Json :=
  lines.filterMap id

theorem foldl_readLine (readers : Readers) (lines : List (Option Json)) (d : Driver) :
    lines.foldl (Driver.readLine readers) d =
      (parsed lines).foldl (fun d v => Driver.readLine readers d (some v)) d := by
  induction lines generalizing d with
  | nil => rfl
  | cons line rest ih =>
      cases line with
      | none => exact ih d
      | some v => exact ih _

/-- Of a stream with its result behind the messages, the usages that are sent are in sum
the larger of what the messages report, every one its first report that is not zero, and
of what the result reports. -/
theorem usage_sum_eq_larger (readers : Readers) (lines : List (Option Json))
    (hlast : ResultLast (parsed lines)) (hfits : Fits (parsed lines)) :
    usageSum (Driver.run readers lines).sent =
      larger (messageTotal (counted (parsed lines))) (resultUsage (parsed lines)) := by
  unfold Driver.run
  rw [foldl_readLine]
  exact (foldl_readLine_accounted readers (parsed lines) hlast hfits).right

def usageObject (input output : String) : Json :=
  .object
    [("input_tokens".toList, .number input.toList),
      ("output_tokens".toList, .number output.toList)]

def messageLine (id input output : String) : Json :=
  .object
    [("type".toList, .string "assistant".toList),
      ("message".toList,
        .object
          [("id".toList, .string id.toList), ("usage".toList, usageObject input output)])]

def resultLine (input output : String) : Json :=
  .object
    [("type".toList, .string "result".toList), ("usage".toList, usageObject input output)]

/-- Texts of errors that tell of no limit and of no network. -/
def plainReaders : Readers :=
  { detectUsageLimit := fun _ => none
    detectNetworkError := fun _ => none
    toText := fun _ => "" }

/-- A message that reports twice, another one, and the result. -/
def twoMessages : List (Option Json) :=
  [some (messageLine "a" "100" "20"), none, some (messageLine "b" "5" "1"),
    some (messageLine "a" "100" "20"), some (resultLine "150" "10")]

theorem usage_sum_eq_larger_twoMessages :
    usageSum (Driver.run plainReaders twoMessages).sent = (150, 21) := by
  rw [usage_sum_eq_larger plainReaders twoMessages (by decide +kernel) (by decide +kernel)]
  decide +kernel

def zeroFirst : List (Option Json) :=
  [some (messageLine "a" "0" "0"), some (messageLine "a" "5" "0")]

/-- The second report of the message is counted. -/
theorem zero_report_is_not_the_first :
    ResultLast (parsed zeroFirst) ∧ Fits (parsed zeroFirst) ∧
      usageSum (Driver.run plainReaders zeroFirst).sent = (5, 0) ∧
      larger (messageTotal (reports (parsed zeroFirst))) (resultUsage (parsed zeroFirst)) =
        (0, 0) := by
  decide +kernel

end Claude
end Perpetual
