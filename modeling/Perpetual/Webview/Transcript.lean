import Perpetual.Foundation.Search
import Perpetual.Proto.Enums
import Perpetual.Webview.Streaming

/-!
# The transcript

What the view lists for a thread: its events, notices about limits and runs, the
turns that wait in the queue, and the bubbles of messages that were sent but have not
come back yet.

A message is a bubble, a queued turn and an event at different times.  A bubble goes
when its message is an event or a queued turn; while it stays, its event is hidden.
Of events the envelopes of a provider are left out, and a user message whose text was
already sent since the last answer.
-/

namespace Perpetual
namespace Webview

open Foundation

structure QueuedTurn where
  id : String
  message : String
  echoUserMessage : Option Bool
  clientMessageId : Option String

structure PendingTranscriptMessage where
  id : String
  text : String
  firstTurn : Bool
deriving DecidableEq

/-- A notice, with the time that it is anchored at. -/
structure Transition where
  id : String
  text : String
  ts : Rat

inductive TranscriptItem where
  | event (event : AgentThreadEvent)
  | transition (notice : Transition)
  | queued (id message : String)
  | pending (id text : String) (firstTurn : Bool)

def trimmed (text : String) : String :=
  String.ofList (Text.trimScript text.toList)

/-!
## Reading an event
-/

mutual
/-- A value as a text.  A number keeps its literal. -/
def scriptString : Json -> String
  | .null => "null"
  | .bool b => if b then "true" else "false"
  | .number literal => String.ofList literal
  | .string text => String.ofList text
  | .array items => scriptJoin items
  | .object _ => "[object Object]"

/-- The items of an array between commas; a null is empty. -/
def scriptJoin : List Json -> String
  | [] => ""
  | [.null] => ""
  | [item] => scriptString item
  | .null :: rest => "," ++ scriptJoin rest
  | item :: rest => scriptString item ++ "," ++ scriptJoin rest
end

def AgentThreadEvent.datum (event : AgentThreadEvent) (key : String) : Option Json :=
  match event.data with
  | .object members =>
      match Json.member members key.toList with
      | some .null => none
      | value => value
  | _ => none

/-- The status words are of ASCII letters that no other letter is lowered to. -/
def isRoutineEvent (event : AgentThreadEvent) : Bool :=
  if event.role = "system" then true
  else if event.kind = "session_started" then true
  else if event.kind = "token_usage" then true
  else if event.kind = "usage_limit" then true
  else if event.kind = "session_ended" then
    let status := (((event.datum "status").map scriptString).or event.text).getD ""
    let status := String.ofList (status.toList.map Char.toLower)
    decide (status = "completed" ∨ status = "interrupted" ∨ status = "failed")
  else false

def eventClientMessageId (event : AgentThreadEvent) : Option String :=
  if event.clientMessageId.getD "" ≠ "" then event.clientMessageId
  else
    match event.datum "client_message_id" with
    | some (.string text) =>
        let id := trimmed (String.ofList text)
        if id ≠ "" then some id else none
    | _ => none

/-!
## The text that the user typed
-/

def behind (opening : String) (text : List Char) : Option (List Char) :=
  if opening.toList.map Char.toLower <+: text.map Char.toLower then
    some (text.drop opening.length)
  else none

/-- What a command was given: the text behind the first mark. -/
def requestBehind (opening mark : String) (text : List Char) : Option String := do
  let rest <- behind opening text
  let start <- Text.indexOf (mark.toList.map Char.toLower) (rest.map Char.toLower)
  let request := rest.drop (start + mark.length)
  if request = [] then none else some (String.ofList (Text.trimScript request))

def speaksOf (opening ending : String) (text : List Char) : Bool :=
  match behind opening text with
  | some rest => decide (ending.toList.map Char.toLower <:+: (rest.drop 1).map Char.toLower)
  | none => false

def commands : List (String × String × String) :=
  [("Create an implementation plan", "\n\nRequest:\n", "plan"),
    ("Perform a read-only code review", "\n\nScope:\n", "review"),
    ("Perform a read-only security review", "\n\nScope:\n", "security-review"),
    ("Diagnose and fix the concrete problem", "\n\nProblem:\n", "debug")]

def publicUserMessage (value : String) : String :=
  let text := Text.trimScript value.toList
  match commands.findSome? (fun (opening, mark, command) =>
      (requestBehind opening mark text).map (fun request => "/" ++ command ++ " " ++ request)) with
  | some message => message
  | none =>
      if (behind "Initialize durable agent guidance for " text).isSome then "/init"
      else if speaksOf "Simplify " " without changing observable behavior." text then "/simplify"
      else if speaksOf "Build and launch " ", then exercise the relevant behavior" text then
        "/run"
      else if speaksOf "Verify " " end to end." text then "/verify"
      else value

/-- The text of a user's event as the transcript shows it. -/
def AgentThreadEvent.shownText (event : AgentThreadEvent) : String :=
  trimmed (publicUserMessage (event.text.getD ""))

/-!
## Bubbles
-/

/-- The welcome screen is still leaving: the first bubble stays. -/
def holdsFirstBubble (selectedStatus : Option TaskStatus) (events : List AgentThreadEvent)
    (item : PendingTranscriptMessage) : Bool :=
  item.firstTurn && decide (selectedStatus = some .running) &&
    !events.any (fun event => decide (event.role = "assistant"))

def hasArrived (events : List AgentThreadEvent) (queued : List QueuedTurn)
    (item : PendingTranscriptMessage) : Bool :=
  events.any (fun event => decide (eventClientMessageId event = some item.id)) ||
    queued.any (fun turn => decide (turn.clientMessageId = some item.id))

/-- A message without an id has the text of the bubble. -/
def matchesLegacyText (events : List AgentThreadEvent) (queued : List QueuedTurn)
    (item : PendingTranscriptMessage) : Bool :=
  events.any (fun event =>
      decide (eventClientMessageId event = none ∧ event.role = "user" ∧
        trimmed (event.text.getD "") = item.text)) ||
    queued.any (fun turn =>
      decide (turn.clientMessageId.getD "" = "" ∧ trimmed turn.message = item.text))

def reconcilePendingMessages (pending : List PendingTranscriptMessage)
    (selectedStatus : Option TaskStatus) (events : List AgentThreadEvent)
    (queued : List QueuedTurn) : List PendingTranscriptMessage :=
  if selectedStatus = none ∨ selectedStatus = some .draft then pending
  else
    pending.filter (fun item =>
      if holdsFirstBubble selectedStatus events item then true
      else if hasArrived events queued item then false
      else if matchesLegacyText events queued item then false
      else true)

/-!
## Items
-/

/-- The items so far, the texts sent since the last answer, and the place that the
bubble of a hidden event takes. -/
structure Conversation where
  items : List TranscriptItem
  noAssistantUserTexts : List String
  sortKeys : OrderedMap String Int

def Conversation.empty : Conversation :=
  { items := []
    noAssistantUserTexts := []
    sortKeys := OrderedMap.empty }

def hiddenBy (pendingIds : List String) (event : AgentThreadEvent) : Option String :=
  (eventClientMessageId event).filter (fun id => decide (id ∈ pendingIds))

/-- `date` reads the time of an event, in milliseconds, and is 0 where there is none. -/
def Conversation.add (date : String -> Int) (pendingIds : List String) (c : Conversation)
    (event : AgentThreadEvent) : Conversation :=
  if isRoutineEvent event then c
  else if event.role = "user" then
    match hiddenBy pendingIds event with
    | some clientId => { c with sortKeys := c.sortKeys.set clientId (date event.ts) }
    | none =>
        if event.shownText ≠ "" ∧ event.shownText ∈ c.noAssistantUserTexts then c
        else
          { c with
            items := c.items ++
              [.event { event with text := some event.shownText }]
            noAssistantUserTexts :=
              if event.shownText ≠ "" then event.shownText :: c.noAssistantUserTexts
              else c.noAssistantUserTexts }
  else if event.role = "assistant" ∨ event.role = "tool" then
    { c with
      items := c.items ++ [.event event]
      noAssistantUserTexts := [] }
  else { c with items := c.items ++ [.event event] }

def conversation (date : String -> Int) (pendingIds : List String)
    (events : List AgentThreadEvent) : Conversation :=
  events.foldl (Conversation.add date pendingIds) Conversation.empty

def QueuedTurn.isEchoed (turn : QueuedTurn) : Bool :=
  decide (turn.echoUserMessage ≠ some false)

def QUEUED_RANK : Rat := 10 ^ 15
def PENDING_RANK : Rat := 2 * 10 ^ 15

def itemTs (date : String -> Int) (sortKeys : OrderedMap String Int) : TranscriptItem -> Rat
  | .event event => date event.ts
  | .queued _ _ => QUEUED_RANK
  | .pending id _ _ => ((sortKeys.get? id).map (fun key => (key : Rat))).getD
      PENDING_RANK
  | .transition notice => notice.ts

/-- `transitions` are the notices that activities, limits and runs in the cloud add. -/
def buildTranscriptItems (date : String -> Int) (events : List AgentThreadEvent)
    (transitions : List Transition) (queued : List QueuedTurn)
    (pending : List PendingTranscriptMessage) : List TranscriptItem :=
  let c := conversation date (pending.map PendingTranscriptMessage.id) events
  let items :=
    c.items ++ transitions.map .transition ++
      (queued.filter QueuedTurn.isEchoed).map
        (fun turn => .queued turn.id turn.message) ++
      pending.map
        (fun message => .pending message.id message.text message.firstTurn)
  items.insertionSort (fun a b => itemTs date c.sortKeys a ≤ itemTs date c.sortKeys b)

/-!
## Examples
-/

example :
    publicUserMessage "Create an implementation plan for this.\n\nRequest:\nAdd login" =
      "/plan Add login" := by
  decide +kernel

end Webview
end Perpetual
