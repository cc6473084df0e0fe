import Perpetual.Attachments.RoundTrip
import Perpetual.Fallback.SwitchBack
import Perpetual.Foundation.Table
import Perpetual.Starts.Thread
import Perpetual.Thread.Delivery

/-!
# Editing a message

An edit cuts the conversation off at the turn of the message, clears the provider
sessions of its turns, and starts the thread again with the new text.  Where the start
fails the edit writes the old conversation back: the events, the provider sessions of the
turns it knew, and the row of the thread.  A turn that the start created and a message
that it queued are not among these.

The start is the one of a thread, with what it writes to the rows of the conversation.
-/

namespace Perpetual
namespace Thread

open Foundation
open Foundation.Attempt
open Attachments (Libraries)
open Starts (ThreadAnswers FallbackAnswers Admission AccountGate Target)

/-!
## The conversation
-/

structure ThreadEvent where
  id : String
  turnId : String
  role : String
  kind : String
  text : Option String
  data : Json
  clientMessageId : Option String
  ts : Nat

structure TurnRow where
  id : String
  state : SessionState
  agentSessionId : Option String
deriving DecidableEq, Repr

/-- The columns of the thread that a start or an edit writes. -/
structure ThreadRecord where
  settings : Fallback.AgentThread
  preferredAgent : Option AgentKind
  providerAccountId : Option String
  permission : String
  objective : String
  progress : String
  decisions : String
  openQuestions : String
  nextActions : String
  updatedAt : Nat
deriving DecidableEq, Repr

/-- The turns are in the order they were started in. -/
structure Conversation where
  events : List ThreadEvent
  turns : List TurnRow
  record : ThreadRecord
  queue : List QueuedTurn

namespace Conversation

def saveThread (w : Conversation) (now : Nat) (record : ThreadRecord) : Conversation :=
  { w with record := { record with updatedAt := now } }

/-- A switch in the background reads the row again, and may fail to save it. -/
def switchThread (w : Conversation) (now : Nat) (saves : Bool)
    (f : Fallback.AgentThread -> Fallback.Outcome) : Conversation :=
  if saves then
    w.saveThread now { w.record with settings := (f w.record.settings).thread }
  else w

def enqueue (w : Conversation) (row : QueuedTurn) : Conversation :=
  { w with queue := w.queue ++ [row] }

def popNext (w : Conversation) : Conversation :=
  { w with queue := ((Thread.popNext w.queue).map Prod.snd).getD w.queue }

def createTurn (w : Conversation) (id : String) : Conversation :=
  { w with
    turns :=
      w.turns ++
        [{ id := id
           state := .running
           agentSessionId := none }] }

def insertMessage (w : Conversation) (event : ThreadEvent) : Conversation :=
  { w with events := w.events ++ [event] }

end Conversation

abbrev EditM := EStateM CoreError Conversation

/-- A start as it is answered, with what it writes. -/
structure Restart where
  answers : ThreadAnswers
  policyModel : Option String
  permission : String
  providerAccountId : Option String
  priorFound : Bool
  resetAt : Option Nat
  services : Fallback.Answers
  eventId : String
  now : Nat

/-- The settings with the status a step stores. -/
def ThreadRecord.withStatus (record : ThreadRecord) (status : TaskStatus) : ThreadRecord :=
  { record with settings := { record.settings with status := status } }

def ThreadRecord.withModel (record : ThreadRecord) (model : Option String) : ThreadRecord :=
  { record with settings := { record.settings with model := model.or record.settings.model } }

namespace Restart

/-- The start of an edit always has a message. -/
def checks (a : Restart) : ThreadAnswers :=
  { a.answers with hasMessage := true }

def queuedRow (a : Restart) (id : String) (m : Message) : QueuedTurn :=
  { id := id
    message := m.text
    echoUserMessage := m.echoUserMessage
    clientMessageId := (m.clientMessageId.map Text.trim).filter (fun clientId => clientId != "")
    createdAt := a.now
    number := m.number.getD 0 }

/-- A message without text is not put on the queue. -/
def enqueueTrimmed (a : Restart) (id : String) (answered : Except CoreError Unit)
    (m : Message) : EditM Unit := do
  answer (if m.isBlank then .ok () else answered)
  modify (fun w => if m.isBlank then w else w.enqueue (a.queuedRow id m.trimmed))

def pause (a : Restart) (thread : ThreadRecord) (error : CoreError) : EditM String := do
  answer a.answers.savePaused
  modify (fun w => w.saveThread a.now (thread.withStatus .paused))
  throw error

/-- The text that is shown as the user's own: an echoed message, or the objective where
nothing was said yet. -/
def userMessage (a : Restart) (thread : ThreadRecord) (m : Option Message) :
    Option String :=
  let hasHistory := a.priorFound || Text.trim thread.progress != ""
  (match m with
    | some message => if message.echoUserMessage then some (Text.trim message.text) else none
    | none => if hasHistory then none else some (Text.trim thread.objective)).filter
    (fun text => text != "")

def userEvent (a : Restart) (m : Option Message) (text : String) : ThreadEvent :=
  let clientMessageId :=
    (m.filter (fun message => message.echoUserMessage)).bind Message.clientMessageId
  { id := a.eventId
    turnId := a.answers.turnId
    role := "user"
    kind := "user_message"
    text := some text
    data :=
      .object
        [("client_message_id".toList,
          (clientMessageId.map (fun id => .string id.toList)).getD .null)]
    clientMessageId := clientMessageId
    ts := a.now }

def showMessage (a : Restart) (thread : ThreadRecord) (m : Option Message)
    (w : Conversation) : Conversation :=
  match a.userMessage thread m with
  | some text => w.insertMessage (a.userEvent m text)
  | none => w

def launch (a : Restart) (target : Target) (thread : ThreadRecord) (m : Option Message) :
    EditM String := do
  answer (if (a.userMessage thread m).isSome then a.answers.insertUserMessage else .ok ())
  modify (a.showMessage thread m)
  answer a.answers.saveRunning
  modify (fun w =>
    w.saveThread a.now
      { thread with
        settings :=
          { thread.settings with
            status := .running
            activeAgent := some target.agent
            executionBackend := target.backend }
        providerAccountId := a.providerAccountId
        permission := a.permission
        preferredAgent := thread.preferredAgent.or (some target.agent) })
  answer a.answers.recordStarted
  answer a.answers.safeDirectories
  answer a.answers.attachments
  answer a.answers.adapterStart
  pure a.answers.turnId

def createAndLaunch (a : Restart) (target : Target) (thread : ThreadRecord)
    (m : Option Message) : EditM String := do
  answer a.answers.sessionRuntime
  answer a.answers.createTurn
  modify (fun w => w.createTurn a.answers.turnId)
  a.launch target thread m

/-- Without a free slot the message waits on the queue, and is taken off it again. -/
def waitAndLaunch (a : Restart) (target : Target) (thread : ThreadRecord) (m : Message) :
    EditM String := do
  a.enqueueTrimmed a.answers.queueId a.answers.requeue m
  answer a.answers.saveQueued
  modify (fun w => w.saveThread a.now (thread.withStatus .queued))
  answer a.answers.recordQueued
  if m.isBlank then a.createAndLaunch target thread (some m)
  else do
    answer a.answers.popAgain
    let w ← get
    modify Conversation.popNext
    a.createAndLaunch target thread
      ((Thread.popNext w.queue).map (fun next => Message.fromQueued next.1))

/-- `fallback` is given the row as the start has read it. -/
def afterTarget (a : Restart) (target : Target) (thread : ThreadRecord) (m : Message)
    (fallback : EditM String) : EditM String := do
  match ← answer (a.checks.accountGate target) with
  | .limited =>
      if a.answers.budget.isPercentageBudget then
        a.pause thread Starts.percentageLimitedError
      else do
        a.enqueueTrimmed a.answers.queueId a.answers.queueLimited m
        modify (fun w =>
          w.switchThread a.now a.services.saves
            (fun t => t.startThreadFallback target.agent a.resetAt a.services))
        pure a.answers.queueId
  | .knownLimited =>
      if a.answers.budget.isPercentageBudget then
        a.pause thread Starts.percentageLimitedError
      else fallback
  | .clear managed =>
      match ← answer a.checks.budgetGate with
      | some error => a.pause thread error
      | none => do
          answer (a.checks.preparation target managed)
          if a.answers.slotFree then a.createAndLaunch target thread (some m)
          else a.waitAndLaunch target thread m

def run (a : Restart) (m : Message) (fallback : Target -> ThreadRecord -> EditM String) :
    EditM String := do
  match ← answer a.checks.admission with
  | .followUp => do
      answer a.answers.enqueueFollowUp
      modify (fun w => w.enqueue (a.queuedRow a.answers.queueId m))
      answer a.answers.recordFollowUp
      pure a.answers.queueId
  | .start => do
      let target ← answer a.checks.target
      let w ← get
      let thread := w.record.withModel a.policyModel
      a.afterTarget target thread m (fallback target thread)

/-- The provider is known to be limited and there is no other: a local model takes over,
or the thread waits for the limit. -/
def remain (a : Restart) (f : FallbackAnswers) (model : Option Fallback.LocalModelTarget)
    (m : Message) (target : Target) (thread : ThreadRecord) : EditM String := do
  answer f.recordLimited
  answer f.decision
  a.enqueueTrimmed f.queueId f.queueLimited m
  match model with
  | some model => do
      modify (fun w =>
        w.switchThread a.now a.services.saves
          (fun t => t.startThreadLocalFallback target.agent model a.services))
      pure f.queueId
  | none => do
      answer f.saveWaiting
      modify (fun w =>
        w.saveThread a.now
          { thread with
            settings := thread.settings.waitForReset a.resetAt "waiting_for_reset" })
      answer f.recordWaiting
      pure f.queueId

def switch (a : Restart) (f : FallbackAnswers) (agent : AgentKind) (switchBack : Bool)
    (next : EditM String) (target : Target) (thread : ThreadRecord) : EditM String := do
  answer f.recordLimited
  answer f.decision
  answer f.saveSwitch
  modify (fun w =>
    w.saveThread a.now
      { thread with
        settings :=
          thread.settings.switchTo target.agent agent (a.services.agentTargetProfile agent)
            switchBack a.resetAt })
  answer f.recordSwitch
  next

end Restart

/-- A start with the starts on other providers it goes on to. -/
inductive Restarts where
  | stays (a : Restart) (f : FallbackAnswers) (model : Option Fallback.LocalModelTarget)
  | switches (a : Restart) (f : FallbackAnswers) (agent : AgentKind) (switchBack : Bool)
      (next : Restarts)

def Restarts.run (m : Message) : Restarts -> EditM String
  | .stays a f model => a.run m (a.remain f model m)
  | .switches a f agent switchBack next =>
      a.run m (a.switch f agent switchBack (next.run m))

/-- What the store answers to the edit itself.  `restored` is the restoring transaction,
and `saved` the statement behind it that writes the row of the thread. -/
structure EditAnswers where
  active : Bool
  cloudActive : Except CoreError Bool
  queueListed : Except CoreError Unit
  assigned : Except CoreError Bool
  eventsListed : Except CoreError Unit
  threadFound : Except CoreError Bool
  turnsListed : Except CoreError Unit
  rewritten : Except CoreError Unit
  restored : Except CoreError Unit
  saved : Except CoreError Unit
  now : Nat

/-- The questions are asked one after the other, up to the first that is answered yes. -/
def EditAnswers.busy (e : EditAnswers) (queue : List QueuedTurn) : Except CoreError Bool := do
  if e.active then return true
  let cloudActive ← e.cloudActive
  if cloudActive then return true
  e.queueListed
  if !queue.isEmpty then return true
  e.assigned

section Edit

variable (l : Libraries)

def displayText (text : List Char) : List Char :=
  match Attachments.unpack l text with
  | .ok (shown, files) =>
      files.foldl (fun shown file =>
        shown ++ "\nAttached file ".toList ++ file.name ++ ": ./".toList ++
          Attachments.attachmentPath l file) shown
  | .error _ => text

def checkMessage (message : String) : Except CoreError Unit :=
  if Text.trim message = "" then .error (.other "message is empty")
  else
    match Attachments.unpack l message.toList with
    | .ok _ => .ok ()
    | .error (.other text) =>
        .error (.other (String.ofList text))

def historyOf (events : List ThreadEvent) : String :=
  "\n\n".intercalate
    ((events.filter (fun x => x.role == "user" || x.role == "assistant")).filterMap (fun x =>
      x.text.map (fun text =>
        x.role ++ ": " ++ String.ofList (displayText l text.toList))))

/-- The rows after the cut are deleted, the provider sessions and the summaries are
cleared, and the history takes the place of the progress. -/
def rewrite (message : String) (cut : Nat) (w : Conversation) : Conversation :=
  { w with
    events :=
      Table.deleteWhere (fun x => ((w.events.drop cut).map ThreadEvent.id).contains x.id)
        w.events
    turns := w.turns.map (fun turn => { turn with agentSessionId := none })
    record :=
      { (w.record.withStatus .paused) with
        objective := if cut = 0 then message else w.record.objective
        progress := historyOf l (w.events.take cut)
        decisions := ""
        openQuestions := ""
        nextActions := "" } }

/-- The events are written anew, and the turns that the edit knew get their provider
sessions back. -/
def restoreRows (original : Conversation) (w : Conversation) : Conversation :=
  { w with
    events := original.events
    turns :=
      original.turns.foldl (fun turns old =>
        Table.updateWhere (fun turn => turn.id == old.id)
          (fun turn => { turn with agentSessionId := old.agentSessionId }) turns) w.turns }

def busyError : CoreError :=
  .other "Stop the task and clear queued or remote work before editing."

def goneError : CoreError :=
  .other "This user message is no longer available to edit."

/-- A restart that fails is rolled back, and fails the edit. -/
def rollBack (e : EditAnswers) (original : Conversation) (error : CoreError) :
    EditM String := do
  answer e.restored
  modify (restoreRows original)
  answer e.saved
  modify (fun w => w.saveThread e.now original.record)
  throw error

def editThreadMessage (e : EditAnswers) (start : Restarts) (eventId message : String)
    (clientMessageId : Option String) : EditM String := do
  answer (checkMessage l message)
  let w ← get
  let busy ← answer (e.busy w.queue)
  if busy then throw busyError
  answer e.eventsListed
  match w.events.find? (fun x => x.id == eventId && x.role == "user") with
  | none => throw goneError
  | some edited => do
      let found ← answer e.threadFound
      if !found then throw (.other "Task not found")
      answer e.turnsListed
      answer e.rewritten
      modify (rewrite l message (w.events.findIdx (fun x => x.turnId == edited.turnId)))
      tryCatch (start.run (Message.ofPublic message clientMessageId)) (rollBack e w)

end Edit

/-!
## What a start leaves behind
-/

def Restart.Prepared (a : Restart) : Prop :=
  a.checks.admission = .ok .start ∧
    exists target managed, a.checks.target = .ok target ∧
      a.checks.accountGate target = .ok (.clear managed) ∧
      a.checks.budgetGate = .ok none ∧
      a.checks.preparation target managed = .ok ()

/-- The start gets past the queue: it is not put there, or its message is taken off
again. -/
def Restart.PassesQueue (a : Restart) : Prop :=
  a.answers.slotFree = true ∨
    (a.answers.requeue = .ok () ∧ a.answers.saveQueued = .ok () ∧
      a.answers.recordQueued = .ok () ∧ a.answers.popAgain = .ok ())

def Restart.CreatesTurn (a : Restart) : Prop :=
  a.Prepared ∧ a.PassesQueue ∧ a.answers.sessionRuntime = .ok () ∧
    a.answers.createTurn = .ok ()

/-- The message is put on the queue, and the start does not take it off again. -/
def Restart.LeavesMessage (a : Restart) : Prop :=
  (a.checks.admission = .ok .followUp ∧
      a.answers.enqueueFollowUp = .ok ()) ∨
    (a.Prepared ∧ a.answers.requeue = .ok () ∧ ¬ a.PassesQueue)

/-- If the start fails, it has created no turn and left no message on the queue, and
neither have those it went on to. -/
def Restarts.LeavesNothing : Restarts -> Prop
  | .stays a f _ =>
      ¬ a.CreatesTurn ∧ ¬ a.LeavesMessage ∧
        ¬ (a.checks.FallsBack ∧ f.recordLimited = .ok () ∧
          f.decision = .ok () ∧ f.queueLimited = .ok ())
  | .switches a f _ _ next =>
      ¬ a.CreatesTurn ∧ ¬ a.LeavesMessage ∧
        (a.checks.FallsBack ∧ f.SavesSwitch ∧ f.recordSwitch = .ok () ->
          next.LeavesNothing)

section Left

variable {a : Restart} {m : Message} {w : Conversation} {P : Conversation -> Prop}

theorem launch_failed (a : Restart) (target : Target) (thread : ThreadRecord)
    (m : Option Message) {turns : List TurnRow} (h : w.turns = turns) :
    FailsWith (a.launch target thread m) w (fun w' => w'.turns = turns) := by
  have hshown : (a.showMessage thread m w).turns = turns := by
    unfold Restart.showMessage
    split
    · exact h
    · exact h
  refine failsWith_answer (fun _ _ => h) (fun _ _ => ?_)
  refine failsWith_modify ?_
  refine failsWith_answer (fun _ _ => hshown) (fun _ _ => ?_)
  refine failsWith_modify ?_
  refine failsWith_answer (fun _ _ => hshown) (fun _ _ => ?_)
  refine failsWith_answer (fun _ _ => hshown) (fun _ _ => ?_)
  refine failsWith_answer (fun _ _ => hshown) (fun _ _ => ?_)
  refine failsWith_answer (fun _ _ => hshown) (fun _ _ => ?_)
  exact failsWith_pure _ _ _

theorem createAndLaunch_failed (a : Restart) (target : Target) (thread : ThreadRecord)
    (m : Option Message)
    (hearly : ¬ (a.answers.sessionRuntime = .ok () ∧
      a.answers.createTurn = .ok ()) -> P w)
    (hlate : a.answers.sessionRuntime = .ok () ->
      a.answers.createTurn = .ok () ->
        forall w', (exists turn, w'.turns = w.turns ++ [turn]) -> P w') :
    FailsWith (a.createAndLaunch target thread m) w P := by
  refine failsWith_answer ?_ (fun _ hruntime => ?_)
  · intro e he
    apply hearly
    rw [he]
    exact fun h => absurd h.left nofun
  · refine failsWith_answer ?_ (fun _ hcreate => ?_)
    · intro e he
      apply hearly
      rw [he]
      exact fun h => absurd h.right nofun
    · refine failsWith_modify ?_
      intro e w' hrun
      apply hlate hruntime hcreate
      exact ⟨_, launch_failed a target thread m rfl e w' hrun⟩

theorem enqueueTrimmed_failed {value : Type} {next : Unit -> EditM value} (a : Restart)
    (id : String) {answered : Except CoreError Unit} (hblank : m.isBlank = false)
    (herror : forall e, answered = .error e -> P w)
    (hok : answered = .ok () -> FailsWith (next ()) (w.enqueue (a.queuedRow id m.trimmed)) P) :
    FailsWith (a.enqueueTrimmed id answered m >>= next) w P := by
  have hrun : a.enqueueTrimmed id answered m =
      (answer answered >>= fun _ =>
        modify (fun w => w.enqueue (a.queuedRow id m.trimmed))) := by
    unfold Restart.enqueueTrimmed
    rw [hblank]
    rfl
  rw [hrun, bind_assoc]
  refine failsWith_answer herror ?_
  intro _ hanswered
  exact failsWith_modify (hok hanswered)

theorem popNext_enqueue (hqueue : w.queue = []) (row : QueuedTurn) :
    (w.enqueue row).popNext.queue = [] := by
  unfold Conversation.popNext Conversation.enqueue
  dsimp only
  rw [hqueue]
  unfold Thread.popNext
  simp [Ranking.earliest, Table.deleteWhere]

theorem not_fallsBack_of_prepared (h : a.Prepared) : ¬ a.checks.FallsBack := by
  rcases h with ⟨_, target, managed, htarget, hgate, _⟩
  rintro ⟨_, _, target', htarget', hgate'⟩
  rw [htarget] at htarget'
  cases htarget'
  rw [hgate] at hgate'
  cases hgate'

/-- The condition holds of all that a failed start may leave: nothing, the turn row, or a
message on the queue. -/
structure Restart.Covers (a : Restart) (w : Conversation) (P : Conversation -> Prop) :
    Prop where
  kept : ¬ a.CreatesTurn -> ¬ a.LeavesMessage -> ¬ a.checks.FallsBack ->
    forall w', w'.turns = w.turns -> w'.queue = [] -> P w'
  turn : a.CreatesTurn -> forall w', (exists turn, w'.turns = w.turns ++ [turn]) -> P w'
  message : a.LeavesMessage -> forall w', w'.queue ≠ [] -> P w'

theorem slot_failed (hcovers : a.Covers w P) (hqueue : w.queue = []) (hblank : m.isBlank = false)
    (hprepared : a.Prepared) (target : Target) (thread : ThreadRecord) :
    FailsWith
      (if a.answers.slotFree then a.createAndLaunch target thread (some m)
        else a.waitAndLaunch target thread m) w P := by
  have hstays := not_fallsBack_of_prepared hprepared
  have hnotMessage : a.PassesQueue -> ¬ a.LeavesMessage := by
    rintro hpasses (⟨hadmission, _⟩ | ⟨_, _, hnot⟩)
    · rw [hprepared.left] at hadmission
      cases hadmission
    · exact hnot hpasses
  have hnotTurn : ¬ (a.answers.sessionRuntime = .ok () ∧
      a.answers.createTurn = .ok ()) -> ¬ a.CreatesTurn :=
    fun hnot hcreates => hnot hcreates.right.right
  cases hslot : a.answers.slotFree with
  | true =>
      have hpasses : a.PassesQueue := .inl hslot
      rw [if_pos rfl]
      apply createAndLaunch_failed
      · exact fun hnot => hcovers.kept (hnotTurn hnot) (hnotMessage hpasses) hstays w rfl hqueue
      · exact fun hruntime hcreate => hcovers.turn ⟨hprepared, hpasses, hruntime, hcreate⟩
  | false =>
      have hwaits : a.PassesQueue <->
          (a.answers.requeue = .ok () ∧ a.answers.saveQueued = .ok () ∧
            a.answers.recordQueued = .ok () ∧ a.answers.popAgain = .ok ()) := by
        unfold Restart.PassesQueue
        rw [hslot]
        exact or_iff_right Bool.false_ne_true
      have hqueued : (w.enqueue (a.queuedRow a.answers.queueId m.trimmed)).queue ≠ [] :=
        List.append_ne_nil_of_right_ne_nil _ (List.cons_ne_nil _ _)
      have hleft : a.answers.requeue = .ok () -> ¬ a.PassesQueue -> a.LeavesMessage :=
        fun hrequeue hnot => .inr ⟨hprepared, hrequeue, hnot⟩
      rw [if_neg Bool.false_ne_true]
      refine enqueueTrimmed_failed a a.answers.queueId hblank ?_ ?_
      · intro e he
        have hnot : a.answers.requeue ≠ .ok () := by
          rw [he]
          nofun
        refine hcovers.kept (fun hcreates => hnot (hwaits.mp hcreates.right.left).left) ?_ hstays w
          rfl hqueue
        rintro (⟨hadmission, _⟩ | ⟨_, hrequeue, _⟩)
        · rw [hprepared.left] at hadmission
          cases hadmission
        · exact hnot hrequeue
      · intro hrequeue
        refine failsWith_answer ?_ (fun _ hsave => ?_)
        · intro e he
          refine hcovers.message (hleft hrequeue (fun hpasses => ?_)) _ hqueued
          rw [hwaits, he] at hpasses
          exact absurd hpasses.right.left nofun
        · refine failsWith_modify ?_
          refine failsWith_answer ?_ (fun _ hrecord => ?_)
          · intro e he
            refine hcovers.message (hleft hrequeue (fun hpasses => ?_)) _ hqueued
            rw [hwaits, he] at hpasses
            exact absurd hpasses.right.right.left nofun
          · rw [hblank, if_neg Bool.false_ne_true]
            refine failsWith_answer ?_ (fun _ hpop => ?_)
            · intro e he
              refine hcovers.message (hleft hrequeue (fun hpasses => ?_)) _ hqueued
              rw [hwaits, he] at hpasses
              exact absurd hpasses.right.right.right nofun
            · have hpasses : a.PassesQueue :=
                hwaits.mpr ⟨hrequeue, hsave, hrecord, hpop⟩
              refine failsWith_get ?_
              refine failsWith_modify ?_
              apply createAndLaunch_failed
              · intro hnot
                exact hcovers.kept (hnotTurn hnot) (hnotMessage hpasses) hstays _ rfl
                  (popNext_enqueue hqueue _)
              · exact fun hruntime hcreate => hcovers.turn ⟨hprepared, hpasses, hruntime, hcreate⟩

theorem unprepared (hnot : ¬ a.Prepared) (hadmission : a.checks.admission ≠ .ok .followUp) :
    ¬ a.CreatesTurn ∧ ¬ a.LeavesMessage := by
  constructor
  · exact fun hcreates => hnot hcreates.left
  · rintro (⟨hfollowUp, _⟩ | ⟨hprepared, _⟩)
    · exact hadmission hfollowUp
    · exact hnot hprepared

theorem pause_failed (a : Restart) (thread : ThreadRecord) (error : CoreError)
    (h : forall w', w'.turns = w.turns -> w'.queue = w.queue -> P w') :
    FailsWith (a.pause thread error) w P := by
  refine failsWith_answer (fun _ _ => h w rfl rfl) (fun _ _ => ?_)
  refine failsWith_modify ?_
  exact failsWith_throw error (h _ rfl rfl)

theorem stopped (hcovers : a.Covers w P) (hqueue : w.queue = []) (hnot : ¬ a.Prepared)
    (hadmission : a.checks.admission ≠ .ok .followUp)
    (hstays : ¬ a.checks.FallsBack) {w' : Conversation} (hturns : w'.turns = w.turns)
    (hkeptQueue : w'.queue = w.queue) : P w' := by
  rcases unprepared hnot hadmission with ⟨hnoTurn, hnoMessage⟩
  exact hcovers.kept hnoTurn hnoMessage hstays w' hturns (hkeptQueue.trans hqueue)

theorem followUp_failed (hcovers : a.Covers w P) (hqueue : w.queue = [])
    (hadmission : a.checks.admission = .ok .followUp) :
    FailsWith
      (do
        answer a.answers.enqueueFollowUp
        modify (fun w => w.enqueue (a.queuedRow a.answers.queueId m))
        answer a.answers.recordFollowUp
        pure a.answers.queueId) w P := by
  have hnoTurn : ¬ a.CreatesTurn := by
    simp [Restart.CreatesTurn, Restart.Prepared, hadmission]
  have hstays : ¬ a.checks.FallsBack := by
    simp [ThreadAnswers.FallsBack, hadmission]
  refine failsWith_answer ?_ (fun _ henqueue => ?_)
  · intro e he
    refine hcovers.kept hnoTurn ?_ hstays w rfl hqueue
    simp [Restart.LeavesMessage, Restart.Prepared, hadmission, he]
  · refine failsWith_modify ?_
    refine failsWith_answer (fun _ _ => ?_) (fun _ _ => failsWith_pure _ _ _)
    exact hcovers.message (.inl ⟨hadmission, henqueue⟩) _
      (List.append_ne_nil_of_right_ne_nil _ (List.cons_ne_nil _ _))

theorem afterTarget_failed {fallback : EditM String} (hcovers : a.Covers w P)
    (hqueue : w.queue = []) (hblank : m.isBlank = false)
    (hadmission : a.checks.admission = .ok .start) {target : Target}
    (htarget : a.checks.target = .ok target) (thread : ThreadRecord)
    (hfallback : a.checks.FallsBack -> FailsWith fallback w P) :
    FailsWith (a.afterTarget target thread m fallback) w P := by
  have hnotFollowUp : a.checks.admission ≠ .ok .followUp := by
    simp [hadmission]
  refine failsWith_answer ?_ (fun gate hgate => ?_)
  · intro e he
    refine stopped hcovers hqueue ?_ hnotFollowUp ?_ rfl rfl
    · simp [Restart.Prepared, htarget, he]
    · simp [ThreadAnswers.FallsBack, htarget, he]
  · cases gate with
    | limited =>
        have hstays : ¬ a.checks.FallsBack := by
          simp [ThreadAnswers.FallsBack, htarget, hgate]
        have hnot : ¬ a.Prepared := by
          simp [Restart.Prepared, htarget, hgate]
        cases hpercent : a.answers.budget.isPercentageBudget with
        | true =>
            simp only [if_true]
            exact pause_failed a _ _ (fun _ => stopped hcovers hqueue hnot hnotFollowUp hstays)
        | false =>
            simp only [Bool.false_eq_true, if_false]
            refine enqueueTrimmed_failed a _ hblank ?_ (fun _ => ?_)
            · exact fun _ _ => stopped hcovers hqueue hnot hnotFollowUp hstays rfl rfl
            · refine failsWith_modify ?_
              exact failsWith_pure _ _ _
    | knownLimited =>
        have hnot : ¬ a.Prepared := by
          simp [Restart.Prepared, htarget, hgate]
        cases hpercent : a.answers.budget.isPercentageBudget with
        | true =>
            have hstays : ¬ a.checks.FallsBack := by
              simp [ThreadAnswers.FallsBack, Restart.checks, hpercent]
            simp only [if_true]
            exact pause_failed a _ _ (fun _ => stopped hcovers hqueue hnot hnotFollowUp hstays)
        | false =>
            simp only [Bool.false_eq_true, if_false]
            exact hfallback ⟨hadmission, hpercent, target, htarget, hgate⟩
    | clear managed =>
        have hstays : ¬ a.checks.FallsBack := by
          simp [ThreadAnswers.FallsBack, htarget, hgate]
        refine failsWith_answer ?_ (fun exhausted hbudget => ?_)
        · intro e he
          refine stopped hcovers hqueue ?_ hnotFollowUp hstays rfl rfl
          simp [Restart.Prepared, he]
        · cases exhausted with
          | some error =>
              refine pause_failed a _ _ (fun _ =>
                stopped hcovers hqueue ?_ hnotFollowUp hstays)
              simp [Restart.Prepared, hbudget]
          | none =>
              refine failsWith_answer ?_ (fun _ hprepared => ?_)
              · intro e he
                refine stopped hcovers hqueue ?_ hnotFollowUp hstays rfl rfl
                rintro ⟨_, target', managed', htarget', hgate', _, hprepared⟩
                rw [htarget] at htarget'
                cases htarget'
                rw [hgate] at hgate'
                cases hgate'
                rw [he] at hprepared
                cases hprepared
              · exact slot_failed hcovers hqueue hblank
                  ⟨hadmission, target, managed, htarget, hgate, hbudget, hprepared⟩ target
                  thread

theorem run_failed {fallback : Target -> ThreadRecord -> EditM String}
    (hcovers : a.Covers w P) (hqueue : w.queue = []) (hblank : m.isBlank = false)
    (hfallback : a.checks.FallsBack -> forall target thread,
      FailsWith (fallback target thread) w P) :
    FailsWith (a.run m fallback) w P := by
  refine failsWith_answer ?_ ?_
  · intro e he
    refine stopped hcovers hqueue ?_ ?_ ?_ rfl rfl
    · simp [Restart.Prepared, he]
    · simp [he]
    · simp [ThreadAnswers.FallsBack, he]
  · intro admission hadmission
    cases admission with
    | followUp => exact followUp_failed hcovers hqueue hadmission
    | start =>
        refine failsWith_answer ?_ (fun target htarget => ?_)
        · intro e he
          refine stopped hcovers hqueue ?_ ?_ ?_ rfl rfl
          · simp [Restart.Prepared, he]
          · simp [hadmission]
          · simp [ThreadAnswers.FallsBack, he]
        · refine failsWith_get ?_
          exact afterTarget_failed hcovers hqueue hblank hadmission htarget _
            (fun hfalls => hfallback hfalls target _)

/-- The turns and the queue of a failed start, which began with an empty queue. -/
structure Left (w w' : Conversation) (nothing : Prop) : Prop where
  kept : nothing -> w'.turns = w.turns ∧ w'.queue = []
  lost : ¬ nothing -> (exists turn, w'.turns = w.turns ++ [turn]) ∨ w'.queue ≠ []

section Left

variable {w' : Conversation} {nothing : Prop}

theorem Left.of_kept (h : nothing) (hturns : w'.turns = w.turns) (hqueue : w'.queue = []) :
    Left w w' nothing where
  kept := fun _ => ⟨hturns, hqueue⟩
  lost := fun hnot => absurd h hnot

theorem Left.of_turn (h : ¬ nothing) (hturns : exists turn, w'.turns = w.turns ++ [turn]) :
    Left w w' nothing where
  kept := fun hnothing => absurd hnothing h
  lost := fun _ => .inl hturns

theorem Left.of_message (h : ¬ nothing) (hqueue : w'.queue ≠ []) : Left w w' nothing where
  kept := fun hnothing => absurd hnothing h
  lost := fun _ => .inr hqueue

end Left

theorem remain_failed (a : Restart) (f : FallbackAnswers)
    (model : Option Fallback.LocalModelTarget) (target : Target) (thread : ThreadRecord)
    (hqueue : w.queue = []) (hblank : m.isBlank = false) :
    FailsWith (a.remain f model m target thread) w (fun w' =>
      Left w w'
        (¬ (f.recordLimited = .ok () ∧ f.decision = .ok () ∧
          f.queueLimited = .ok ()))) := by
  refine failsWith_answer ?_ (fun _ hrecord => ?_)
  · intro e he
    exact Left.of_kept (by simp [he]) rfl hqueue
  · refine failsWith_answer ?_ (fun _ hdecision => ?_)
    · intro e he
      exact Left.of_kept (by simp [he]) rfl hqueue
    · refine enqueueTrimmed_failed a f.queueId hblank ?_ (fun henqueue => ?_)
      · intro e he
        exact Left.of_kept (by simp [he]) rfl hqueue
      · have hnot : ¬ ¬ (f.recordLimited = .ok () ∧ f.decision = .ok () ∧
            f.queueLimited = .ok ()) := not_not_intro ⟨hrecord, hdecision, henqueue⟩
        have hqueued : (w.enqueue (a.queuedRow f.queueId m.trimmed)).queue ≠ [] :=
          List.append_ne_nil_of_right_ne_nil _ (List.cons_ne_nil _ _)
        cases model with
        | some model =>
            refine failsWith_modify ?_
            exact failsWith_pure _ _ _
        | none =>
            refine failsWith_answer (fun _ _ => ?_) (fun _ _ => ?_)
            · exact Left.of_message hnot hqueued
            · refine failsWith_modify ?_
              refine failsWith_answer (fun _ _ => ?_) (fun _ _ => failsWith_pure _ _ _)
              exact Left.of_message hnot hqueued

theorem switch_failed (a : Restart) (f : FallbackAnswers) (agent : AgentKind)
    (switchBack : Bool) {next : EditM String} {nothing : Prop} (target : Target)
    (thread : ThreadRecord) (hqueue : w.queue = [])
    (hnext : forall w1, w1.turns = w.turns -> w1.queue = [] ->
      FailsWith next w1 (fun w' => Left w w' nothing)) :
    FailsWith (a.switch f agent switchBack next target thread) w (fun w' =>
      Left w w' (f.SavesSwitch ∧ f.recordSwitch = .ok () -> nothing)) := by
  refine failsWith_answer ?_ (fun _ hrecord => ?_)
  · intro e he
    exact Left.of_kept (by simp [FallbackAnswers.SavesSwitch, he]) rfl hqueue
  · refine failsWith_answer ?_ (fun _ hdecision => ?_)
    · intro e he
      exact Left.of_kept (by simp [FallbackAnswers.SavesSwitch, he]) rfl hqueue
    · refine failsWith_answer ?_ (fun _ hsave => ?_)
      · intro e he
        exact Left.of_kept (by simp [FallbackAnswers.SavesSwitch, he]) rfl hqueue
      · refine failsWith_modify ?_
        refine failsWith_answer ?_ (fun _ hswitch => ?_)
        · intro e he
          exact Left.of_kept (by simp [he]) rfl hqueue
        · have hsaves : f.SavesSwitch ∧ f.recordSwitch = .ok () :=
            ⟨⟨hrecord, hdecision, hsave⟩, hswitch⟩
          rw [imp_iff_right hsaves]
          exact hnext _ rfl hqueue

theorem restarts_failed (start : Restarts) (hqueue : w.queue = []) (hblank : m.isBlank = false) :
    FailsWith (start.run m) w (fun w' => Left w w' start.LeavesNothing) := by
  have hfallsBack : forall a : Restart, a.checks.FallsBack ->
      ¬ a.CreatesTurn ∧ ¬ a.LeavesMessage := by
    intro a hfalls
    apply unprepared
    · exact fun hprepared => not_fallsBack_of_prepared hprepared hfalls
    · rw [hfalls.left]
      nofun
  induction start generalizing w with
  | stays a f model =>
      refine run_failed
        { kept := fun hnoTurn hnoMessage hstays w' hturns hkept =>
            Left.of_kept ⟨hnoTurn, hnoMessage, fun h => hstays h.left⟩ hturns hkept
          turn := fun hcreates w' hturns => Left.of_turn (fun h => h.left hcreates) hturns
          message := fun hleaves w' hqueued =>
            Left.of_message (fun h => h.right.left hleaves) hqueued } hqueue hblank ?_
      intro hfalls target thread
      rcases hfallsBack a hfalls with ⟨hnoTurn, hnoMessage⟩
      have hnothing : (Restarts.stays a f model).LeavesNothing <->
          ¬ (f.recordLimited = Except.ok () ∧ f.decision = Except.ok () ∧
            f.queueLimited = Except.ok ()) := by
        unfold Restarts.LeavesNothing
        rw [and_iff_right hnoTurn, and_iff_right hnoMessage, and_iff_right hfalls]
      rw [hnothing]
      exact remain_failed a f model target thread hqueue hblank
  | switches a f agent switchBack next ih =>
      refine run_failed
        { kept := fun hnoTurn hnoMessage hstays w' hturns hkept =>
            Left.of_kept ⟨hnoTurn, hnoMessage, fun h => absurd h.left hstays⟩ hturns hkept
          turn := fun hcreates w' hturns => Left.of_turn (fun h => h.left hcreates) hturns
          message := fun hleaves w' hqueued =>
            Left.of_message (fun h => h.right.left hleaves) hqueued } hqueue hblank ?_
      intro hfalls target thread
      rcases hfallsBack a hfalls with ⟨hnoTurn, hnoMessage⟩
      have hnothing : (Restarts.switches a f agent switchBack next).LeavesNothing <->
          (f.SavesSwitch ∧ f.recordSwitch = Except.ok () -> next.LeavesNothing) := by
        rw [Restarts.LeavesNothing, and_iff_right hnoTurn, and_iff_right hnoMessage,
          and_iff_right hfalls]
      rw [hnothing]
      apply switch_failed a f agent switchBack target thread hqueue
      intro w1 hturns hqueue1
      have hleft : forall w', Left w1 w' next.LeavesNothing -> Left w w' next.LeavesNothing := by
        intro w' h
        exact
          { kept := fun hn => ⟨(h.kept hn).left.trans hturns, (h.kept hn).right⟩
            lost := fun hn => by rw [← hturns]; exact h.lost hn }
      exact fun e w' hrun => hleft w' (ih hqueue1 e w' hrun)

end Left

/-- The same events, turns and queue, and the same row of the thread but for the time it
was written. -/
structure SameConversation (w w' : Conversation) : Prop where
  events : w'.events = w.events
  turns : w'.turns = w.turns
  record : { w'.record with updatedAt := w.record.updatedAt } = w.record
  queue : w'.queue = w.queue

/-- The edit gets as far as starting the thread again. -/
def EditAnswers.Restarts (l : Libraries) (e : EditAnswers) (eventId message : String)
    (w : Conversation) : Prop :=
  checkMessage l message = .ok () ∧ e.busy w.queue = .ok false ∧
    e.eventsListed = .ok () ∧
    (w.events.find? (fun x => x.id == eventId && x.role == "user")).isSome = true ∧
    e.threadFound = .ok true ∧ e.turnsListed = .ok () ∧
    e.rewritten = .ok ()

theorem SameConversation.refl (w : Conversation) : SameConversation w w :=
  ⟨rfl, rfl, rfl, rfl⟩

theorem queue_of_not_busy {e : EditAnswers} {queue : List QueuedTurn}
    (h : e.busy queue = .ok false) : queue = [] := by
  cases queue with
  | nil => rfl
  | cons row rest =>
      unfold EditAnswers.busy at h
      cases hactive : e.active with
      | true =>
          rw [hactive] at h
          cases h
      | false =>
          rw [hactive] at h
          cases hcloud : e.cloudActive with
          | error error =>
              rw [hcloud] at h
              cases h
          | ok cloudActive =>
              rw [hcloud] at h
              cases cloudActive with
              | true => cases h
              | false =>
                  cases hlisted : e.queueListed with
                  | error error =>
                      rw [hlisted] at h
                      cases h
                  | ok _ =>
                      rw [hlisted] at h
                      cases h

theorem not_blank_of_checked {l : Libraries} {message : String}
    (h : checkMessage l message = .ok ()) (clientMessageId : Option String) :
    (Message.ofPublic message clientMessageId).isBlank = false := by
  apply beq_false_of_ne
  intro hblank
  have hempty : Text.trim message = "" := hblank
  unfold checkMessage at h
  rw [if_pos hempty] at h
  cases h

theorem restoreRows_turns (l : Libraries) (message : String) (cut : Nat)
    {original w : Conversation} (hunique : Table.UniqueKey TurnRow.id original.turns)
    (h : w.turns = (rewrite l message cut original).turns) :
    (restoreRows original w).turns = original.turns := by
  unfold restoreRows
  rw [h]
  exact @Table.foldl_writeBack TurnRow String original.turns TurnRow.id _ _
    (fun old turn => { turn with agentSessionId := old.agentSessionId })
    (fun turn => { turn with agentSessionId := none }) (fun _ => rfl) (fun _ => rfl) [] hunique

theorem restoreRows_length (original w : Conversation) :
    (restoreRows original w).turns.length = w.turns.length := by
  have hlength : forall olds turns : List TurnRow,
      (olds.foldl (fun turns old =>
        Table.updateWhere (fun turn => turn.id == old.id)
          (fun turn => { turn with agentSessionId := old.agentSessionId }) turns)
        turns).length = turns.length := by
    intro olds
    induction olds with
    | nil => exact fun _ => rfl
    | cons old rest ih =>
        intro turns
        rw [List.foldl_cons, ih]
        exact List.length_map _
  exact hlength original.turns w.turns

theorem rollBack_failed (l : Libraries) (message : String) (cut : Nat) {e : EditAnswers}
    {original w : Conversation} {nothing : Prop}
    (hunique : Table.UniqueKey TurnRow.id original.turns) (hqueue : original.queue = [])
    (hrestored : e.restored = .ok ()) (hsaved : e.saved = .ok ())
    (h : Left (rewrite l message cut original) w nothing) (error : CoreError) :
    FailsWith (rollBack e original error) w (fun w' =>
      SameConversation original w' <-> nothing) := by
  refine failsWith_answer (fun _ he => ?_) (fun _ _ => ?_)
  · rw [hrestored] at he
    cases he
  · refine failsWith_modify ?_
    refine failsWith_answer (fun _ he => ?_) (fun _ _ => ?_)
    · rw [hsaved] at he
      cases he
    · refine failsWith_modify ?_
      apply failsWith_throw
      constructor
      · intro hsame
        by_contra hnot
        rcases h.lost hnot with ⟨turn, hturns⟩ | hqueued
        · have hlength := congrArg List.length hsame.turns
          have hrows := restoreRows_length original w
          rw [hturns, List.length_append] at hrows
          have hcleared : (rewrite l message cut original).turns.length =
              original.turns.length := List.length_map _
          have hsaves : ((restoreRows original w).saveThread e.now original.record).turns =
              (restoreRows original w).turns := rfl
          rw [hsaves, hrows, hcleared, List.length_singleton] at hlength
          omega
        · exact hqueued (hsame.queue.trans hqueue)
      · intro hnothing
        rcases h.kept hnothing with ⟨hturns, hkept⟩
        exact
          { events := rfl
            turns := restoreRows_turns l message cut hunique hturns
            record := rfl
            queue := hkept.trans hqueue.symm }

section Result

variable {l : Libraries} {e : EditAnswers} {start : Restarts} {eventId message : String}
  {clientMessageId : Option String} {w : Conversation}

theorem same_iff_of_refused (h : ¬ e.Restarts l eventId message w) {nothing : Prop} :
    SameConversation w w <-> (e.Restarts l eventId message w -> nothing) :=
  ⟨fun _ hrestarts => absurd hrestarts h, fun _ => SameConversation.refl w⟩

theorem editThreadMessage_failed (hunique : Table.UniqueKey TurnRow.id w.turns)
    (hrestored : e.restored = .ok ()) (hsaved : e.saved = .ok ()) :
    FailsWith (editThreadMessage l e start eventId message clientMessageId) w (fun w' =>
      SameConversation w w' <->
        (e.Restarts l eventId message w -> start.LeavesNothing)) := by
  refine failsWith_answer ?_ (fun _ hchecked => ?_)
  · intro error he
    apply same_iff_of_refused
    simp [EditAnswers.Restarts, he]
  · refine failsWith_get ?_
    refine failsWith_answer ?_ (fun busy hbusy => ?_)
    · intro error he
      apply same_iff_of_refused
      simp [EditAnswers.Restarts, he]
    · cases busy with
      | true =>
          apply failsWith_throw
          apply same_iff_of_refused
          simp [EditAnswers.Restarts, hbusy]
      | false =>
          refine failsWith_answer ?_ (fun _ hlisted => ?_)
          · intro error he
            apply same_iff_of_refused
            simp [EditAnswers.Restarts, he]
          · cases hedited : w.events.find? (fun x => x.id == eventId && x.role == "user") with
            | none =>
                apply failsWith_throw
                apply same_iff_of_refused
                simp only [EditAnswers.Restarts, hedited]
                simp
            | some edited =>
                refine failsWith_answer ?_ (fun found hfound => ?_)
                · intro error he
                  apply same_iff_of_refused
                  simp [EditAnswers.Restarts, he]
                · cases found with
                  | false =>
                      apply failsWith_throw
                      apply same_iff_of_refused
                      simp [EditAnswers.Restarts, hfound]
                  | true =>
                      refine failsWith_answer ?_ (fun _ hturnsListed => ?_)
                      · intro error he
                        apply same_iff_of_refused
                        simp [EditAnswers.Restarts, he]
                      · refine failsWith_answer ?_ (fun _ hrewritten => ?_)
                        · intro error he
                          apply same_iff_of_refused
                          simp [EditAnswers.Restarts, he]
                        · have hrestarts : e.Restarts l eventId message w := by
                            refine ⟨hchecked, hbusy, hlisted, ?_, hfound, hturnsListed, hrewritten⟩
                            rw [hedited]
                            rfl
                          have hqueue : w.queue = [] := queue_of_not_busy hbusy
                          rw [imp_iff_right hrestarts]
                          refine failsWith_modify ?_
                          refine failsWith_tryCatch (fun error w2 hrun => ?_)
                          have hblank := not_blank_of_checked hchecked clientMessageId
                          have hrewrote : (rewrite l message
                              (w.events.findIdx (fun x => x.turnId == edited.turnId)) w).queue =
                                [] := hqueue
                          have hleft := restarts_failed start hrewrote hblank error w2 hrun
                          exact rollBack_failed l message _ hunique hqueue hrestored hsaved
                            hleft error

/-- An edit that fails restores the conversation exactly if it did not get as far as
starting the thread again, or that start has left nothing: no turn, and no message on the
queue. -/
theorem edit_restores_iff (hunique : Table.UniqueKey TurnRow.id w.turns)
    (hrestored : e.restored = Except.ok ()) (hsaved : e.saved = Except.ok ())
    {error : CoreError} {w' : Conversation}
    (hrun : (editThreadMessage l e start eventId message clientMessageId).run w =
      EStateM.Result.error error w') :
    SameConversation w w' <->
      (e.Restarts l eventId message w -> start.LeavesNothing) :=
  editThreadMessage_failed hunique hrestored hsaved error w' hrun

end Result

def answeredEdit : EditAnswers :=
  { active := false
    cloudActive := .ok false
    queueListed := .ok ()
    assigned := .ok false
    eventsListed := .ok ()
    threadFound := .ok true
    turnsListed := .ok ()
    rewritten := .ok ()
    restored := .ok ()
    saved := .ok ()
    now := 9 }

def restartWith (answers : ThreadAnswers) : Restarts :=
  .stays
    { answers := answers
      policyModel := none
      permission := "workspace_write"
      providerAccountId := none
      priorFound := false
      resetAt := none
      services := Fallback.codexReady
      eventId := "m2"
      now := 8 }
    Starts.readyFallback none

def oneQuestion : Conversation :=
  { events :=
      [{ id := "m1"
         turnId := "u1"
         role := "user"
         kind := "user_message"
         text := some "Why"
         data := .null
         clientMessageId := none
         ts := 1 }]
    turns := [{ id := "u1", state := .completed, agentSessionId := some "s1" }]
    record :=
      { settings := Fallback.opusThread
        preferredAgent := none
        providerAccountId := none
        permission := "ask"
        objective := "Why"
        progress := ""
        decisions := "d"
        openQuestions := ""
        nextActions := ""
        updatedAt := 2 }
    queue := [] }

def editWith (answers : ThreadAnswers) : EStateM.Result CoreError Conversation String :=
  (editThreadMessage Attachments.notesLibraries answeredEdit (restartWith answers) "m1" "How"
    none).run oneQuestion

theorem restartWith_noAdapter :
    (restartWith { Starts.readyThread with hasAdapter := false }).LeavesNothing := by
  let answers : ThreadAnswers := { Starts.readyThread with hasAdapter := false }
  have htarget : answers.target = .error (Starts.noAdapterError .codex) := rfl
  have hrefused : forall target, answers.target ≠ .ok target := by
    intro target heq
    rw [htarget] at heq
    cases heq
  refine ⟨?_, ?_, ?_⟩
  · rintro ⟨⟨_, target, _, heq, _⟩, _⟩
    exact hrefused target heq
  · rintro (⟨hadmission, _⟩ | ⟨⟨_, target, _, heq, _⟩, _⟩)
    · cases hadmission
    · exact hrefused target heq
  · rintro ⟨⟨_, _, target, heq, _⟩, _⟩
    exact hrefused target heq

theorem edit_restores_iff_noAdapter :
    exists w', editWith { Starts.readyThread with hasAdapter := false } =
        EStateM.Result.error (Starts.noAdapterError AgentKind.codex) w' ∧
      SameConversation oneQuestion w' := by
  refine ⟨_, rfl, ?_⟩
  have hiff := @edit_restores_iff Attachments.notesLibraries answeredEdit
    (restartWith { Starts.readyThread with hasAdapter := false }) "m1" "How" none oneQuestion
    (List.nodup_singleton _) rfl rfl (Starts.noAdapterError AgentKind.codex) _ rfl
  exact hiff.mpr (fun _ => restartWith_noAdapter)

/-- The process of the agent cannot be started: the turn of the failed start stays, and
stays running. -/
theorem failed_edit_leaves_turn :
    exists w', editWith
          { Starts.readyThread with
            adapterStart := Except.error (CoreError.other "spawn failed") } =
        EStateM.Result.error (CoreError.other "spawn failed") w' ∧
      w'.turns =
        oneQuestion.turns ++
          [{ id := "turn1"
             state := SessionState.running
             agentSessionId := none }] ∧
      ¬ SameConversation oneQuestion w' := by
  refine ⟨_, rfl, rfl, ?_⟩
  intro hsame
  cases hsame.turns

end Thread
end Perpetual
